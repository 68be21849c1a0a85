import SlimxAgent.Engine

/-!
# Footprints

Which operations each part of the engine asks for.  Apart from the handler call
in `runStep`, no engine code looks at an exception, so every part below ends with
the first one it is told; a property that its operations keep is kept by the part
(`wp_propagates`).
-/

namespace SlimxAgent

open Interaction Program

variable {ι : Type} {allowed : EngineOp ι → Prop}

theorem setStepState_propagates {stepId : ι} {status : StepStatus}
    {error : Given (Option String)} {outputRefs : Given (Option Dict)}
    (write : allowed (.setStepState stepId status error outputRefs)) :
    (setStepState stepId status error outputRefs).Propagates allowed :=
  Propagates.perform write

theorem appendEvent_propagates {runId : ι} {type : EventType} {stepId : Option ι}
    {payload : Option Dict} {commit : Bool}
    (append : allowed (.appendEvent runId type stepId payload commit)) :
    (appendEvent runId type stepId payload commit).Propagates allowed :=
  Propagates.perform append

theorem setRunStatus_propagates {run : RunView ι} {status : RunStatus}
    (write : allowed (.setRunStatus run status)) :
    (setRunStatus run status).Propagates allowed :=
  Propagates.perform write

theorem getRun_propagates {runId : ι} (read : allowed (.getRun runId)) :
    (getRun runId).Propagates allowed :=
  Propagates.perform read

theorem getSteps_propagates {runId : ι} (read : allowed (.getSteps runId)) :
    (getSteps runId).Propagates allowed :=
  Propagates.perform read

theorem nextSequence_propagates {runId : ι} (read : allowed (.nextSequence runId)) :
    (nextSequence runId).Propagates allowed :=
  Propagates.perform read

theorem currentType_propagates {step : StepView ι} (read : allowed (.currentType step)) :
    (currentType step).Propagates allowed :=
  Propagates.perform read

theorem currentTitle_propagates {step : StepView ι} (read : allowed (.currentTitle step)) :
    (currentTitle step).Propagates allowed :=
  Propagates.perform read

theorem currentStatus_propagates {step : StepView ι} (read : allowed (.currentStatus step)) :
    (currentStatus step).Propagates allowed :=
  Propagates.perform read

theorem now_propagates (clock : allowed .now) : (now : Engine ι ℚ).Propagates allowed :=
  Propagates.perform clock

/-! ## The live stream -/

/-- The operations of a drain. -/
structure AllowsDrain (allowed : EngineOp ι → Prop) (runId : ι) : Prop where
  read : ∀ after, allowed (.drainedEvents runId after)
  yields : ∀ payload, allowed (.yieldEvent payload)

/-- The operation belongs to a drain of the run. -/
def EngineOp.Streams (runId : ι) : EngineOp ι → Prop
  | .drainedEvents id _ => id = runId
  | .yieldEvent _ => True
  | _ => False

theorem streams_drain (runId : ι) : AllowsDrain (EngineOp.Streams runId) runId :=
  ⟨fun _ => rfl, fun _ => trivial⟩

theorem yieldAll_propagates (yields : ∀ payload, allowed (.yieldEvent payload))
    (payloads : List Event) (cursor : Int) : (yieldAll payloads cursor).Propagates allowed := by
  induction payloads generalizing cursor with
  | nil => trivial
  | cons payload payloads ih =>
      apply Propagates.bind
      · exact Propagates.perform (yields payload)
      · intro _
        exact ih payload.sequence

theorem drain_propagates {runId : ι} (drains : AllowsDrain allowed runId) (cursor : Int) :
    (drain runId cursor).Propagates allowed := by
  apply Propagates.bind
  · exact Propagates.perform (drains.read cursor)
  · intro payloads
    exact yieldAll_propagates drains.yields payloads cursor

theorem drainAndReturn_propagates {run : RunView ι} (drains : AllowsDrain allowed run.id)
    (cursor : Int) : (drainAndReturn run cursor).Propagates allowed := by
  apply Propagates.bind
  · exact drain_propagates drains cursor
  · intro _
    trivial

theorem drainAndContinue_propagates {run : RunView ι} (drains : AllowsDrain allowed run.id)
    (cursor : Int) : (drainAndContinue run cursor).Propagates allowed := by
  apply Propagates.bind
  · exact drain_propagates drains cursor
  · intro _
    trivial

/-! ## Step outcomes -/

/-- A write of one step's status, and the event that records it. -/
structure AllowsTransition (allowed : EngineOp ι → Prop) (runId stepId : ι)
    (status : StepStatus) (type : EventType) : Prop where
  write : ∀ error outputRefs, allowed (.setStepState stepId status error outputRefs)
  event : ∀ payload, allowed (.appendEvent runId type (some stepId) payload true)

theorem transition_propagates {α : Type} {runId stepId : ι} {status : StepStatus}
    {type : EventType} (transition : AllowsTransition allowed runId stepId status type)
    {error : Given (Option String)} {outputRefs : Given (Option Dict)}
    {payload : StepView ι → Option Dict} {result : StepView ι → α} :
    Propagates allowed (do
      let step ← setStepState stepId status error outputRefs
      appendEvent runId type (some stepId) (payload step) true
      return result step : Engine ι α) := by
  apply Propagates.bind
  · exact setStepState_propagates (transition.write error outputRefs)
  · intro step
    apply Propagates.bind
    · exact appendEvent_propagates (transition.event (payload step))
    · intro _
      trivial

theorem failStep_propagates {run : RunView ι} {stepId : ι}
    (fails : AllowsTransition allowed run.id stepId .failed .stepFailed)
    (stepType message : String) : (failStep run stepId stepType message).Propagates allowed :=
  transition_propagates fails

theorem skipStep_propagates {run : RunView ι} {stepId : ι}
    (skips : AllowsTransition allowed run.id stepId .skipped .stepSkipped)
    (stepType reason : String) : (skipStep run stepId stepType reason).Propagates allowed :=
  transition_propagates skips

theorem completeStep_propagates {run : RunView ι} {stepId : ι}
    (completes : AllowsTransition allowed run.id stepId .completed .stepCompleted)
    (outputRefs : Option Dict) : (completeStep run stepId outputRefs).Propagates allowed :=
  transition_propagates completes

/-- Everything that can follow a handler's end within `runStep`. -/
structure AllowsSettling (allowed : EngineOp ι → Prop) (runId stepId : ι) : Prop where
  completes : AllowsTransition allowed runId stepId .completed .stepCompleted
  fails : AllowsTransition allowed runId stepId .failed .stepFailed
  skips : AllowsTransition allowed runId stepId .skipped .stepSkipped
  rereads : allowed (.getStep stepId)
  rollsBack : allowed .rollback
  readsType : ∀ step, allowed (.currentType step)

theorem settleRaised_propagates [HostId ι] {run : RunView ι} {step : StepView ι}
    (settling : AllowsSettling allowed run.id step.id) (error : Raised ι) :
    (settleRaised run step error).Propagates allowed := by
  have failing : ∀ message, Propagates allowed (do
      let stepType ← currentType step
      failStep run step.id stepType message : Engine ι (StepView ι)) := by
    intro message
    apply Propagates.bind
    · exact Propagates.perform (settling.readsType step)
    · intro stepType
      exact failStep_propagates settling.fails stepType message
  have bug : ∀ message, Propagates allowed (do
      rollback
      let stepType ← currentType step
      failStep run step.id stepType message : Engine ι (StepView ι)) := by
    intro message
    apply Propagates.bind
    · exact Propagates.perform settling.rollsBack
    · intro _
      exact failing message
  cases error with
  | stepActionPrepared message =>
      apply Propagates.bind
      · exact Propagates.perform settling.rereads
      · intro fresh
        trivial
  | stepOutcomeUnknown message cause => trivial
  | stepNotApplicable message =>
      apply Propagates.bind
      · exact Propagates.perform (settling.readsType step)
      · intro stepType
        exact skipStep_propagates settling.skips stepType message
  | stepExecutionError message => exact failing message
  | baseException typeName => trivial
  | unknownStepStatus stepId status => exact bug _
  | runningStepNotPermitted stepId reason => exact bug _
  | hostError error => exact bug _
  | transport typeName message => exact bug _
  | exception typeName message => exact bug _

theorem settleStep_propagates [HostId ι] {run : RunView ι} {step : StepView ι}
    (settling : AllowsSettling allowed run.id step.id)
    (outcome : Except (Raised ι) (Option Dict)) :
    (settleStep run step outcome).Propagates allowed := by
  cases outcome with
  | ok outputRefs => exact completeStep_propagates settling.completes outputRefs
  | error error => exact settleRaised_propagates settling error

/-! ## Ending a run -/

/-- The report of a failed run: the event, the status, then the hook. -/
structure AllowsFailing (allowed : EngineOp ι → Prop) (run : RunView ι) : Prop where
  event : ∀ stepId, allowed (.appendEvent run.id .runFailed (some stepId) none false)
  status : allowed (.setRunStatus run .failed)
  hook : allowed (.onRunEnd run .failed)

theorem notifyRunEnd_propagates {run : RunView ι} {status : RunStatus}
    (hook : allowed (.onRunEnd run status)) (hooked : Bool) :
    (notifyRunEnd hooked run status).Propagates allowed := by
  rw [notifyRunEnd]
  split
  · exact Propagates.perform hook
  · trivial

theorem failRun_propagates {run : RunView ι} (failing : AllowsFailing allowed run)
    (hooked : Bool) (stepId : ι) : (failRun hooked run stepId).Propagates allowed := by
  apply Propagates.bind
  · exact appendEvent_propagates (failing.event stepId)
  · intro _
    apply Propagates.bind
    · exact setRunStatus_propagates failing.status
    · intro _
      exact notifyRunEnd_propagates failing.hook hooked

theorem runFailureReported_propagates [HostId ι] {runId : ι}
    (read : allowed (.drainedEvents runId 0)) (stepId : ι) :
    (runFailureReported runId stepId).Propagates allowed := by
  apply Propagates.bind
  · exact Propagates.perform read
  · intro _
    trivial

theorem foundFailed_propagates [HostId ι] {run : RunView ι} (failing : AllowsFailing allowed run)
    (drains : AllowsDrain allowed run.id) (hooked : Bool) (stepId : ι) (cursor : Int) :
    (foundFailed run hooked stepId cursor).Propagates allowed := by
  apply Propagates.bind
  · exact runFailureReported_propagates (drains.read 0) stepId
  · intro reported
    cases reported with
    | true =>
        apply Propagates.bind
        · exact setRunStatus_propagates failing.status
        · intro _
          exact drainAndReturn_propagates drains cursor
    | false =>
        apply Propagates.bind
        · exact failRun_propagates failing hooked stepId
        · intro _
          exact drainAndReturn_propagates drains cursor

/-! ## Gates -/

theorem budgetExhaustedReason_propagates (clock : allowed .now) (run : RunView ι)
    (steps : List (StepView ι)) (driveStarted : ℚ) :
    (budgetExhaustedReason run steps driveStarted).Propagates allowed := by
  rw [budgetExhaustedReason]
  split
  · trivial
  · split
    · trivial
    · apply Propagates.bind
      · exact Propagates.perform clock
      · intro time
        dsimp only
        split <;> trivial

/-- A budget pause. -/
structure AllowsPausing (allowed : EngineOp ι → Prop) (run : RunView ι) : Prop where
  exhausted : ∀ payload, allowed (.appendEvent run.id .budgetExhausted none payload true)
  status : allowed (.setRunStatus run .paused)
  paused : ∀ payload, allowed (.appendEvent run.id .runPaused none payload true)

theorem pauseForBudget_propagates {run : RunView ι} (pausing : AllowsPausing allowed run)
    (drains : AllowsDrain allowed run.id) (reason : String) (cursor : Int) :
    (pauseForBudget run reason cursor).Propagates allowed := by
  apply Propagates.bind
  · exact appendEvent_propagates (pausing.exhausted _)
  · intro _
    apply Propagates.bind
    · exact setRunStatus_propagates pausing.status
    · intro _
      apply Propagates.bind
      · exact appendEvent_propagates (pausing.paused _)
      · intro _
        exact drainAndReturn_propagates drains cursor

/-- Parking a step at the human gate. -/
structure AllowsParking (allowed : EngineOp ι → Prop) (runId stepId : ι) : Prop extends
    AllowsTransition allowed runId stepId .awaitingApproval .approvalRequired where
  readsTitle : ∀ step, allowed (.currentTitle step)

theorem gateForApproval_propagates {run : RunView ι} {step : StepView ι}
    (parks : AllowsParking allowed run.id step.id)
    (reason : String) : (gateForApproval run step reason).Propagates allowed := by
  apply Propagates.bind
  · exact setStepState_propagates (parks.write .unset .unset)
  · intro _
    apply Propagates.bind
    · exact currentTitle_propagates (parks.readsTitle step)
    · intro _
      exact appendEvent_propagates (parks.event _)

theorem parkPending_propagates {run : RunView ι} {step : StepView ι}
    (parks : AllowsParking allowed run.id step.id)
    (reason : String) : (parkPending run step reason).Propagates allowed := by
  rw [parkPending]
  split
  · exact gateForApproval_propagates parks reason
  · trivial

theorem stopAtGate_propagates {run : RunView ι} {step : StepView ι}
    (parks : AllowsParking allowed run.id step.id)
    (status : allowed (.setRunStatus run .awaitingApproval))
    (drains : AllowsDrain allowed run.id) (reason : String) (cursor : Int) :
    (stopAtGate run step reason cursor).Propagates allowed := by
  apply Propagates.bind
  · exact parkPending_propagates parks reason
  · intro _
    apply Propagates.bind
    · exact setRunStatus_propagates status
    · intro _
      exact drainAndReturn_propagates drains cursor

theorem recordApproval_propagates {run : RunView ι} {step : StepView ι}
    (clears : AllowsTransition allowed run.id step.id .approved .approvalGranted)
    (policy : Option ApprovalPolicy) (decision : GateDecision) (preapprovedTools : List String) :
    (recordApproval run policy step decision preapprovedTools).Propagates allowed := by
  rw [recordApproval]
  split
  · apply Propagates.bind
    · exact setStepState_propagates (clears.write .unset .unset)
    · intro _
      exact appendEvent_propagates (clears.event _)
  · trivial

/-- A completed run: the status, the event, then the hook. -/
structure AllowsCompleting (allowed : EngineOp ι → Prop) (run : RunView ι) : Prop where
  status : allowed (.setRunStatus run .completed)
  event : allowed (.appendEvent run.id .runCompleted none none true)
  hook : allowed (.onRunEnd run .completed)

theorem completeRun_propagates {run : RunView ι} (rereads : allowed (.getRun run.id))
    (completing : AllowsCompleting allowed run) (drains : AllowsDrain allowed run.id)
    (hooked : Bool) (cursor : Int) : (completeRun run hooked cursor).Propagates allowed := by
  have drained : Propagates allowed (do
      let _ ← drain run.id cursor
      return () : Engine ι Unit) := by
    apply Propagates.bind
    · exact drain_propagates drains cursor
    · intro _
      trivial
  apply Propagates.bind
  · exact Propagates.perform rereads
  · intro final
    cases userStopped final with
    | true => exact drained
    | false =>
        apply Propagates.bind
        · exact setRunStatus_propagates completing.status
        · intro _
          apply Propagates.bind
          · exact appendEvent_propagates completing.event
          · intro _
            apply Propagates.bind
            · exact notifyRunEnd_propagates completing.hook hooked
            · intro _
              exact drained

end SlimxAgent
