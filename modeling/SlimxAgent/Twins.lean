import SlimxAgent.Outline
import SlimxAgent.Interaction.Lockstep

/-!
# Drives in lockstep

The engine's program text, walked once for two drives that may hand over different runs
and read different ones.  As long as the gates make the same of what the drives read,
both make the same calls.
-/

namespace SlimxAgent

open Interaction

variable {ι : Type}

namespace RunView

/-- No gate of the engine tells the runs apart. -/
structure Unnoticed (run other : RunView ι) : Prop where
  id : other.id = run.id
  policy : other.approvalPolicy = run.approvalPolicy
  maxSteps : other.budgetMaxSteps = run.budgetMaxSteps
  maxWall : other.budgetMaxWallSeconds = run.budgetMaxWallSeconds
  permits : ∀ step : StepView ι, permissionBlockReason step other = permissionBlockReason step run
  gate : ∀ step, gateDecision other step = gateDecision run step
  records : ∀ step, (gateDecision run step).stop = false →
    preapprovedGate step (gateDecision run step) (normalizePreapproved other.preapprovedTools) =
      preapprovedGate step (gateDecision run step) (normalizePreapproved run.preapprovedTools)

end RunView

/-- The operation hands no run over and reads none. -/
def EngineOp.RunFree : EngineOp ι → Prop
  | .getRun _ => False
  | .setRunStatus _ _ => False
  | .handle _ _ => False
  | .onRunEnd _ _ => False
  | _ => True

/-- Calls of two drives correspond when they differ in the runs they hand over only.
Results correspond when they are equal; of the run as read, as given. -/
inductive RunTwins (handed : RunView ι → RunView ι → Prop)
    (reads : Option (RunView ι) → Option (RunView ι) → Prop) : Pairing (engineSignature ι) where
  | same {op : EngineOp ι} : op.RunFree → RunTwins handed reads op op Eq
  | getRun (runId : ι) : RunTwins handed reads (.getRun runId) (.getRun runId) reads
  | setRunStatus {run other : RunView ι} (status : RunStatus) : handed run other →
      RunTwins handed reads (.setRunStatus run status) (.setRunStatus other status) handed
  | handle {run other : RunView ι} (step : StepView ι) : handed run other →
      RunTwins handed reads (.handle run step) (.handle other step) Eq
  | onRunEnd {run other : RunView ι} (status : RunStatus) : handed run other →
      RunTwins handed reads (.onRunEnd run status) (.onRunEnd other status) Eq

/-- What a pass makes of the run as read is the same in two drives. -/
structure SameReading (run other : RunView ι) (driveStarted otherStarted : ℚ)
    (current otherCurrent : Option (RunView ι)) : Prop where
  stops : userStopped otherCurrent = userStopped current
  gates : (current.getD run).Unnoticed (otherCurrent.getD other)
  budget : ∀ steps, budgetExhaustedReason (otherCurrent.getD other) steps otherStarted =
    budgetExhaustedReason (current.getD run) steps driveStarted

section Engine

variable {handed : RunView ι → RunView ι → Prop}
  {reads : Option (RunView ι) → Option (RunView ι) → Prop} {run other fresh otherFresh : RunView ι}

theorem free_drain (runId : ι) : AllowsDrain (EngineOp.RunFree (ι := ι)) runId :=
  ⟨fun _ => trivial, fun _ => trivial⟩

theorem free_transition (runId stepId : ι) (status : StepStatus) (type : EventType) :
    AllowsTransition (EngineOp.RunFree (ι := ι)) runId stepId status type :=
  ⟨fun _ _ => trivial, fun _ => trivial⟩

/-- Code that hands no run over goes in lockstep with itself. -/
theorem lockstep_free {α : Type} {program : Engine ι α}
    (free : program.Propagates EngineOp.RunFree) :
    Lockstep (RunTwins handed reads) Eq program program :=
  .same free fun _ => .same

theorem lockstep_perform {op otherOp : EngineOp ι} {results : op.Res → otherOp.Res → Prop}
    (paired : RunTwins handed reads op otherOp results) :
    Lockstep (RunTwins handed reads) results (@Program.perform (engineSignature ι) (Raised ι) op)
      (@Program.perform (engineSignature ι) (Raised ι) otherOp) :=
  @Lockstep.perform (engineSignature ι) (Raised ι) (RunTwins handed reads) op otherOp results paired

theorem lockstep_drainAndReturn (id : other.id = run.id) (cursor : Int) :
    Lockstep (RunTwins handed reads) Eq (drainAndReturn run cursor)
      (drainAndReturn other cursor) := by
  have same : drainAndReturn other cursor = drainAndReturn run cursor := by
    rw [drainAndReturn, id, drainAndReturn]
  rw [same]
  exact lockstep_free (drainAndReturn_propagates (free_drain run.id) cursor)

theorem lockstep_setRunStatus (related : handed run other) (status : RunStatus) :
    Lockstep (RunTwins handed reads) handed (setRunStatus run status) (setRunStatus other status) :=
  lockstep_perform (.setRunStatus status related)

theorem lockstep_notifyRunEnd (related : handed run other) (hooked : Bool) (status : RunStatus) :
    Lockstep (RunTwins handed reads) Eq (notifyRunEnd hooked run status)
      (notifyRunEnd hooked other status) := by
  cases hooked with
  | true => exact lockstep_perform (.onRunEnd status related)
  | false => exact .done rfl

theorem lockstep_failRun (id : other.id = run.id) (related : handed run other) (hooked : Bool)
    (stepId : ι) :
    Lockstep (RunTwins handed reads) Eq (failRun hooked run stepId)
      (failRun hooked other stepId) := by
  rw [failRun, failRun, id]
  apply Lockstep.seq (lockstep_free (appendEvent_propagates trivial))
  intro _ _ _
  apply (lockstep_setRunStatus related .failed).seq
  intro _ _ _
  exact lockstep_notifyRunEnd related hooked .failed

theorem lockstep_foundFailed [HostId ι] (id : other.id = run.id) (related : handed run other)
    (hooked : Bool) (stepId : ι) (cursor : Int) :
    Lockstep (RunTwins handed reads) Eq (foundFailed run hooked stepId cursor)
      (foundFailed other hooked stepId cursor) := by
  rw [foundFailed, foundFailed, id]
  apply Lockstep.seq (lockstep_free (runFailureReported_propagates trivial stepId))
  rintro reported _ rfl
  cases reported with
  | true =>
      apply (lockstep_setRunStatus related .failed).seq
      intro _ _ _
      exact lockstep_drainAndReturn id cursor
  | false =>
      apply (lockstep_failRun id related hooked stepId).seq
      intro _ _ _
      exact lockstep_drainAndReturn id cursor

theorem lockstep_settleStep [HostId ι] (id : other.id = run.id) (step : StepView ι)
    (outcome : Except (Raised ι) (Option Dict)) :
    Lockstep (RunTwins handed reads) Eq (settleStep run step outcome)
      (settleStep other step outcome) := by
  have settling : AllowsSettling EngineOp.RunFree run.id step.id :=
    ⟨free_transition .., free_transition .., free_transition .., trivial, trivial, fun _ => trivial⟩
  have same : settleStep other step outcome = settleStep run step outcome := by
    cases outcome with
    | ok outputRefs => simp only [settleStep, completeStep, id]
    | error error => cases error <;> simp only [settleStep, settleRaised, skipStep, failStep, id]
  rw [same]
  exact lockstep_free (settleStep_propagates settling outcome)

theorem lockstep_runStep [HostId ι] (id : other.id = run.id) (related : handed run other)
    (registry : ToolRegistry) (step : StepView ι) :
    Lockstep (RunTwins handed reads) Eq (runStep registry run step)
      (runStep registry other step) := by
  have failed (stepType message : String) :
      failStep other step.id stepType message = failStep run step.id stepType message := by
    rw [failStep, id, failStep]
  rw [runStep, runStep, id]
  apply Lockstep.seq (lockstep_free (setStepState_propagates trivial))
  intro _ _ _
  apply Lockstep.seq (lockstep_free (currentType_propagates trivial))
  rintro startedType _ rfl
  apply Lockstep.seq (lockstep_free (appendEvent_propagates trivial))
  intro _ _ _
  apply Lockstep.seq (lockstep_free (currentType_propagates trivial))
  rintro stepType _ rfl
  cases registry.resolve stepType with
  | false =>
      dsimp only
      rw [failed]
      exact lockstep_free (failStep_propagates (free_transition ..) _ _)
  | true =>
      have handled : Lockstep (RunTwins handed reads) Eq
          (handle run { step with type := stepType })
          (handle other { step with type := stepType }) :=
        lockstep_perform (.handle _ related)
      apply handled.attempt.seq
      intro outcome _ alike
      cases alike.equal
      exact lockstep_settleStep id step outcome

theorem lockstep_drain (id : other.id = run.id) (cursor : Int) :
    Lockstep (RunTwins handed reads) Eq (drain run.id cursor) (drain other.id cursor) := by
  rw [id]
  exact lockstep_free (drain_propagates (free_drain run.id) cursor)

theorem lockstep_dispatchStep [HostId ι] (id : other.id = run.id) (related : handed run other)
    (registry : ToolRegistry) (hooked : Bool) (step : StepView ι) (cursor : Int) :
    Lockstep (RunTwins handed reads) Eq (dispatchStep registry run hooked step cursor)
      (dispatchStep registry other hooked step cursor) := by
  apply (lockstep_runStep id related registry step).seq
  rintro ran _ rfl
  apply (lockstep_drain id cursor).seq
  rintro cursor _ rfl
  apply Lockstep.seq (lockstep_free (currentStatus_propagates trivial))
  rintro status _ rfl
  split
  · exact .done rfl
  · split
    · apply (lockstep_failRun id related hooked ran.id).seq
      intro _ _ _
      exact lockstep_drainAndReturn id cursor
    · exact .done rfl

theorem lockstep_stopAtGate (id : other.id = run.id) (related : handed run other)
    (step : StepView ι) (reason : String) (cursor : Int) :
    Lockstep (RunTwins handed reads) Eq (stopAtGate run step reason cursor)
      (stopAtGate other step reason cursor) := by
  have same : parkPending other step reason = parkPending run step reason := by
    simp only [parkPending, gateForApproval, id]
  have parked : Lockstep (RunTwins handed reads) Eq (parkPending run step reason)
      (parkPending other step reason) := by
    rw [same]
    exact lockstep_free
      (parkPending_propagates ⟨free_transition .., fun _ => trivial⟩ reason)
  apply parked.seq
  intro _ _ _
  apply (lockstep_setRunStatus related .awaitingApproval).seq
  intro _ _ _
  exact lockstep_drainAndReturn id cursor

/-- The approval gate, for runs as read that it does not tell apart. -/
theorem lockstep_approvalGate [HostId ι] (id : other.id = run.id) (related : handed run other)
    (unnoticed : fresh.Unnoticed otherFresh) (registry : ToolRegistry) (hooked : Bool)
    (step : StepView ι) (cursor : Int) :
    Lockstep (RunTwins handed reads) Eq (approvalGate registry run hooked fresh step cursor)
      (approvalGate registry other hooked otherFresh step cursor) := by
  have dispatches : Lockstep (RunTwins handed reads) Eq
      (dispatchStep registry run hooked step cursor)
      (dispatchStep registry other hooked step cursor) :=
    lockstep_dispatchStep id related registry hooked step cursor
  have gate := unnoticed.gate step
  simp only [gateDecision] at gate
  simp only [approvalGate, gate]
  split
  · cases stops : (resolveGate step fresh.approvalPolicy fresh.autoApprove
      (.set ((normalizePreapproved fresh.preapprovedTools).map .str))).stop with
    | true => exact lockstep_stopAtGate id related step _ cursor
    | false =>
        have records := unnoticed.records step stops
        simp only [gateDecision] at records
        have same : recordApproval other otherFresh.approvalPolicy step
            (resolveGate step fresh.approvalPolicy fresh.autoApprove
              (.set ((normalizePreapproved fresh.preapprovedTools).map .str)))
            (normalizePreapproved otherFresh.preapprovedTools) =
          recordApproval run fresh.approvalPolicy step
            (resolveGate step fresh.approvalPolicy fresh.autoApprove
              (.set ((normalizePreapproved fresh.preapprovedTools).map .str)))
            (normalizePreapproved fresh.preapprovedTools) := by
          simp only [recordApproval, records, unnoticed.policy, id]
        dsimp only
        rw [same]
        apply Lockstep.seq (lockstep_free (recordApproval_propagates (free_transition ..) _ _ _))
        intro _ _ _
        exact dispatches
  · exact dispatches

theorem lockstep_pauseForBudget (id : other.id = run.id) (related : handed run other)
    (reason : String) (cursor : Int) :
    Lockstep (RunTwins handed reads) Eq (pauseForBudget run reason cursor)
      (pauseForBudget other reason cursor) := by
  rw [pauseForBudget, pauseForBudget, id]
  apply Lockstep.seq (lockstep_free (appendEvent_propagates trivial))
  intro _ _ _
  apply (lockstep_setRunStatus related .paused).seq
  intro _ _ _
  apply Lockstep.seq (lockstep_free (appendEvent_propagates trivial))
  intro _ _ _
  exact lockstep_drainAndReturn id cursor

theorem lockstep_budgetGate [HostId ι] (id : other.id = run.id) (related : handed run other)
    (unnoticed : fresh.Unnoticed otherFresh) (registry : ToolRegistry) (hooked : Bool)
    {driveStarted otherStarted : ℚ} {steps : List (StepView ι)}
    (budget : budgetExhaustedReason otherFresh steps otherStarted =
      budgetExhaustedReason fresh steps driveStarted) (step : StepView ι) (cursor : Int) :
    Lockstep (RunTwins handed reads) Eq
      (budgetGate registry run hooked driveStarted fresh steps step cursor)
      (budgetGate registry other hooked otherStarted otherFresh steps step cursor) := by
  rw [budgetGate, budgetGate, budget]
  apply Lockstep.seq (lockstep_free (budgetExhaustedReason_propagates trivial fresh steps _))
  rintro reason _ rfl
  cases reason with
  | some reason => exact lockstep_pauseForBudget id related reason cursor
  | none => exact lockstep_approvalGate id related unnoticed registry hooked step cursor

theorem lockstep_visitStep [HostId ι] (id : other.id = run.id) (related : handed run other)
    (unnoticed : fresh.Unnoticed otherFresh) (registry : ToolRegistry) (hooked : Bool)
    {driveStarted otherStarted : ℚ} {steps : List (StepView ι)}
    (budget : budgetExhaustedReason otherFresh steps otherStarted =
      budgetExhaustedReason fresh steps driveStarted) (step : StepView ι) (cursor : Int) :
    Lockstep (RunTwins handed reads) Eq
      (visitStep registry run hooked driveStarted fresh steps step cursor)
      (visitStep registry other hooked otherStarted otherFresh steps step cursor) := by
  have gates : Lockstep (RunTwins handed reads) Eq
      (budgetGate registry run hooked driveStarted fresh steps step cursor)
      (budgetGate registry other hooked otherStarted otherFresh steps step cursor) :=
    lockstep_budgetGate id related unnoticed registry hooked budget step cursor
  have skips (reason : String) : Lockstep (RunTwins handed reads) Eq
      (do let _ ← skipStep run step.id step.type reason
          drainAndContinue run cursor)
      (do let _ ← skipStep other step.id step.type reason
          drainAndContinue other cursor) := by
    have same : skipStep other step.id step.type reason =
        skipStep run step.id step.type reason := by
      rw [skipStep, id, skipStep]
    have continues : drainAndContinue other cursor = drainAndContinue run cursor := by
      rw [drainAndContinue, id, drainAndContinue]
    rw [same, continues]
    apply Lockstep.seq (lockstep_free (skipStep_propagates (free_transition ..) _ _))
    intro _ _ _
    exact lockstep_free (drainAndContinue_propagates (free_drain run.id) cursor)
  simp only [visitStep, unnoticed.permits]
  cases step.status with
  | other text unlisted => exact .raise _
  | failed => exact lockstep_foundFailed id related hooked step.id cursor
  | running =>
      cases permissionBlockReason step fresh with
      | some reason => exact .raise _
      | none => exact gates
  | pending | awaitingApproval | approved =>
      cases permissionBlockReason step fresh with
      | some reason => exact skips reason
      | none => exact gates
  | completed | skipped => exact gates

theorem lockstep_getRun (id : other.id = run.id) :
    Lockstep (RunTwins handed reads) reads (getRun run.id) (getRun other.id) := by
  rw [id]
  exact lockstep_perform (.getRun run.id)

/-- Two loops take the same passes. -/
theorem lockstep_loopPass [HostId ι] (id : other.id = run.id) (related : handed run other)
    {driveStarted otherStarted : ℚ}
    (reading : ∀ current otherCurrent, reads current otherCurrent →
      SameReading run other driveStarted otherStarted current otherCurrent)
    (registry : ToolRegistry) (hooked : Bool) (cursor : Int) :
    Lockstep (RunTwins handed reads) (Lockstep.Round Eq Eq)
      (loopPass registry run hooked driveStarted cursor)
      (loopPass registry other hooked otherStarted cursor) := by
  have decides (next : Option Int) : Lockstep.Round Eq Eq (afterVisit next) (afterVisit next) := by
    cases next with
    | none => exact .left rfl
    | some cursor => exact .again rfl
  apply (lockstep_getRun id).seq
  intro current otherCurrent read
  have same := reading current otherCurrent read
  rw [same.stops]
  cases userStopped current with
  | true =>
      apply (lockstep_drainAndReturn id cursor).seq
      rintro next _ rfl
      exact .done (decides next)
  | false =>
      have lists : Lockstep (RunTwins handed reads) Eq (getSteps run.id) (getSteps other.id) := by
        rw [id]
        exact lockstep_free (getSteps_propagates trivial)
      apply lists.seq
      rintro steps _ rfl
      cases firstUnfinished steps with
      | none => exact .done (.left rfl)
      | some step =>
          apply (lockstep_visitStep id related same.gates registry hooked (same.budget steps) step
            cursor).seq
          rintro next _ rfl
          exact .done (decides next)

theorem lockstep_completeRun (id : other.id = run.id) (related : handed run other)
    (stops : ∀ current otherCurrent, reads current otherCurrent →
      userStopped otherCurrent = userStopped current) (hooked : Bool) (cursor : Int) :
    Lockstep (RunTwins handed reads) Eq (completeRun run hooked cursor)
      (completeRun other hooked cursor) := by
  have drains : Lockstep (RunTwins handed reads) Eq (do let _ ← drain run.id cursor; return ())
      (do let _ ← drain other.id cursor; return ()) := by
    apply (lockstep_drain id cursor).seq
    intro _ _ _
    exact .done rfl
  apply (lockstep_getRun id).seq
  intro final otherFinal read
  rw [stops final otherFinal read]
  cases userStopped final with
  | true => exact drains
  | false =>
      apply (lockstep_setRunStatus related .completed).seq
      intro _ _ _
      rw [id]
      apply Lockstep.seq (lockstep_free (appendEvent_propagates trivial))
      intro _ _ _
      apply (lockstep_notifyRunEnd related hooked .completed).seq
      intro _ _ _
      apply Lockstep.seq (lockstep_free (drain_propagates (free_drain run.id) cursor))
      intro _ _ _
      exact .done rfl

/-- The loop of a drive and what follows it. -/
def driveOn [HostId ι] (registry : ToolRegistry) (run : RunView ι) (hooked : Bool)
    (driveStarted : ℚ) (fuel : Nat) (cursor : Int) : Engine ι (Option Unit) := do
  let exit ← Program.iterate (loopPass registry run hooked driveStarted) fuel cursor
  match exit with
  | none => return none
  | some .returned => return some ()
  | some (.allDone cursor) => do
      completeRun run hooked cursor
      return some ()

theorem lockstep_driveOn [HostId ι] (id : other.id = run.id) (related : handed run other)
    {driveStarted otherStarted : ℚ}
    (reading : ∀ current otherCurrent, reads current otherCurrent →
      SameReading run other driveStarted otherStarted current otherCurrent)
    (registry : ToolRegistry) (hooked : Bool) (fuel : Nat) (cursor : Int) :
    Lockstep (RunTwins handed reads) Eq (driveOn registry run hooked driveStarted fuel cursor)
      (driveOn registry other hooked otherStarted fuel cursor) := by
  apply Lockstep.seq (Lockstep.iterate (fun start other here => by
    cases here
    exact lockstep_loopPass id related reading registry hooked start) fuel rfl)
  intro exit otherExit exits
  cases exits with
  | none => exact .done rfl
  | some exits =>
      cases exits
      rename_i exit
      cases exit with
      | returned => exact .done rfl
      | allDone cursor =>
          apply (lockstep_completeRun id related (fun current otherCurrent read =>
            (reading current otherCurrent read).stops) hooked cursor).seq
          intro _ _ _
          exact .done rfl

/-- A drive starts the run, drains, and loops. -/
theorem executeRunEvents_driveOn [HostId ι] (registry : ToolRegistry) (run : RunView ι)
    (hooked : Bool) (fuel : Nat) :
    executeRunEvents registry run hooked fuel = (do
      let next ← nextSequence run.id
      if run.status ∈ terminalRunStatuses then return some ()
      else do
        let _ ← setRunStatus run .running
        let cursor ← drain run.id (next - 1)
        let driveStarted ← now
        driveOn registry run hooked driveStarted fuel cursor) := rfl

/-- Two drives that make the same of whatever they read go in lockstep. -/
theorem lockstep_executeRunEvents [HostId ι] (id : other.id = run.id)
    (status : other.status = run.status) (related : handed run other)
    (reading : ∀ driveStarted current otherCurrent, reads current otherCurrent →
      SameReading run other driveStarted driveStarted current otherCurrent)
    (registry : ToolRegistry) (hooked : Bool) (fuel : Nat) :
    Lockstep (RunTwins handed reads) Eq (executeRunEvents registry run hooked fuel)
      (executeRunEvents registry other hooked fuel) := by
  have numbers : Lockstep (RunTwins handed reads) Eq (nextSequence run.id)
      (nextSequence other.id) := by
    rw [id]
    exact lockstep_free (nextSequence_propagates trivial)
  rw [executeRunEvents_driveOn, executeRunEvents_driveOn]
  apply numbers.seq
  rintro next _ rfl
  rw [status]
  split
  · exact .done rfl
  · apply (lockstep_setRunStatus related .running).seq
    intro _ _ _
    apply (lockstep_drain id (next - 1)).seq
    rintro cursor _ rfl
    apply Lockstep.seq (lockstep_free (now_propagates trivial))
    rintro driveStarted _ rfl
    exact lockstep_driveOn id related (reading driveStarted) registry hooked fuel cursor

end Engine

end SlimxAgent
