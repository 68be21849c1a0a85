import SlimxAgent.Policies
import SlimxAgent.Tools

/-!
# The run engine

The dispatch loop.  Every pass re-reads the run and its steps, takes the first
step that is not yet completed or skipped, and applies the permission gate, the
budget gate and the approval gate to it, in that order, before its handler is
called.

`executeRunEvents` is the generator form.  What it yields are `yieldEvent`
operations; its loop is `Program.iterate` over `loopPass`, and `none` says that
the loop was still running when the fuel ran out.
-/

namespace SlimxAgent

open Interaction

/-- Run statuses a run cannot leave. -/
def terminalRunStatuses : List RunStatus := [.completed, .failed, .cancelled]

/-- The user's decisions that end a drive. -/
def userStopStatuses : List RunStatus := [.paused, .cancelled]

variable {ι : Type}

/-- The run as read is paused or cancelled. -/
def userStopped (current : Option (RunView ι)) : Bool :=
  current.any fun run => userStopStatuses.contains run.status

/-- The first step that is neither completed nor skipped. -/
def firstUnfinished (steps : List (StepView ι)) : Option (StepView ι) :=
  steps.find? fun step => !(step.status == .completed || step.status == .skipped)

theorem firstUnfinished_mem {steps : List (StepView ι)} {step : StepView ι}
    (selected : firstUnfinished steps = some step) : step ∈ steps :=
  List.mem_of_find?_eq_some selected

theorem firstUnfinished_status {steps : List (StepView ι)} {step : StepView ι}
    (selected : firstUnfinished steps = some step) :
    step.status ≠ .completed ∧ step.status ≠ .skipped := by
  have unfinished := List.find?_some selected
  simpa using unfinished

/-! ## The live stream -/

/-- Yield the payloads in order; the cursor follows. -/
def yieldAll : List Event → Int → Engine ι Int
  | [], cursor => return cursor
  | payload :: payloads, _ => do
      yieldEvent payload
      yieldAll payloads payload.sequence

/-- Yield every event past the cursor. -/
def drain (runId : ι) (cursor : Int) : Engine ι Int := do
  let payloads ← drainedEvents runId cursor
  yieldAll payloads cursor

/-! ## Step outcomes -/

def failStep (run : RunView ι) (stepId : ι) (stepType message : String) :
    Engine ι (StepView ι) := do
  let step ← setStepState stepId .failed (.given (some message)) .unset
  appendEvent run.id .stepFailed (some stepId)
    (some [("type", .str stepType), ("error", .str message)]) true
  return step

def skipStep (run : RunView ι) (stepId : ι) (stepType reason : String) :
    Engine ι (StepView ι) := do
  let step ← setStepState stepId .skipped (.given none) .unset
  appendEvent run.id .stepSkipped (some stepId)
    (some [("type", .str stepType), ("reason", .str reason)]) true
  return step

/-- `output_refs or None`: an empty dictionary is stored as no references. -/
def orNone : Option Dict → Option Dict
  | some (entry :: entries) => some (entry :: entries)
  | _ => none

/-- The handler returned. -/
def completeStep (run : RunView ι) (stepId : ι) (outputRefs : Option Dict) :
    Engine ι (StepView ι) := do
  let freshStep ← setStepState stepId .completed (.given none) (.given (orNone outputRefs))
  appendEvent run.id .stepCompleted (some stepId)
    (some (Dict.update [("type", .str freshStep.type)] (outputRefs.getD []))) true
  return freshStep

/-- The handler raised.  An unknown outcome and a `BaseException` end the drive
with nothing written for the step.  The step object is the one that was selected; its
type is read of it again. -/
def settleRaised [HostId ι] (run : RunView ι) (step : StepView ι) :
    Raised ι → Engine ι (StepView ι)
  | .stepActionPrepared _ => do
      let fresh ← getStep step.id
      return fresh.getD step
  | .stepOutcomeUnknown message cause => .raise (.stepOutcomeUnknown message cause)
  | .stepNotApplicable message => do
      let stepType ← currentType step
      skipStep run step.id stepType message
  | .stepExecutionError message => do
      let stepType ← currentType step
      failStep run step.id stepType message
  | .baseException typeName => .raise (.baseException typeName)
  | error => do
      rollback
      let stepType ← currentType step
      failStep run step.id stepType error.shortError

/-- What the handler's return or exception makes of the step. -/
def settleStep [HostId ι] (run : RunView ι) (step : StepView ι) :
    Except (Raised ι) (Option Dict) → Engine ι (StepView ι)
  | .ok outputRefs => completeStep run step.id outputRefs
  | .error error => settleRaised run step error

/-- Execute one step.  Its type is read after the running transition, for the event, and
after the event, for the handler. -/
def runStep [HostId ι] (registry : ToolRegistry) (run : RunView ι) (step : StepView ι) :
    Engine ι (StepView ι) := do
  let _ ← setStepState step.id .running .unset .unset
  let startedType ← currentType step
  appendEvent run.id .stepStarted (some step.id) (some [("type", .str startedType)]) true
  let stepType ← currentType step
  match registry.resolve stepType with
  | false => failStep run step.id stepType ("Unsupported step type " ++ reprStr stepType)
  | true => do
      let outcome ← (handle run { step with type := stepType }).attempt
      settleStep run step outcome

/-! ## Ending a run -/

/-- The `on_run_end` hook, when the drive was given one. -/
def notifyRunEnd (hooked : Bool) (run : RunView ι) (status : RunStatus) : Engine ι Unit :=
  if hooked then onRunEnd run status else return ()

/-- End the run as failed: the event, the status, then the hook. -/
def failRun (hooked : Bool) (run : RunView ι) (stepId : ι) : Engine ι Unit := do
  appendEvent run.id .runFailed (some stepId) none false
  let _ ← setRunStatus run .failed
  notifyRunEnd hooked run .failed

/-- Whether the event reports the failure of the step; ids compare as text. -/
def reportsFailureOf [HostId ι] (stepId : ι) (event : Event) : Bool :=
  event.type.asStr? == some EventType.runFailed.text &&
    event.agentStepId.text == HostId.text stepId

/-- Whether the durable log already reports the failure of the step. -/
def runFailureReported [HostId ι] (runId stepId : ι) : Engine ι Bool := do
  let events ← drainedEvents runId 0
  return events.any (reportsFailureOf stepId)

/-! ## Gates -/

/-- The step budget: executed steps are the completed and the failed ones. -/
def stepBudgetReason (budgetMaxSteps : Json) (steps : List (StepView ι)) : Option String :=
  match budgetMaxSteps.asInt? with
  | none => none
  | some maxSteps =>
      let executed := steps.countP fun step => step.status == .completed || step.status == .failed
      if 0 < maxSteps ∧ maxSteps ≤ executed then
        some ("step budget reached (" ++ toString executed ++ "/" ++ budgetMaxSteps.text ++
          " steps executed)")
      else none

/-- The wall budget of this drive, when one is set. -/
def wallBudget (budgetMaxWallSeconds : Json) : Option Int :=
  match budgetMaxWallSeconds.asInt? with
  | none => none
  | some maxWall => if 0 < maxWall then some maxWall else none

/-- Why the run's budget forbids the next step, if it does. -/
def budgetExhaustedReason (run : RunView ι) (steps : List (StepView ι)) (driveStarted : ℚ) :
    Engine ι (Option String) :=
  match stepBudgetReason run.budgetMaxSteps steps with
  | some reason => return some reason
  | none =>
      match wallBudget run.budgetMaxWallSeconds with
      | none => return none
      | some maxWall => do
          let time ← now
          let elapsed := time - driveStarted
          if maxWall ≤ elapsed then
            return some ("time budget reached (" ++ toString (elapsed.num.tdiv elapsed.den) ++
              "s of " ++ run.budgetMaxWallSeconds.text ++ "s for this execution)")
          else return none

/-- What the approval gate decides. -/
structure GateDecision where
  classification : Option Tier
  reason : String
  stop : Bool
  deriving DecidableEq

/-- Whether execution stops at the step.  Without a policy only planner-flagged
steps stop, and `auto_approve` clears them. -/
def resolveGate (step : StepView ι) (policy : Option ApprovalPolicy) (autoApprove : Bool)
    (preapprovedTools : Stored) : GateDecision :=
  match policy with
  | none => ⟨none, "", step.requiresApproval && !autoApprove⟩
  | some policy =>
      let classified := classifyStep step
      let preapproved := (normalizePreapproved preapprovedTools).contains step.type
      ⟨some classified.1, classified.2,
        requiresStop policy classified.1 step.requiresApproval preapproved⟩

/-- Park a step at the human gate and record why. -/
def gateForApproval (run : RunView ι) (step : StepView ι) (reason : String) : Engine ι Unit := do
  let _ ← setStepState step.id .awaitingApproval .unset .unset
  let title ← currentTitle step
  appendEvent run.id .approvalRequired (some step.id)
    (some ([("title", .str title)] ++
      if reason = "" then [] else [("reason", .str reason)])) true

/-! ## The loop -/

/-- Drain, then return from the drive.  Where a step is visited, `none` says that
the drive returns, and `some cursor` that it takes another pass. -/
def drainAndReturn (run : RunView ι) (cursor : Int) : Engine ι (Option Int) := do
  let _ ← drain run.id cursor
  return none

/-- Drain, then take another pass. -/
def drainAndContinue (run : RunView ι) (cursor : Int) : Engine ι (Option Int) := do
  let cursor ← drain run.id cursor
  return some cursor

/-- The step was already failed when this pass read it.  Its failure is reported
once. -/
def foundFailed [HostId ι] (run : RunView ι) (hooked : Bool) (stepId : ι) (cursor : Int) :
    Engine ι (Option Int) := do
  let reported ← runFailureReported run.id stepId
  match reported with
  | true => do
      let _ ← setRunStatus run .failed
      drainAndReturn run cursor
  | false => do
      failRun hooked run stepId
      drainAndReturn run cursor

/-- Every gate has passed. -/
def dispatchStep [HostId ι] (registry : ToolRegistry) (run : RunView ι) (hooked : Bool)
    (step : StepView ι) (cursor : Int) : Engine ι (Option Int) := do
  let ran ← runStep registry run step
  let cursor ← drain run.id cursor
  let status ← currentStatus ran
  if status = .awaitingApproval then return none
  else if status = .failed then do
    failRun hooked run ran.id
    drainAndReturn run cursor
  else return some cursor

/-- Whether a scoped pre-approval is what lets a hard-gated step through. -/
def preapprovedGate (step : StepView ι) (decision : GateDecision)
    (preapprovedTools : List String) : Bool :=
  decision.classification == some .hardGated && preapprovedTools.contains step.type

/-- Why a gated step proceeds without a click. -/
def approvalPayload (policy : Option ApprovalPolicy) (classification : Option Tier)
    (preapproved : Bool) : Dict :=
  [("auto", .bool true)] ++
    (match policy with
      | none => []
      | some policy => [("policy", .str policy.text),
          ("classification", .ofOption (fun tier => .str tier.text) classification)]) ++
    if preapproved then [("preapproved", .bool true)] else []

/-- Clear the gate of a step that needed clearing, and record why. -/
def recordApproval (run : RunView ι) (policy : Option ApprovalPolicy) (step : StepView ι)
    (decision : GateDecision) (preapprovedTools : List String) : Engine ι Unit :=
  let preapproved := preapprovedGate step decision preapprovedTools
  if step.requiresApproval || step.status == .awaitingApproval || preapproved then do
    let _ ← setStepState step.id .approved .unset .unset
    appendEvent run.id .approvalGranted (some step.id)
      (some (approvalPayload policy decision.classification preapproved)) true
  else return ()

/-- A step that awaits approval already is not parked again. -/
def parkPending (run : RunView ι) (step : StepView ι) (reason : String) : Engine ι Unit :=
  if step.status = .pending then gateForApproval run step reason else return ()

/-- Stop for a human: the run waits with the step. -/
def stopAtGate (run : RunView ι) (step : StepView ι) (reason : String) (cursor : Int) :
    Engine ι (Option Int) := do
  parkPending run step reason
  let _ ← setRunStatus run .awaitingApproval
  drainAndReturn run cursor

/-- The approval gate, for the two statuses that pass through it. -/
def approvalGate [HostId ι] (registry : ToolRegistry) (run : RunView ι) (hooked : Bool)
    (fresh : RunView ι) (step : StepView ι) (cursor : Int) : Engine ι (Option Int) :=
  let preapprovedTools := normalizePreapproved fresh.preapprovedTools
  if step.status = .pending ∨ step.status = .awaitingApproval then
    let decision := resolveGate step fresh.approvalPolicy fresh.autoApprove
      (.set (preapprovedTools.map .str))
    match decision.stop with
    | true => stopAtGate run step decision.reason cursor
    | false => do
        recordApproval run fresh.approvalPolicy step decision preapprovedTools
        dispatchStep registry run hooked step cursor
  else dispatchStep registry run hooked step cursor

/-- An exhausted budget pauses the run. -/
def pauseForBudget (run : RunView ι) (reason : String) (cursor : Int) :
    Engine ι (Option Int) := do
  appendEvent run.id .budgetExhausted none (some [("reason", .str reason)]) true
  let _ ← setRunStatus run .paused
  appendEvent run.id .runPaused none (some [("reason", .str reason)]) true
  drainAndReturn run cursor

/-- The budget gate, before any work on the step. -/
def budgetGate [HostId ι] (registry : ToolRegistry) (run : RunView ι) (hooked : Bool)
    (driveStarted : ℚ) (fresh : RunView ι) (steps : List (StepView ι)) (step : StepView ι)
    (cursor : Int) : Engine ι (Option Int) := do
  let budgetReason ← budgetExhaustedReason fresh steps driveStarted
  match budgetReason with
  | some reason => pauseForBudget run reason cursor
  | none => approvalGate registry run hooked fresh step cursor

/-- One step at the first of its gates.  Permission is checked against the run as
just read; a step left running whose grant is gone is neither skipped nor
entered again. -/
def visitStep [HostId ι] (registry : ToolRegistry) (run : RunView ι) (hooked : Bool)
    (driveStarted : ℚ) (fresh : RunView ι) (steps : List (StepView ι)) (step : StepView ι)
    (cursor : Int) : Engine ι (Option Int) :=
  match step.status with
  | .other text unlisted => .raise (.unknownStepStatus step.id (.other text unlisted))
  | .failed => foundFailed run hooked step.id cursor
  | .running =>
      match permissionBlockReason step fresh with
      | some reason => .raise (.runningStepNotPermitted step.id reason)
      | none => budgetGate registry run hooked driveStarted fresh steps step cursor
  | .pending | .awaitingApproval | .approved =>
      match permissionBlockReason step fresh with
      | some reason => do
          let _ ← skipStep run step.id step.type reason
          drainAndContinue run cursor
      | none => budgetGate registry run hooked driveStarted fresh steps step cursor
  | .completed | .skipped =>
      budgetGate registry run hooked driveStarted fresh steps step cursor

/-- How the loop ends when no exception ends it: the drive returns, or every step
is done. -/
inductive LoopExit where
  | returned
  | allDone (cursor : Int)

/-- What a visit decides about the loop. -/
def afterVisit : Option Int → Int ⊕ LoopExit
  | some cursor => .inl cursor
  | none => .inr .returned

/-- One pass: re-read the run, then the steps. -/
def loopPass [HostId ι] (registry : ToolRegistry) (run : RunView ι) (hooked : Bool)
    (driveStarted : ℚ) (cursor : Int) : Engine ι (Int ⊕ LoopExit) := do
  let current ← getRun run.id
  match userStopped current with
  | true => do
      let next ← drainAndReturn run cursor
      return afterVisit next
  | false => do
      let steps ← getSteps run.id
      match firstUnfinished steps with
      | none => return .inr (.allDone cursor)
      | some step => do
          let next ← visitStep registry run hooked driveStarted (current.getD run) steps step
            cursor
          return afterVisit next

/-- Every step is done.  A pause or cancel that landed while the last step ran
wins over completion. -/
def completeRun (run : RunView ι) (hooked : Bool) (cursor : Int) : Engine ι Unit := do
  let final ← getRun run.id
  match userStopped final with
  | true => do
      let _ ← drain run.id cursor
      return ()
  | false => do
      let _ ← setRunStatus run .completed
      appendEvent run.id .runCompleted none none true
      notifyRunEnd hooked run .completed
      let _ ← drain run.id cursor
      return ()

/-- Drive a run to its next stop, yielding each newly persisted event. -/
def executeRunEvents [HostId ι] (registry : ToolRegistry) (run : RunView ι) (hooked : Bool)
    (fuel : Nat) : Engine ι (Option Unit) := do
  let next ← nextSequence run.id
  if run.status ∈ terminalRunStatuses then return some ()
  else do
    let _ ← setRunStatus run .running
    let cursor ← drain run.id (next - 1)
    let driveStarted ← now
    let exit ← Program.iterate (loopPass registry run hooked driveStarted) fuel cursor
    match exit with
    | none => return none
    | some .returned => return some ()
    | some (.allDone cursor) => do
        completeRun run hooked cursor
        return some ()

/-- Drain the generator form, then re-read the run. -/
def executeRun [HostId ι] (registry : ToolRegistry) (run : RunView ι) (hooked : Bool)
    (fuel : Nat) : Engine ι (Option (RunView ι)) := do
  let ended ← executeRunEvents registry run hooked fuel
  match ended with
  | none => return none
  | some () => do
      let refreshed ← getRun run.id
      return some (refreshed.getD run)

end SlimxAgent
