import SlimxAgent.Outline
import SlimxAgent.Interaction.Monitor

/-!
# The course of a drive

What a drive may ask for next, as a function of what it has been told.  A stage
holds what the drive knows; `Asks` lists the operations it may ask for there, and
`Stage.next` is the stage their answers lead to.

`follows_course` connects this abstract machine to the engine: in any environment
every call of a drive is one its stage asks for, and the drive ends in a stage where
it may.  A property of drives is then an invariant of stages and states that each
permitted call keeps (`course_invariant`), with no further look at the program.
-/

namespace SlimxAgent

open Interaction

variable {ι σ : Type}

/-- What a pass has read when it visits a step. -/
structure Visit (ι : Type) where
  fresh : RunView ι
  steps : List (StepView ι)
  step : StepView ι

/-- The step transitions that come with an event. -/
inductive Mark where
  | skips (reason : String)
  | parks (title reason : String)
  | clears (payload : Dict)
  | enters (startedType : String)
  | completes (outputRefs : Option Dict)
  | fails (stepType message : String)
  | drops (stepType reason : String)

namespace Mark

/-- The status written. -/
def status : Mark → StepStatus
  | .skips _ => .skipped
  | .parks _ _ => .awaitingApproval
  | .clears _ => .approved
  | .enters _ => .running
  | .completes _ => .completed
  | .fails _ _ => .failed
  | .drops _ _ => .skipped

/-- The event that records it. -/
def event : Mark → EventType
  | .skips _ => .stepSkipped
  | .parks _ _ => .approvalRequired
  | .clears _ => .approvalGranted
  | .enters _ => .stepStarted
  | .completes _ => .stepCompleted
  | .fails _ _ => .stepFailed
  | .drops _ _ => .stepSkipped

/-- The payload of the event; a completion names the type of the row as written. -/
def payload (step row : StepView ι) : Mark → Dict
  | .skips reason => [("type", .str step.type), ("reason", .str reason)]
  | .parks title reason =>
      [("title", .str title)] ++ if reason = "" then [] else [("reason", .str reason)]
  | .clears payload => payload
  | .enters startedType => [("type", .str startedType)]
  | .completes outputRefs => Dict.update [("type", .str row.type)] (outputRefs.getD [])
  | .fails stepType message => [("type", .str stepType), ("error", .str message)]
  | .drops stepType reason => [("type", .str stepType), ("reason", .str reason)]

/-- The write of the transition. -/
def write (stepId : ι) : Mark → EngineOp ι
  | .skips _ => .setStepState stepId .skipped (.given none) .unset
  | .parks _ _ => .setStepState stepId .awaitingApproval .unset .unset
  | .clears _ => .setStepState stepId .approved .unset .unset
  | .enters _ => .setStepState stepId .running .unset .unset
  | .completes outputRefs =>
      .setStepState stepId .completed (.given none) (.given (orNone outputRefs))
  | .fails _ message => .setStepState stepId .failed (.given (some message)) .unset
  | .drops _ _ => .setStepState stepId .skipped (.given none) .unset

end Mark

namespace Visit

/-- The step passed the permission gate. -/
structure Admitted (visit : Visit ι) : Prop where
  unsettled : visit.step.status.Waiting ∨ visit.step.status = .running
  permitted : Permitted visit.step.type visit.fresh

/-- It passed the budget gate too. -/
structure Affordable (visit : Visit ι) : Prop extends visit.Admitted where
  within : stepBudgetReason visit.fresh.budgetMaxSteps visit.steps = none

def decision (visit : Visit ι) : GateDecision :=
  gateDecision visit.fresh visit.step

/-- What clearing the gate of the step would record. -/
def clearing (visit : Visit ι) : Mark :=
  .clears (approvalPayload visit.fresh.approvalPolicy visit.decision.classification
    (preapprovedGate visit.step visit.decision (normalizePreapproved visit.fresh.preapprovedTools)))

/-- A gate that lets the step through needed clearing. -/
def NeedsClearing (visit : Visit ι) : Prop :=
  (visit.step.requiresApproval || visit.step.status == .awaitingApproval ||
    preapprovedGate visit.step visit.decision
      (normalizePreapproved visit.fresh.preapprovedTools)) = true

end Visit

/-- What the handler's exception makes of the step, with its type as read after. -/
def markOfRaised [HostId ι] (stepType : String) : Raised ι → Mark
  | .stepNotApplicable message => .drops stepType message
  | .stepExecutionError message => .fails stepType message
  | error => .fails stepType error.shortError

/-- Exceptions of a handler that write nothing for the step. -/
def Raised.EndsDrive : Raised ι → Prop
  | .stepOutcomeUnknown _ _ => True
  | .baseException _ => True
  | _ => False

/-- Exceptions of a handler that are the host's bugs. -/
def Raised.RollsBack : Raised ι → Prop
  | .stepActionPrepared _ => False
  | .stepOutcomeUnknown _ _ => False
  | .stepNotApplicable _ => False
  | .stepExecutionError _ => False
  | .baseException _ => False
  | _ => True

/-- Where a drive stands. -/
inductive Stage (ι : Type) where
  | opening
  | opened
  /-- The run is marked running. -/
  | begun
  /-- A pass may start. -/
  | top
  | runRead (current : Option (RunView ι))
  | visiting (visit : Visit ι)
  /-- The log was searched for the failure of a step found failed. -/
  | looked (visit : Visit ι) (reported : Bool)
  | exhausted (visit : Visit ι) (payload : Option Dict)
  | pausing (visit : Visit ι) (payload : Option Dict)
  /-- The transition is written, its event is not. -/
  | recording (visit : Visit ι) (mark : Mark) (row : StepView ι)
  /-- The step is parked; its event shows the title it has now. -/
  | parked (visit : Visit ι) (row : StepView ι)
  | stopping (visit : Visit ι)
  | cleared (visit : Visit ι)
  /-- The step is entered; its event shows the type it has now. -/
  | entered (visit : Visit ι) (row : StepView ι)
  | started (visit : Visit ι)
  /-- The handler is looked up by the type just read. -/
  | typed (visit : Visit ι) (stepType : String)
  | handled (visit : Visit ι) (outcome : Except (Raised ι) (Option Dict))
  | rolledBack (visit : Visit ι) (error : Raised ι)
  /-- The transition that follows the handler's exception is decided. -/
  | decided (visit : Visit ι) (mark : Mark)
  | settled (visit : Visit ι) (ran : StepView ι)
  /-- The stream was served, and the status of the step read again. -/
  | judged (visit : Visit ι) (ran : StepView ι)
  /-- The failure of the run is logged. -/
  | failing (visit : Visit ι)
  | allDone
  | finalRead (current : Option (RunView ι))
  | completing
  /-- The hook is due. -/
  | notifying (status : RunStatus)
  /-- The drive has written the status its run stops with. -/
  | ended (status : RunStatus)
  /-- A call raised. -/
  | broken (error : Raised ι)

namespace Stage

/-- Another pass may start. -/
def turns : Stage ι → Bool
  | .top => true
  | .judged _ ran => !(ran.status == .awaitingApproval || ran.status == .failed)
  | _ => false

/-- After a step the next pass starts unless the step waits or failed. -/
theorem turns_judged {visit : Visit ι} {ran : StepView ι} :
    (judged visit ran).turns = true ↔
      ran.status ≠ .awaitingApproval ∧ ran.status ≠ .failed := by
  change (!(ran.status == .awaitingApproval || ran.status == .failed)) = true ↔ _
  simp

/-- The stream may be served. -/
def Streams : Stage ι → Prop
  | .begun => True
  | .top => True
  | .runRead current => userStopped current = true
  | .settled _ _ => True
  | .finalRead current => userStopped current = true
  | .ended _ => True
  | _ => False

/-- The run's end is written and logged: the hook is due, when the drive was given
one. -/
def hooking (hooked : Bool) (status : RunStatus) : Stage ι :=
  if hooked then .notifying status else .ended status

/-- The event of a transition is logged. -/
def recorded (visit : Visit ι) (row : StepView ι) : Mark → Stage ι
  | .skips _ => .top
  | .parks _ _ => .stopping visit
  | .clears _ => .cleared visit
  | .enters _ => .started visit
  | _ => .settled visit row

/-- The steps are listed, after the run was read. -/
def listed (run : RunView ι) (current : Option (RunView ι)) (steps : List (StepView ι)) :
    Stage ι :=
  match firstUnfinished steps with
  | none => .allDone
  | some step => .visiting ⟨current.getD run, steps, step⟩

variable [HostId ι]

/-- The stage a result leads to. -/
def next (run : RunView ι) (hooked : Bool) : Stage ι → (op : EngineOp ι) → op.Res → Stage ι
  | .opening, .nextSequence _, _ => .opened
  | .opened, .setRunStatus _ _, _ => .begun
  | .begun, .now, _ => .top
  | .top, .getRun _, current => .runRead current
  | .judged _ _, .getRun _, current => .runRead current
  | .runRead current, .getSteps _, steps => listed run current steps
  | .visiting visit, .drainedEvents _ _, events =>
      .looked visit (events.any (reportsFailureOf visit.step.id))
  | .visiting visit, .setStepState _ .skipped _ _, row =>
      .recording visit (.skips ((permissionBlockReason visit.step visit.fresh).getD "")) row
  | .visiting visit, .setStepState _ .awaitingApproval _ _, row => .parked visit row
  | .visiting visit, .setStepState _ .approved _ _, row => .recording visit visit.clearing row
  | .visiting visit, .setStepState _ .running _ _, row => .entered visit row
  | .visiting _, .setRunStatus _ status, _ => .ended status
  | .visiting visit, .appendEvent _ _ _ payload _, _ => .exhausted visit payload
  | .looked _ true, .setRunStatus _ status, _ => .ended status
  | .looked visit false, .appendEvent _ _ _ _ _, _ => .failing visit
  | .exhausted visit payload, .setRunStatus _ _, _ => .pausing visit payload
  | .pausing _ _, .appendEvent _ _ _ _ _, _ => .ended .paused
  | .recording visit mark row, .appendEvent _ _ _ _ _, _ => recorded visit row mark
  | .parked visit row, .currentTitle _, title =>
      .recording visit (.parks title visit.decision.reason) row
  | .stopping _, .setRunStatus _ status, _ => .ended status
  | .cleared visit, .setStepState _ _ _ _, row => .entered visit row
  | .entered visit row, .currentType _, startedType => .recording visit (.enters startedType) row
  | .started visit, .currentType _, stepType => .typed visit stepType
  | .typed visit stepType, .setStepState _ _ _ _, row =>
      .recording visit (.fails stepType ("Unsupported step type " ++ reprStr stepType)) row
  | .typed visit _, .handle _ _, outputRefs => .handled visit (.ok outputRefs)
  | .handled visit (.ok outputRefs), .setStepState _ _ _ _, row =>
      .recording visit (.completes outputRefs) row
  | .handled visit (.error _), .getStep _, fresh => .settled visit (fresh.getD visit.step)
  | .handled visit (.error error), .rollback, _ => .rolledBack visit error
  | .handled visit (.error error), .currentType _, stepType =>
      .decided visit (markOfRaised stepType error)
  | .rolledBack visit error, .currentType _, stepType =>
      .decided visit (markOfRaised stepType error)
  | .decided visit mark, .setStepState _ _ _ _, row => .recording visit mark row
  | .settled visit ran, .currentStatus _, status => .judged visit { ran with status := status }
  | .judged visit _, .appendEvent _ _ _ _ _, _ => .failing visit
  | .failing _, .setRunStatus _ status, _ => hooking hooked status
  | .allDone, .getRun _, current => .finalRead current
  | .finalRead _, .setRunStatus _ _, _ => .completing
  | .completing, .appendEvent _ _ _ _ _, _ => hooking hooked .completed
  | .notifying _, .onRunEnd _ status, _ => .ended status
  | stage, _, _ => stage

/-- The handler's exception is the engine's to settle; any other ends the drive. -/
def fail (stage : Stage ι) : EngineOp ι → Raised ι → Stage ι
  | .handle _ _, error =>
      match stage with
      | .typed visit _ => .handled visit (.error error)
      | _ => .broken error
  | _, error => .broken error

end Stage

/-- A stage, and the passes begun so far. -/
structure Course (ι : Type) where
  stage : Stage ι
  passes : Nat

namespace Course

def start : Course ι := ⟨.opening, 0⟩

/-- A pass begins with a read of the run. -/
def countPass (course : Course ι) : EngineOp ι → Nat
  | .getRun _ => if course.stage.turns then course.passes + 1 else course.passes
  | _ => course.passes

variable [HostId ι]

def advance (run : RunView ι) (hooked : Bool) (course : Course ι)
    (call : Served (engineSignature ι) (Raised ι) σ) : Course ι where
  stage :=
    match call with
    | ⟨_, op, .ok result, _⟩ => course.stage.next run hooked op result
    | ⟨_, op, .error error, _⟩ => course.stage.fail op error
  passes := course.countPass call.op

end Course

/-- The operations a drive may ask for at a stage. -/
inductive Asks [HostId ι] (registry : ToolRegistry) (run : RunView ι) :
    Stage ι → EngineOp ι → Prop
  | opens : Asks registry run .opening (.nextSequence run.id)
  | begins : run.status ∉ terminalRunStatuses →
      Asks registry run .opened (.setRunStatus run .running)
  | clocks : Asks registry run .begun .now
  | streams {stage : Stage ι} {op : EngineOp ι} : stage.Streams → op.Streams run.id →
      Asks registry run stage op
  | rereads {stage : Stage ι} : stage.turns = true → Asks registry run stage (.getRun run.id)
  | lists {current : Option (RunView ι)} : userStopped current = false →
      Asks registry run (.runRead current) (.getSteps run.id)
  | looks {visit : Visit ι} : visit.step.status = .failed →
      Asks registry run (.visiting visit) (.drainedEvents run.id 0)
  | skips {visit : Visit ι} {reason : String} : visit.step.status.Waiting →
      permissionBlockReason visit.step visit.fresh = some reason →
      Asks registry run (.visiting visit) ((Mark.skips reason).write visit.step.id)
  | times {visit : Visit ι} : visit.Affordable →
      wallBudget visit.fresh.budgetMaxWallSeconds ≠ none →
      Asks registry run (.visiting visit) .now
  | exhausts {visit : Visit ι} {reason : String} : visit.Admitted →
      stepBudgetReason visit.fresh.budgetMaxSteps visit.steps = some reason ∨
        wallBudget visit.fresh.budgetMaxWallSeconds ≠ none →
      Asks registry run (.visiting visit)
        (.appendEvent run.id .budgetExhausted none (some [("reason", .str reason)]) true)
  | parks {visit : Visit ι} : visit.Affordable → visit.step.status = .pending →
      visit.decision.stop = true →
      Asks registry run (.visiting visit)
        (.setStepState visit.step.id .awaitingApproval .unset .unset)
  | stops {visit : Visit ι} : visit.Affordable → visit.step.status = .awaitingApproval →
      visit.decision.stop = true →
      Asks registry run (.visiting visit) (.setRunStatus run .awaitingApproval)
  | clears {visit : Visit ι} : visit.Affordable → visit.step.status.Gated →
      visit.decision.stop = false → visit.NeedsClearing →
      Asks registry run (.visiting visit) (visit.clearing.write visit.step.id)
  | enters {visit : Visit ι} : visit.Affordable →
      (visit.step.status.Gated → visit.decision.stop = false ∧ ¬ visit.NeedsClearing) →
      Asks registry run (.visiting visit) (.setStepState visit.step.id .running .unset .unset)
  | repeats {visit : Visit ι} :
      Asks registry run (.looked visit true) (.setRunStatus run .failed)
  | reports {visit : Visit ι} :
      Asks registry run (.looked visit false)
        (.appendEvent run.id .runFailed (some visit.step.id) none false)
  | pauses {visit : Visit ι} {payload : Option Dict} :
      Asks registry run (.exhausted visit payload) (.setRunStatus run .paused)
  | logsPause {visit : Visit ι} {payload : Option Dict} :
      Asks registry run (.pausing visit payload)
        (.appendEvent run.id .runPaused none payload true)
  | records {visit : Visit ι} {mark : Mark} {row : StepView ι} :
      Asks registry run (.recording visit mark row)
        (.appendEvent run.id mark.event (some visit.step.id)
          (some (mark.payload visit.step row)) true)
  | titles {visit : Visit ι} {row : StepView ι} :
      Asks registry run (.parked visit row) (.currentTitle visit.step)
  | waits {visit : Visit ι} :
      Asks registry run (.stopping visit) (.setRunStatus run .awaitingApproval)
  | proceeds {visit : Visit ι} :
      Asks registry run (.cleared visit) (.setStepState visit.step.id .running .unset .unset)
  | shows {visit : Visit ι} {row : StepView ι} :
      Asks registry run (.entered visit row) (.currentType visit.step)
  | types {visit : Visit ι} : Asks registry run (.started visit) (.currentType visit.step)
  | refuses {visit : Visit ι} {stepType : String} : registry.resolve stepType = false →
      Asks registry run (.typed visit stepType)
        ((Mark.fails stepType ("Unsupported step type " ++ reprStr stepType)).write visit.step.id)
  | handles {visit : Visit ι} {stepType : String} : registry.resolve stepType = true →
      Asks registry run (.typed visit stepType) (.handle run { visit.step with type := stepType })
  | completes {visit : Visit ι} {outputRefs : Option Dict} :
      Asks registry run (.handled visit (.ok outputRefs))
        ((Mark.completes outputRefs).write visit.step.id)
  | refetches {visit : Visit ι} {message : String} :
      Asks registry run (.handled visit (.error (.stepActionPrepared message)))
        (.getStep visit.step.id)
  | rollsBack {visit : Visit ι} {error : Raised ι} : error.RollsBack →
      Asks registry run (.handled visit (.error error)) .rollback
  | drops {visit : Visit ι} {message : String} :
      Asks registry run (.handled visit (.error (.stepNotApplicable message)))
        (.currentType visit.step)
  | fails {visit : Visit ι} {message : String} :
      Asks registry run (.handled visit (.error (.stepExecutionError message)))
        (.currentType visit.step)
  | failsBug {visit : Visit ι} {error : Raised ι} : error.RollsBack →
      Asks registry run (.rolledBack visit error) (.currentType visit.step)
  | settles {visit : Visit ι} {mark : Mark} :
      Asks registry run (.decided visit mark) (mark.write visit.step.id)
  | judges {visit : Visit ι} {ran : StepView ι} :
      Asks registry run (.settled visit ran) (.currentStatus ran)
  | reportsRan {visit : Visit ι} {ran : StepView ι} : ran.status = .failed →
      Asks registry run (.judged visit ran)
        (.appendEvent run.id .runFailed (some ran.id) none false)
  | failsRun {visit : Visit ι} :
      Asks registry run (.failing visit) (.setRunStatus run .failed)
  | finishes : Asks registry run .allDone (.getRun run.id)
  | completesRun {current : Option (RunView ι)} : userStopped current = false →
      Asks registry run (.finalRead current) (.setRunStatus run .completed)
  | logsCompletion : Asks registry run .completing
      (.appendEvent run.id .runCompleted none none true)
  | notifies {status : RunStatus} :
      Asks registry run (.notifying status) (.onRunEnd run status)

/-- The stages a drive may return at. -/
def Stage.Returns (run : RunView ι) : Stage ι → Prop
  | .opened => run.status ∈ terminalRunStatuses
  | .runRead current => userStopped current = true
  | .judged _ ran => ran.status = .awaitingApproval
  | .finalRead current => userStopped current = true
  | .ended _ => True
  | _ => False

/-- The engine refuses the step it visits. -/
inductive Visit.Refused (visit : Visit ι) : Raised ι → Prop where
  | unknown {text : String} {unlisted : text ∉ stepStatusTexts} :
      visit.step.status = .other text unlisted →
      Refused visit (.unknownStepStatus visit.step.id (.other text unlisted))
  | running {reason : String} : visit.step.status = .running →
      permissionBlockReason visit.step visit.fresh = some reason →
      Refused visit (.runningStepNotPermitted visit.step.id reason)

/-- The stages a drive may end at with an exception. -/
def Stage.Raises (error : Raised ι) : Stage ι → Prop
  | .visiting visit => visit.Refused error
  | .handled _ (.error raised) => raised = error ∧ raised.EndsDrive
  | .broken raised => raised = error
  | _ => False

/-! ## The engine follows the course -/

section Conformity

variable [HostId ι] {world : World (engineSignature ι) (Raised ι) σ} {registry : ToolRegistry}
  {run : RunView ι} {hooked : Bool} {cursor : Int} {stage : Stage ι} {passes : Nat}
  {state : σ × Course ι}

/-- The drive stands at the stage. -/
def At (stage : Stage ι) (passes : Nat) (state : σ × Course ι) : Prop :=
  state.2 = ⟨stage, passes⟩

/-- The operation is one the stage asks for. -/
def onCourse (registry : ToolRegistry) (run : RunView ι) (state : σ × Course ι)
    (op : EngineOp ι) : Prop :=
  Asks registry run state.2.stage op

def RaisesHere (error : Raised ι) (state : σ × Course ι) : Prop :=
  state.2.stage.Raises error

/-- One call. -/
theorem wp_ask {op : EngineOp ι} (asks : Asks registry run stage op)
    (breaks : ∀ error, stage.fail op error = .broken error) (here : At stage passes state) :
    wp (world.monitored (Course.advance run hooked)) (onCourse registry run)
      (@Program.perform (engineSignature ι) (Raised ι) op)
      (fun result => At (stage.next run hooked op result) ((Course.mk stage passes).countPass op))
      RaisesHere state := by
  obtain ⟨before, course⟩ := state
  cases here
  apply wp_perform_monitored asks
  · intro result after _
    rfl
  · intro error after _
    change (stage.fail op error).Raises error
    rw [breaks error]
    rfl

theorem next_streams (streams : stage.Streams) {op : EngineOp ι} (served : op.Streams run.id)
    (result : op.Res) : stage.next run hooked op result = stage := by
  cases op with
  | drainedEvents runId sequence => cases stage <;> first | rfl | exact streams.elim
  | yieldEvent payload => cases stage <;> first | rfl | exact streams.elim
  | _ => exact served.elim

theorem next_turns (turns : stage.turns = true) {runId : ι} (current : Option (RunView ι)) :
    stage.next run hooked (.getRun runId) current = .runRead current := by
  cases stage <;> first | rfl | cases turns

/-- A call of the stream. -/
theorem wp_stays {op : EngineOp ι} (streams : stage.Streams) (served : op.Streams run.id)
    (here : At stage passes state) :
    wp (world.monitored (Course.advance run hooked)) (onCourse registry run)
      (@Program.perform (engineSignature ι) (Raised ι) op) (fun _ => At stage passes) RaisesHere
      state := by
  have plain : ∀ error, stage.fail op error = .broken error := by
    intro error
    cases op <;> first | rfl | exact served.elim
  have uncounted : (Course.mk stage passes).countPass op = passes := by
    cases op <;> first | rfl | exact served.elim
  apply wp_post (wp_ask (.streams streams served) plain here)
  intro result after there
  rw [next_streams streams served result, uncounted] at there
  exact there

theorem wp_stays_yieldAll (streams : stage.Streams) (payloads : List Event) (cursor : Int)
    (here : At stage passes state) :
    wp (world.monitored (Course.advance run hooked)) (onCourse registry run)
      (yieldAll payloads cursor) (fun _ => At stage passes) RaisesHere state := by
  induction payloads generalizing cursor state with
  | nil => exact here
  | cons payload payloads ih =>
      have yields : EngineOp.Streams run.id (.yieldEvent payload) := trivial
      apply wp_seq (wp_stays streams yields here)
      intro _ after there
      exact ih payload.sequence there

theorem wp_stays_drain (streams : stage.Streams) (here : At stage passes state) :
    wp (world.monitored (Course.advance run hooked)) (onCourse registry run)
      (drain run.id cursor) (fun _ => At stage passes) RaisesHere state := by
  have reads : EngineOp.Streams run.id (.drainedEvents run.id cursor) := rfl
  apply wp_seq (wp_stays streams reads here)
  intro payloads after there
  exact wp_stays_yieldAll streams payloads cursor there

/-- What a visit leaves. -/
def VisitLeft (run : RunView ι) (passes : Nat) : Option Int → σ × Course ι → Prop :=
  VisitEnd (fun _ state => state.2.stage.turns = true ∧ state.2.passes = passes)
    fun state => state.2.stage.Returns run

/-- Drain, then return: the stage allows both. -/
theorem wp_follows_return (streams : stage.Streams) (returns : stage.Returns run)
    (here : At stage passes state) :
    wp (world.monitored (Course.advance run hooked)) (onCourse registry run)
      (drainAndReturn run cursor) (VisitLeft run passes) RaisesHere state := by
  apply wp_drainAndReturn_of
  apply wp_post (wp_stays_drain streams here)
  intro _ after there
  change after.2.stage.Returns run
  rw [there]
  exact returns

/-- A written transition and its event. -/
theorem wp_records {visit : Visit ι} {mark : Mark} {status : StepStatus}
    {error : Given (Option String)} {outputRefs : Given (Option Dict)}
    (asks : Asks registry run stage (.setStepState visit.step.id status error outputRefs))
    (written : ∀ row, stage.next run hooked
      (.setStepState visit.step.id status error outputRefs) row = .recording visit mark row)
    (here : At stage passes state) :
    wp (world.monitored (Course.advance run hooked)) (onCourse registry run)
      (do
        let row ← setStepState visit.step.id status error outputRefs
        appendEvent run.id mark.event (some visit.step.id)
          (some (mark.payload visit.step row)) true
        return row)
      (fun row => At (.recorded visit row mark) passes) RaisesHere state := by
  apply wp_seq (wp_ask asks (fun _ => rfl) here)
  intro row after there
  rw [written row] at there
  apply wp_seq (wp_ask .records (fun _ => rfl) there)
  intro _ after there
  exact there

theorem wp_follows_notify {status : RunStatus}
    (here : At (Stage.hooking hooked status) passes state) :
    wp (world.monitored (Course.advance run hooked)) (onCourse registry run)
      (notifyRunEnd hooked run status) (fun _ => At (.ended status) passes) RaisesHere state := by
  cases hooked with
  | false => exact here
  | true => exact wp_ask .notifies (fun _ => rfl) here

theorem wp_follows_failRun {visit : Visit ι} {stepId : ι}
    (asks : Asks registry run stage (.appendEvent run.id .runFailed (some stepId) none false))
    (fails : ∀ result, stage.next run hooked
      (.appendEvent run.id .runFailed (some stepId) none false) result = .failing visit)
    (here : At stage passes state) :
    wp (world.monitored (Course.advance run hooked)) (onCourse registry run)
      (failRun hooked run stepId) (fun _ => At (.ended .failed) passes) RaisesHere state := by
  apply wp_seq (wp_ask asks (fun _ => rfl) here)
  intro result appended there
  rw [fails result] at there
  apply wp_seq (wp_ask .failsRun (fun _ => rfl) there)
  intro _ written there
  exact wp_follows_notify there

/-! ### Dispatch -/

variable {visit : Visit ι}

/-- The exception of a handler, settled. -/
theorem wp_follows_settleRaised {error : Raised ι}
    (here : At (.handled visit (.error error)) passes state) :
    wp (world.monitored (Course.advance run hooked)) (onCourse registry run)
      (settleRaised run visit.step error) (fun ran => At (.settled visit ran) passes) RaisesHere
      state := by
  have ends : error.EndsDrive → RaisesHere error state := by
    intro endsDrive
    rw [RaisesHere, here]
    exact ⟨rfl, endsDrive⟩
  have bug : error.RollsBack → (∀ stepType, markOfRaised stepType error =
      .fails stepType error.shortError) →
      wp (world.monitored (Course.advance run hooked)) (onCourse registry run)
        (do
          rollback
          let stepType ← currentType visit.step
          failStep run visit.step.id stepType error.shortError)
        (fun ran => At (.settled visit ran) passes) RaisesHere state := by
    intro rollsBack marked
    apply wp_seq (wp_ask (.rollsBack rollsBack) (fun _ => rfl) here)
    intro _ rolled there
    apply wp_seq (wp_ask (.failsBug rollsBack) (fun _ => rfl) there)
    intro stepType typed there
    have decided : At (.decided visit (.fails stepType error.shortError)) passes typed := by
      rw [← marked stepType]
      exact there
    exact wp_records .settles (fun _ => rfl) decided
  cases error with
  | stepActionPrepared message =>
      apply wp_seq (wp_ask .refetches (fun _ => rfl) here)
      intro fresh after there
      exact there
  | stepOutcomeUnknown message cause => exact ends trivial
  | stepNotApplicable message =>
      apply wp_seq (wp_ask .drops (fun _ => rfl) here)
      intro stepType typed there
      exact wp_records .settles (fun _ => rfl) there
  | stepExecutionError message =>
      apply wp_seq (wp_ask .fails (fun _ => rfl) here)
      intro stepType typed there
      exact wp_records .settles (fun _ => rfl) there
  | baseException typeName => exact ends trivial
  | unknownStepStatus stepId status => exact bug trivial fun _ => rfl
  | runningStepNotPermitted stepId reason => exact bug trivial fun _ => rfl
  | hostError error => exact bug trivial fun _ => rfl
  | transport typeName message => exact bug trivial fun _ => rfl
  | exception typeName message => exact bug trivial fun _ => rfl

/-- The running transition is due. -/
def Entering (registry : ToolRegistry) (run : RunView ι) (hooked : Bool) (visit : Visit ι)
    (passes : Nat) (state : σ × Course ι) : Prop :=
  ∃ stage, At stage passes state ∧
    Asks registry run stage (.setStepState visit.step.id .running .unset .unset) ∧
    ∀ row, stage.next run hooked (.setStepState visit.step.id .running .unset .unset) row =
      .entered visit row

theorem wp_follows_runStep (entering : Entering registry run hooked visit passes state) :
    wp (world.monitored (Course.advance run hooked)) (onCourse registry run)
      (runStep registry run visit.step) (fun ran => At (.settled visit ran) passes) RaisesHere
      state := by
  obtain ⟨stage, here, asks, enters⟩ := entering
  have entered : wp (world.monitored (Course.advance run hooked)) (onCourse registry run)
      (setStepState visit.step.id .running .unset .unset)
      (fun _ after => ∃ row, At (.entered visit row) passes after) RaisesHere state := by
    apply wp_post (wp_ask asks (fun _ => rfl) here)
    intro row after there
    rw [enters row] at there
    exact ⟨row, there⟩
  have shows : ∀ written : σ × Course ι, (∃ row, At (.entered visit row) passes written) →
      wp (world.monitored (Course.advance run hooked)) (onCourse registry run)
        (currentType visit.step)
        (fun startedType after =>
          ∃ row, At (.recording visit (.enters startedType) row) passes after)
        RaisesHere written := by
    intro written entered
    obtain ⟨row, here⟩ := entered
    apply wp_post (wp_ask .shows (fun _ => rfl) here)
    intro startedType after there
    exact ⟨row, there⟩
  have starts : ∀ (startedType : String) (shown : σ × Course ι),
      (∃ row, At (.recording visit (.enters startedType) row) passes shown) →
      wp (world.monitored (Course.advance run hooked)) (onCourse registry run)
        (appendEvent run.id .stepStarted (some visit.step.id)
          (some [("type", .str startedType)]) true)
        (fun _ => At (.started visit) passes) RaisesHere shown := by
    intro startedType shown recording
    obtain ⟨row, here⟩ := recording
    exact wp_ask .records (fun _ => rfl) here
  have types : ∀ started : σ × Course ι, At (.started visit) passes started →
      wp (world.monitored (Course.advance run hooked)) (onCourse registry run)
        (currentType visit.step) (fun stepType => At (.typed visit stepType) passes) RaisesHere
        started := by
    intro started there
    exact wp_ask .types (fun _ => rfl) there
  apply wp_runStep_of entered shows starts types
  · intro stepType typed unsupported there
    exact wp_records (.refuses unsupported) (fun _ => rfl) there
  · intro stepType typed supported there
    obtain ⟨before, course⟩ := typed
    cases there
    constructor
    · exact .handles supported
    · intro outcome after served
      cases outcome with
      | ok outputRefs =>
          have handled : At (.handled visit (.ok outputRefs)) passes after := served.2
          exact wp_records .completes (fun _ => rfl) handled
      | error error =>
          have handled : At (.handled visit (.error error)) passes after := served.2
          exact wp_follows_settleRaised handled

theorem wp_follows_dispatchStep (entering : Entering registry run hooked visit passes state) :
    wp (world.monitored (Course.advance run hooked)) (onCourse registry run)
      (dispatchStep registry run hooked visit.step cursor) (VisitLeft run passes) RaisesHere
      state := by
  apply wp_dispatchStep_of (wp_follows_runStep entering)
  · intro ran settled there
    have streams : (Stage.settled visit ran).Streams := trivial
    exact wp_stays_drain streams there
  · intro ran reached drained there
    have judges : wp (world.monitored (Course.advance run hooked)) (onCourse registry run)
        (currentStatus ran)
        (fun status => At (.judged visit { ran with status := status }) passes) RaisesHere
        drained := wp_ask .judges (fun _ => rfl) there
    exact judges
  · intro ran reached judged there
    change judged.2.stage.Returns run
    rw [there]
    rfl
  · intro ran reached judged there
    have reports : Asks registry run (.judged visit { ran with status := .failed })
        (.appendEvent run.id .runFailed (some ran.id) none false) := .reportsRan rfl
    exact wp_follows_failRun reports (fun _ => rfl) there
  · intro reached failed there
    have streams : (Stage.ended (ι := ι) .failed).Streams := trivial
    exact wp_follows_return streams trivial there
  · intro ran reached status judged notAwaiting notFailed there
    change judged.2.stage.turns = true ∧ judged.2.passes = passes
    rw [there]
    exact ⟨Stage.turns_judged.mpr ⟨notAwaiting, notFailed⟩, rfl⟩

/-! ### Gates -/

/-- A step that needs clearing is cleared, and any other may be entered as it is. -/
theorem wp_follows_recordApproval (affordable : visit.Affordable)
    (gated : visit.step.status.Gated) (passed : visit.decision.stop = false)
    (here : At (.visiting visit) passes state) :
    wp (world.monitored (Course.advance run hooked)) (onCourse registry run)
      (recordApproval run visit.fresh.approvalPolicy visit.step visit.decision
        (normalizePreapproved visit.fresh.preapprovedTools))
      (fun _ => Entering registry run hooked visit passes) RaisesHere state := by
  simp only [recordApproval]
  split
  · rename_i needed
    apply wp_seq (wp_ask (.clears affordable gated passed needed) (fun _ => rfl) here)
    intro row after there
    apply wp_post (wp_ask .records (fun _ => rfl) there)
    intro _ after there
    exact ⟨.cleared visit, there, .proceeds, fun _ => rfl⟩
  · rename_i unneeded
    exact ⟨.visiting visit, here, .enters affordable fun _ => ⟨passed, unneeded⟩, fun _ => rfl⟩

theorem wp_follows_stopAtGate (affordable : visit.Affordable)
    (gated : visit.step.status.Gated) (stops : visit.decision.stop = true)
    (here : At (.visiting visit) passes state) :
    wp (world.monitored (Course.advance run hooked)) (onCourse registry run)
      (stopAtGate run visit.step visit.decision.reason cursor) (VisitLeft run passes) RaisesHere
      state := by
  have streams : (Stage.ended (ι := ι) .awaitingApproval).Streams := trivial
  have parked : wp (world.monitored (Course.advance run hooked)) (onCourse registry run)
      (parkPending run visit.step visit.decision.reason)
      (fun _ after => ∃ stage, At stage passes after ∧
        Asks registry run stage (.setRunStatus run .awaitingApproval) ∧
        ∀ row, stage.next run hooked (.setRunStatus run .awaitingApproval) row =
          .ended .awaitingApproval)
      RaisesHere state := by
    rw [parkPending]
    split
    · rename_i pending
      apply wp_seq (wp_ask (.parks affordable pending stops) (fun _ => rfl) here)
      intro row after there
      apply wp_seq (wp_ask .titles (fun _ => rfl) there)
      intro title after there
      apply wp_post (wp_ask .records (fun _ => rfl) there)
      intro _ after there
      exact ⟨.stopping visit, there, .waits, fun _ => rfl⟩
    · rename_i notPending
      have awaiting := gated.resolve_left notPending
      exact ⟨.visiting visit, here, .stops affordable awaiting stops, fun _ => rfl⟩
  apply wp_seq parked
  intro _ waiting known
  obtain ⟨stage, there, asks, waits⟩ := known
  apply wp_seq (wp_ask asks (fun _ => rfl) there)
  intro row after there
  rw [waits row] at there
  exact wp_follows_return streams trivial there

theorem wp_follows_approvalGate (affordable : visit.Affordable)
    (here : At (.visiting visit) passes state) :
    wp (world.monitored (Course.advance run hooked)) (onCourse registry run)
      (approvalGate registry run hooked visit.fresh visit.step cursor) (VisitLeft run passes)
      RaisesHere state := by
  apply wp_approvalGate_of
  · intro gated stops
    exact wp_follows_stopAtGate affordable gated stops here
  · intro gated passed
    exact wp_follows_recordApproval affordable gated passed here
  · intro notGated
    exact ⟨.visiting visit, here, .enters affordable fun gated => absurd gated notGated,
      fun _ => rfl⟩
  · intro after entering
    exact wp_follows_dispatchStep entering

theorem wp_follows_pauseForBudget {reason : String} (admitted : visit.Admitted)
    (exhausted : stepBudgetReason visit.fresh.budgetMaxSteps visit.steps = some reason ∨
      wallBudget visit.fresh.budgetMaxWallSeconds ≠ none)
    (here : At (.visiting visit) passes state) :
    wp (world.monitored (Course.advance run hooked)) (onCourse registry run)
      (pauseForBudget run reason cursor) (VisitLeft run passes) RaisesHere state := by
  have streams : (Stage.ended (ι := ι) .paused).Streams := trivial
  apply wp_seq (wp_ask (.exhausts admitted exhausted) (fun _ => rfl) here)
  intro _ after there
  apply wp_seq (wp_ask .pauses (fun _ => rfl) there)
  intro _ after there
  apply wp_seq (wp_ask .logsPause (fun _ => rfl) there)
  intro _ after there
  exact wp_follows_return streams trivial there

/-- The budget gate lets through what it can afford, and says why it does not. -/
theorem wp_follows_budgetExhaustedReason {driveStarted : ℚ} (admitted : visit.Admitted)
    (here : At (.visiting visit) passes state) :
    wp (world.monitored (Course.advance run hooked)) (onCourse registry run)
      (budgetExhaustedReason visit.fresh visit.steps driveStarted)
      (fun budgetReason after => At (.visiting visit) passes after ∧
        match budgetReason with
        | some reason => stepBudgetReason visit.fresh.budgetMaxSteps visit.steps = some reason ∨
            wallBudget visit.fresh.budgetMaxWallSeconds ≠ none
        | none => visit.Affordable)
      RaisesHere state := by
  rw [budgetExhaustedReason]
  cases spent : stepBudgetReason visit.fresh.budgetMaxSteps visit.steps with
  | some reason => exact ⟨here, .inl rfl⟩
  | none =>
      have affordable : visit.Affordable := ⟨admitted, spent⟩
      cases wall : wallBudget visit.fresh.budgetMaxWallSeconds with
      | none => exact ⟨here, affordable⟩
      | some maxWall =>
          have walled : wallBudget visit.fresh.budgetMaxWallSeconds ≠ none := by
            rw [wall]
            exact Option.some_ne_none maxWall
          apply wp_seq (wp_ask (.times affordable walled) (fun _ => rfl) here)
          intro time after there
          dsimp only
          split
          · exact ⟨there, .inr (Option.some_ne_none maxWall)⟩
          · exact ⟨there, affordable⟩

theorem wp_follows_budgetGate {driveStarted : ℚ} (admitted : visit.Admitted)
    (here : At (.visiting visit) passes state) :
    wp (world.monitored (Course.advance run hooked)) (onCourse registry run)
      (budgetGate registry run hooked driveStarted visit.fresh visit.steps visit.step cursor)
      (VisitLeft run passes) RaisesHere state := by
  apply wp_seq (wp_follows_budgetExhaustedReason admitted here)
  intro budgetReason after checked
  cases budgetReason with
  | some reason => exact wp_follows_pauseForBudget admitted checked.2 checked.1
  | none => exact wp_follows_approvalGate checked.2 checked.1

/-! ### Passes -/

theorem wp_follows_foundFailed (failed : visit.step.status = .failed)
    (here : At (.visiting visit) passes state) :
    wp (world.monitored (Course.advance run hooked)) (onCourse registry run)
      (foundFailed run hooked visit.step.id cursor) (VisitLeft run passes) RaisesHere state := by
  have streams : (Stage.ended (ι := ι) .failed).Streams := trivial
  have asked : wp (world.monitored (Course.advance run hooked)) (onCourse registry run)
      (runFailureReported run.id visit.step.id)
      (fun reported => At (.looked visit reported) passes) RaisesHere state := by
    apply wp_seq (wp_ask (.looks failed) (fun _ => rfl) here)
    intro events after there
    exact there
  apply wp_foundFailed_of (At (.ended .failed) passes) asked
  · intro after there
    exact wp_ask .repeats (fun _ => rfl) there
  · intro after there
    exact wp_follows_failRun .reports (fun _ => rfl) there
  · intro after there
    exact wp_follows_return streams trivial there

theorem wp_follows_visitStep {driveStarted : ℚ}
    (selected : firstUnfinished visit.steps = some visit.step)
    (here : At (.visiting visit) passes state) :
    wp (world.monitored (Course.advance run hooked)) (onCourse registry run)
      (visitStep registry run hooked driveStarted visit.fresh visit.steps visit.step cursor)
      (VisitLeft run passes) RaisesHere state := by
  have refuses : ∀ error, visit.Refused error → RaisesHere error state := by
    intro error refused
    rw [RaisesHere, here]
    exact refused
  apply wp_visitStep_of selected
  · intro text unlisted unknown
    exact refuses _ (.unknown unknown)
  · intro failed
    exact wp_follows_foundFailed failed here
  · intro reason running blocked
    exact refuses _ (.running running blocked)
  · intro reason waiting blocked
    have streams : (Stage.top (ι := ι)).Streams := trivial
    have written : ∀ row, Stage.next run hooked (.visiting visit)
        (.setStepState visit.step.id .skipped (.given none) .unset) row =
          .recording visit (.skips reason) row := by
      intro row
      change Stage.recording visit
        (.skips ((permissionBlockReason visit.step visit.fresh).getD "")) row = _
      rw [blocked, Option.getD_some]
    apply wp_seq (wp_records (.skips waiting blocked) written here)
    intro row after there
    apply wp_drainAndContinue_of
    apply wp_post (wp_stays_drain streams there)
    intro reached drained there
    change drained.2.stage.turns = true ∧ drained.2.passes = passes
    rw [there]
    exact ⟨rfl, rfl⟩
  · intro unsettled permitted
    exact wp_follows_budgetGate ⟨unsettled, permitted⟩ here

/-- Between two passes, with so many left. -/
def Turning (fuel left : Nat) (state : σ × Course ι) : Prop :=
  state.2.stage.turns = true ∧ state.2.passes + left = fuel

/-- The loop is done with the steps. -/
def Finishing (state : σ × Course ι) : Prop :=
  state.2.stage = .allDone

theorem wp_follows_loopPass {driveStarted : ℚ} {fuel left : Nat}
    (turning : Turning fuel (left + 1) state) :
    wp (world.monitored (Course.advance run hooked)) (onCourse registry run)
      (loopPass registry run hooked driveStarted cursor)
      (PassEnd (fun _ => Turning fuel left) (fun after => after.2.stage.Returns run)
        fun _ => Finishing) RaisesHere state := by
  obtain ⟨before, ⟨stage, passes⟩⟩ := state
  have turns : stage.turns = true := turning.1
  have counted : passes + 1 + left = fuel := by
    rw [← turning.2, Nat.add_assoc, Nat.add_comm 1]
  have here : At stage passes (before, (⟨stage, passes⟩ : Course ι)) := rfl
  have counts : (Course.mk stage passes).countPass (.getRun run.id) = passes + 1 := by
    simp only [Course.countPass, turns, ↓reduceIte]
  have again : ∀ next (after : σ × Course ι), VisitLeft run (passes + 1) next after →
      VisitEnd (fun _ => Turning fuel left) (fun after => after.2.stage.Returns run) next
        after := by
    intro next after visited
    cases next with
    | none => exact visited
    | some cursor => exact ⟨visited.1, by rw [visited.2, counted]⟩
  have rereads : wp (world.monitored (Course.advance run hooked)) (onCourse registry run)
      (getRun run.id) (fun current => At (.runRead current) (passes + 1)) RaisesHere
      (before, (⟨stage, passes⟩ : Course ι)) := by
    apply wp_post (wp_ask (.rereads turns) (fun _ => rfl) here)
    intro current after there
    rw [next_turns turns current, counts] at there
    exact there
  apply wp_loopPass_of (fun current steps => At (Stage.listed run current steps) (passes + 1))
    rereads
  · intro current after stopped there
    have streams : (Stage.runRead current).Streams := stopped
    have returns : (Stage.runRead current).Returns run := stopped
    exact wp_post (wp_follows_return streams returns there) again
  · intro current after ongoing there
    exact wp_ask (.lists ongoing) (fun _ => rfl) there
  · intro current steps after selected there
    rw [Stage.listed, selected] at there
    exact congrArg Course.stage there
  · intro current steps step after _ selected there
    rw [Stage.listed, selected] at there
    exact wp_post (wp_follows_visitStep selected there) again

theorem wp_follows_completeRun (finishing : Finishing state) :
    wp (world.monitored (Course.advance run hooked)) (onCourse registry run)
      (completeRun run hooked cursor) (fun _ after => after.2.stage.Returns run) RaisesHere
      state := by
  obtain ⟨before, ⟨stage, passes⟩⟩ := state
  cases finishing
  have drains : ∀ {stage : Stage ι}, stage.Streams → stage.Returns run →
      ∀ after : σ × Course ι, At stage passes after →
      wp (world.monitored (Course.advance run hooked)) (onCourse registry run)
        (drain run.id cursor) (fun _ after => after.2.stage.Returns run) RaisesHere after := by
    intro stage streams returns after there
    apply wp_post (wp_stays_drain streams there)
    intro _ drained ended
    rw [ended]
    exact returns
  have rereads : wp (world.monitored (Course.advance run hooked)) (onCourse registry run)
      (getRun run.id) (fun current => At (.finalRead current) passes) RaisesHere
      (before, (⟨.allDone, passes⟩ : Course ι)) :=
    wp_ask .finishes (fun _ => rfl) rfl
  apply wp_completeRun_of (At .completing passes) (At (Stage.hooking hooked .completed) passes)
    (At (.ended .completed) passes) rereads
  · intro current after stopped there
    have streams : (Stage.finalRead current).Streams := stopped
    have returns : (Stage.finalRead current).Returns run := stopped
    exact drains streams returns after there
  · intro current after ongoing there
    exact wp_ask (.completesRun ongoing) (fun _ => rfl) there
  · intro after there
    exact wp_ask .logsCompletion (fun _ => rfl) there
  · intro after there
    exact wp_follows_notify there
  · intro after there
    have streams : (Stage.ended (ι := ι) .completed).Streams := trivial
    exact drains streams trivial after there

/-- How a drive leaves its course. -/
def CourseEnds (run : RunView ι) (fuel : Nat) :
    Except (Raised ι) (Option Unit) → Course ι → Prop
  | .ok (some ()), course => course.stage.Returns run
  | .ok none, course => course.stage.turns = true ∧ course.passes = fuel
  | .error error, course => course.stage.Raises error

/-- Every call of a drive is one its stage asks for, in any environment. -/
theorem follows_course (fuel : Nat) (state : σ) :
    wp (world.monitored (Course.advance run hooked)) (onCourse registry run)
      (executeRunEvents registry run hooked fuel)
      (fun result after => CourseEnds run fuel (.ok result) after.2)
      (fun error after => CourseEnds run fuel (.error error) after.2)
      (state, Course.start) := by
  have begun : (Stage.begun (ι := ι)).Streams := trivial
  have start : At (ι := ι) .opening 0 (state, Course.start) := rfl
  have opens : wp (world.monitored (Course.advance run hooked)) (onCourse registry run)
      (nextSequence run.id) (fun _ => At .opened 0) RaisesHere (state, Course.start) :=
    wp_ask .opens (fun _ => rfl) start
  have terminal : ∀ (_ : Int) (opened : σ × Course ι), run.status ∈ terminalRunStatuses →
      At .opened 0 opened → opened.2.stage.Returns run := by
    intro _ opened ended there
    rw [there]
    exact ended
  have begins : ∀ (_ : Int) (opened : σ × Course ι), run.status ∉ terminalRunStatuses →
      At .opened 0 opened →
      wp (world.monitored (Course.advance run hooked)) (onCourse registry run)
        (setRunStatus run .running) (fun _ => At .begun 0) RaisesHere opened := by
    intro _ opened alive there
    exact wp_ask (.begins alive) (fun _ => rfl) there
  apply wp_executeRunEvents_counted (fun left _ => Turning fuel left)
    (fun after => after.2.stage.Returns run) (fun _ => Finishing) opens terminal begins
  · intro next marked there
    exact wp_stays_drain begun there
  · intro cursor drained there
    apply wp_post (wp_ask .clocks (fun _ => rfl) there)
    intro time after there
    rw [Turning, there]
    exact ⟨rfl, Nat.zero_add fuel⟩
  · intro driveStarted left cursor after turning
    exact wp_follows_loopPass turning
  · intro cursor after turning
    exact turning
  · intro after returned
    exact returned
  · intro cursor after finishing
    exact wp_follows_completeRun finishing

end Conformity

/-! ## Invariants of courses -/

/-- The mark is one the visit leads to. -/
def Mark.Fits (visit : Visit ι) : Mark → Prop
  | .skips reason => visit.step.status.Waiting ∧
      permissionBlockReason visit.step visit.fresh = some reason
  | .parks _ _ => visit.Affordable ∧ visit.step.status = .pending
  | _ => visit.Affordable

/-- What a stage tells of the visit it is in. -/
def Stage.Sound (stage : Stage ι) : Prop :=
  match stage with
  | .visiting visit => firstUnfinished visit.steps = some visit.step
  | .looked visit _ => firstUnfinished visit.steps = some visit.step ∧ visit.step.status = .failed
  | .exhausted visit _ => firstUnfinished visit.steps = some visit.step ∧ visit.Admitted
  | .pausing visit _ => firstUnfinished visit.steps = some visit.step ∧ visit.Admitted
  | .recording visit mark _ => firstUnfinished visit.steps = some visit.step ∧ mark.Fits visit
  | .decided visit mark => firstUnfinished visit.steps = some visit.step ∧ visit.Affordable ∧
      ∃ stepType message, mark = .fails stepType message ∨ mark = .drops stepType message
  | .parked visit _ => firstUnfinished visit.steps = some visit.step ∧ visit.Affordable ∧
      visit.step.status = .pending
  | .stopping visit => firstUnfinished visit.steps = some visit.step ∧ visit.Affordable
  | .cleared visit => firstUnfinished visit.steps = some visit.step ∧ visit.Affordable
  | .entered visit _ => firstUnfinished visit.steps = some visit.step ∧ visit.Affordable
  | .started visit => firstUnfinished visit.steps = some visit.step ∧ visit.Affordable
  | .typed visit _ => firstUnfinished visit.steps = some visit.step ∧ visit.Affordable
  | .handled visit _ => firstUnfinished visit.steps = some visit.step ∧ visit.Affordable
  | .rolledBack visit _ => firstUnfinished visit.steps = some visit.step ∧ visit.Affordable
  | .settled visit _ => firstUnfinished visit.steps = some visit.step ∧ visit.Affordable
  | .judged visit _ => firstUnfinished visit.steps = some visit.step ∧ visit.Affordable
  | .failing visit => firstUnfinished visit.steps = some visit.step
  | _ => True

section Soundness

variable [HostId ι] {world : World (engineSignature ι) (Raised ι) σ} {registry : ToolRegistry}
  {run : RunView ι} {hooked : Bool} {stage : Stage ι}

omit [HostId ι] in
theorem sound_hooking (status : RunStatus) : (Stage.hooking (ι := ι) hooked status).Sound := by
  cases hooked <;> trivial

/-- What a stage tells of its visit is kept by every answer. -/
theorem sound_next {op : EngineOp ι} (sound : stage.Sound) (asks : Asks registry run stage op)
    (result : op.Res) : (stage.next run hooked op result).Sound := by
  cases asks with
  | opens => trivial
  | begins _ => trivial
  | clocks => trivial
  | streams streams served =>
      rw [next_streams streams served result]
      exact sound
  | rereads turns =>
      rw [next_turns turns result]
      trivial
  | lists ongoing =>
      rename_i current
      change (Stage.listed run current result).Sound
      cases selected : firstUnfinished result with
      | none =>
          rw [Stage.listed, selected]
          trivial
      | some step =>
          rw [Stage.listed, selected]
          exact selected
  | looks failed => exact ⟨sound, failed⟩
  | skips waiting blocked =>
      refine ⟨sound, waiting, ?_⟩
      simp [blocked]
  | times _ _ => exact sound
  | exhausts admitted _ => exact ⟨sound, admitted⟩
  | parks affordable pending _ => exact ⟨sound, affordable, pending⟩
  | stops _ _ _ => trivial
  | clears affordable _ _ _ => exact ⟨sound, affordable⟩
  | enters affordable _ => exact ⟨sound, affordable⟩
  | repeats => trivial
  | reports => exact sound.1
  | pauses => exact sound
  | logsPause => trivial
  | records =>
      rename_i visit mark row
      cases mark with
      | skips reason => trivial
      | parks title reason => exact ⟨sound.1, sound.2.1⟩
      | _ => exact sound
  | titles => exact sound
  | waits => trivial
  | proceeds => exact sound
  | shows => exact sound
  | types => exact sound
  | refuses _ => exact sound
  | handles _ => exact sound
  | completes => exact sound
  | refetches => exact sound
  | rollsBack _ => exact sound
  | drops => exact ⟨sound.1, sound.2, _, _, .inr rfl⟩
  | fails => exact ⟨sound.1, sound.2, _, _, .inl rfl⟩
  | failsBug rollsBack =>
      rename_i visit error
      refine ⟨sound.1, sound.2, result, error.shortError, .inl ?_⟩
      cases error <;> first | rfl | exact rollsBack.elim
  | settles =>
      rename_i visit mark
      rcases sound with ⟨selected, affordable, stepType, message, rfl | rfl⟩
      · exact ⟨selected, affordable⟩
      · exact ⟨selected, affordable⟩
  | judges => exact sound
  | reportsRan _ => exact sound.1
  | failsRun => exact sound_hooking _
  | finishes => trivial
  | completesRun _ => trivial
  | logsCompletion => exact sound_hooking _
  | notifies => trivial

omit [HostId ι] in
theorem sound_fail {op : EngineOp ι} (sound : stage.Sound) (error : Raised ι) :
    (stage.fail op error).Sound := by
  cases op with
  | handle run step =>
      cases stage with
      | typed visit stepType => exact sound
      | _ => trivial
  | _ => trivial

omit [HostId ι] in
theorem StepStatus.Waiting.not_failed {status : StepStatus} (waiting : status.Waiting) :
    status ≠ .failed := by
  rcases waiting with rfl | rfl | rfl <;> nofun

omit [HostId ι] in
theorem Visit.Admitted.not_failed {visit : Visit ι} (admitted : visit.Admitted) :
    visit.step.status ≠ .failed := by
  rcases admitted.unsettled with waiting | running
  · exact waiting.not_failed
  · rw [running]
    nofun

/-- A handler is called for the step whose start was logged, by the type read since. -/
theorem asks_handle {handled : RunView ι} {step : StepView ι}
    (asks : Asks registry run stage (.handle handled step)) :
    ∃ visit stepType, stage = .typed visit stepType ∧ handled = run ∧
      step = { visit.step with type := stepType } := by
  generalize same : EngineOp.handle handled step = op at asks
  cases asks with
  | handles resolved =>
      cases same
      exact ⟨_, _, rfl, rfl, rfl⟩
  | streams streams served =>
      subst same
      exact served.elim
  | settles =>
      rename_i visit mark
      cases mark <;> cases same
  | _ => cases same

/-- The steps are listed once the run was read. -/
theorem asks_getSteps {runId : ι} (asks : Asks registry run stage (.getSteps runId)) :
    ∃ current, stage = .runRead current := by
  generalize same : EngineOp.getSteps runId = op at asks
  cases asks with
  | lists ongoing => exact ⟨_, rfl⟩
  | streams streams served =>
      subst same
      exact served.elim
  | settles =>
      rename_i visit mark
      cases mark <;> cases same
  | _ => cases same

/-- A step is completed when its handler has returned. -/
theorem asks_completed {stepId : ι} {message : Given (Option String)}
    {outputRefs : Given (Option Dict)} (sound : stage.Sound)
    (asks : Asks registry run stage (.setStepState stepId .completed message outputRefs)) :
    ∃ visit outputRefs, stage = .handled visit (.ok outputRefs) ∧ stepId = visit.step.id := by
  generalize same : EngineOp.setStepState stepId .completed message outputRefs = op at asks
  cases asks with
  | completes =>
      cases same
      exact ⟨_, _, rfl, rfl⟩
  | streams streams served =>
      subst same
      exact served.elim
  | settles =>
      rcases sound with ⟨_, _, _, _, rfl | rfl⟩ <;> cases same
  | _ => cases same

/-- The run is completed after the last read found it neither paused nor cancelled. -/
theorem asks_completion {completed : RunView ι}
    (asks : Asks registry run stage (.setRunStatus completed .completed)) :
    ∃ current, stage = .finalRead current := by
  generalize same : EngineOp.setRunStatus completed .completed = op at asks
  cases asks with
  | completesRun ongoing => exact ⟨_, rfl⟩
  | streams streams served =>
      subst same
      exact served.elim
  | settles =>
      rename_i visit mark
      cases mark <;> cases same
  | _ => cases same

/-- The course of a drive so far. -/
def courseOf (run : RunView ι) (hooked : Bool)
    (history : History (engineSignature ι) (Raised ι) σ) : Course ι :=
  history.foldl (Course.advance run hooked) .start

@[simp] theorem courseOf_nil :
    courseOf (σ := σ) run hooked [] = .start := rfl

@[simp] theorem courseOf_append (history : History (engineSignature ι) (Raised ι) σ)
    (call : Served (engineSignature ι) (Raised ι) σ) :
    courseOf run hooked (history ++ [call]) =
      (courseOf run hooked history).advance run hooked call :=
  List.foldl_append

theorem sound_advance {course : Course ι} {op : EngineOp ι} (sound : course.stage.Sound)
    (asks : Asks registry run course.stage op) (before after : σ)
    (answer : Except (Raised ι) op.Res) :
    (course.advance run hooked ⟨before, op, answer, after⟩).stage.Sound := by
  cases answer with
  | ok result => exact sound_next sound asks result
  | error error => exact sound_fail sound error

/-- A drive's invariants.  An assertion on the state, the stage and the calls so far,
kept by every call a stage may ask for, holds at every call of the drive and at its
end; and the drive ends at a stage where it may. -/
theorem course_invariant {fuel : Nat} {state last : σ}
    {outcome : Except (Raised ι) (Option Unit)}
    {history : History (engineSignature ι) (Raised ι) σ}
    (invariant : σ → Course ι → History (engineSignature ι) (Raised ι) σ → Prop)
    (runs : Runs world.recorded (executeRunEvents registry run hooked fuel) (state, []) outcome
      (last, history))
    (kept : ∀ {before : σ} {course : Course ι}
      {record : History (engineSignature ι) (Raised ι) σ} {op : EngineOp ι}
      {answer : Except (Raised ι) op.Res} {after : σ},
      course.stage.Sound → Asks registry run course.stage op → invariant before course record →
      world.serve before op answer after →
      invariant after (course.advance run hooked ⟨before, op, answer, after⟩)
        (record ++ [⟨before, op, answer, after⟩]))
    (initially : invariant state .start []) :
    (∀ earlier call later, history = earlier ++ call :: later →
      Asks registry run (courseOf run hooked earlier).stage call.op ∧
      (courseOf run hooked earlier).stage.Sound ∧
      invariant call.before (courseOf run hooked earlier) earlier) ∧
    invariant last (courseOf run hooked history) history ∧
    CourseEnds run fuel outcome (courseOf run hooked history) := by
  have follows := runs.monitor_invariant (fun before record =>
      (courseOf run hooked record).stage.Sound ∧
        invariant before (courseOf run hooked record) record)
    (follows_course fuel state) (fun asks known served => by
      rw [courseOf_append]
      exact ⟨sound_advance known.1 asks _ _ _, kept known.1 asks known.2 served⟩)
    ⟨trivial, initially⟩
  rcases follows with ⟨met, ⟨_, kept⟩, ends⟩
  refine ⟨met, kept, ?_⟩
  cases outcome with
  | ok result => exact ends
  | error error => exact ends

end Soundness

end SlimxAgent
