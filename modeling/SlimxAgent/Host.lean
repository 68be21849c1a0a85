import SlimxAgent.Store
import SlimxAgent.Interaction.AppendOnly
import SlimxAgent.Interaction.Translation
import Mathlib.Data.Int.Order.Basic
import Mathlib.Logic.Function.Basic

/-!
# A host in memory

One run, its steps and its event log, as a host keeps them, and the store that
serves a drive from these rows in-process.  What the host's tools do, and what
its run-end epilogue does, are parameters: arbitrary functions of the whole
state.
-/

namespace SlimxAgent

open Interaction

/-- A step row. -/
structure StepRow where
  type : String
  title : String
  status : StepStatus
  requiresApproval : Bool
  error : Option String
  outputRefs : Option Dict
  deriving Inhabited

namespace StepRow

/-- What the engine reads of a row. -/
def view (stepId : String) (row : StepRow) : StepView String :=
  ⟨stepId, row.type, row.title, row.status, row.requiresApproval⟩

/-- A step transition: fields left unset keep their value. -/
def transition (row : StepRow) (status : StepStatus) (error : Given (Option String))
    (outputRefs : Given (Option Dict)) : StepRow :=
  { row with
    status := status
    error := match error with
      | .unset => row.error
      | .given value => value
    outputRefs := match outputRefs with
      | .unset => row.outputRefs
      | .given value => value }

end StepRow

/-- A logged event; its sequence is given by its position.  A host logs events of its
own too, so the type is any text. -/
structure LogEntry where
  type : String
  stepId : Option String
  payload : Option Dict

namespace LogEntry

/-- The event in its wire shape. -/
def event (runId : String) (sequence : Nat) (entry : LogEntry) : Event where
  fields := [("id", .str ("evt-" ++ toString sequence)), ("agent_run_id", .str runId),
    ("agent_step_id", .ofOption .str entry.stepId), ("sequence", .int sequence),
    ("type", .str entry.type), ("payload_json", .ofOption .obj entry.payload),
    ("created_at", .null)]
  sequence := sequence
  sequenced := by simp [Dict.get, Dict.get?, List.lookup_cons]

end LogEntry

/-- The rows of one run, and what left the host's sight: the events a consumer was
handed and the run ends that were reported. -/
structure HostState where
  run : RunView String
  order : List String
  rows : String → StepRow
  /-- Where the host starts numbering its events. -/
  firstSequence : Nat
  entries : List LogEntry
  yielded : List Event
  runEnds : List RunStatus

namespace HostState

/-- A host that holds a run with these steps, and no event yet. -/
def holding (run : RunView String) (steps : List (String × StepRow)) : HostState :=
  ⟨run, steps.map Prod.fst, fun stepId => (List.lookup stepId steps).getD default, 1, [], [], []⟩

/-- The sequence of the next event. -/
def nextSequence (state : HostState) : Nat :=
  state.firstSequence + state.entries.length

/-- The durable log. -/
def log (state : HostState) : List Event :=
  state.entries.mapIdx fun index entry => entry.event state.run.id (state.firstSequence + index)

/-- The steps in execution order. -/
def steps (state : HostState) : List (StepView String) :=
  state.order.map fun stepId => (state.rows stepId).view stepId

def setStatus (state : HostState) (status : RunStatus) : HostState :=
  { state with run := { state.run with status := status } }

def setRow (state : HostState) (stepId : String) (row : StepRow) : HostState :=
  { state with rows := Function.update state.rows stepId row }

def append (state : HostState) (entry : LogEntry) : HostState :=
  { state with entries := state.entries ++ [entry] }

/-- The log keeps what it holds when entries are added. -/
theorem log_extends {state later : HostState} {added : List LogEntry}
    (entries : later.entries = state.entries ++ added) (sameRun : later.run.id = state.run.id)
    (sameStart : later.firstSequence = state.firstSequence) :
    later.log = state.log ++ added.mapIdx fun index entry =>
      entry.event state.run.id (state.nextSequence + index) := by
  rw [HostState.log, HostState.log, entries, sameRun, sameStart, List.mapIdx_append]
  congr 2
  funext index entry
  rw [HostState.nextSequence, Nat.add_comm index, Nat.add_assoc]

/-- Sequences are positions. -/
@[simp] theorem sequence_log {state : HostState} {index : Nat}
    (bound : index < state.log.length) :
    state.log[index].sequence = state.firstSequence + index := by
  simp [HostState.log, LogEntry.event]

theorem ordered_log (state : HostState) : AppendOnly.Ordered Event.sequence state.log := by
  rw [AppendOnly.Ordered, List.pairwise_iff_getElem]
  intro earlier later _ _ before
  rw [sequence_log, sequence_log]
  omega

theorem sequence_nonneg_of_mem_log {state : HostState} {event : Event}
    (member : event ∈ state.log) : 0 ≤ event.sequence := by
  obtain ⟨index, bound, equal⟩ := List.getElem_of_mem member
  rw [← equal, sequence_log bound]
  omega

theorem sequence_lt_of_mem_log {state : HostState} {event : Event}
    (member : event ∈ state.log) : event.sequence < state.nextSequence := by
  obtain ⟨index, bound, equal⟩ := List.getElem_of_mem member
  have length : state.log.length = state.entries.length := by simp [HostState.log]
  rw [← equal, sequence_log bound, HostState.nextSequence]
  omega

end HostState

/-- How a tool ends when the host says how it ended. -/
inductive ToolOutcome where
  | completed (outputRefs : Option Dict)
  | skipped (reason : String)
  | failed (error : String)
  | prepared (reason : String)

/-- What a handler returns or raises for it. -/
def ToolOutcome.native {ι : Type} : ToolOutcome → Except (Raised ι) (Option Dict)
  | .completed outputRefs => .ok outputRefs
  | .skipped reason => .error (.stepNotApplicable reason)
  | .failed error => .error (.stepExecutionError error)
  | .prepared reason => .error (.stepActionPrepared reason)

/-- The host's own code: its tools, which may change any row while they run, and its
run-end epilogue. -/
structure HostRules where
  invoke : (stepId : String) → HostState → ToolOutcome × HostState
  epilogue : RunStatus → HostState → HostState

namespace HostRules

/-- Serve a drive in-process from the rows.  Reads of a run or a step that the host
does not list answer `None`, and a step object is a copy of its row. -/
def respond (rules : HostRules) (clock : HostState → ℚ) :
    (op : EngineOp String) → HostState → Except (Raised String) op.Res × HostState
  | .getRun runId, state =>
      (.ok (if runId = state.run.id then some state.run else none), state)
  | .getSteps _, state => (.ok state.steps, state)
  | .getStep stepId, state =>
      (.ok (if stepId ∈ state.order then some ((state.rows stepId).view stepId) else none), state)
  | .setRunStatus _ status, state =>
      (.ok (state.setStatus status).run, state.setStatus status)
  | .setStepState stepId status error outputRefs, state =>
      let row := (state.rows stepId).transition status error outputRefs
      (.ok (row.view stepId), state.setRow stepId row)
  | .rollback, state => (.ok (), state)
  | .currentType step, state => (.ok step.type, state)
  | .currentTitle step, state => (.ok step.title, state)
  | .currentStatus step, state => (.ok step.status, state)
  | .appendEvent _ type stepId payload _, state =>
      (.ok (), state.append ⟨type.text, stepId, payload⟩)
  | .nextSequence _, state => (.ok state.nextSequence, state)
  | .drainedEvents _ afterSequence, state =>
      (.ok (state.log.filter fun event => decide (afterSequence < event.sequence)), state)
  | .handle _ step, state =>
      let invoked := rules.invoke step.id state
      (invoked.1.native, invoked.2)
  | .onRunEnd _ status, state =>
      (.ok (), rules.epilogue status { state with runEnds := state.runEnds ++ [status] })
  | .now, state => (.ok (clock state), state)
  | .yieldEvent payload, state => (.ok (), { state with yielded := state.yielded ++ [payload] })

/-- Only calls that leave the store may raise. -/
theorem leavesStore_of_raised {rules : HostRules} {clock : HostState → ℚ} {op : EngineOp String}
    {state after : HostState} {error : Raised String}
    (served : rules.respond clock op state = (.error error, after)) : op.LeavesStore := by
  have raised : (rules.respond clock op state).1 = .error error := congrArg Prod.fst served
  cases op with
  | handle run step => trivial
  | onRunEnd run status => trivial
  | yieldEvent payload => trivial
  | _ => cases raised

end HostRules

/-- Tools that complete, an epilogue that does nothing. -/
def plainRules : HostRules :=
  ⟨fun _ state => (.completed none, state), fun _ state => state⟩

/-- A run of one model call. -/
def modelCallHost : HostState :=
  .holding ⟨"run-1", .awaitingApproval, some .autoComplete, false, .json .null, .null, .null,
    .json .null⟩ [("step-1", ⟨"model_call", "Ask", .pending, false, none, none⟩)]

end SlimxAgent
