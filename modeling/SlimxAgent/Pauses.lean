import SlimxAgent.Course
import SlimxAgent.Host
import SlimxAgent.Twins
import SlimxAgent.Interaction.Evaluation

/-!
# Pauses

A host whose handlers may pause the run while they work.  A pass with a pause is
compared with the same pass without one: the pause is all that the states differ by
afterwards, unless the pass fails the run and overwrites it.
-/

namespace SlimxAgent

open Interaction

/-- An exception that a step ends with, as skipped or as failed. -/
def Raised.SettlesStep {ι : Type} : Raised ι → Prop
  | .stepActionPrepared _ => False
  | .stepOutcomeUnknown _ _ => False
  | .baseException _ => False
  | _ => True

/-- The host's own code.  How a handler ends, and which steps it appends, depends on its
step alone; the hook leaves the run alone. -/
structure FixedTools where
  handler : StepView String → Except (Raised String) (Option Dict)
  settles : ∀ step error, handler step = .error error → error.SettlesStep
  appended : StepView String → List (String × StepRow)
  epilogue : RunStatus → HostState → HostState
  epilogue_run : ∀ status state, (epilogue status state).run = state.run

/-- Append steps to the plan. -/
def HostState.extend (state : HostState) (steps : List (String × StepRow)) : HostState :=
  { state with
    order := state.order ++ steps.map Prod.fst
    rows := fun stepId => (steps.lookup stepId).getD (state.rows stepId) }

/-- A host whose handlers may pause the run. -/
structure PausableHost where
  host : HostState
  /-- A handler has paused the run since it was opened. -/
  paused : Bool

/-- Which dispatches come with a pause. -/
abbrev PauseSchedule := StepView String → HostState → Bool

/-- No pauses. -/
def noPauses : PauseSchedule := fun _ _ => false

namespace FixedTools

/-- The host apart from its handlers. -/
def rules (tools : FixedTools) : HostRules :=
  ⟨fun _ state => (.completed none, state), tools.epilogue⟩

/-- Serve a drive.  A handler appends its steps, and pauses the run where the schedule
has it. -/
def respond (tools : FixedTools) (clock : HostState → ℚ) (pauses : PauseSchedule) :
    (op : EngineOp String) → PausableHost → Except (Raised String) op.Res × PausableHost
  | .handle _ step, ⟨host, paused⟩ =>
      (tools.handler step,
        if pauses step host then ⟨(host.extend (tools.appended step)).setStatus .paused, true⟩
        else ⟨host.extend (tools.appended step), paused⟩)
  | op, ⟨host, paused⟩ =>
      let answered := tools.rules.respond clock op host
      (answered.1, ⟨answered.2, paused⟩)

/-- Drive the run as the host holds it. -/
def drive (tools : FixedTools) (clock : HostState → ℚ) (registry : ToolRegistry) (hooked : Bool)
    (pauses : PauseSchedule) (fuel : Nat) (state : PausableHost) :
    Except (Raised String) (Option Unit) × PausableHost :=
  (executeRunEvents registry state.host.run hooked fuel).eval (tools.respond clock pauses) state

end FixedTools

/-! ## What pauses do to a state -/

namespace PausableHost

/-- The state, with the run paused by a handler. -/
def shadow (state : PausableHost) : PausableHost :=
  ⟨state.host.setStatus .paused, true⟩

/-- The state, after a pause that was overwritten. -/
def flagged (state : PausableHost) : PausableHost :=
  ⟨state.host, true⟩

end PausableHost

section Serving

variable {tools : FixedTools} {clock : HostState → ℚ} {pauses : PauseSchedule}

/-- No handler, no pause. -/
def EngineOp.Undisturbed {ι : Type} : EngineOp ι → Prop
  | .handle _ _ => False
  | _ => True

theorem respond_undisturbed (op : EngineOp String) (state : PausableHost) (quiet : op.Undisturbed) :
    tools.respond clock pauses op state = tools.respond clock noPauses op state := by
  cases op with
  | handle _ _ => exact quiet.elim
  | _ => rfl

theorem respond_flagged (op : EngineOp String) (state : PausableHost) (quiet : op.Undisturbed) :
    tools.respond clock pauses op state.flagged =
      ((tools.respond clock noPauses op state).1,
        (tools.respond clock noPauses op state).2.flagged) := by
  cases op with
  | handle _ _ => exact quiet.elim
  | _ => rfl

/-- The operation settles a step, logs, or streams. -/
def EngineOp.Settling {ι : Type} : EngineOp ι → Prop
  | .getRun _ => False
  | .setRunStatus _ _ => False
  | .handle _ _ => False
  | .onRunEnd _ _ => False
  | .now => False
  | _ => True

theorem EngineOp.Settling.undisturbed {ι : Type} {op : EngineOp ι} (settling : op.Settling) :
    op.Undisturbed := by
  cases op with
  | handle _ _ => exact settling.elim
  | _ => trivial

theorem EngineOp.Settling.runFree {ι : Type} {op : EngineOp ι} (settling : op.Settling) :
    op.RunFree := by
  cases op with
  | getRun _ | setRunStatus _ _ | handle _ _ | onRunEnd _ _ => exact settling.elim
  | _ => trivial

/-- What does not touch the run does not notice a pause. -/
theorem respond_shadow (op : EngineOp String) (state : PausableHost) (free : op.Settling) :
    tools.respond clock pauses op state.shadow =
      ((tools.respond clock noPauses op state).1,
        (tools.respond clock noPauses op state).2.shadow) := by
  cases op with
  | getRun _ | setRunStatus _ _ | handle _ _ | onRunEnd _ _ | now => exact free.elim
  | _ => rfl

/-- What the code between reads of the run keeps. -/
structure PausableHost.Onward (state later : PausableHost) : Prop where
  run : later.host.run = state.host.run
  paused : later.paused = state.paused
  first : later.host.firstSequence = state.host.firstSequence
  logged : state.host.entries.length ≤ later.host.entries.length

theorem PausableHost.Onward.refl (state : PausableHost) : state.Onward state :=
  ⟨rfl, rfl, rfl, Nat.le_refl _⟩

theorem PausableHost.Onward.trans {state middle later : PausableHost} (first : state.Onward middle)
    (second : middle.Onward later) : state.Onward later :=
  ⟨second.run.trans first.run, second.paused.trans first.paused, second.first.trans first.first,
    first.logged.trans second.logged⟩

theorem respond_onward (op : EngineOp String) (state : PausableHost) (free : op.RunFree) :
    state.Onward (tools.respond clock noPauses op state).2 := by
  cases op with
  | getRun _ | setRunStatus _ _ | handle _ _ | onRunEnd _ _ => exact free.elim
  | appendEvent runId type stepId payload commit =>
      refine ⟨rfl, rfl, rfl, ?_⟩
      change state.host.entries.length ≤ (state.host.entries ++ [_]).length
      simp
  | _ => exact ⟨rfl, rfl, rfl, Nat.le_refl _⟩

variable {α : Type} {program : Engine String α} {state : PausableHost}

theorem eval_undisturbed (quiet : program.Propagates EngineOp.Undisturbed) (state : PausableHost) :
    program.eval (tools.respond clock pauses) state =
      program.eval (tools.respond clock noPauses) state :=
  eval_commutes id respond_undisturbed quiet state

theorem eval_flagged (quiet : program.Propagates EngineOp.Undisturbed) (state : PausableHost) :
    program.eval (tools.respond clock pauses) state.flagged =
      ((program.eval (tools.respond clock noPauses) state).1,
        (program.eval (tools.respond clock noPauses) state).2.flagged) :=
  eval_commutes PausableHost.flagged respond_flagged quiet state

theorem eval_shadow (free : program.Propagates EngineOp.Settling) (state : PausableHost) :
    program.eval (tools.respond clock pauses) state.shadow =
      ((program.eval (tools.respond clock noPauses) state).1,
        (program.eval (tools.respond clock noPauses) state).2.shadow) :=
  eval_commutes PausableHost.shadow respond_shadow free state

theorem eval_onward (free : program.Propagates EngineOp.RunFree) (state : PausableHost) :
    state.Onward (program.eval (tools.respond clock noPauses) state).2 :=
  eval_kept (fun op _ allowed known => known.trans (respond_onward op _ allowed)) free (.refl state)

/-! ## The parts of a pass -/

theorem eval_yieldAll (payloads : List Event) (cursor : Int) (state : PausableHost) :
    (yieldAll payloads cursor).eval (tools.respond clock noPauses) state =
      (.ok (payloads.foldl (fun _ payload => payload.sequence) cursor),
        ⟨{ state.host with yielded := state.host.yielded ++ payloads }, state.paused⟩) := by
  induction payloads generalizing cursor state with
  | nil => simp [yieldAll]
  | cons payload payloads ih =>
      have next := ih payload.sequence
        ⟨{ state.host with yielded := state.host.yielded ++ [payload] }, state.paused⟩
      simp only [List.append_assoc, List.singleton_append] at next
      exact next

/-- The cursor is between the start of the numbering and the end of the log. -/
def HostState.Within (host : HostState) (cursor : Int) : Prop :=
  host.firstSequence - 1 ≤ cursor ∧ cursor ≤ host.nextSequence - 1

/-- Reading on from such a cursor ends at the end of the log. -/
theorem HostState.Within.read {host : HostState} {cursor : Int} (inside : host.Within cursor) :
    (host.log.filter fun event => decide (cursor < event.sequence)).foldl
      (fun _ payload => payload.sequence) cursor = host.nextSequence - 1 := by
  rcases host with ⟨run, order, rows, first, entries, yielded, runEnds⟩
  rcases inside with ⟨above, below⟩
  simp only [HostState.log, HostState.nextSequence] at above below ⊢
  rcases entries.eq_nil_or_concat with rfl | ⟨front, entry, rfl⟩
  · simp at below ⊢
    omega
  · rw [List.concat_eq_append] at below ⊢
    rw [List.length_append, List.length_singleton] at below ⊢
    rw [List.mapIdx_concat, List.filter_append, List.foldl_append]
    by_cases past : cursor < (entry.event run.id (first + front.length)).sequence
    · rw [List.filter_cons_of_pos (by simpa using past)]
      change ((entry.event run.id (first + front.length)).sequence : Int) = _
      simp only [LogEntry.event]
      omega
    · have reached : cursor = first + front.length := by
        simp only [LogEntry.event] at past
        omega
      have earlier : (front.mapIdx fun index entry => entry.event run.id (first + index)).filter
          (fun event => decide (cursor < event.sequence)) = [] := by
        rw [List.filter_eq_nil_iff]
        intro event member
        rcases List.mem_mapIdx.mp member with ⟨index, bound, rfl⟩
        rw [decide_eq_true_eq]
        change ¬ cursor < ((first + index : Nat) : Int)
        omega
      rw [earlier, List.filter_cons_of_neg (by simpa using past)]
      change cursor = _
      omega

/-- At the end of the log there is nothing to read. -/
theorem HostState.filter_caughtUp (host : HostState) :
    host.log.filter (fun event => decide ((host.nextSequence : Int) - 1 < event.sequence)) =
      [] := by
  rw [List.filter_eq_nil_iff]
  intro event member
  have behind := HostState.sequence_lt_of_mem_log member
  simp only [decide_eq_true_eq]
  omega

theorem eval_drain {cursor : Int} {state : PausableHost} (inside : state.host.Within cursor)
    (runId : String) :
    ∃ later, (drain runId cursor).eval (tools.respond clock noPauses) state =
      (.ok (later.host.nextSequence - 1), later) ∧ state.Onward later := by
  refine ⟨⟨{ state.host with
    yielded := state.host.yielded ++
      state.host.log.filter fun event => decide (cursor < event.sequence) }, state.paused⟩, ?_,
    rfl, rfl, rfl, Nat.le_refl _⟩
  have read := inside.read
  change (yieldAll _ cursor).eval _ state = _
  rw [eval_yieldAll, read]
  rfl

theorem eval_drain_caughtUp (runId : String) (state : PausableHost) :
    (drain runId (state.host.nextSequence - 1)).eval (tools.respond clock noPauses) state =
      (.ok (state.host.nextSequence - 1 : Int), state) := by
  change (yieldAll (state.host.log.filter _) _).eval _ state = _
  rw [HostState.filter_caughtUp]
  rfl

theorem settling_drain (runId : String) : AllowsDrain (EngineOp.Settling (ι := String)) runId :=
  ⟨fun _ => trivial, fun _ => trivial⟩

theorem settling_step (runId stepId : String) :
    AllowsSettling (EngineOp.Settling (ι := String)) runId stepId := by
  have transition (status : StepStatus) (type : EventType) :
      AllowsTransition (EngineOp.Settling (ι := String)) runId stepId status type :=
    ⟨fun _ _ => trivial, fun _ => trivial⟩
  exact ⟨transition .., transition .., transition .., trivial, trivial, fun _ => trivial⟩

/-- A step settles, and not at the gate. -/
theorem eval_settleStep (run : RunView String) (step : StepView String) (state : PausableHost) :
    ∃ ran later, (settleStep run step (tools.handler step)).eval
      (tools.respond clock noPauses) state =
      (.ok ran, later) ∧ ran.status ≠ .awaitingApproval := by
  cases outcome : tools.handler step with
  | ok outputRefs => exact ⟨_, _, rfl, nofun⟩
  | error error =>
      have settles := tools.settles step error outcome
      cases error with
      | stepActionPrepared _ | stepOutcomeUnknown _ _ | baseException _ => exact settles.elim
      | _ => exact ⟨_, _, rfl, nofun⟩

/-- A handler ends as it does, whether it pauses the run or not. -/
theorem respond_handle (run : RunView String) (step : StepView String) (state : PausableHost) :
    ∃ after, tools.respond clock noPauses (.handle run step) state = (tools.handler step, after) ∧
      state.Onward after ∧
      (tools.respond clock pauses (.handle run step) state = (tools.handler step, after) ∨
        tools.respond clock pauses (.handle run step) state =
          (tools.handler step, after.shadow)) := by
  refine ⟨⟨state.host.extend (tools.appended step), state.paused⟩, rfl,
    ⟨rfl, rfl, rfl, Nat.le_refl _⟩, ?_⟩
  simp only [FixedTools.respond]
  cases pauses step state.host with
  | false => exact .inl rfl
  | true => exact .inr rfl

/-- The state in which the handler of a step is looked up. -/
def PausableHost.start (state : PausableHost) (step : StepView String) : PausableHost :=
  ⟨(state.host.setRow step.id ((state.host.rows step.id).transition .running .unset .unset)).append
    ⟨EventType.stepStarted.text, some step.id, some [("type", .str step.type)]⟩, state.paused⟩

theorem PausableHost.onward_start (state : PausableHost) (step : StepView String) :
    state.Onward (state.start step) := by
  refine ⟨rfl, rfl, rfl, ?_⟩
  change state.host.entries.length ≤ (state.host.entries ++ [_]).length
  simp

/-- A supported step enters its handler. -/
theorem eval_runStep_handle {registry : ToolRegistry} {step : StepView String}
    (supported : registry.resolve step.type = true) (run : RunView String) (state : PausableHost)
    (pauses : PauseSchedule) :
    (runStep registry run step).eval (tools.respond clock pauses) state =
      (settleStep run step (tools.handler step)).eval (tools.respond clock pauses)
        (tools.respond clock pauses (.handle run step) (state.start step)).2 := by
  have calls : (handle run step).eval (tools.respond clock pauses) (state.start step) =
      tools.respond clock pauses (.handle run step) (state.start step) := eval_perform ..
  rw [runStep]
  apply (eval_bind_ok rfl).trans
  apply (eval_bind_ok rfl).trans
  apply (eval_bind_ok rfl).trans
  apply (eval_bind_ok rfl).trans
  rw [supported]
  change ((handle run step).attempt >>= settleStep run step).eval _ (state.start step) = _
  rw [eval_bind, eval_attempt, calls]
  rfl

/-- A step of another type fails. -/
theorem eval_runStep_refused {registry : ToolRegistry} {step : StepView String}
    (unsupported : registry.resolve step.type = false) (run : RunView String)
    (state : PausableHost) (pauses : PauseSchedule) :
    (runStep registry run step).eval (tools.respond clock pauses) state =
      (failStep run step.id step.type ("Unsupported step type " ++ reprStr step.type)).eval
        (tools.respond clock pauses) (state.start step) := by
  rw [runStep]
  apply (eval_bind_ok rfl).trans
  apply (eval_bind_ok rfl).trans
  apply (eval_bind_ok rfl).trans
  apply (eval_bind_ok rfl).trans
  rw [unsupported]
  rfl

/-- A step runs; with a pause, the run is paused afterwards, and nothing else differs. -/
theorem eval_runStep (registry : ToolRegistry) (run : RunView String) (step : StepView String)
    (state : PausableHost) :
    ∃ ran later, (runStep registry run step).eval (tools.respond clock noPauses) state =
        (.ok ran, later) ∧ state.Onward later ∧ ran.status ≠ .awaitingApproval ∧
      ((runStep registry run step).eval (tools.respond clock pauses) state = (.ok ran, later) ∨
        (runStep registry run step).eval (tools.respond clock pauses) state =
          (.ok ran, later.shadow)) := by
  have starts := state.onward_start step
  cases resolved : registry.resolve step.type with
  | false =>
      have settling := failStep_propagates (settling_step run.id step.id).fails step.type
        ("Unsupported step type " ++ reprStr step.type)
      have onward := starts.trans (@eval_onward tools clock _ _
        (settling.mono fun _ => EngineOp.Settling.runFree) (state.start step))
      refine ⟨_, _, eval_runStep_refused resolved run state noPauses, onward, nofun, .inl ?_⟩
      rw [eval_runStep_refused resolved,
        eval_undisturbed (settling.mono fun _ => EngineOp.Settling.undisturbed)]
      rfl
  | true =>
      rcases respond_handle run step (state.start step) with ⟨after, handled, extended, paused⟩
      rcases eval_settleStep run step after with ⟨ran, later, settles, settled⟩
      have settling := settleStep_propagates (settling_step run.id step.id) (tools.handler step)
      have settledOnward : after.Onward
          ((settleStep run step (tools.handler step)).eval (tools.respond clock noPauses)
            after).2 :=
        eval_onward (settling.mono fun _ => EngineOp.Settling.runFree) after
      rw [settles] at settledOnward
      refine ⟨ran, later, ?_, (starts.trans extended).trans settledOnward, settled, ?_⟩
      · rw [eval_runStep_handle resolved, handled, settles]
      · rw [eval_runStep_handle resolved]
        rcases paused with same | shadowed
        · left
          rw [same, eval_undisturbed (settling.mono fun _ => EngineOp.Settling.undisturbed),
            settles]
        · right
          rw [shadowed, eval_shadow settling, settles]

/-! ## Passes with and without pauses -/

/-- The run is running, and is the one that the drive was given. -/
structure Underway (run : RunView String) (state : PausableHost) : Prop where
  running : state.host.run.status = .running
  drives : run = { state.host.run with status := run.status }
  unlimited : wallBudget state.host.run.budgetMaxWallSeconds = none
  opened : state.paused = false

theorem Underway.id {run : RunView String} (underway : Underway run state) :
    run.id = state.host.run.id := by
  rw [underway.drives]

theorem Underway.onward {run : RunView String} {later : PausableHost}
    (underway : Underway run state)
    (onward : state.Onward later) : Underway run later where
  running := by rw [onward.run, underway.running]
  drives := by rw [onward.run, ← underway.drives]
  unlimited := by rw [onward.run, underway.unlimited]
  opened := by rw [onward.paused, underway.opened]

theorem HostState.Within.onward {later : PausableHost} {cursor : Int}
    (inside : state.host.Within cursor) (onward : state.Onward later) :
    later.host.Within cursor := by
  rcases inside with ⟨above, below⟩
  have logged := onward.logged
  simp only [HostState.Within, HostState.nextSequence, onward.first] at above below ⊢
  omega

/-- How a part of a drive ends without pauses and with them.  As long as the drive goes
on, the run is under way, and the pause is the difference; where it is over, no pause is left. -/
inductive Ends (run : RunView String) (again : Int → α) :
    Except (Raised String) α × PausableHost → Except (Raised String) α × PausableHost → Prop where
  | onward {later : PausableHost} : Underway run later →
      Ends run again (.ok (again (later.host.nextSequence - 1)), later)
        (.ok (again (later.host.nextSequence - 1)), later)
  | paused {later : PausableHost} : Underway run later →
      Ends run again (.ok (again (later.host.nextSequence - 1)), later)
        (.ok (again (later.host.nextSequence - 1)), later.shadow)
  | ended {outcome : Except (Raised String) α} {later : PausableHost} :
      (∀ cursor, outcome ≠ .ok (again cursor)) → later.paused = false →
      Ends run again (outcome, later) (outcome, later)
  | overwritten {outcome : Except (Raised String) α} {later : PausableHost} :
      (∀ cursor, outcome ≠ .ok (again cursor)) → later.paused = false →
      later.host.run.status ≠ .paused → Ends run again (outcome, later) (outcome, later.flagged)

theorem Ends.raised {again : Int → α} {error : Raised String} {later : PausableHost}
    (opened : later.paused = false) :
    Ends run again (.error error, later) (.error error, later) := by
  apply Ends.ended _ opened
  intro cursor reached
  cases reached

/-- The operation calls no handler and leaves the run unpaused. -/
def EngineOp.Unpausing {ι : Type} : EngineOp ι → Prop
  | .handle _ _ => False
  | .setRunStatus _ status => status ≠ .paused
  | _ => True

theorem EngineOp.Unpausing.undisturbed {ι : Type} {op : EngineOp ι} (unpausing : op.Unpausing) :
    op.Undisturbed := by
  cases op with
  | handle _ _ => exact unpausing.elim
  | _ => trivial

theorem respond_paused (op : EngineOp String) (state : PausableHost) (quiet : op.Undisturbed) :
    (tools.respond clock noPauses op state).2.paused = state.paused := by
  cases op with
  | handle _ _ => exact quiet.elim
  | _ => rfl

theorem respond_unpausing (op : EngineOp String) (state : PausableHost) (unpausing : op.Unpausing)
    (running : state.host.run.status ≠ .paused) :
    (tools.respond clock noPauses op state).2.host.run.status ≠ .paused := by
  cases op with
  | handle _ _ => exact unpausing.elim
  | setRunStatus _ status => exact unpausing
  | onRunEnd _ status =>
      change (tools.epilogue status _).run.status ≠ .paused
      rw [tools.epilogue_run]
      exact running
  | _ => exact running

theorem eval_paused (quiet : program.Propagates EngineOp.Undisturbed)
    (opened : state.paused = false) :
    (program.eval (tools.respond clock noPauses) state).2.paused = false :=
  eval_kept (fun op state quiet opened => (respond_paused op state quiet).trans opened) quiet opened

theorem eval_unpausing (unpausing : program.Propagates EngineOp.Unpausing)
    (running : state.host.run.status ≠ .paused) :
    (program.eval (tools.respond clock noPauses) state).2.host.run.status ≠ .paused :=
  eval_kept (fun op state => respond_unpausing op state) unpausing running

/-- A part without handlers that ends the drive. -/
theorem ends_ended {run : RunView String} {again : Int → α}
    (quiet : program.Propagates EngineOp.Undisturbed) (opened : state.paused = false)
    (leaves : ∀ cursor,
      (program.eval (tools.respond clock noPauses) state).1 ≠ .ok (again cursor)) :
    Ends run again (program.eval (tools.respond clock noPauses) state)
      (program.eval (tools.respond clock pauses) state) := by
  have same : program.eval (tools.respond clock pauses) state =
      program.eval (tools.respond clock noPauses) state := eval_undisturbed quiet state
  have unpaused : (program.eval (tools.respond clock noPauses) state).2.paused = false :=
    eval_paused quiet opened
  rw [same]
  exact .ended leaves unpaused

theorem drainAndReturn_leaves (run : RunView String) (cursor reached : Int)
    (state : PausableHost) :
    ((drainAndReturn run cursor).eval (tools.respond clock noPauses) state).1 ≠
      .ok (some reached) :=
  eval_bind_ne (fun _ _ returned => by cases returned) state

section Passes

variable {run : RunView String} {registry : ToolRegistry} {hooked : Bool} {step : StepView String}
  {cursor : Int}

theorem undisturbed_drain (runId : String) :
    AllowsDrain (EngineOp.Undisturbed (ι := String)) runId :=
  ⟨fun _ => trivial, fun _ => trivial⟩

theorem unpausing_failing (run : RunView String) : AllowsFailing EngineOp.Unpausing run :=
  ⟨fun _ => trivial, nofun, trivial⟩

theorem failed_unpausing (run : RunView String) (hooked : Bool) (stepId : String) (cursor : Int) :
    (do failRun hooked run stepId; drainAndReturn run cursor).Propagates EngineOp.Unpausing := by
  apply Program.Propagates.bind
  · exact failRun_propagates (unpausing_failing run) hooked stepId
  · intro _
    exact drainAndReturn_propagates ⟨fun _ => trivial, fun _ => trivial⟩ cursor

/-- The failure of the run overwrites the pause. -/
theorem eval_failed_shadow (run : RunView String) (hooked : Bool) (stepId : String) (cursor : Int)
    (state : PausableHost) :
    (do failRun hooked run stepId; drainAndReturn run cursor).eval (tools.respond clock pauses)
        state.shadow =
      (((do failRun hooked run stepId; drainAndReturn run cursor).eval
          (tools.respond clock noPauses) state).1,
        ((do failRun hooked run stepId; drainAndReturn run cursor).eval
          (tools.respond clock noPauses) state).2.flagged) := by
  have quiet : (do notifyRunEnd hooked run .failed; drainAndReturn run cursor).Propagates
      EngineOp.Undisturbed := by
    apply Program.Propagates.bind
    · exact notifyRunEnd_propagates trivial hooked
    · intro _
      exact drainAndReturn_propagates (undisturbed_drain run.id) cursor
  let failed : PausableHost := ⟨(state.host.append ⟨EventType.runFailed.text, some stepId,
    none⟩).setStatus .failed, state.paused⟩
  have reported : (do notifyRunEnd hooked run .failed; drainAndReturn run cursor).eval
      (tools.respond clock pauses) failed.flagged =
        (((do notifyRunEnd hooked run .failed; drainAndReturn run cursor).eval
            (tools.respond clock noPauses) failed).1,
          ((do notifyRunEnd hooked run .failed; drainAndReturn run cursor).eval
            (tools.respond clock noPauses) failed).2.flagged) := eval_flagged quiet failed
  exact reported

theorem eval_dispatchStep {ran : StepView String} {first second : PausableHost} {reached : Int}
    (ranTo : (runStep registry run step).eval (tools.respond clock pauses) state = (.ok ran, first))
    (settled : ran.status ≠ .awaitingApproval)
    (drainedTo : (drain run.id cursor).eval (tools.respond clock pauses) first =
      (.ok reached, second)) :
    (dispatchStep registry run hooked step cursor).eval (tools.respond clock pauses) state =
      (if ran.status = StepStatus.failed then do
          failRun hooked run ran.id
          drainAndReturn run reached
        else return some reached).eval (tools.respond clock pauses) second := by
  rw [dispatchStep]
  apply (eval_bind_ok ranTo).trans
  apply (eval_bind_ok drainedTo).trans
  apply (eval_bind_ok rfl).trans
  rw [if_neg settled]
  rfl

/-- Dispatching a step. -/
theorem dispatchStep_ends (underway : Underway run state) (inside : state.host.Within cursor)
    (registry : ToolRegistry) (hooked : Bool) (step : StepView String) :
    Ends run some ((dispatchStep registry run hooked step cursor).eval
      (tools.respond clock noPauses)
      state) ((dispatchStep registry run hooked step cursor).eval (tools.respond clock pauses)
      state) := by
  rcases @eval_runStep tools clock pauses registry run step state with
    ⟨ran, middle, runs, onward, settled, paused⟩
  rcases @eval_drain tools clock _ _ (inside.onward onward) run.id with ⟨later, drains, drained⟩
  have going := underway.onward (onward.trans drained)
  have failing := failed_unpausing run hooked ran.id (later.host.nextSequence - 1)
  have quiet := failing.mono fun _ => EngineOp.Unpausing.undisturbed
  have leaves : ∀ reached, ((do
      failRun hooked run ran.id
      drainAndReturn run (later.host.nextSequence - 1)).eval (tools.respond clock noPauses)
        later).1 ≠
        .ok (some reached) := by
    intro reached
    exact eval_bind_ne (fun _ => drainAndReturn_leaves run _ reached) later
  rw [eval_dispatchStep runs settled drains]
  rcases paused with same | shadowed
  · have drains' : (drain run.id cursor).eval (tools.respond clock pauses) middle =
        (.ok (later.host.nextSequence - 1), later) :=
      (eval_undisturbed (drain_propagates (undisturbed_drain run.id) cursor) middle).trans drains
    rw [eval_dispatchStep same settled drains']
    split
    · exact ends_ended quiet going.opened leaves
    · exact .onward going
  · have drains' : (drain run.id cursor).eval (tools.respond clock pauses) middle.shadow =
        (.ok (later.host.nextSequence - 1), later.shadow) := by
      rw [eval_shadow (drain_propagates (settling_drain run.id) cursor), drains]
    rw [eval_dispatchStep shadowed settled drains']
    split
    · have unpaused := @eval_paused tools clock _ _ _ quiet going.opened
      have running : later.host.run.status ≠ .paused := by
        rw [going.running]
        exact nofun
      have survives := @eval_unpausing tools clock _ _ _ failing running
      rw [eval_failed_shadow]
      exact .overwritten leaves unpaused survives
    · exact .paused going

theorem eval_recordApproval (run : RunView String) (policy : Option ApprovalPolicy)
    (step : StepView String) (decision : GateDecision) (preapprovedTools : List String)
    (state : PausableHost) :
    ∃ later, state.Onward later ∧ ∀ pauses : PauseSchedule,
      (recordApproval run policy step decision preapprovedTools).eval (tools.respond clock pauses)
        state = (.ok (), later) := by
  have onward : state.Onward ((recordApproval run policy step decision preapprovedTools).eval
      (tools.respond clock noPauses) state).2 :=
    eval_onward (recordApproval_propagates (free_transition ..) policy decision preapprovedTools)
      state
  refine ⟨_, onward, ?_⟩
  intro pauses
  rw [recordApproval]
  split <;> rfl

/-- The approval gate. -/
theorem approvalGate_ends {fresh : RunView String} (underway : Underway run state)
    (inside : state.host.Within cursor) (registry : ToolRegistry) (hooked : Bool)
    (step : StepView String) :
    Ends run some
      ((approvalGate registry run hooked fresh step cursor).eval
        (tools.respond clock noPauses) state)
      ((approvalGate registry run hooked fresh step cursor).eval (tools.respond clock pauses)
        state) := by
  by_cases gated : step.status.Gated
  · cases decided : (gateDecision fresh step).stop with
    | true =>
        rw [approvalGate_stopped gated decided]
        apply ends_ended
        · exact stopAtGate_propagates ⟨⟨fun _ _ => trivial, fun _ => trivial⟩, fun _ => trivial⟩
            trivial (undisturbed_drain run.id) _ cursor
        · exact underway.opened
        · intro reached
          refine eval_bind_ne (fun _ middle => ?_) state
          exact eval_bind_ne (fun _ => drainAndReturn_leaves run cursor reached) middle
    | false =>
        rcases @eval_recordApproval tools clock run fresh.approvalPolicy step
          (gateDecision fresh step) (normalizePreapproved fresh.preapprovedTools) state with
          ⟨later, onward, records⟩
        rw [approvalGate_cleared gated decided, eval_bind, eval_bind, records, records]
        exact dispatchStep_ends (underway.onward onward) (inside.onward onward) registry hooked step
  · rw [approvalGate_passed gated]
    exact dispatchStep_ends underway inside registry hooked step

/-- The budget gate, without a wall budget. -/
theorem budgetGate_ends (underway : Underway run state) (inside : state.host.Within cursor)
    (registry : ToolRegistry) (hooked : Bool) (driveStarted : ℚ) (steps : List (StepView String))
    (step : StepView String) :
    Ends run some
      ((budgetGate registry run hooked driveStarted state.host.run steps step cursor).eval
        (tools.respond clock noPauses) state)
      ((budgetGate registry run hooked driveStarted state.host.run steps step cursor).eval
        (tools.respond clock pauses) state) := by
  rw [budgetGate, budgetExhaustedReason_unlimited underway.unlimited, Program.done_bind]
  cases stepBudgetReason state.host.run.budgetMaxSteps steps with
  | none => exact approvalGate_ends underway inside registry hooked step
  | some reason =>
      apply ends_ended
      · exact pauseForBudget_propagates ⟨fun _ => trivial, trivial, fun _ => trivial⟩
          (undisturbed_drain run.id) reason cursor
      · exact underway.opened
      · intro reached
        refine eval_bind_ne (fun _ first => ?_) state
        refine eval_bind_ne (fun _ second => ?_) first
        exact eval_bind_ne (fun _ => drainAndReturn_leaves run cursor reached) second

theorem foundFailed_ends (underway : Underway run state) (hooked : Bool) (stepId : String)
    (cursor : Int) :
    Ends run some ((foundFailed run hooked stepId cursor).eval (tools.respond clock noPauses) state)
      ((foundFailed run hooked stepId cursor).eval (tools.respond clock pauses) state) := by
  apply ends_ended
  · exact foundFailed_propagates ⟨fun _ => trivial, trivial, trivial⟩ (undisturbed_drain run.id)
      hooked stepId cursor
  · exact underway.opened
  · intro reached
    refine eval_bind_ne (fun reported middle => ?_) state
    cases reported with
    | true => exact eval_bind_ne (fun _ => drainAndReturn_leaves run cursor reached) middle
    | false => exact eval_bind_ne (fun _ => drainAndReturn_leaves run cursor reached) middle

/-- A step that is skipped for want of a grant. -/
theorem skips_ends (underway : Underway run state) (inside : state.host.Within cursor)
    (step : StepView String) (reason : String) :
    Ends run some
      ((do
        let _ ← skipStep run step.id step.type reason
        drainAndContinue run cursor).eval (tools.respond clock noPauses) state)
      ((do
        let _ ← skipStep run step.id step.type reason
        drainAndContinue run cursor).eval (tools.respond clock pauses) state) := by
  have settling : (do
      let _ ← skipStep run step.id step.type reason
      drainAndContinue run cursor).Propagates EngineOp.Settling := by
    apply Program.Propagates.bind
    · exact skipStep_propagates (settling_step run.id step.id).skips step.type reason
    · intro _
      exact drainAndContinue_propagates (settling_drain run.id) cursor
  let skipped := ((skipStep run step.id step.type reason).eval
    (tools.respond clock noPauses) state).2
  have onward : state.Onward skipped :=
    eval_onward (skipStep_propagates (free_transition ..) step.type reason) state
  rcases @eval_drain tools clock _ _ (inside.onward onward) run.id with ⟨later, drains, drained⟩
  have same := @eval_undisturbed tools clock pauses _ _
    (settling.mono fun _ => EngineOp.Settling.undisturbed) state
  have reaches : (do
      let _ ← skipStep run step.id step.type reason
      drainAndContinue run cursor).eval (tools.respond clock noPauses) state =
        (.ok (some (later.host.nextSequence - 1)), later) := by
    change (drainAndContinue run cursor).eval (tools.respond clock noPauses) skipped = _
    rw [drainAndContinue, eval_bind, drains]
    rfl
  rw [same, reaches]
  exact .onward (underway.onward (onward.trans drained))

/-- One step at the first of its gates. -/
theorem visitStep_ends (underway : Underway run state) (inside : state.host.Within cursor)
    (registry : ToolRegistry) (hooked : Bool) (driveStarted : ℚ) (steps : List (StepView String))
    (step : StepView String) :
    Ends run some
      ((visitStep registry run hooked driveStarted state.host.run steps step cursor).eval
        (tools.respond clock noPauses) state)
      ((visitStep registry run hooked driveStarted state.host.run steps step cursor).eval
        (tools.respond clock pauses) state) := by
  have gates := @budgetGate_ends tools clock pauses state run cursor underway inside registry hooked
    driveStarted steps step
  rw [visitStep]
  cases step.status with
  | other text unlisted => exact .raised underway.opened
  | failed => exact foundFailed_ends underway hooked step.id cursor
  | running =>
      cases permissionBlockReason step state.host.run with
      | some reason => exact .raised underway.opened
      | none => exact gates
  | pending | awaitingApproval | approved =>
      cases permissionBlockReason step state.host.run with
      | some reason => exact skips_ends underway inside step reason
      | none => exact gates
  | completed | skipped => exact gates

/-- What a visit decides about the loop. -/
theorem Ends.afterVisit {calm disturbed : Except (Raised String) (Option Int) × PausableHost}
    (ends : Ends run some calm disturbed) :
    Ends run (.inl : Int → Int ⊕ LoopExit) (calm.1.map SlimxAgent.afterVisit, calm.2)
      (disturbed.1.map SlimxAgent.afterVisit, disturbed.2) := by
  have leaves {outcome : Except (Raised String) (Option Int)}
      (never : ∀ cursor, outcome ≠ .ok (some cursor)) (cursor : Int) :
      outcome.map SlimxAgent.afterVisit ≠ .ok (.inl cursor) := by
    rcases outcome with error | _ | reached
    · exact nofun
    · exact nofun
    · exact absurd rfl (never reached)
  cases ends with
  | onward underway => exact .onward underway
  | paused underway => exact .paused underway
  | ended never opened => exact .ended (leaves never) opened
  | overwritten never opened survives => exact .overwritten (leaves never) opened survives

/-- A pass of a run that is running goes on to its first unfinished step. -/
theorem eval_loopPass (underway : Underway run state) (registry : ToolRegistry) (hooked : Bool)
    (driveStarted : ℚ) (cursor : Int) :
    (loopPass registry run hooked driveStarted cursor).eval (tools.respond clock pauses) state =
      match firstUnfinished state.host.steps with
      | none => (.ok (.inr (.allDone cursor)), state)
      | some step =>
          (((visitStep registry run hooked driveStarted state.host.run state.host.steps step
              cursor).eval (tools.respond clock pauses) state).1.map SlimxAgent.afterVisit,
            ((visitStep registry run hooked driveStarted state.host.run state.host.steps step
              cursor).eval (tools.respond clock pauses) state).2) := by
  have rereads : (getRun run.id).eval (tools.respond clock pauses) state =
      (.ok (some state.host.run), state) := by
    change (Except.ok (if run.id = state.host.run.id then some state.host.run else none), state) = _
    rw [if_pos underway.id]
  have goes : userStopped (some state.host.run) = false := by
    simp [userStopped, userStopStatuses, underway.running]
  rw [loopPass, eval_bind, rereads]
  dsimp only
  rw [goes]
  dsimp only
  have lists : (getSteps run.id).eval (tools.respond clock pauses) state =
      (.ok state.host.steps, state) := rfl
  rw [eval_bind, lists]
  dsimp only
  cases firstUnfinished state.host.steps with
  | none => rfl
  | some step =>
      exact eval_map (visitStep registry run hooked driveStarted state.host.run
        state.host.steps step
        cursor) SlimxAgent.afterVisit state

/-- One pass of a run that is running. -/
theorem loopPass_ends (underway : Underway run state) (inside : state.host.Within cursor)
    (registry : ToolRegistry) (hooked : Bool) (driveStarted : ℚ) :
    Ends run .inl
      ((loopPass registry run hooked driveStarted cursor).eval (tools.respond clock noPauses) state)
      ((loopPass registry run hooked driveStarted cursor).eval (tools.respond clock pauses)
        state) := by
  rw [eval_loopPass underway, eval_loopPass underway]
  cases firstUnfinished state.host.steps with
  | none => exact .ended nofun underway.opened
  | some step =>
      apply Ends.afterVisit
      exact visitStep_ends underway inside registry hooked driveStarted state.host.steps step

/-- A pass that finds the run paused has nothing left to yield. -/
theorem eval_loopPass_shadow (underway : Underway run state) (registry : ToolRegistry)
    (hooked : Bool)
    (driveStarted : ℚ) :
    (loopPass registry run hooked driveStarted (state.host.nextSequence - 1)).eval
        (tools.respond clock pauses) state.shadow = (.ok (.inr .returned), state.shadow) := by
  have rereads : (getRun run.id).eval (tools.respond clock pauses) state.shadow =
      (.ok (some state.shadow.host.run), state.shadow) := by
    change (Except.ok (if run.id = state.host.run.id then some state.shadow.host.run else none),
      state.shadow) = _
    rw [if_pos underway.id]
  have drains : (drain run.id (state.host.nextSequence - 1)).eval (tools.respond clock pauses)
      state.shadow = (.ok (state.host.nextSequence - 1 : Int), state.shadow) := by
    rw [eval_shadow (drain_propagates (settling_drain run.id) _), eval_drain_caughtUp]
  have stops : userStopped (some state.shadow.host.run) = true := rfl
  rw [loopPass, eval_bind, rereads]
  dsimp only
  rw [stops]
  dsimp only
  rw [drainAndReturn, eval_bind, eval_bind, drains]
  rfl

end Passes

end Serving

end SlimxAgent
