import SlimxAgent.Course
import SlimxAgent.Host

/-!
# Terminal statuses read by a pass

A run status of `terminalRunStatuses` may arrive from the host between any two calls
of a drive: a reaper fails a reclaimed run while its tool executes.  The drive learns
of it when the next pass reads the run.

The host is arbitrary.
-/

namespace SlimxAgent

open Interaction

variable {ι σ : Type}

/-- The call dispatches a step, writes a status, appends an event or notifies the
host. -/
def EngineOp.acts : EngineOp ι → Bool
  | .handle _ _ => true
  | .setStepState _ _ _ _ => true
  | .setRunStatus _ _ => true
  | .appendEvent _ _ _ _ _ => true
  | .onRunEnd _ _ => true
  | _ => false

/-- What the passes of a drive have read of the end of its run. -/
structure TopView (ι : Type) where
  course : Course ι
  /-- The terminal statuses found at the top of a pass, oldest first. -/
  found : List RunStatus
  /-- A call acted after one was found. -/
  acted : Bool

namespace TopView

def start : TopView ι := ⟨.start, [], false⟩

/-- The terminal status that the read at the top of a pass finds. -/
def terminalFound (stage : Stage ι) (call : Served (engineSignature ι) (Raised ι) σ) :
    List RunStatus :=
  match call with
  | ⟨_, .getRun _, .ok (some current), _⟩ =>
      if stage.turns ∧ current.status ∈ terminalRunStatuses then [current.status] else []
  | _ => []

def advance [HostId ι] (run : RunView ι) (hooked : Bool) (view : TopView ι)
    (call : Served (engineSignature ι) (Raised ι) σ) : TopView ι where
  course := view.course.advance run hooked call
  found := view.found ++ terminalFound view.course.stage call
  acted := view.acted || (!view.found.isEmpty && call.op.acts)

/-- Every terminal status found is `cancelled`. -/
def OnlyCancelled (view : TopView ι) : Prop :=
  ∀ status ∈ view.found, status = .cancelled

end TopView

/-- The drive only streams from here on. -/
def Stage.Leaves : Stage ι → Prop
  | .runRead current => userStopped current = true
  | .broken _ => True
  | _ => False

section Proof

variable [HostId ι] {world : World (engineSignature ι) (Raised ι) σ} {registry : ToolRegistry}
  {run : RunView ι} {hooked : Bool}

/-- A drive that leaves asks for the stream only. -/
theorem leaves_streams {stage : Stage ι} {op : EngineOp ι} (leaves : stage.Leaves)
    (asks : Asks registry run stage op) : stage.Streams ∧ op.Streams run.id := by
  cases asks with
  | streams streams served => exact ⟨streams, served⟩
  | rereads turns => cases stage <;> first | exact leaves.elim | cases turns
  | lists ongoing => exact absurd leaves (by simp [Stage.Leaves, ongoing])
  | _ => exact leaves.elim

omit [HostId ι] in
theorem acts_of_streams {op : EngineOp ι} {runId : ι} (served : op.Streams runId) :
    op.acts = false := by
  cases op <;> first | rfl | exact served.elim

/-- It goes on leaving. -/
theorem leaves_advance {course : Course ι} {op : EngineOp ι} (leaves : course.stage.Leaves)
    (asks : Asks registry run course.stage op) (before after : σ)
    (answer : Except (Raised ι) op.Res) :
    (course.advance run hooked ⟨before, op, answer, after⟩).stage.Leaves := by
  rcases leaves_streams leaves asks with ⟨streams, served⟩
  cases answer with
  | ok result =>
      change (course.stage.next run hooked op result).Leaves
      rw [next_streams streams served result]
      exact leaves
  | error error => cases op <;> trivial

/-- A read that finds the run cancelled stops its pass. -/
theorem leaves_found {course : Course ι} {call : Served (engineSignature ι) (Raised ι) σ}
    (found : TopView.terminalFound course.stage call ≠ [])
    (cancelled : ∀ status ∈ TopView.terminalFound course.stage call, status = .cancelled) :
    (course.advance run hooked call).stage.Leaves := by
  rcases call with ⟨before, op, answer, after⟩
  cases op with
  | getRun runId =>
      rcases answer with error | _ | current
      · exact absurd rfl found
      · exact absurd rfl found
      · simp only [TopView.terminalFound] at found cancelled
        split at found
        · rename_i terminal
          rw [if_pos terminal, List.forall_mem_singleton] at cancelled
          change (course.stage.next run hooked (.getRun runId) (some current)).Leaves
          rw [next_turns terminal.1]
          simp [Stage.Leaves, userStopped, userStopStatuses, cancelled]
        · exact absurd rfl found
  | _ => exact absurd rfl found

/-- As long as nothing but `cancelled` is found: no call acted after it, and the drive
leaves. -/
structure Heeding (view : TopView ι) : Prop where
  still : view.OnlyCancelled → view.acted = false
  leaves : view.OnlyCancelled → view.found ≠ [] → view.course.stage.Leaves

theorem Heeding.advance {view : TopView ι} {op : EngineOp ι} (heeding : Heeding view)
    (asks : Asks registry run view.course.stage op) (before after : σ)
    (answer : Except (Raised ι) op.Res) :
    Heeding (view.advance run hooked ⟨before, op, answer, after⟩) := by
  have earlier : (view.advance run hooked ⟨before, op, answer, after⟩).OnlyCancelled →
      view.OnlyCancelled := by
    intro only status member
    exact only status (List.mem_append_left _ member)
  constructor
  · intro only
    simp only [TopView.advance, heeding.still (earlier only), Bool.false_or]
    by_cases empty : view.found = []
    · simp [empty]
    · simp [acts_of_streams (leaves_streams (heeding.leaves (earlier only) empty) asks).2]
  · intro only nonempty
    by_cases empty : view.found = []
    · apply leaves_found
      · simpa [TopView.advance, empty] using nonempty
      · intro status member
        exact only status (List.mem_append_right _ member)
    · exact leaves_advance (heeding.leaves (earlier only) empty) asks _ _ _

end Proof

/-- Terminal statuses and the passes of a drive, in any host environment: when the
passes find no terminal status but `cancelled`, no call acts after one is found. -/
theorem terminal_absorbing [HostId ι] {world : World (engineSignature ι) (Raised ι) σ}
    (registry : ToolRegistry) (run : RunView ι) (hooked : Bool) (fuel : Nat) {state last : σ}
    {outcome : Except (Raised ι) (Option Unit)}
    {history : History (engineSignature ι) (Raised ι) σ}
    (runs : Runs world.recorded (executeRunEvents registry run hooked fuel) (state, []) outcome
      (last, history))
    (only : (history.foldl (TopView.advance run hooked) .start).OnlyCancelled) :
    (history.foldl (TopView.advance run hooked) .start).acted = false := by
  have kept := course_invariant (fun _ course record =>
      (record.foldl (TopView.advance run hooked) .start).course = course ∧
        Heeding (record.foldl (TopView.advance run hooked) .start)) runs
    (fun _ asks known _ => by
      rcases known with ⟨rfl, heeding⟩
      rw [List.foldl_append]
      exact ⟨rfl, heeding.advance asks _ _ _⟩)
    ⟨rfl, fun _ => rfl, fun _ found => absurd rfl found⟩
  exact kept.2.1.2.still only

/-- A run with two model calls. -/
def twoCallsHost : HostState :=
  .holding ⟨"run-1", .other "planned" RunStatus.planned_unlisted, some .autoComplete, false,
    .json .null, .null, .null, .json .null⟩
    [("step-1", ⟨"model_call", "Ask", .pending, false, none, none⟩),
      ("step-2", ⟨"model_call", "Ask again", .pending, false, none, none⟩)]

/-- A host that ends the run while a tool executes. -/
def endingRules (status : RunStatus) : HostRules :=
  ⟨fun _ state => (.completed none, state.setStatus status), fun _ state => state⟩

/-- A cancel during the first call is heeded. -/
theorem terminal_absorbing_cancelled :
    ∃ last history,
      Runs (World.ofFn ((endingRules .cancelled).respond fun _ => 0)).recorded
        (executeRunEvents ⟨["model_call"], by decide⟩ twoCallsHost.run true 3) (twoCallsHost, [])
        (.ok (some ())) (last, history) ∧
      (history.foldl (TopView.advance twoCallsHost.run true) .start).found = [.cancelled] ∧
      (history.foldl (TopView.advance twoCallsHost.run true) .start).acted = false := by
  rcases record_ofFn ((endingRules .cancelled).respond fun _ => 0)
    (TopView.advance twoCallsHost.run true)
    (executeRunEvents ⟨["model_call"], by decide⟩ twoCallsHost.run true 3) twoCallsHost .start
    with ⟨history, runs, view⟩
  have found : (history.foldl (TopView.advance twoCallsHost.run true) .start).found =
      [.cancelled] := by
    rw [view]
    decide
  refine ⟨_, history, runs, found, terminal_absorbing _ _ _ _ runs ?_⟩
  intro status member
  rw [found] at member
  exact List.mem_singleton.mp member

/-- A failure written by a reaper during the first call is not: the second one is
dispatched. -/
theorem terminal_absorbing_reaped :
    ∃ last history,
      Runs (World.ofFn ((endingRules .failed).respond fun _ => 0)).recorded
        (executeRunEvents ⟨["model_call"], by decide⟩ twoCallsHost.run true 3) (twoCallsHost, [])
        (.ok (some ())) (last, history) ∧
      ¬ (history.foldl (TopView.advance twoCallsHost.run true) .start).acted = false := by
  rcases record_ofFn ((endingRules .failed).respond fun _ => 0)
    (TopView.advance twoCallsHost.run true)
    (executeRunEvents ⟨["model_call"], by decide⟩ twoCallsHost.run true 3) twoCallsHost .start
    with ⟨history, runs, view⟩
  refine ⟨_, history, runs, ?_⟩
  rw [view]
  decide

end SlimxAgent
