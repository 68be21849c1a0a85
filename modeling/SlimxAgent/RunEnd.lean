import SlimxAgent.Host
import SlimxAgent.Outline
import SlimxAgent.Interaction.Monitor

/-!
# How drives end runs

A terminal run status, its event and the run-end hook belong together.  The store
calls succeed; handlers, hook and consumer may end in any way, and the log may
hold anything.
-/

namespace SlimxAgent

open Interaction

variable {ι σ : Type}

/-- A store whose calls succeed, with the event log of one run behind it. -/
structure SteadyStore (world : World (engineSignature ι) (Raised ι) σ) (runId : ι)
    (log : σ → List Event) : Prop where
  succeeds : ∀ {state op error after}, world.serve state op (.error error) after →
    op.LeavesStore
  drained : ∀ {state sequence events after},
    world.serve state (.drainedEvents runId sequence) (.ok events) after →
    events = (log after).filter fun event => decide (sequence < event.sequence)

/-- What a drive does to its run's end. -/
inductive EndAct where
  | wrote (status : RunStatus)
  | appended (type : EventType)
  | notified (status : RunStatus)
  deriving DecidableEq

/-- What the calls of a drive say about the end of its run. -/
structure EndView (ι : Type) where
  /-- Run status writes, run-terminal events and hook calls, oldest first. -/
  acts : List EndAct
  /-- The step of the current pass, when it was already failed when read. -/
  found : Option ι
  /-- The log when the drive first looked into it after that. -/
  shown : Option (List Event)

namespace EndView

def start : EndView ι := ⟨[], none, none⟩

/-- The selected step, if it is failed. -/
def foundFailed (steps : List (StepView ι)) : Option ι :=
  match firstUnfinished steps with
  | some step => if step.status = .failed then some step.id else none
  | none => none

def advance (log : σ → List Event) (view : EndView ι)
    (call : Served (engineSignature ι) (Raised ι) σ) : EndView ι :=
  match call with
  | ⟨_, .setRunStatus _ status, .ok _, _⟩ => { view with acts := view.acts ++ [.wrote status] }
  | ⟨_, .appendEvent _ .runCompleted _ _ _, .ok _, _⟩ =>
      { view with acts := view.acts ++ [.appended .runCompleted] }
  | ⟨_, .appendEvent _ .runFailed _ _ _, .ok _, _⟩ =>
      { view with acts := view.acts ++ [.appended .runFailed] }
  | ⟨_, .onRunEnd _ status, _, _⟩ => { view with acts := view.acts ++ [.notified status] }
  | ⟨_, .getSteps _, .ok steps, _⟩ => { view with found := foundFailed steps, shown := none }
  | ⟨_, .drainedEvents _ _, .ok _, after⟩ =>
      { view with shown := view.found.map fun _ => view.shown.getD (log after) }
  | _ => view

variable [HostId ι]

/-- The selected step was already failed when read, and the log already reports
it. -/
def AlreadyReported (view : EndView ι) : Prop :=
  ∃ stepId shown, view.found = some stepId ∧ view.shown = some shown ∧
    ∃ event ∈ shown, reportsFailureOf stepId event = true

/-- It is reported, but at no positive sequence. -/
def Overlooked (view : EndView ι) : Prop :=
  view.AlreadyReported ∧ ∀ stepId shown, view.found = some stepId → view.shown = some shown →
    ∀ event ∈ shown, reportsFailureOf stepId event = true → event.sequence ≤ 0

/-- Terminal status writes, terminal events and hook calls pair up. -/
structure Paired (view : EndView ι) (hooked : Bool) : Prop where
  completed : view.acts.count (.wrote .completed) = view.acts.count (.appended .runCompleted)
  completedHook : hooked = true →
    view.acts.count (.notified .completed) = view.acts.count (.appended .runCompleted)
  failedHook : hooked = true →
    view.acts.count (.notified .failed) = view.acts.count (.appended .runFailed)
  failed : ¬ view.AlreadyReported →
    view.acts.count (.wrote .failed) = view.acts.count (.appended .runFailed)
  reported : view.AlreadyReported → view.acts.count (.wrote .failed) = 1 ∧
    view.acts.count (.appended .runFailed) = 0 ∧ view.acts.count (.notified .failed) = 0
  once : view.acts.count (.wrote .completed) + view.acts.count (.wrote .failed) ≤ 1
  last : ∀ before status after, view.acts = before ++ .wrote status :: after →
    status = .completed ∨ status = .failed → ∀ later, .wrote later ∉ after

end EndView

open EndView

/-! ## The shapes of an end -/

/-- Writes of statuses that do not end the run. -/
def Quiet (acts : List EndAct) : Prop :=
  ∀ act ∈ acts, ∃ status, act = .wrote status ∧ status ≠ .completed ∧ status ≠ .failed

/-- The hook call, when the drive was given a hook. -/
def hookActs (hooked : Bool) (status : RunStatus) : List EndAct :=
  if hooked then [.notified status] else []

def completedActs (hooked : Bool) : List EndAct :=
  [.wrote .completed, .appended .runCompleted] ++ hookActs hooked .completed

def failedActs (hooked : Bool) : List EndAct :=
  [.appended .runFailed, .wrote .failed] ++ hookActs hooked .failed

/-- How the acts of a drive end. -/
inductive EndTail (hooked : Bool) : List EndAct → Prop where
  | open : EndTail hooked []
  | completed : EndTail hooked (completedActs hooked)
  | failed : EndTail hooked (failedActs hooked)

theorem Quiet.append {acts : List EndAct} (quiet : Quiet acts) {status : RunStatus}
    (notCompleted : status ≠ .completed) (notFailed : status ≠ .failed) :
    Quiet (acts ++ [.wrote status]) := by
  intro act member
  cases List.mem_append.mp member with
  | inl old => exact quiet act old
  | inr new => exact ⟨status, List.mem_singleton.mp new, notCompleted, notFailed⟩

/-- An act that is not such a write does not occur among them. -/
theorem Quiet.count {acts : List EndAct} (quiet : Quiet acts) {act : EndAct}
    (loud : ∀ status, act = .wrote status → status = .completed ∨ status = .failed) :
    acts.count act = 0 := by
  rw [List.count_eq_zero]
  intro member
  obtain ⟨status, equal, notCompleted, notFailed⟩ := quiet act member
  cases loud status equal with
  | inl completed => exact notCompleted completed
  | inr failed => exact notFailed failed

def EndAct.isWrite : EndAct → Bool
  | .wrote _ => true
  | _ => false

/-- Past a terminal write in a tail with one write there is no further write. -/
theorem Quiet.last {acts tail before after : List EndAct} {status : RunStatus} (quiet : Quiet acts)
    (split : acts ++ tail = before ++ .wrote status :: after)
    (ends : status = .completed ∨ status = .failed) (single : tail.countP EndAct.isWrite ≤ 1)
    (later : RunStatus) : .wrote later ∉ after := by
  have lastWrite : ∀ front, tail = front ++ .wrote status :: after → .wrote later ∉ after := by
    intro front equal member
    have positive : 0 < after.countP EndAct.isWrite :=
      List.countP_pos_iff.mpr ⟨_, member, rfl⟩
    rw [equal, List.countP_append, List.countP_cons_of_pos rfl] at single
    omega
  rw [List.append_eq_append_iff] at split
  cases split with
  | inl inside =>
      obtain ⟨front, _, equal⟩ := inside
      exact lastWrite front equal
  | inr outside =>
      obtain ⟨front, equal, rest⟩ := outside
      cases front with
      | nil => exact lastWrite [] rest.symm
      | cons first front =>
          simp only [List.cons_append, List.cons.injEq] at rest
          have member : first ∈ acts := by
            rw [equal]
            simp
          obtain ⟨written, same, notCompleted, notFailed⟩ := quiet first member
          rw [← rest.1] at same
          cases same
          cases ends with
          | inl completed => exact absurd completed notCompleted
          | inr failed => exact absurd failed notFailed

/-- The counts of a drive that ended outside the reported case. -/
theorem Quiet.paired [HostId ι] {acts tail : List EndAct} {hooked : Bool} (quiet : Quiet acts)
    (ends : EndTail hooked tail) {view : EndView ι} (equal : view.acts = acts ++ tail)
    (unreported : ¬ view.AlreadyReported) : view.Paired hooked := by
  have none_completed : acts.count (.wrote .completed) = 0 :=
    quiet.count fun status same => by cases same; exact .inl rfl
  have none_failed : acts.count (.wrote .failed) = 0 :=
    quiet.count fun status same => by cases same; exact .inr rfl
  have none_other : ∀ act, (∀ status, act ≠ .wrote status) → acts.count act = 0 :=
    fun act other => quiet.count fun status same => absurd same (other status)
  have none_appended : ∀ type, acts.count (.appended type) = 0 :=
    fun type => none_other _ fun _ => EndAct.noConfusion
  have none_notified : ∀ status, acts.count (.notified status) = 0 :=
    fun status => none_other _ fun _ => EndAct.noConfusion
  refine ⟨?_, ?_, ?_, ?_, fun reported => absurd reported unreported, ?_, ?_⟩
  · rw [equal, List.count_append, List.count_append, none_completed, none_appended]
    cases ends <;> cases hooked <;> decide
  · intro withHook
    subst withHook
    rw [equal, List.count_append, List.count_append, none_notified, none_appended]
    cases ends <;> decide
  · intro withHook
    subst withHook
    rw [equal, List.count_append, List.count_append, none_notified, none_appended]
    cases ends <;> decide
  · intro _
    rw [equal, List.count_append, List.count_append, none_failed, none_appended]
    cases ends <;> cases hooked <;> decide
  · rw [equal, List.count_append, List.count_append, none_completed, none_failed]
    cases ends <;> cases hooked <;> decide
  · intro before status after split terminal
    rw [equal] at split
    apply quiet.last split terminal
    cases ends <;> cases hooked <;> decide

/-- A drive that only wrote the failed status. -/
theorem Quiet.paired_reported [HostId ι] {acts : List EndAct} {hooked : Bool} (quiet : Quiet acts)
    {view : EndView ι} (equal : view.acts = acts ++ [.wrote .failed])
    (reported : view.AlreadyReported) : view.Paired hooked := by
  have none_of : ∀ act, act ≠ .wrote .failed →
      (∀ status, act = .wrote status → status = .completed ∨ status = .failed) →
      view.acts.count act = 0 := by
    intro act other loud
    rw [equal, List.count_append, quiet.count loud, List.count_singleton]
    simp [Ne.symm other]
  have completed := none_of (.wrote .completed) (by decide)
    fun status same => by cases same; exact .inl rfl
  have appended : ∀ type, view.acts.count (.appended type) = 0 := fun type =>
    none_of _ EndAct.noConfusion fun _ same => EndAct.noConfusion same
  have notified : ∀ status, view.acts.count (.notified status) = 0 := fun status =>
    none_of _ EndAct.noConfusion fun _ same => EndAct.noConfusion same
  have failed : view.acts.count (.wrote .failed) = 1 := by
    rw [equal, List.count_append, quiet.count fun status same => by cases same; exact .inr rfl]
    decide
  refine ⟨?_, ?_, ?_, fun unreported => absurd reported unreported, ?_, ?_, ?_⟩
  · rw [completed, appended]
  · intro _
    rw [notified, appended]
  · intro _
    rw [notified, appended]
  · intro _
    exact ⟨failed, appended _, notified _⟩
  · rw [completed, failed]
  · intro before status after split terminal
    rw [equal] at split
    exact quiet.last split terminal (by decide)

/-- What the drive itself makes of a log: only positive sequences count. -/
def reportedPast [HostId ι] (stepId : ι) (shown : List Event) : Bool :=
  (shown.filter fun event => decide (0 < event.sequence)).any (reportsFailureOf stepId)

/-- How a drive leaves the end of its run. -/
def FinalEnd [HostId ι] (hooked : Bool) (view : EndView ι) : Prop :=
  ∃ acts tail, Quiet acts ∧ view.acts = acts ++ tail ∧
    (view.found = none ∧ EndTail hooked tail ∨
      ∃ stepId shown, view.found = some stepId ∧ view.shown = some shown ∧
        tail = if reportedPast stepId shown then [.wrote .failed] else failedActs hooked)

theorem alreadyReported_iff [HostId ι] {view : EndView ι} {stepId : ι} {shown : List Event}
    (found : view.found = some stepId) (look : view.shown = some shown) :
    view.AlreadyReported ↔ ∃ event ∈ shown, reportsFailureOf stepId event = true := by
  constructor
  · intro ⟨otherId, other, sameId, same, reports⟩
    rw [found] at sameId
    rw [look] at same
    cases sameId
    cases same
    exact reports
  · intro reports
    exact ⟨stepId, shown, found, look, reports⟩

/-- The pairing fails exactly when a report was overlooked. -/
theorem FinalEnd.paired_iff [HostId ι] {hooked : Bool} {view : EndView ι}
    (final : FinalEnd hooked view) : view.Paired hooked ↔ ¬ view.Overlooked := by
  obtain ⟨acts, tail, quiet, equal, ends⟩ := final
  cases ends with
  | inl ordinary =>
      obtain ⟨found, ends⟩ := ordinary
      have unreported : ¬ view.AlreadyReported := by
        intro ⟨stepId, shown, some_found, _⟩
        rw [found] at some_found
        cases some_found
      constructor
      · intro _ overlooked
        exact unreported overlooked.1
      · intro _
        exact quiet.paired ends equal unreported
  | inr found_failed =>
      obtain ⟨stepId, shown, found, look, shape⟩ := found_failed
      cases past : reportedPast stepId shown with
      | true =>
          rw [past] at shape
          rw [reportedPast, List.any_filter, List.any_eq_true] at past
          obtain ⟨event, member, holds⟩ := past
          rw [Bool.and_eq_true, decide_eq_true_eq] at holds
          have reported : view.AlreadyReported :=
            (alreadyReported_iff found look).mpr ⟨event, member, holds.2⟩
          constructor
          · intro _ overlooked
            have zero := overlooked.2 stepId shown found look event member holds.2
            omega
          · intro _
            apply quiet.paired_reported _ reported
            rw [equal, shape]
            rfl
      | false =>
          rw [past] at shape
          rw [reportedPast, List.any_filter, List.any_eq_false] at past
          constructor
          · intro paired overlooked
            have none_appended := (paired.reported overlooked.1).2.1
            rw [equal, shape, List.count_append] at none_appended
            cases hooked <;> simp [failedActs, hookActs] at none_appended
          · intro seen
            have unreported : ¬ view.AlreadyReported := by
              intro reported
              apply seen
              refine ⟨reported, ?_⟩
              intro otherId other sameId same event member reports
              rw [found] at sameId
              rw [look] at same
              cases sameId
              cases same
              have checked := past event member
              rw [reports, Bool.and_true, decide_eq_true_eq] at checked
              omega
            apply quiet.paired .failed _ unreported
            rw [equal, shape]
            rfl

/-! ## Drives -/

section Proof

variable {world : World (engineSignature ι) (Raised ι) σ} {run : RunView ι}
  {log : σ → List Event} {hooked : Bool} {cursor : Int}

/-- No call of a drive is refused here. -/
def everyCall (_ : σ × EndView ι) (_ : EngineOp ι) : Prop := True

/-- A status write that succeeds, as the monitor sees it. -/
theorem wp_write_status (store : SteadyStore world run.id log) (status : RunStatus)
    {onRaise : Raised ι → σ × EndView ι → Prop} (state : σ) (view : EndView ι) :
    wp (world.monitored (EndView.advance log)) everyCall (setRunStatus run status)
      (fun _ after => after.2 = { view with acts := view.acts ++ [.wrote status] }) onRaise
      (state, view) := by
  apply wp_perform_monitored trivial
  · intro _ after _
    rfl
  · intro error after served
    exact (store.succeeds served).elim

/-- The hook call, returning or raising. -/
theorem wp_notify (status : RunStatus) (state : σ) (view : EndView ι) :
    wp (world.monitored (EndView.advance log)) everyCall (notifyRunEnd hooked run status)
      (fun _ after => after.2 = { view with acts := view.acts ++ hookActs hooked status })
      (fun _ after => after.2 = { view with acts := view.acts ++ hookActs hooked status })
      (state, view) := by
  cases hooked with
  | false =>
      change view = { view with acts := view.acts ++ [] }
      rw [List.append_nil]
  | true =>
      apply wp_perform_monitored trivial
      · intro _ after _
        rfl
      · intro error after _
        rfl

theorem wp_failRun (store : SteadyStore world run.id log) (stepId : ι) (state : σ)
    (view : EndView ι) :
    wp (world.monitored (EndView.advance log)) everyCall (failRun hooked run stepId)
      (fun _ after => after.2 = { view with acts := view.acts ++ failedActs hooked })
      (fun _ after => after.2 = { view with acts := view.acts ++ failedActs hooked })
      (state, view) := by
  rw [failRun, wp_bind]
  apply wp_perform_monitored trivial
  · intro _ appended _
    apply wp_seq (wp_write_status store .failed appended _)
    intro _ written equal
    obtain ⟨here, seen⟩ := written
    cases equal
    apply wp_mono (wp_notify .failed here _)
    · intro _ after equal
      rw [equal]
      simp [EndView.advance, failedActs]
    · intro _ after equal
      rw [equal]
      simp [EndView.advance, failedActs]
  · intro error appended served
    exact (store.succeeds served).elim

/-- Nothing has ended the run, and the step at hand was not found failed. -/
structure Ongoing (state : σ × EndView ι) : Prop where
  quiet : Quiet state.2.acts
  found : state.2.found = none

/-- Operations that neither end the run nor list the steps. -/
def OffEnd : EngineOp ι → Prop
  | .setRunStatus _ status => status ≠ .completed ∧ status ≠ .failed
  | .appendEvent _ type _ _ _ => type ≠ .runCompleted ∧ type ≠ .runFailed
  | .onRunEnd _ _ => False
  | .getSteps _ => False
  | _ => True

theorem served_ongoing (state : σ × EndView ι) (op : EngineOp ι) (offEnd : OffEnd op)
    (ongoing : Ongoing state) (answer : Except (Raised ι) op.Res) (after : σ × EndView ι)
    (served : (world.monitored (EndView.advance log)).serve state op answer after) :
    Ongoing after := by
  have equal : after.2 = EndView.advance log state.2 ⟨state.1, op, answer, after.1⟩ := served.2
  cases op with
  | setRunStatus run status =>
      cases answer with
      | ok row =>
          constructor
          · rw [equal]
            exact ongoing.quiet.append offEnd.1 offEnd.2
          · rw [equal]
            exact ongoing.found
      | error error =>
          constructor
          · rw [equal]
            exact ongoing.quiet
          · rw [equal]
            exact ongoing.found
  | appendEvent runId type stepId payload commit =>
      have unchanged : after.2 = state.2 := by
        rw [equal]
        cases type <;> cases answer <;>
          first | rfl | exact absurd rfl offEnd.1 | exact absurd rfl offEnd.2
      constructor
      · rw [unchanged]
        exact ongoing.quiet
      · rw [unchanged]
        exact ongoing.found
  | onRunEnd run status => exact offEnd.elim
  | getSteps runId => exact offEnd.elim
  | drainedEvents runId sequence =>
      cases answer <;>
        exact ⟨by rw [equal]; exact ongoing.quiet, by rw [equal]; exact ongoing.found⟩
  | _ => exact ⟨by rw [equal]; exact ongoing.quiet, by rw [equal]; exact ongoing.found⟩

variable [HostId ι]

/-- The end the monitor shows is one a drive may leave. -/
def Ended (hooked : Bool) (state : σ × EndView ι) : Prop :=
  FinalEnd hooked state.2

def RaisedEnded (hooked : Bool) (_ : Raised ι) (state : σ × EndView ι) : Prop :=
  FinalEnd hooked state.2

theorem Ongoing.ended {state : σ × EndView ι} (ongoing : Ongoing state) : Ended hooked state :=
  ⟨state.2.acts, [], ongoing.quiet, (List.append_nil _).symm, .inl ⟨ongoing.found, .open⟩⟩

theorem Ongoing.failed {state : σ × EndView ι} (ongoing : Ongoing state) {after : EndView ι}
    (equal : after = { state.2 with acts := state.2.acts ++ failedActs hooked }) :
    FinalEnd hooked after := by
  rw [equal]
  exact ⟨state.2.acts, _, ongoing.quiet, rfl, .inl ⟨ongoing.found, .failed⟩⟩

theorem wp_ongoing {α : Type} {program : Engine ι α} (propagates : program.Propagates OffEnd)
    {state : σ × EndView ι} (ongoing : Ongoing state) :
    wp (world.monitored (EndView.advance log)) everyCall program (fun _ => Ongoing)
      (RaisedEnded hooked) state := by
  apply wp_propagates Ongoing ?_ ?_ propagates ongoing
  · intro state op offEnd ongoing
    refine ⟨trivial, fun result after served =>
      served_ongoing state op offEnd ongoing _ after served, ?_⟩
    intro error after served
    exact (served_ongoing state op offEnd ongoing _ after served).ended
  · intro error state ongoing
    exact ongoing.ended

/-- Streaming leaves a run's end alone. -/
theorem served_ended (state : σ × EndView ι) (op : EngineOp ι) (streams : op.Streams run.id)
    (ended : Ended hooked state) (answer : Except (Raised ι) op.Res) (after : σ × EndView ι)
    (served : (world.monitored (EndView.advance log)).serve state op answer after) :
    Ended hooked after := by
  have equal : after.2 = EndView.advance log state.2 ⟨state.1, op, answer, after.1⟩ := served.2
  obtain ⟨acts, tail, quiet, split, ends⟩ := ended
  rw [Ended, equal]
  cases op with
  | drainedEvents runId sequence =>
      cases answer with
      | error error => exact ⟨acts, tail, quiet, split, ends⟩
      | ok events =>
          refine ⟨acts, tail, quiet, split, ?_⟩
          cases ends with
          | inl ordinary => exact .inl ordinary
          | inr failed =>
              obtain ⟨stepId, shown, found, look, shape⟩ := failed
              refine .inr ⟨stepId, shown, found, ?_, shape⟩
              simp [EndView.advance, found, look]
  | yieldEvent payload =>
      cases answer <;> exact ⟨acts, tail, quiet, split, ends⟩
  | _ => exact streams.elim

theorem wp_ended {α : Type} {program : Engine ι α}
    (propagates : program.Propagates (EngineOp.Streams run.id)) {state : σ × EndView ι}
    (ended : Ended hooked state) :
    wp (world.monitored (EndView.advance log)) everyCall program (fun _ => Ended hooked)
      (RaisedEnded hooked) state := by
  apply wp_propagates (Ended hooked) ?_ ?_ propagates ended
  · intro state op streams ended
    exact ⟨trivial, fun result after served => served_ended state op streams ended _ after served,
      fun error after served => served_ended state op streams ended _ after served⟩
  · intro error state ended
    exact ended

theorem wp_ended_return {state : σ × EndView ι} (ended : Ended hooked state) :
    wp (world.monitored (EndView.advance log)) everyCall (drainAndReturn run cursor)
      (VisitEnd (fun _ => Ongoing) (Ended hooked)) (RaisedEnded hooked) state :=
  wp_drainAndReturn_of (wp_ended (drain_propagates (streams_drain run.id) cursor) ended)

omit [HostId ι] in
theorem offEnd_drain : AllowsDrain (OffEnd (ι := ι)) run.id :=
  ⟨fun _ => trivial, fun _ => trivial⟩

omit [HostId ι] in
theorem offEnd_transition {stepId : ι} {status : StepStatus} {type : EventType}
    (notCompleted : type ≠ .runCompleted) (notFailed : type ≠ .runFailed) :
    AllowsTransition OffEnd run.id stepId status type :=
  ⟨fun _ _ => trivial, fun _ => ⟨notCompleted, notFailed⟩⟩

omit [HostId ι] in
theorem offEnd_settling {stepId : ι} : AllowsSettling (OffEnd (ι := ι)) run.id stepId where
  completes := offEnd_transition EventType.noConfusion EventType.noConfusion
  fails := offEnd_transition EventType.noConfusion EventType.noConfusion
  skips := offEnd_transition EventType.noConfusion EventType.noConfusion
  rereads := trivial
  rollsBack := trivial
  readsType _ := trivial

variable {registry : ToolRegistry} {fresh : RunView ι} {step : StepView ι}
  {steps : List (StepView ι)} {driveStarted : ℚ}

theorem wp_ended_failRun (store : SteadyStore world run.id log) (stepId : ι)
    {state : σ × EndView ι}
    (failed : FinalEnd hooked { state.2 with acts := state.2.acts ++ failedActs hooked }) :
    wp (world.monitored (EndView.advance log)) everyCall (failRun hooked run stepId)
      (fun _ => Ended hooked) (RaisedEnded hooked) state := by
  apply wp_mono (wp_failRun store stepId state.1 state.2)
  · intro _ after equal
    rw [Ended, equal]
    exact failed
  · intro _ after equal
    rw [RaisedEnded, equal]
    exact failed

theorem wp_ongoing_dispatchStep (store : SteadyStore world run.id log) {state : σ × EndView ι}
    (ongoing : Ongoing state) :
    wp (world.monitored (EndView.advance log)) everyCall
      (dispatchStep registry run hooked step cursor)
      (VisitEnd (fun _ => Ongoing) (Ended hooked)) (RaisedEnded hooked) state := by
  have runs : wp (world.monitored (EndView.advance log)) everyCall (runStep registry run step)
      (fun _ => Ongoing) (RaisedEnded hooked) state := by
    apply wp_runStep_of (wp_ongoing (setStepState_propagates trivial) ongoing)
    · intro entered ongoing
      exact wp_ongoing (currentType_propagates trivial) ongoing
    · intro startedType shown ongoing
      exact wp_ongoing (appendEvent_propagates
        ⟨EventType.noConfusion, EventType.noConfusion⟩) ongoing
    · intro started ongoing
      exact wp_ongoing (currentType_propagates trivial) ongoing
    · intro stepType typed _ ongoing
      exact wp_ongoing (failStep_propagates offEnd_settling.fails _ _) ongoing
    · intro stepType typed _ ongoing
      refine ⟨trivial, fun outcome after served => ?_⟩
      exact wp_ongoing (settleStep_propagates offEnd_settling outcome)
        (served_ongoing typed (.handle run _) trivial ongoing outcome after served)
  apply wp_dispatchStep_of runs
  · intro ran settled ongoing
    exact wp_ongoing (drain_propagates offEnd_drain cursor) ongoing
  · intro ran reached drained ongoing
    exact wp_ongoing (currentStatus_propagates trivial) ongoing
  · intro ran reached judged ongoing
    exact ongoing.ended
  · intro ran reached judged ongoing
    exact wp_ended_failRun store ran.id (ongoing.failed rfl)
  · intro reached failed ended
    exact wp_ended_return ended
  · intro ran reached status judged _ _ ongoing
    exact ongoing

theorem wp_ongoing_budgetGate (store : SteadyStore world run.id log) {state : σ × EndView ι}
    (ongoing : Ongoing state) :
    wp (world.monitored (EndView.advance log)) everyCall
      (budgetGate registry run hooked driveStarted fresh steps step cursor)
      (VisitEnd (fun _ => Ongoing) (Ended hooked)) (RaisedEnded hooked) state := by
  have returns : ∀ {program : Engine ι (Option Int)}, program.Propagates OffEnd →
      (∀ {state : σ × EndView ι}, Ongoing state →
        wp (world.monitored (EndView.advance log)) everyCall program
          (VisitEnd (fun _ => Ongoing) (Ended hooked)) (RaisedEnded hooked) state) := by
    intro program propagates state ongoing
    apply wp_post (wp_ongoing propagates ongoing)
    intro next after ongoing
    cases next with
    | none => exact ongoing.ended
    | some cursor => exact ongoing
  apply wp_budgetGate_of (wp_ongoing (budgetExhaustedReason_propagates trivial fresh steps
    driveStarted) ongoing)
  · intro reason checked ongoing
    exact returns (pauseForBudget_propagates
      ⟨fun _ => ⟨EventType.noConfusion, EventType.noConfusion⟩,
        ⟨RunStatus.noConfusion, RunStatus.noConfusion⟩,
        fun _ => ⟨EventType.noConfusion, EventType.noConfusion⟩⟩ offEnd_drain reason cursor) ongoing
  · intro checked ongoing
    apply wp_approvalGate_of
    · intro _ _
      exact returns (stopAtGate_propagates
        ⟨offEnd_transition EventType.noConfusion EventType.noConfusion, fun _ => trivial⟩
        ⟨RunStatus.noConfusion, RunStatus.noConfusion⟩ offEnd_drain _ cursor) ongoing
    · intro _ _
      exact wp_ongoing (recordApproval_propagates
        (offEnd_transition EventType.noConfusion EventType.noConfusion) _ _ _) ongoing
    · intro _
      exact ongoing
    · intro cleared ongoing
      exact wp_ongoing_dispatchStep store ongoing

/-- The step was failed when read, and nothing has been looked up yet. -/
structure FoundFailed (stepId : ι) (state : σ × EndView ι) : Prop where
  quiet : Quiet state.2.acts
  found : state.2.found = some stepId
  shown : state.2.shown = none

theorem wp_ended_foundFailed (store : SteadyStore world run.id log) {stepId : ι}
    {state : σ × EndView ι} (found : FoundFailed stepId state) :
    wp (world.monitored (EndView.advance log)) everyCall (foundFailed run hooked stepId cursor)
      (VisitEnd (fun _ => Ongoing) (Ended hooked)) (RaisedEnded hooked) state := by
  obtain ⟨here, view⟩ := state
  obtain ⟨quiet, foundHere, unseen⟩ := found
  have asks : wp (world.monitored (EndView.advance log)) everyCall
      (runFailureReported run.id stepId)
      (fun reported after => ∃ shown, reported = reportedPast stepId shown ∧
        after.2 = { view with shown := some shown }) (RaisedEnded hooked) (here, view) := by
    rw [runFailureReported, wp_bind]
    apply wp_perform_monitored trivial
    · intro events after served
      refine ⟨log after, ?_, ?_⟩
      · rw [reportedPast, ← store.drained served]
      · have unseenHere : view.shown = none := unseen
        have foundView : view.found = some stepId := foundHere
        simp [EndView.advance, unseenHere, foundView]
    · intro error after served
      exact (store.succeeds served).elim
  apply wp_foundFailed_of (Ended hooked) asks
  · intro asked known
    obtain ⟨shown, reported, equal⟩ := known
    obtain ⟨there, seen⟩ := asked
    cases equal
    apply wp_post (wp_write_status store .failed there _)
    intro _ after equal
    rw [Ended, equal]
    exact ⟨view.acts, _, quiet, rfl, .inr ⟨stepId, shown, foundHere, rfl, by
      rw [← reported, if_pos rfl]⟩⟩
  · intro asked known
    obtain ⟨shown, reported, equal⟩ := known
    apply wp_ended_failRun store stepId
    rw [equal]
    exact ⟨view.acts, _, quiet, rfl, .inr ⟨stepId, shown, foundHere, rfl, by
      rw [← reported, if_neg Bool.false_ne_true]⟩⟩
  · intro ended endedHere
    exact wp_ended_return endedHere

/-- What listing the steps shows. -/
structure ListedSteps (steps : List (StepView ι)) (state : σ × EndView ι) : Prop where
  quiet : Quiet state.2.acts
  found : state.2.found = EndView.foundFailed steps
  shown : state.2.shown = none

omit [HostId ι] in
theorem ListedSteps.ongoing {state : σ × EndView ι} (listed : ListedSteps steps state)
    (selected : firstUnfinished steps = some step) (alive : step.status ≠ .failed) :
    Ongoing state where
  quiet := listed.quiet
  found := by rw [listed.found, EndView.foundFailed, selected]; exact if_neg alive

theorem wp_ongoing_visitStep (store : SteadyStore world run.id log)
    (selected : firstUnfinished steps = some step) {state : σ × EndView ι}
    (listed : ListedSteps steps state) :
    wp (world.monitored (EndView.advance log)) everyCall
      (visitStep registry run hooked driveStarted fresh steps step cursor)
      (VisitEnd (fun _ => Ongoing) (Ended hooked)) (RaisedEnded hooked) state := by
  apply wp_visitStep_of selected
  · intro text unlisted status
    exact (listed.ongoing selected (by rw [status]; exact StepStatus.noConfusion)).ended
  · intro status
    apply wp_ended_foundFailed store
    refine ⟨listed.quiet, ?_, listed.shown⟩
    rw [listed.found, EndView.foundFailed, selected]
    exact if_pos status
  · intro reason status _
    exact (listed.ongoing selected (by rw [status]; exact StepStatus.noConfusion)).ended
  · intro reason waiting _
    have alive : step.status ≠ .failed := by
      intro failed
      rw [failed] at waiting
      simp [StepStatus.Waiting] at waiting
    apply wp_seq (wp_ongoing (skipStep_propagates offEnd_settling.skips _ _)
      (listed.ongoing selected alive))
    intro _ skipped ongoing
    apply wp_drainAndContinue_of
    exact wp_ongoing (drain_propagates offEnd_drain cursor) ongoing
  · intro live _
    have alive : step.status ≠ .failed := by
      intro failed
      rw [failed] at live
      simp [StepStatus.Waiting] at live
    exact wp_ongoing_budgetGate store (listed.ongoing selected alive)

theorem wp_ongoing_loopPass (store : SteadyStore world run.id log) {state : σ × EndView ι}
    (ongoing : Ongoing state) :
    wp (world.monitored (EndView.advance log)) everyCall
      (loopPass registry run hooked driveStarted cursor)
      (PassEnd (fun _ => Ongoing) (Ended hooked) fun _ => Ongoing) (RaisedEnded hooked) state := by
  apply wp_loopPass_of (fun _ steps => ListedSteps steps)
    (wp_ongoing (getRun_propagates trivial) ongoing)
  · intro current reread _ ongoing
    exact wp_ended_return ongoing.ended
  · intro current reread _ ongoing
    obtain ⟨here, view⟩ := reread
    apply wp_perform_monitored trivial
    · intro steps after _
      exact ⟨ongoing.quiet, rfl, rfl⟩
    · intro error after served
      exact (store.succeeds served).elim
  · intro current steps listed selected known
    refine ⟨known.quiet, ?_⟩
    rw [known.found, EndView.foundFailed, selected]
  · intro current steps step listed _ selected known
    exact wp_ongoing_visitStep store selected known

theorem wp_ongoing_completeRun (store : SteadyStore world run.id log) {state : σ × EndView ι}
    (ongoing : Ongoing state) :
    wp (world.monitored (EndView.advance log)) everyCall (completeRun run hooked cursor)
      (fun _ => Ended hooked) (RaisedEnded hooked) state := by
  have drains : ∀ {state : σ × EndView ι}, Ended hooked state →
      wp (world.monitored (EndView.advance log)) everyCall (drain run.id cursor)
        (fun _ => Ended hooked) (RaisedEnded hooked) state := fun ended =>
    wp_ended (drain_propagates (streams_drain run.id) cursor) ended
  let finished (state : σ × EndView ι) (acts : List EndAct) : Prop :=
    ∃ quiet, Quiet quiet ∧ state.2.found = none ∧ state.2.acts = quiet ++ acts
  apply wp_completeRun_of (fun state => finished state [.wrote .completed])
    (fun state => finished state [.wrote .completed, .appended .runCompleted]) (Ended hooked)
    (wp_ongoing (getRun_propagates trivial) ongoing)
  · intro current reread _ ongoing
    exact drains ongoing.ended
  · intro current reread _ ongoing
    apply wp_post (wp_write_status store .completed reread.1 reread.2)
    intro _ after equal
    exact ⟨reread.2.acts, ongoing.quiet, by rw [equal]; exact ongoing.found, by rw [equal]⟩
  · intro written known
    obtain ⟨quiet, quietly, found, split⟩ := known
    obtain ⟨here, view⟩ := written
    apply wp_perform_monitored trivial
    · intro _ after _
      refine ⟨quiet, quietly, found, ?_⟩
      have splitView : view.acts = quiet ++ [.wrote .completed] := split
      simp [EndView.advance, splitView]
    · intro error after served
      exact (store.succeeds served).elim
  · intro appended known
    obtain ⟨quiet, quietly, found, split⟩ := known
    obtain ⟨here, view⟩ := appended
    have final : ∀ after : EndView ι,
        after = { view with acts := view.acts ++ hookActs hooked .completed } →
        FinalEnd hooked after := by
      intro after equal
      rw [equal]
      refine ⟨quiet, _, quietly, ?_, .inl ⟨found, .completed⟩⟩
      have splitView : view.acts = quiet ++ [.wrote .completed, .appended .runCompleted] := split
      simp [splitView, completedActs]
    apply wp_mono (wp_notify .completed here view)
    · intro _ after equal
      exact final after.2 equal
    · intro _ after equal
      exact final after.2 equal
  · intro notified ended
    exact drains ended

theorem wp_ended_executeRunEvents (store : SteadyStore world run.id log) (fuel : Nat)
    (state : σ) :
    wp (world.monitored (EndView.advance log)) everyCall
      (executeRunEvents registry run hooked fuel) (fun _ => Ended hooked) (RaisedEnded hooked)
      (state, EndView.start) := by
  have start : Ongoing (state, (EndView.start : EndView ι)) := by
    refine ⟨?_, rfl⟩
    intro act member
    cases member
  apply wp_executeRunEvents_of (fun _ => Ongoing) (Ended hooked) (fun _ => Ongoing)
    (wp_ongoing (nextSequence_propagates trivial) start)
  · intro next opened _ ongoing
    exact ongoing.ended
  · intro next opened _ ongoing
    exact wp_ongoing (setRunStatus_propagates ⟨RunStatus.noConfusion, RunStatus.noConfusion⟩)
      ongoing
  · intro next begun ongoing
    exact wp_ongoing (drain_propagates offEnd_drain _) ongoing
  · intro cursor drained ongoing
    exact wp_ongoing (now_propagates trivial) ongoing
  · intro driveStarted cursor after ongoing
    exact wp_ongoing_loopPass store ongoing
  · intro cursor after ongoing
    exact ongoing.ended
  · intro after ended
    exact ended
  · intro cursor after ongoing
    exact wp_ongoing_completeRun store ongoing

end Proof

theorem HostRules.steadyStore (rules : HostRules) (clock : HostState → ℚ) (runId : String) :
    SteadyStore (World.ofFn (rules.respond clock)) runId HostState.log where
  succeeds served := HostRules.leavesStore_of_raised served
  drained {state sequence events after} served := by
    have answered : rules.respond clock (.drainedEvents runId sequence) state =
        (.ok events, after) := served
    cases answered
    rfl

/-- Exit pairing of a drive, however it ends: terminal status writes, terminal events
and hook calls pair up exactly when no report of the failure it found was
overlooked, that is, unless the log reports the found failure at no positive
sequence. -/
theorem exit_pairing [HostId ι] {world : World (engineSignature ι) (Raised ι) σ}
    {run : RunView ι} {log : σ → List Event} (store : SteadyStore world run.id log)
    (registry : ToolRegistry) (hooked : Bool) (fuel : Nat) {state last : σ}
    {outcome : Except (Raised ι) (Option Unit)}
    {history : History (engineSignature ι) (Raised ι) σ}
    (runs : Runs world.recorded (executeRunEvents registry run hooked fuel) (state, []) outcome
      (last, history)) :
    (history.foldl (EndView.advance log) .start).Paired hooked ↔
      ¬ (history.foldl (EndView.advance log) .start).Overlooked := by
  have ends := runs.monitor_post (wp_ended_executeRunEvents store fuel state)
  cases outcome with
  | ok result => exact FinalEnd.paired_iff ends
  | error error => exact FinalEnd.paired_iff ends

/-- A re-opened run whose failure the host logged at sequence 0. -/
def reopenedHost : HostState :=
  { HostState.holding ⟨"run-1", .paused, some .autoComplete, false, .json .null, .null, .null,
      .json .null⟩ [("step-1", ⟨"model_call", "Ask", .failed, false, some "no model", none⟩)] with
    firstSequence := 0
    entries := [⟨EventType.runFailed.text, some "step-1", none⟩] }

/-- The pairing of that drive, and what it overlooks. -/
theorem exit_pairing_reopened :
    ∃ last history,
      Runs (World.ofFn (plainRules.respond fun _ => 0)).recorded
        (executeRunEvents ⟨["model_call"], by decide⟩ reopenedHost.run true 1) (reopenedHost, [])
        (.ok (some ())) (last, history) ∧
      ((history.foldl (EndView.advance HostState.log) .start).Paired true ↔
        ¬ (history.foldl (EndView.advance HostState.log) .start).Overlooked) := by
  obtain ⟨history, runs⟩ := Runs.record (runs_ofFn.mpr (Prod.ext rfl rfl)) []
  exact ⟨_, history, runs, exit_pairing (plainRules.steadyStore _ _) _ _ _ runs⟩

/-- Its drive reports the failure a second time. -/
theorem exit_pairing_overlooked :
    SteadyStore (World.ofFn (plainRules.respond fun _ => 0)) "run-1" HostState.log ∧
    ∃ last history,
      Runs (World.ofFn (plainRules.respond fun _ => 0)).recorded
        (executeRunEvents ⟨["model_call"], by decide⟩ reopenedHost.run true 1) (reopenedHost, [])
        (.ok (some ())) (last, history) ∧
      ¬ (history.foldl (EndView.advance HostState.log) .start).Paired true := by
  obtain ⟨history, runs, view⟩ := record_ofFn (plainRules.respond fun _ => 0)
    (EndView.advance HostState.log)
    (executeRunEvents ⟨["model_call"], by decide⟩ reopenedHost.run true 1) reopenedHost .start
  refine ⟨plainRules.steadyStore _ _, _, history, runs, ?_⟩
  rw [view]
  intro paired
  have zero := (paired.reported ⟨"step-1", _, rfl, rfl, _, List.mem_cons_self, by decide⟩).2.1
  revert zero
  decide

end SlimxAgent
