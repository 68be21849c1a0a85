import SlimxAgent.Interaction.Translation

/-!
# Histories and monitors

A recorded world keeps every call it has answered.  A monitor is a state computed
from those calls alone, so a property of histories can be proved as an invariant
of the monitor: `Runs.monitor_guarded` and `Runs.monitor_post` carry the result
of `wp` over a monitored world back to the history of a recorded run.
-/

namespace Interaction

variable {signature : Signature} {ε σ μ α β : Type}

/-- One answered call, with the state it was made in and the state it left. -/
structure Served (signature : Signature) (ε σ : Type) where
  before : σ
  op : signature.Op
  answer : Except ε (signature.Res op)
  after : σ

/-- The calls of a run, oldest first. -/
abbrev History (signature : Signature) (ε σ : Type) := List (Served signature ε σ)

/-- The same world, with a state that follows the calls it answers. -/
def World.monitored (world : World signature ε σ) (advance : μ → Served signature ε σ → μ) :
    World signature ε (σ × μ) where
  serve state op answer after := world.serve state.1 op answer after.1 ∧
    after.2 = advance state.2 ⟨state.1, op, answer, after.1⟩

/-- The same world, keeping the calls it has answered. -/
def World.recorded (world : World signature ε σ) :
    World signature ε (σ × History signature ε σ) :=
  world.monitored fun history call => history ++ [call]

section Monitored

variable {world : World signature ε σ} {advance : μ → Served signature ε σ → μ}
  {guard : σ × μ → signature.Op → Prop} {onRaise : ε → σ × μ → Prop} {state : σ} {monitor : μ}

/-- One call in a monitored world. -/
theorem wp_perform_monitored {op : signature.Op} {onReturn : signature.Res op → σ × μ → Prop}
    (met : guard (state, monitor) op)
    (returns : ∀ result after, world.serve state op (.ok result) after →
      onReturn result (after, advance monitor ⟨state, op, .ok result, after⟩))
    (raises : ∀ error after, world.serve state op (.error error) after →
      onRaise error (after, advance monitor ⟨state, op, .error error, after⟩)) :
    wp (world.monitored advance) guard (Program.perform op) onReturn onRaise (state, monitor) := by
  rw [wp_perform]
  refine ⟨met, ?_, ?_⟩
  · intro result after served
    have equal : after = (after.1, advance monitor ⟨state, op, .ok result, after.1⟩) :=
      Prod.ext rfl served.2
    rw [equal]
    exact returns result after.1 served.1
  · intro error after served
    have equal : after = (after.1, advance monitor ⟨state, op, .error error, after.1⟩) :=
      Prod.ext rfl served.2
    rw [equal]
    exact raises error after.1 served.1

/-- A monitor is a function of the record, so what holds of a monitored program holds
of the recorded one. -/
theorem wp_recorded {program : Program signature ε α} {onReturn : α → σ × μ → Prop}
    {start : μ} {history : History signature ε σ}
    (holds : wp (world.monitored advance) guard program onReturn onRaise
      (state, history.foldl advance start)) :
    wp world.recorded (fun recorded op => guard (recorded.1, recorded.2.foldl advance start) op)
      program (fun value recorded => onReturn value (recorded.1, recorded.2.foldl advance start))
      (fun error recorded => onRaise error (recorded.1, recorded.2.foldl advance start))
      (state, history) := by
  induction program generalizing state history with
  | done value => exact holds
  | raise error => exact holds
  | call op next ih =>
      rcases holds with ⟨met, every⟩
      constructor
      · exact met
      · rintro answer ⟨after, grown⟩ ⟨served, equal⟩
        have appended : grown = history ++ [⟨state, op, answer, after⟩] := equal
        subst appended
        apply ih answer
        rw [List.foldl_append]
        exact every answer _ ⟨served, rfl⟩

end Monitored

/-- Where a call stands in a record that one more call was added to. -/
theorem split_concat {γ : Type} {record earlier later : List γ} {added call : γ} :
    record ++ [added] = earlier ++ call :: later ↔
      (later = [] ∧ earlier = record ∧ call = added) ∨
      ∃ rest, later = rest ++ [added] ∧ record = earlier ++ call :: rest := by
  constructor
  · intro equal
    rcases later.eq_nil_or_concat with rfl | ⟨rest, last, rfl⟩
    · rcases List.append_inj' equal rfl with ⟨rfl, same⟩
      cases same
      exact .inl ⟨rfl, rfl, rfl⟩
    · rw [List.concat_eq_append, ← List.cons_append, ← List.append_assoc] at equal
      rcases List.append_inj' equal rfl with ⟨same, single⟩
      cases single
      exact .inr ⟨rest, List.concat_eq_append, same⟩
  · rintro (⟨rfl, rfl, rfl⟩ | ⟨rest, rfl, rfl⟩)
    · rfl
    · simp

/-- A record of its own calls. -/
theorem foldl_record (history past : History signature ε σ) :
    history.foldl (fun record call => record ++ [call]) past = past ++ history := by
  induction history generalizing past with
  | nil => simp
  | cons call history ih => simp [ih]

namespace Runs

variable {world : World signature ε σ} {advance : μ → Served signature ε σ → μ}

/-- Every run can be recorded. -/
theorem record {program : Program signature ε α} {outcome : Except ε α} {state last : σ}
    (runs : Runs world program state outcome last) (history : History signature ε σ) :
    ∃ calls, Runs world.recorded program (state, history) outcome (last, history ++ calls) := by
  induction runs generalizing history with
  | done value state => exact ⟨[], by rw [List.append_nil]; exact .done _ _⟩
  | raise error state => exact ⟨[], by rw [List.append_nil]; exact .raise _ _⟩
  | @call op next answer state middle last outcome served _ ih =>
      obtain ⟨calls, rest⟩ := ih (history ++ [⟨state, op, answer, middle⟩])
      rw [List.append_assoc] at rest
      exact ⟨_, .call ⟨served, rfl⟩ rest⟩

/-- A run only adds to the record. -/
theorem record_grows {program : Program signature ε α} {outcome : Except ε α}
    {state last : σ × History signature ε σ}
    (runs : Runs world.recorded program state outcome last) :
    ∃ calls, last.2 = state.2 ++ calls := by
  induction runs with
  | done value state => exact ⟨[], by simp⟩
  | raise error state => exact ⟨[], by simp⟩
  | call served _ ih =>
      obtain ⟨calls, equal⟩ := ih
      exact ⟨_, by rw [equal, served.2, List.append_assoc]⟩

/-- What a run adds to the record does not depend on the record. -/
theorem since {program : Program signature ε α} {outcome : Except ε α}
    {state last : σ × History signature ε σ}
    (runs : Runs world.recorded program state outcome last) :
    ∃ calls, last.2 = state.2 ++ calls ∧ ∀ past,
      Runs world.recorded program (state.1, past) outcome (last.1, past ++ calls) := by
  induction runs with
  | done value state => exact ⟨[], by simp, fun past => by rw [List.append_nil]; exact .done _ _⟩
  | raise error state => exact ⟨[], by simp, fun past => by rw [List.append_nil]; exact .raise _ _⟩
  | @call op next answer state middle last outcome served _ ih =>
      rcases ih with ⟨calls, equal, again⟩
      refine ⟨⟨state.1, op, answer, middle.1⟩ :: calls, ?_, ?_⟩
      · rw [equal, served.2, List.append_assoc]
        rfl
      · intro past
        have called : world.recorded.serve (state.1, past) op answer
            (middle.1, past ++ [⟨state.1, op, answer, middle.1⟩]) := ⟨served.1, rfl⟩
        have rest := again (past ++ [⟨state.1, op, answer, middle.1⟩])
        rw [List.append_assoc] at rest
        exact .call called rest

/-- The record of a sequence is the one of its first part and then the one of its second. -/
theorem record_bind {program : Program signature ε β} {rest : β → Program signature ε α}
    {outcome : Except ε α} {state last : σ} {history : History signature ε σ}
    (runs : Runs world.recorded (program >>= rest) (state, []) outcome (last, history)) :
    (∃ value middle first second, history = first ++ second ∧
      Runs world.recorded program (state, []) (.ok value) (middle, first) ∧
      Runs world.recorded (rest value) (middle, []) outcome (last, second)) ∨
    ∃ error, outcome = .error error ∧
      Runs world.recorded program (state, []) (.error error) (last, history) := by
  rcases bind_iff.mp runs with ⟨value, ⟨middle, first⟩, before, after⟩ | ⟨error, raised, same⟩
  · rcases after.since with ⟨second, grown, again⟩
    exact .inl ⟨value, middle, first, second, grown, before, again []⟩
  · exact .inr ⟨error, same, raised⟩

/-- The record of one operation. -/
theorem record_perform {op : signature.Op} {outcome : Except ε (signature.Res op)}
    {state last : σ} {history : History signature ε σ}
    (runs : Runs world.recorded (Program.perform op) (state, []) outcome (last, history)) :
    world.serve state op outcome last ∧ history = [⟨state, op, outcome, last⟩] :=
  perform_iff.mp runs

/-- A program that begins with a call adds to the record. -/
theorem record_lengthens {op : signature.Op}
    {next : Except ε (signature.Res op) → Program signature ε α} {outcome : Except ε α}
    {state last : σ × History signature ε σ}
    (runs : Runs world.recorded (.call op next) state outcome last) :
    state.2.length < last.2.length := by
  rcases call_iff.mp runs with ⟨answer, middle, ⟨_, grown⟩, rest⟩
  rcases rest.record_grows with ⟨calls, equal⟩
  rw [equal, grown, List.length_append, List.length_append, List.length_singleton]
  omega

/-- The world answered every call of the record. -/
theorem answered {program : Program signature ε α} {outcome : Except ε α}
    {state last : σ × History signature ε σ}
    (runs : Runs world.recorded program state outcome last)
    (known : ∀ call ∈ state.2, world.serve call.before call.op call.answer call.after) :
    ∀ call ∈ last.2, world.serve call.before call.op call.answer call.after := by
  induction runs with
  | done value state => exact known
  | raise error state => exact known
  | call served _ ih =>
      apply ih
      rw [served.2]
      intro call member
      rcases List.mem_append.mp member with earlier | now
      · exact known call earlier
      · cases List.mem_singleton.mp now
        exact served.1

/-- What every call keeps holds after each call of the record. -/
theorem throughout {program : Program signature ε α} {outcome : Except ε α}
    {state last : σ × History signature ε σ} {holds : σ → Prop}
    (runs : Runs world.recorded program state outcome last)
    (kept : ∀ {before op answer after}, world.serve before op answer after → holds before →
      holds after)
    (initially : holds state.1) (known : ∀ call ∈ state.2, holds call.after) :
    holds last.1 ∧ ∀ call ∈ last.2, holds call.after := by
  induction runs with
  | done value state => exact ⟨initially, known⟩
  | raise error state => exact ⟨initially, known⟩
  | call served _ ih =>
      have still := kept served.1 initially
      apply ih still
      rw [served.2]
      intro call member
      rcases List.mem_append.mp member with earlier | now
      · exact known call earlier
      · cases List.mem_singleton.mp now
        exact still

/-- An outline proved of a program holds of its record: the outcome is as it says, and
every call met the guard. -/
theorem outlined {program : Program signature ε α} {outcome : Except ε α}
    {guard : σ → signature.Op → Prop} {onReturn : α → σ → Prop} {onRaise : ε → σ → Prop}
    {state last : σ × History signature ε σ}
    (runs : Runs world.recorded program state outcome last)
    (holds : wp world guard program onReturn onRaise state.1)
    (known : ∀ call ∈ state.2, guard call.before call.op) :
    Ends onReturn onRaise outcome last.1 ∧ ∀ call ∈ last.2, guard call.before call.op := by
  induction runs with
  | done value state => exact ⟨holds, known⟩
  | raise error state => exact ⟨holds, known⟩
  | call served _ ih =>
      apply ih (holds.2 _ _ served.1)
      rw [served.2]
      intro call member
      rcases List.mem_append.mp member with earlier | now
      · exact known call earlier
      · cases List.mem_singleton.mp now
        exact holds.1

/-- A monitor sees of a recorded run what its record says. -/
theorem monitored {program : Program signature ε α} {outcome : Except ε α}
    {state last : σ × History signature ε σ} (start : μ)
    (runs : Runs world.recorded program state outcome last) :
    Runs (world.monitored advance) program (state.1, state.2.foldl advance start) outcome
      (last.1, last.2.foldl advance start) := by
  induction runs with
  | done value state => exact .done _ _
  | raise error state => exact .raise _ _
  | call served _ ih =>
      refine .call ?_ ih
      constructor
      · exact served.1
      · rw [served.2]
        exact List.foldl_append

/-- The postconditions of a monitored program hold of the record. -/
theorem monitor_post {program : Program signature ε α} {outcome : Except ε α}
    {guard : σ × μ → signature.Op → Prop} {onReturn : α → σ × μ → Prop}
    {onRaise : ε → σ × μ → Prop} {state last : σ} {history : History signature ε σ} {start : μ}
    (runs : Runs world.recorded program (state, []) outcome (last, history))
    (holds : wp (world.monitored advance) guard program onReturn onRaise (state, start)) :
    Ends onReturn onRaise outcome (last, history.foldl advance start) :=
  (runs.monitored start).post holds

/-- Every call of the record met the guard, in the state it was made in and as the
monitor stood before it. -/
theorem monitor_guarded {program : Program signature ε α} {outcome : Except ε α}
    {guard : σ × μ → signature.Op → Prop} {onReturn : α → σ × μ → Prop}
    {onRaise : ε → σ × μ → Prop} {state last : σ × History signature ε σ} (start : μ)
    (runs : Runs world.recorded program state outcome last)
    (holds : wp (world.monitored advance) guard program onReturn onRaise
      (state.1, state.2.foldl advance start))
    {earlier later : History signature ε σ} {call : Served signature ε σ}
    (split : last.2 = state.2 ++ earlier ++ call :: later) :
    guard (call.before, (state.2 ++ earlier).foldl advance start) call.op := by
  induction runs generalizing earlier with
  | done value state => simp [List.append_assoc] at split
  | raise error state => simp [List.append_assoc] at split
  | @call op next answer state middle last outcome served rest ih =>
      have continues : wp (world.monitored advance) guard (next answer) onReturn onRaise
          (middle.1, middle.2.foldl advance start) := by
        apply holds.2 answer
        constructor
        · exact served.1
        · rw [served.2]
          exact List.foldl_append
      obtain ⟨calls, grown⟩ := rest.record_grows
      rw [grown, served.2, List.append_assoc, List.append_assoc, List.append_cancel_left_eq]
        at split
      cases earlier with
      | nil =>
          simp only [List.cons_append, List.nil_append, List.cons.injEq] at split
          obtain ⟨rfl, _⟩ := split
          rw [List.append_nil]
          exact holds.1
      | cons first earlier =>
          simp only [List.cons_append, List.nil_append, List.cons.injEq] at split
          obtain ⟨rfl, tail⟩ := split
          have met := @ih continues earlier (by rw [grown, tail, List.append_assoc])
          rw [served.2, List.append_assoc] at met
          exact met

/-- An invariant of states and records that every permitted call keeps holds at every
call of a recorded run, which is permitted, and at its end. -/
theorem monitor_invariant {program : Program signature ε α} {outcome : Except ε α}
    {guard : σ × μ → signature.Op → Prop} {onReturn : α → σ × μ → Prop}
    {onRaise : ε → σ × μ → Prop} {state last : σ} {history : History signature ε σ} {start : μ}
    (invariant : σ → History signature ε σ → Prop)
    (runs : Runs world.recorded program (state, []) outcome (last, history))
    (holds : wp (world.monitored advance) guard program onReturn onRaise (state, start))
    (kept : ∀ {before : σ} {record : History signature ε σ} {op : signature.Op}
      {answer : Except ε (signature.Res op)} {after : σ},
      guard (before, record.foldl advance start) op → invariant before record →
      world.serve before op answer after → invariant after
        (record ++ [⟨before, op, answer, after⟩]))
    (initially : invariant state []) :
    (∀ earlier call later, history = earlier ++ call :: later →
      guard (call.before, earlier.foldl advance start) call.op ∧ invariant call.before earlier) ∧
    invariant last history ∧ Ends onReturn onRaise outcome (last, history.foldl advance start) := by
  have unrecorded : wp (world.monitored advance) guard program onReturn onRaise
      (state, List.foldl advance start []) := holds
  have invariantly := wp_invariant (fun recorded => invariant recorded.1 recorded.2)
    (fun met known served => by
      have grown := served.2
      rw [grown]
      exact kept met known served.1) (wp_recorded unrecorded) initially
  refine ⟨?_, ?_, runs.monitor_post holds⟩
  · intro earlier call later split
    have met := Runs.monitor_guarded [] runs invariantly split
    rw [List.nil_append, foldl_record, List.nil_append] at met
    exact met
  · have ends := runs.post invariantly
    cases outcome with
    | ok value => exact ends.2
    | error error => exact ends.2

end Runs

/-! ## Monitored deterministic environments -/

/-- Answer as the environment does, and let the monitor see it. -/
def respondMonitored (respond : (op : signature.Op) → σ → Except ε (signature.Res op) × σ)
    (advance : μ → Served signature ε σ → μ) (op : signature.Op) (state : σ × μ) :
    Except ε (signature.Res op) × (σ × μ) :=
  let answered := respond op state.1
  (answered.1, answered.2, advance state.2 ⟨state.1, op, answered.1, answered.2⟩)

theorem monitored_ofFn (respond : (op : signature.Op) → σ → Except ε (signature.Res op) × σ)
    (advance : μ → Served signature ε σ → μ) :
    (World.ofFn respond).monitored advance = World.ofFn (respondMonitored respond advance) := by
  unfold World.monitored World.ofFn respondMonitored
  congr 1
  funext state op answer after
  apply propext
  constructor
  · intro ⟨served, advanced⟩
    rw [served]
    exact Prod.ext rfl (Prod.ext rfl advanced.symm)
  · intro equal
    have answered := congrArg Prod.fst equal
    have left := congrArg Prod.snd equal
    dsimp only at answered left
    rw [← answered, ← left]
    exact ⟨rfl, rfl⟩

/-- The recorded run of a program in a deterministic environment, with what a monitor
makes of its record. -/
theorem record_ofFn (respond : (op : signature.Op) → σ → Except ε (signature.Res op) × σ)
    (advance : μ → Served signature ε σ → μ) (program : Program signature ε α) (state : σ)
    (start : μ) :
    ∃ history, Runs (World.ofFn respond).recorded program (state, [])
        (program.eval respond state).1 ((program.eval respond state).2, history) ∧
      history.foldl advance start =
        (program.eval (respondMonitored respond advance) (state, start)).2.2 := by
  have plain : Runs (World.ofFn respond) program state (program.eval respond state).1
      (program.eval respond state).2 := runs_ofFn.mpr rfl
  obtain ⟨history, runs⟩ := plain.record []
  refine ⟨history, runs, ?_⟩
  have watched : Runs ((World.ofFn respond).monitored advance) _ _ _ _ := runs.monitored start
  rw [monitored_ofFn, runs_ofFn] at watched
  exact (congrArg (fun result => result.2.2) watched).symm

end Interaction
