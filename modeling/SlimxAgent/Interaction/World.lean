import SlimxAgent.Interaction.Program

/-!
# Worlds, runs and weakest preconditions

A world is a state and a relation saying how each operation may be answered
there.  It is nondeterministic on purpose: whatever else may happen between two
calls of a program (other parties acting, answers that are not the program's to
choose) is part of the relation.

`wp` is the weakest precondition of a program over a world, with a guard that
every call has to meet when it is made.  Its rules (`wp_seq`, `wp_perform`,
`wp_attempt`, `wp_iterate_counted`, `wp_propagates`) are what proofs use; `Runs.post`
turns the result into a fact about runs.
-/

namespace Interaction

variable {signature target : Signature} {ε σ α β : Type}

/-- How operations may be answered, and what a state becomes by it. -/
structure World (signature : Signature) (ε σ : Type) where
  serve : σ → (op : signature.Op) → Except ε (signature.Res op) → σ → Prop

/-- Complete runs of a program in a world: from a state, with an outcome, to a
state. -/
inductive Runs (world : World signature ε σ) :
    Program signature ε α → σ → Except ε α → σ → Prop where
  | done (value : α) (state : σ) : Runs world (.done value) state (.ok value) state
  | raise (error : ε) (state : σ) : Runs world (.raise error) state (.error error) state
  | call {op : signature.Op} {next : Except ε (signature.Res op) → Program signature ε α}
      {answer : Except ε (signature.Res op)} {state middle last : σ} {outcome : Except ε α} :
      world.serve state op answer middle → Runs world (next answer) middle outcome last →
      Runs world (.call op next) state outcome last

namespace Runs

variable {world : World signature ε σ} {state last : σ}

theorem ok_iff {value : α} {outcome : Except ε α} :
    Runs world (.done value) state outcome last ↔ outcome = .ok value ∧ last = state := by
  constructor
  · intro runs
    cases runs
    exact ⟨rfl, rfl⟩
  · rintro ⟨rfl, rfl⟩
    exact .done _ _

theorem raise_iff {error : ε} {outcome : Except ε α} :
    Runs world (.raise error : Program signature ε α) state outcome last ↔
      outcome = .error error ∧ last = state := by
  constructor
  · intro runs
    cases runs
    exact ⟨rfl, rfl⟩
  · rintro ⟨rfl, rfl⟩
    exact .raise _ _

theorem ofExcept_iff {result outcome : Except ε α} :
    Runs world (.ofExcept result) state outcome last ↔ outcome = result ∧ last = state := by
  cases result with
  | error error => exact raise_iff
  | ok value => exact ok_iff

theorem call_iff {op : signature.Op}
    {next : Except ε (signature.Res op) → Program signature ε α} {outcome : Except ε α} :
    Runs world (.call op next) state outcome last ↔
      ∃ answer middle, world.serve state op answer middle ∧
        Runs world (next answer) middle outcome last := by
  constructor
  · intro runs
    cases runs with
    | call served rest => exact ⟨_, _, served, rest⟩
  · rintro ⟨answer, middle, served, rest⟩
    exact .call served rest

/-- One operation. -/
theorem perform_iff {op : signature.Op} {outcome : Except ε (signature.Res op)} :
    Runs world (Program.perform op) state outcome last ↔ world.serve state op outcome last := by
  rw [Program.perform, call_iff]
  constructor
  · rintro ⟨answer, middle, served, rest⟩
    cases answer with
    | ok result =>
        rcases ok_iff.mp rest with ⟨rfl, rfl⟩
        exact served
    | error error =>
        rcases raise_iff.mp rest with ⟨rfl, rfl⟩
        exact served
  · intro served
    cases outcome with
    | ok result => exact ⟨_, last, served, .done _ _⟩
    | error error => exact ⟨_, last, served, .raise _ _⟩

/-- A run of a sequence passes between its parts, or ends with an exception of the first. -/
theorem bind_iff {program : Program signature ε β} {rest : β → Program signature ε α}
    {outcome : Except ε α} :
    Runs world (program >>= rest) state outcome last ↔
      (∃ value middle, Runs world program state (.ok value) middle ∧
        Runs world (rest value) middle outcome last) ∨
      ∃ error, Runs world program state (.error error) last ∧ outcome = .error error := by
  induction program generalizing state with
  | done value =>
      simp only [Program.done_bind, ok_iff, Except.ok.injEq, reduceCtorEq, false_and,
        exists_false, or_false]
      constructor
      · intro runs
        exact ⟨value, state, ⟨rfl, rfl⟩, runs⟩
      · rintro ⟨_, _, ⟨rfl, rfl⟩, runs⟩
        exact runs
  | raise error =>
      simp only [Program.raise_bind, raise_iff, reduceCtorEq, false_and, exists_false,
        Except.error.injEq, false_or]
      constructor
      · rintro ⟨rfl, rfl⟩
        exact ⟨error, ⟨rfl, rfl⟩, rfl⟩
      · rintro ⟨_, ⟨rfl, rfl⟩, rfl⟩
        exact ⟨rfl, rfl⟩
  | call op next ih =>
      simp only [Program.call_bind, call_iff, ih]
      constructor
      · rintro ⟨answer, middle, served, ⟨value, between, first, second⟩ | ⟨error, first, same⟩⟩
        · exact .inl ⟨value, between, ⟨answer, middle, served, first⟩, second⟩
        · exact .inr ⟨error, ⟨answer, middle, served, first⟩, same⟩
      · rintro (⟨value, between, ⟨answer, middle, served, first⟩, second⟩ |
          ⟨error, ⟨answer, middle, served, first⟩, same⟩)
        · exact ⟨answer, middle, served, .inl ⟨value, between, first, second⟩⟩
        · exact ⟨answer, middle, served, .inr ⟨error, first, same⟩⟩

/-- Handing over an exception as a value. -/
theorem attempt_iff {program : Program signature ε α} {outcome : Except ε (Except ε α)} :
    Runs world program.attempt state outcome last ↔
      ∃ inner, outcome = .ok inner ∧ Runs world program state inner last := by
  induction program generalizing state with
  | done value =>
      simp only [Program.attempt, ok_iff]
      constructor
      · rintro ⟨rfl, rfl⟩
        exact ⟨_, rfl, rfl, rfl⟩
      · rintro ⟨_, rfl, rfl, rfl⟩
        exact ⟨rfl, rfl⟩
  | raise error =>
      simp only [Program.attempt, ok_iff, raise_iff]
      constructor
      · rintro ⟨rfl, rfl⟩
        exact ⟨_, rfl, rfl, rfl⟩
      · rintro ⟨_, rfl, rfl, rfl⟩
        exact ⟨rfl, rfl⟩
  | call op next ih =>
      simp only [Program.attempt, call_iff, ih]
      constructor
      · rintro ⟨answer, middle, served, inner, same, rest⟩
        exact ⟨inner, same, answer, middle, served, rest⟩
      · rintro ⟨inner, same, answer, middle, served, rest⟩
        exact ⟨answer, middle, served, inner, same, rest⟩

/-- A loop that was still running has made every round that it could. -/
theorem iterate_counted {body : β → Program signature ε (β ⊕ α)} (measure : σ → Nat)
    (round : ∀ {start again state last}, Runs world (body start) state (.ok (.inl again)) last →
      measure state < measure last)
    {fuel : Nat} {start : β} (runs : Runs world (Program.iterate body fuel start) state (.ok none)
      last) : measure state + fuel ≤ measure last := by
  induction fuel generalizing start state with
  | zero =>
      rcases ok_iff.mp runs with ⟨_, rfl⟩
      exact Nat.le_refl _
  | succ fuel ih =>
      rcases bind_iff.mp runs with ⟨result, middle, first, rest⟩ | ⟨_, _, same⟩
      · cases result with
        | inl again =>
            have counted := round first
            have later := ih rest
            omega
        | inr value => cases (ok_iff.mp rest).1
      · cases same

/-- A run in a world is one in every world that allows its answers. -/
theorem mono {wider : World signature ε σ} {program : Program signature ε α}
    {outcome : Except ε α}
    (allows : ∀ {state op answer after}, world.serve state op answer after →
      wider.serve state op answer after)
    (runs : Runs world program state outcome last) : Runs wider program state outcome last := by
  induction runs with
  | done value state => exact .done value state
  | raise error state => exact .raise error state
  | call served _ ih => exact .call (allows served) ih

end Runs

/-! ## Weakest preconditions -/

/-- From this state every call of the program meets the guard, and every run
ends in a state satisfying the postcondition of its outcome. -/
def wp (world : World signature ε σ) (guard : σ → signature.Op → Prop)
    (program : Program signature ε α) (onReturn : α → σ → Prop) (onRaise : ε → σ → Prop) :
    σ → Prop :=
  match program with
  | .done value => onReturn value
  | .raise error => onRaise error
  | .call op next => fun state => guard state op ∧
      ∀ answer after, world.serve state op answer after →
        wp world guard (next answer) onReturn onRaise after

section Rules

variable {world : World signature ε σ} {guard : σ → signature.Op → Prop}
  {onReturn : α → σ → Prop} {onRaise : ε → σ → Prop} {state : σ}

theorem wp_call {op : signature.Op}
    {next : Except ε (signature.Res op) → Program signature ε α} :
    wp world guard (.call op next) onReturn onRaise state ↔ guard state op ∧
      ∀ answer after, world.serve state op answer after →
        wp world guard (next answer) onReturn onRaise after := Iff.rfl

theorem wp_bind {program : Program signature ε β} {rest : β → Program signature ε α} :
    wp world guard (program >>= rest) onReturn onRaise state ↔
      wp world guard program
        (fun value => wp world guard (rest value) onReturn onRaise) onRaise state := by
  induction program generalizing state with
  | done value => rfl
  | raise error => rfl
  | call op next ih =>
      simp only [Program.call_bind, wp_call]
      constructor
      · rintro ⟨met, every⟩
        exact ⟨met, fun answer after served => ih answer |>.mp (every answer after served)⟩
      · rintro ⟨met, every⟩
        exact ⟨met, fun answer after served => ih answer |>.mpr (every answer after served)⟩

theorem wp_perform {op : signature.Op} {onReturn : signature.Res op → σ → Prop} :
    wp world guard (Program.perform op) onReturn onRaise state ↔ guard state op ∧
      (∀ result after, world.serve state op (.ok result) after → onReturn result after) ∧
      ∀ error after, world.serve state op (.error error) after → onRaise error after := by
  simp only [Program.perform, wp_call]
  constructor
  · rintro ⟨met, every⟩
    exact ⟨met, fun result after served => every (.ok result) after served,
      fun error after served => every (.error error) after served⟩
  · rintro ⟨met, results, errors⟩
    refine ⟨met, fun answer after served => ?_⟩
    cases answer with
    | ok result => exact results result after served
    | error error => exact errors error after served

theorem wp_attempt {program : Program signature ε α} {onReturn : Except ε α → σ → Prop} :
    wp world guard program.attempt onReturn onRaise state ↔
      wp world guard program (fun value => onReturn (.ok value))
        (fun error => onReturn (.error error)) state := by
  induction program generalizing state with
  | done value => rfl
  | raise error => rfl
  | call op next ih =>
      simp only [Program.attempt, wp_call, ih]

theorem wp_mono {program : Program signature ε α} {onReturn' : α → σ → Prop}
    {onRaise' : ε → σ → Prop} (holds : wp world guard program onReturn onRaise state)
    (returns : ∀ value after, onReturn value after → onReturn' value after)
    (raises : ∀ error after, onRaise error after → onRaise' error after) :
    wp world guard program onReturn' onRaise' state := by
  induction program generalizing state with
  | done value => exact returns value state holds
  | raise error => exact raises error state holds
  | call op next ih =>
      obtain ⟨met, every⟩ := holds
      exact ⟨met, fun answer after served => ih answer (every answer after served)⟩

/-- Weaken what is known of the result. -/
theorem wp_post {program : Program signature ε α} {onReturn' : α → σ → Prop}
    (holds : wp world guard program onReturn onRaise state)
    (returns : ∀ value after, onReturn value after → onReturn' value after) :
    wp world guard program onReturn' onRaise state :=
  wp_mono holds returns fun _ _ raised => raised

/-- Sequencing through an intermediate assertion. -/
theorem wp_seq {program : Program signature ε β} {rest : β → Program signature ε α}
    {middle : β → σ → Prop} (first : wp world guard program middle onRaise state)
    (second : ∀ value after, middle value after →
      wp world guard (rest value) onReturn onRaise after) :
    wp world guard (program >>= rest) onReturn onRaise state :=
  wp_bind.mpr (wp_mono first second fun _ _ raised => raised)

/-- The loop rule with a count: the invariant may speak of the rounds that are
left. -/
theorem wp_iterate_counted {body : β → Program signature ε (β ⊕ α)}
    {onReturn : Option α → σ → Prop} (invariant : Nat → β → σ → Prop)
    (round : ∀ left start state, invariant (left + 1) start state →
      wp world guard (body start)
        (Sum.elim (invariant left) fun value => onReturn (some value)) onRaise state)
    (unfinished : ∀ start state, invariant 0 start state → onReturn none state)
    (fuel : Nat) (start : β) (state : σ) (initially : invariant fuel start state) :
    wp world guard (Program.iterate body fuel start) onReturn onRaise state := by
  induction fuel generalizing start state with
  | zero => exact unfinished start state initially
  | succ fuel ih =>
      refine wp_seq (round fuel start state initially) fun result after kept => ?_
      cases result with
      | inl again => exact ih again after kept
      | inr value => exact kept

/-- The frame rule: a program whose calls all keep an invariant keeps it. -/
theorem wp_propagates {allowed : signature.Op → Prop} (invariant : σ → Prop)
    (served : ∀ state op, allowed op → invariant state →
      guard state op ∧
      (∀ result after, world.serve state op (.ok result) after → invariant after) ∧
      ∀ error after, world.serve state op (.error error) after → onRaise error after)
    (raised : ∀ error state, invariant state → onRaise error state)
    {program : Program signature ε α} (propagates : program.Propagates allowed)
    (initially : invariant state) :
    wp world guard program (fun _ => invariant) onRaise state := by
  induction program generalizing state with
  | done value => exact initially
  | raise error => exact raised error state initially
  | call op next ih =>
      obtain ⟨opAllowed, errors, results⟩ := propagates
      obtain ⟨met, kept, failed⟩ := served state op opAllowed initially
      refine ⟨met, fun answer after step => ?_⟩
      cases answer with
      | ok result => exact ih (.ok result) (results result) (kept result after step)
      | error error =>
          rw [errors error]
          exact failed error after step

/-- The invariant rule: what every call that meets the guard keeps holds at every call
and at the end. -/
theorem wp_invariant {program : Program signature ε α} (invariant : σ → Prop)
    (kept : ∀ {state op answer after}, guard state op → invariant state →
      world.serve state op answer after → invariant after)
    (holds : wp world guard program onReturn onRaise state) (initially : invariant state) :
    wp world (fun state op => guard state op ∧ invariant state) program
      (fun value state => onReturn value state ∧ invariant state)
      (fun error state => onRaise error state ∧ invariant state) state := by
  induction program generalizing state with
  | done value => exact ⟨holds, initially⟩
  | raise error => exact ⟨holds, initially⟩
  | call op next ih =>
      obtain ⟨met, every⟩ := holds
      constructor
      · exact ⟨met, initially⟩
      · intro answer after served
        exact ih answer (every answer after served) (kept met initially served)

end Rules

/-- What the postconditions say of an outcome. -/
def Ends (onReturn : α → σ → Prop) (onRaise : ε → σ → Prop) : Except ε α → σ → Prop
  | .ok value => onReturn value
  | .error error => onRaise error

namespace Runs

variable {world : World signature ε σ} {guard : σ → signature.Op → Prop} {state last : σ}

/-- The outcome of a run satisfies the postconditions of `wp`. -/
theorem post {program : Program signature ε α} {outcome : Except ε α}
    {onReturn : α → σ → Prop} {onRaise : ε → σ → Prop}
    (runs : Runs world program state outcome last)
    (holds : wp world guard program onReturn onRaise state) :
    Ends onReturn onRaise outcome last := by
  induction runs with
  | done value state => exact holds
  | raise error state => exact holds
  | call served _ ih => exact ih (holds.2 _ _ served)

/-- What every run of a program ends with is a postcondition of it. -/
theorem wp_of_runs {program : Program signature ε α} {onReturn : α → σ → Prop}
    {onRaise : ε → σ → Prop}
    (met : wp world guard program (fun _ _ => True) (fun _ _ => True) state)
    (ends : ∀ outcome last, Runs world program state outcome last →
      Ends onReturn onRaise outcome last) :
    wp world guard program onReturn onRaise state := by
  induction program generalizing state with
  | done value => exact ends (.ok value) state (.done value state)
  | raise error => exact ends (.error error) state (.raise error state)
  | call op next ih =>
      constructor
      · exact met.1
      · intro answer after served
        apply ih answer (met.2 answer after served)
        intro outcome last runs
        exact ends outcome last (.call served runs)

end Runs

end Interaction
