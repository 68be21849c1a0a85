import SlimxAgent.Interaction.Lockstep
import SlimxAgent.Interaction.Translation

/-!
# Deterministic environments

Where an environment computes its answers a program has one run, given by `eval`.  What
the calls commute with the program commutes with, and a loop that ended ends alike when
it is given more rounds.
-/

namespace Interaction

variable {signature : Signature} {ε σ τ α β : Type}
  {respond : (op : signature.Op) → σ → Except ε (signature.Res op) × σ}
  {serve : (op : signature.Op) → τ → Except ε (signature.Res op) × τ}

/-- A map between states that the calls commute with: the program commutes with it. -/
theorem eval_commutes {allowed : signature.Op → Prop} (embed : σ → τ)
    (commutes : ∀ op state, allowed op →
      serve op (embed state) = ((respond op state).1, embed (respond op state).2))
    {program : Program signature ε α} (propagates : program.Propagates allowed) (state : σ) :
    program.eval serve (embed state) =
      ((program.eval respond state).1, embed (program.eval respond state).2) := by
  induction program generalizing state with
  | done value => rfl
  | raise error => rfl
  | call op next ih =>
      rcases propagates with ⟨here, errors, results⟩
      rw [eval_call, eval_call, commutes op state here]
      cases answer : (respond op state).1 with
      | ok result => exact ih (.ok result) (results result) _
      | error error =>
          dsimp only
          rw [errors error]
          rfl

/-- What the calls keep is kept. -/
theorem eval_kept {allowed : signature.Op → Prop} {holds : σ → Prop}
    (kept : ∀ op state, allowed op → holds state → holds (respond op state).2)
    {program : Program signature ε α} (propagates : program.Propagates allowed) {state : σ}
    (initially : holds state) : holds (program.eval respond state).2 := by
  induction program generalizing state with
  | done value => exact initially
  | raise error => exact initially
  | call op next ih =>
      rcases propagates with ⟨here, errors, results⟩
      rw [eval_call]
      have still := kept op state here initially
      cases answer : (respond op state).1 with
      | ok result => exact ih (.ok result) (results result) still
      | error error =>
          rw [errors error]
          exact still

/-- What follows a program that returned. -/
theorem eval_bind_ok {program : Program signature ε β} {rest : β → Program signature ε α}
    {state middle : σ} {value : β} (ran : program.eval respond state = (.ok value, middle)) :
    (program >>= rest).eval respond state = (rest value).eval respond middle := by
  rw [eval_bind, ran]

/-- A function of what a program returns. -/
theorem eval_map (program : Program signature ε β) (f : β → α) (state : σ) :
    (program >>= fun value => .done (f value)).eval respond state =
      ((program.eval respond state).1.map f, (program.eval respond state).2) := by
  rw [eval_bind]
  rcases program.eval respond state with ⟨outcome, middle⟩
  cases outcome <;> rfl

/-- What the rest never returns is not returned. -/
theorem eval_bind_ne {program : Program signature ε β} {rest : β → Program signature ε α}
    {result : α}
    (never : ∀ value state, ((rest value).eval respond state).1 ≠ .ok result) (state : σ) :
    ((program >>= rest).eval respond state).1 ≠ .ok result := by
  rw [eval_bind]
  rcases program.eval respond state with ⟨outcome, middle⟩
  cases outcome with
  | ok value => exact never value middle
  | error error => exact nofun

/-- A loop that has ended takes no further rounds. -/
theorem eval_iterate_more (body : β → Program signature ε (β ⊕ α)) (fuel more : Nat) (start : β)
    (state : σ) (ends : ((Program.iterate body fuel start).eval respond state).1 ≠ .ok none) :
    (Program.iterate body (fuel + more) start).eval respond state =
      (Program.iterate body fuel start).eval respond state := by
  induction fuel generalizing start state with
  | zero => exact absurd rfl ends
  | succ fuel ih =>
      rw [Nat.add_right_comm]
      simp only [Program.iterate, eval_bind] at ends ⊢
      rcases ended : (body start).eval respond state with ⟨outcome, middle⟩
      simp only [ended] at ends
      rcases outcome with error | again | value
      · rfl
      · exact ih again middle ends
      · rfl

/-- The ends of two programs in lockstep. -/
theorem Lockstep.eval {pairs : Pairing signature} {returns : α → β → Prop}
    {program : Program signature ε α} {other : Program signature ε β} {related : σ → τ → Prop}
    (lockstep : Lockstep pairs returns program other)
    (alike : ∀ {state twin op otherOp results}, related state twin → pairs op otherOp results →
      AnswersAlike results (respond op state).1 (serve otherOp twin).1 ∧
        related (respond op state).2 (serve otherOp twin).2) {state : σ} {twin : τ}
    (together : related state twin) :
    AnswersAlike returns (program.eval respond state).1 (other.eval serve twin).1 ∧
      related (program.eval respond state).2 (other.eval serve twin).2 := by
  induction lockstep generalizing state twin with
  | done returned => exact ⟨.ok returned, together⟩
  | raise error => exact ⟨.error error, together⟩
  | call paired _ ih =>
      rw [eval_call, eval_call]
      have answered := alike together paired
      exact ih answered.1 answered.2

end Interaction
