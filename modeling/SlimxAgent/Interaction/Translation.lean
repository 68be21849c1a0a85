import SlimxAgent.Interaction.World

/-!
# Implementing one signature by another

A world for the operations of an implementation is a world for the operations it
implements (`World.pull`), and what `wp` says of a program there it says of the
translated program (`wp_translate`).  For deterministic environments, `eval`
computes the run, and `eval_translate` relates the two.
-/

namespace Interaction

variable {signature target : Signature} {ε σ α β : Type}

/-- Answer each operation by running its implementation. -/
def World.pull (world : World target ε σ)
    (implement : (op : signature.Op) → Program target ε (signature.Res op)) :
    World signature ε σ where
  serve state op answer after := Runs world (implement op) state answer after

section Pull

variable {world : World target ε σ}
  {implement : (op : signature.Op) → Program target ε (signature.Res op)}

/-- To verify a translated program, verify the program in the world its
implementation makes, and each implementation where it is called. -/
theorem wp_translate {guard : σ → target.Op → Prop} {callGuard : σ → signature.Op → Prop}
    {program : Program signature ε α} {onReturn : α → σ → Prop} {onRaise : ε → σ → Prop}
    {state : σ}
    (implemented : ∀ state op, callGuard state op →
      wp world guard (implement op) (fun _ _ => True) (fun _ _ => True) state)
    (holds : wp (world.pull implement) callGuard program onReturn onRaise state) :
    wp world guard (program.translate implement) onReturn onRaise state := by
  induction program generalizing state with
  | done value => exact holds
  | raise error => exact holds
  | call op next ih =>
      rw [Program.translate, wp_bind, wp_attempt]
      apply Runs.wp_of_runs (implemented state op holds.1)
      intro answer after runs
      have rest := ih answer (holds.2 answer after runs)
      cases answer with
      | ok result => exact rest
      | error error => exact rest

end Pull

/-! ## Deterministic environments -/

/-- Run a program against an environment that answers by a function. -/
def Program.eval (respond : (op : signature.Op) → σ → Except ε (signature.Res op) × σ) :
    Program signature ε α → σ → Except ε α × σ
  | .done value, state => (.ok value, state)
  | .raise error, state => (.error error, state)
  | .call op next, state =>
      let answered := respond op state
      (next answered.1).eval respond answered.2

/-- A deterministic environment as a world. -/
def World.ofFn (respond : (op : signature.Op) → σ → Except ε (signature.Res op) × σ) :
    World signature ε σ where
  serve state op answer after := respond op state = (answer, after)

section Deterministic

variable {respond : (op : signature.Op) → σ → Except ε (signature.Res op) × σ}

@[simp] theorem eval_done (value : α) (state : σ) :
    (Program.done value : Program signature ε α).eval respond state = (.ok value, state) := rfl

@[simp] theorem eval_raise (error : ε) (state : σ) :
    (Program.raise error : Program signature ε α).eval respond state = (.error error, state) :=
  rfl

@[simp] theorem eval_call (op : signature.Op)
    (next : Except ε (signature.Res op) → Program signature ε α) (state : σ) :
    (Program.call op next).eval respond state =
      (next (respond op state).1).eval respond (respond op state).2 := rfl

theorem eval_ofExcept (result : Except ε α) (state : σ) :
    (Program.ofExcept result : Program signature ε α).eval respond state = (result, state) := by
  cases result <;> rfl

theorem eval_perform (op : signature.Op) (state : σ) :
    (Program.perform op).eval respond state = respond op state := by
  rw [Program.perform, eval_call, eval_ofExcept]

theorem eval_bind (program : Program signature ε α) (rest : α → Program signature ε β)
    (state : σ) :
    (program >>= rest).eval respond state =
      match program.eval respond state with
      | (.ok value, middle) => (rest value).eval respond middle
      | (.error error, middle) => (.error error, middle) := by
  induction program generalizing state with
  | done value => rfl
  | raise error => rfl
  | call op next ih =>
      rw [Program.call_bind, eval_call, eval_call]
      exact ih _ _

theorem eval_attempt (program : Program signature ε α) (state : σ) :
    program.attempt.eval respond state =
      (.ok (program.eval respond state).1, (program.eval respond state).2) := by
  induction program generalizing state with
  | done value => rfl
  | raise error => rfl
  | call op next ih =>
      rw [Program.attempt, eval_call, eval_call]
      exact ih _ _

/-- The computed run is a run, and the only one. -/
theorem runs_ofFn {program : Program signature ε α} {state last : σ} {outcome : Except ε α} :
    Runs (World.ofFn respond) program state outcome last ↔
      program.eval respond state = (outcome, last) := by
  induction program generalizing state with
  | done value =>
      rw [Runs.ok_iff, eval_done, Prod.mk.injEq, eq_comm, eq_comm (a := last)]
  | raise error =>
      rw [Runs.raise_iff, eval_raise, Prod.mk.injEq, eq_comm, eq_comm (a := last)]
  | call op next ih =>
      rw [Runs.call_iff, eval_call, ← ih]
      constructor
      · intro ⟨answer, middle, served, rest⟩
        have equal : respond op state = (answer, middle) := served
        rw [equal]
        exact rest
      · intro rest
        exact ⟨_, _, rfl, rest⟩

/-- A translated program runs as the program does where each operation is answered by
running its implementation. -/
theorem eval_translate {serve : (op : target.Op) → σ → Except ε (target.Res op) × σ}
    {implement : (op : signature.Op) → Program target ε (signature.Res op)}
    (program : Program signature ε α) (state : σ) :
    (program.translate implement).eval serve state =
      program.eval (fun op => (implement op).eval serve) state := by
  induction program generalizing state with
  | done value => rfl
  | raise error => rfl
  | call op next ih =>
      rw [Program.translate, eval_bind, eval_attempt, eval_call]
      exact ih _ _

end Deterministic

end Interaction
