import Mathlib.Logic.Basic

/-!
# Interaction programs

A program asks an environment to perform operations and continues with what it
is told.  Every operation may be answered by a result or by an exception; a
program that does not look at exceptions ends with the first one it is told.

Nothing here depends on what the operations are.  A signature fixes them, a
world (in `Interaction.World`) says how they may be answered.
-/

namespace Interaction

/-- Operations, each with the type of its results. -/
structure Signature where
  Op : Type
  Res : Op → Type

/-- A finite interaction: a value, an exception, or one call whose answer
selects the rest. -/
inductive Program (signature : Signature) (ε α : Type) where
  | done (value : α)
  | raise (error : ε)
  | call (op : signature.Op)
      (next : Except ε (signature.Res op) → Program signature ε α)

namespace Program

variable {signature target : Signature} {ε α β γ : Type}

/-- Sequencing; an exception skips the rest. -/
protected def bind : Program signature ε α → (α → Program signature ε β) →
    Program signature ε β
  | .done value, rest => rest value
  | .raise error, _ => .raise error
  | .call op next, rest => .call op fun answer => (next answer).bind rest

instance : Monad (Program signature ε) where
  pure := .done
  bind := Program.bind

@[simp] theorem pure_eq (value : α) :
    (pure value : Program signature ε α) = .done value := rfl

@[simp] theorem done_bind (value : α) (rest : α → Program signature ε β) :
    (Program.done value >>= rest) = rest value := rfl

@[simp] theorem raise_bind (error : ε) (rest : α → Program signature ε β) :
    ((Program.raise error : Program signature ε α) >>= rest) = .raise error := rfl

@[simp] theorem call_bind (op : signature.Op)
    (next : Except ε (signature.Res op) → Program signature ε α)
    (rest : α → Program signature ε β) :
    (Program.call op next >>= rest) = .call op fun answer => next answer >>= rest := rfl

theorem bind_assoc (program : Program signature ε α)
    (first : α → Program signature ε β) (second : β → Program signature ε γ) :
    (program >>= first) >>= second =
      program >>= fun value => first value >>= second := by
  induction program with
  | done value => rfl
  | raise error => rfl
  | call op next ih =>
      simp only [call_bind]
      congr
      funext answer
      exact ih answer

/-- The program that returns or raises what an `Except` already holds. -/
def ofExcept : Except ε α → Program signature ε α
  | .ok value => .done value
  | .error error => .raise error

/-- Ask for one operation; an exception propagates. -/
def perform (op : signature.Op) : Program signature ε (signature.Res op) :=
  .call op ofExcept

/-- Run a program and hand its exception, if any, to the caller as a value. -/
def attempt : Program signature ε α → Program signature ε (Except ε α)
  | .done value => .done (.ok value)
  | .raise error => .done (.error error)
  | .call op next => .call op fun answer => (next answer).attempt

/-- Repeat a body that either asks for another round or ends the loop.  The
loop itself is unbounded; `none` says that it was still running after `fuel`
rounds. -/
def iterate (body : β → Program signature ε (β ⊕ α)) :
    Nat → β → Program signature ε (Option α)
  | 0, _ => .done none
  | fuel + 1, start => do
      match ← body start with
      | .inl again => iterate body fuel again
      | .inr value => return some value

/-- Implement the operations of one signature by programs over another. -/
def translate (implement : (op : signature.Op) → Program target ε (signature.Res op)) :
    Program signature ε α → Program target ε α
  | .done value => .done value
  | .raise error => .raise error
  | .call op next => (implement op).attempt >>= fun answer =>
      (next answer).translate implement

/-- Every call of the program is for an allowed operation, and the program does
not look at exceptions: it ends with the first one it is told. -/
def Propagates (allowed : signature.Op → Prop) : Program signature ε α → Prop
  | .done _ => True
  | .raise _ => True
  | .call op next => allowed op ∧ (∀ error, next (.error error) = .raise error) ∧
      ∀ result, (next (.ok result)).Propagates allowed

theorem Propagates.bind {allowed : signature.Op → Prop}
    {program : Program signature ε α} {rest : α → Program signature ε β}
    (first : program.Propagates allowed) (second : ∀ value, (rest value).Propagates allowed) :
    (program >>= rest).Propagates allowed := by
  induction program with
  | done value => exact second value
  | raise error => trivial
  | call op next ih =>
      obtain ⟨opAllowed, errors, results⟩ := first
      refine ⟨opAllowed, ?_, fun result => ih _ (results result)⟩
      intro error
      change (next (.error error) >>= rest) = _
      rw [errors error, raise_bind]

theorem Propagates.mono {allowed permitted : signature.Op → Prop}
    {program : Program signature ε α} (propagates : program.Propagates allowed)
    (permits : ∀ op, allowed op → permitted op) : program.Propagates permitted := by
  induction program with
  | done value => trivial
  | raise error => trivial
  | call op next ih =>
      obtain ⟨opAllowed, errors, results⟩ := propagates
      exact ⟨permits op opAllowed, errors, fun result => ih _ (results result)⟩

theorem Propagates.perform {allowed : signature.Op → Prop} {op : signature.Op}
    (opAllowed : allowed op) :
    (Program.perform op : Program signature ε _).Propagates allowed :=
  ⟨opAllowed, fun _ => rfl, fun _ => trivial⟩

end Program

end Interaction
