import SlimxAgent.Interaction.Translation

/-!
# Programs side by side

A relational logic for two programs, over two signatures, each run in a deterministic
environment of its own.  `Alike` says that, from a pair of states, both return or both
raise, with results and last states in given relations.  Its rules follow those of
`wp`: sequences, single operations, caught exceptions, and loops of as many rounds.
-/

namespace Interaction

variable {left right : Signature} {ε δ σ τ α β γ κ : Type}

/-- Both ends return, or both raise. -/
def EndsAlike (returns : α → β → σ → τ → Prop) (raises : ε → δ → σ → τ → Prop) :
    Except ε α × σ → Except δ β × τ → Prop
  | (.ok value, state), (.ok other, twin) => returns value other state twin
  | (.error error, state), (.error other, twin) => raises error other state twin
  | _, _ => False

/-- The programs end alike when they are run from these states. -/
def Alike (respond : (op : left.Op) → σ → Except ε (left.Res op) × σ)
    (serve : (op : right.Op) → τ → Except δ (right.Res op) × τ)
    (program : Program left ε α) (other : Program right δ β)
    (returns : α → β → σ → τ → Prop) (raises : ε → δ → σ → τ → Prop)
    (state : σ) (twin : τ) : Prop :=
  EndsAlike returns raises (program.eval respond state) (other.eval serve twin)

section Rules

variable {respond : (op : left.Op) → σ → Except ε (left.Res op) × σ}
  {serve : (op : right.Op) → τ → Except δ (right.Res op) × τ}
  {returns : α → β → σ → τ → Prop} {raises : ε → δ → σ → τ → Prop} {state : σ} {twin : τ}

/-- First the first parts, then the second parts from wherever those returned. -/
theorem alike_seq {program : Program left ε γ} {other : Program right δ κ}
    {rest : γ → Program left ε α} {otherRest : κ → Program right δ β}
    {between : γ → κ → σ → τ → Prop}
    (first : Alike respond serve program other between raises state twin)
    (second : ∀ value partner state twin, between value partner state twin →
      Alike respond serve (rest value) (otherRest partner) returns raises state twin) :
    Alike respond serve (program >>= rest) (other >>= otherRest) returns raises state twin := by
  rw [Alike] at first ⊢
  rw [eval_bind, eval_bind]
  cases ended : program.eval respond state with
  | mk outcome last =>
      cases otherEnded : other.eval serve twin with
      | mk otherOutcome otherLast =>
          rw [ended, otherEnded] at first
          cases outcome with
          | ok value =>
              cases otherOutcome with
              | ok otherValue => exact second _ _ _ _ first
              | error error => exact first.elim
          | error error =>
              cases otherOutcome with
              | ok otherValue => exact first.elim
              | error otherError => exact first

/-- One decision on both sides. -/
theorem alike_ite {condition twinCondition : Prop} [Decidable condition] [Decidable twinCondition]
    {taken passed : Program left ε α} {otherTaken otherPassed : Program right δ β}
    (same : condition ↔ twinCondition)
    (takes : condition → Alike respond serve taken otherTaken returns raises state twin)
    (passes : ¬ condition → Alike respond serve passed otherPassed returns raises state twin) :
    Alike respond serve (if condition then taken else passed)
      (if twinCondition then otherTaken else otherPassed) returns raises state twin := by
  by_cases holds : condition
  · rw [if_pos holds, if_pos (same.mp holds)]
    exact takes holds
  · rw [if_neg holds, if_neg (holds ∘ same.mpr)]
    exact passes holds

theorem alike_perform {op : left.Op} {otherOp : right.Op}
    {returns : left.Res op → right.Res otherOp → σ → τ → Prop} :
    Alike respond serve (Program.perform op) (Program.perform otherOp) returns raises state twin ↔
      EndsAlike returns raises (respond op state) (serve otherOp twin) := by
  rw [Alike, eval_perform, eval_perform]

theorem EndsAlike.mono {wider : α → β → σ → τ → Prop} {widerRaises : ε → δ → σ → τ → Prop}
    {ended : Except ε α × σ} {other : Except δ β × τ}
    (ends : EndsAlike returns raises ended other)
    (returned : ∀ value other state twin, returns value other state twin →
      wider value other state twin)
    (raised : ∀ error other state twin, raises error other state twin →
      widerRaises error other state twin) :
    EndsAlike wider widerRaises ended other := by
  obtain ⟨outcome, last⟩ := ended
  obtain ⟨otherOutcome, otherLast⟩ := other
  cases outcome with
  | ok value =>
      cases otherOutcome with
      | ok otherValue => exact returned _ _ _ _ ends
      | error error => exact ends.elim
  | error error =>
      cases otherOutcome with
      | ok otherValue => exact ends.elim
      | error otherError => exact raised _ _ _ _ ends

theorem alike_post {program : Program left ε α} {other : Program right δ β}
    {wider : α → β → σ → τ → Prop}
    (ends : Alike respond serve program other returns raises state twin)
    (returned : ∀ value other state twin, returns value other state twin →
      wider value other state twin) :
    Alike respond serve program other wider raises state twin :=
  EndsAlike.mono ends returned fun _ _ _ _ raised => raised

/-- Exceptions handed over as values. -/
theorem alike_attempt {program : Program left ε α} {other : Program right δ β}
    {caught : Except ε α → Except δ β → σ → τ → Prop}
    (ends : Alike respond serve program other
      (fun value other => caught (.ok value) (.ok other))
      (fun error other => caught (.error error) (.error other)) state twin) :
    Alike respond serve program.attempt other.attempt caught raises state twin := by
  rw [Alike] at ends ⊢
  rw [eval_attempt, eval_attempt]
  cases ended : program.eval respond state with
  | mk outcome last =>
      cases otherEnded : other.eval serve twin with
      | mk otherOutcome otherLast =>
          rw [ended, otherEnded] at ends
          cases outcome with
          | ok value =>
              cases otherOutcome with
              | ok otherValue => exact ends
              | error error => exact ends.elim
          | error error =>
              cases otherOutcome with
              | ok otherValue => exact ends.elim
              | error otherError => exact ends

/-- What two rounds of a loop may decide: both go on, or both leave. -/
def RoundsAlike (onward : γ → κ → σ → τ → Prop) (leaves : α → β → σ → τ → Prop) :
    γ ⊕ α → κ ⊕ β → σ → τ → Prop
  | .inl again, .inl other => onward again other
  | .inr value, .inr other => leaves value other
  | _, _ => fun _ _ => False

/-- What two loops end with: both leave, or both run out of rounds. -/
def LoopsAlike (onward : γ → κ → σ → τ → Prop) (leaves : α → β → σ → τ → Prop) :
    Option α → Option β → σ → τ → Prop
  | none, none => fun state twin => ∃ again other, onward again other state twin
  | some value, some other => leaves value other
  | _, _ => fun _ _ => False

/-- Loops run round by round. -/
theorem alike_iterate {body : γ → Program left ε (γ ⊕ α)} {otherBody : κ → Program right δ (κ ⊕ β)}
    {onward : γ → κ → σ → τ → Prop} {leaves : α → β → σ → τ → Prop}
    (round : ∀ {again other state twin}, onward again other state twin →
      Alike respond serve (body again) (otherBody other) (RoundsAlike onward leaves) raises
        state twin)
    (fuel : Nat) {start : γ} {otherStart : κ} (holds : onward start otherStart state twin) :
    Alike respond serve (Program.iterate body fuel start)
      (Program.iterate otherBody fuel otherStart) (LoopsAlike onward leaves) raises state twin := by
  induction fuel generalizing start otherStart state twin with
  | zero => exact ⟨start, otherStart, holds⟩
  | succ fuel ih =>
      apply alike_seq (round holds)
      intro decided other state twin decides
      cases decided with
      | inl again =>
          cases other with
          | inl otherAgain => exact ih decides
          | inr value => exact decides.elim
      | inr value =>
          cases other with
          | inl otherAgain => exact decides.elim
          | inr otherValue => exact decides

end Rules

end Interaction
