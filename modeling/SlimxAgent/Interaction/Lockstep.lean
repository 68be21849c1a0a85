import SlimxAgent.Interaction.Monitor
import Mathlib.Data.List.Forall2

/-!
# Lockstep

Two programs over one signature that make corresponding calls as long as they are told
corresponding results.  A pairing says which calls correspond and which of their results
do; exceptions correspond when they are equal.  In environments that answer
corresponding calls correspondingly, two such programs make corresponding calls
throughout, however they end.
-/

namespace Interaction

variable {signature : Signature} {ε σ τ α β γ κ : Type}

/-- Which operations correspond, with the relation between their results. -/
abbrev Pairing (signature : Signature) :=
  (op other : signature.Op) → (signature.Res op → signature.Res other → Prop) → Prop

/-- Both are results in the relation, or both are one exception. -/
inductive AnswersAlike (results : α → β → Prop) : Except ε α → Except ε β → Prop where
  | ok {result : α} {other : β} : results result other →
      AnswersAlike results (.ok result) (.ok other)
  | error (error : ε) : AnswersAlike results (.error error) (.error error)

/-- The programs go in lockstep, to results in the relation. -/
inductive Lockstep (pairs : Pairing signature) (returns : α → β → Prop) :
    Program signature ε α → Program signature ε β → Prop where
  | done {value : α} {other : β} :
      returns value other → Lockstep pairs returns (.done value) (.done other)
  | raise (error : ε) : Lockstep pairs returns (.raise error) (.raise error)
  | call {op other : signature.Op} {results : signature.Res op → signature.Res other → Prop}
      {next : Except ε (signature.Res op) → Program signature ε α}
      {otherNext : Except ε (signature.Res other) → Program signature ε β} :
      pairs op other results →
      (∀ {answer otherAnswer}, AnswersAlike results answer otherAnswer →
        Lockstep pairs returns (next answer) (otherNext otherAnswer)) →
      Lockstep pairs returns (.call op next) (.call other otherNext)

/-- Corresponding calls. -/
def CallsAlike (pairs : Pairing signature) (call : Served signature ε σ)
    (other : Served signature ε τ) : Prop :=
  ∃ results, pairs call.op other.op results ∧ AnswersAlike results call.answer other.answer

/-- The worlds answer corresponding calls correspondingly, from related states to related
states. -/
def WorldsAlike (pairs : Pairing signature) (left : World signature ε σ)
    (right : World signature ε τ) (related : σ → τ → Prop) : Prop :=
  ∀ {state twin op other results answer otherAnswer after otherAfter}, related state twin →
    pairs op other results → left.serve state op answer after →
    right.serve twin other otherAnswer otherAfter →
    AnswersAlike results answer otherAnswer ∧ related after otherAfter

theorem AnswersAlike.equal {answer other : Except ε α} (alike : AnswersAlike Eq answer other) :
    answer = other := by
  cases alike with
  | ok same => rw [same]
  | error error => rfl

theorem AnswersAlike.same (answer : Except ε α) : AnswersAlike Eq answer answer := by
  cases answer with
  | ok result => exact .ok rfl
  | error error => exact .error error

namespace Lockstep

variable {pairs : Pairing signature}

theorem seq {between : γ → κ → Prop} {returns : α → β → Prop} {program : Program signature ε γ}
    {other : Program signature ε κ} {rest : γ → Program signature ε α}
    {otherRest : κ → Program signature ε β} (first : Lockstep pairs between program other)
    (second : ∀ value partner, between value partner →
      Lockstep pairs returns (rest value) (otherRest partner)) :
    Lockstep pairs returns (program >>= rest) (other >>= otherRest) := by
  induction first with
  | done related => exact second _ _ related
  | raise error => exact .raise error
  | call paired _ ih => exact .call paired ih

theorem perform {op other : signature.Op} {results : signature.Res op → signature.Res other → Prop}
    (paired : pairs op other results) :
    Lockstep (ε := ε) pairs results (.perform op) (.perform other) := by
  apply Lockstep.call paired
  intro answer otherAnswer alike
  cases alike with
  | ok related => exact .done related
  | error error => exact .raise error

/-- Exceptions handed over as values. -/
theorem attempt {returns : α → β → Prop} {program : Program signature ε α}
    {other : Program signature ε β} (lockstep : Lockstep pairs returns program other) :
    Lockstep pairs (AnswersAlike returns) program.attempt other.attempt := by
  induction lockstep with
  | done related => exact .done (.ok related)
  | raise error => exact .done (.error error)
  | call paired _ ih => exact .call paired ih

/-- A program goes in lockstep with itself when its calls correspond to themselves. -/
theorem same {allowed : signature.Op → Prop} {program : Program signature ε α}
    (propagates : program.Propagates allowed) (paired : ∀ op, allowed op → pairs op op Eq) :
    Lockstep pairs Eq program program := by
  induction program with
  | done value => exact .done rfl
  | raise error => exact .raise error
  | call op next ih =>
      rcases propagates with ⟨here, errors, results⟩
      apply Lockstep.call (paired op here)
      intro answer other alike
      cases alike.equal
      cases answer with
      | ok result => exact ih _ (results result)
      | error error =>
          rw [errors error]
          exact .raise error

/-- What two rounds decide: both go on, or both leave. -/
inductive Round (onward : γ → κ → Prop) (leaves : α → β → Prop) : γ ⊕ α → κ ⊕ β → Prop where
  | again {start : γ} {other : κ} : onward start other →
      Round onward leaves (.inl start) (.inl other)
  | left {value : α} {other : β} : leaves value other →
      Round onward leaves (.inr value) (.inr other)

theorem iterate {onward : γ → κ → Prop} {leaves : α → β → Prop}
    {body : γ → Program signature ε (γ ⊕ α)} {otherBody : κ → Program signature ε (κ ⊕ β)}
    (round : ∀ start other, onward start other →
      Lockstep pairs (Round onward leaves) (body start) (otherBody other))
    (fuel : Nat) {start : γ} {other : κ} (related : onward start other) :
    Lockstep pairs (Option.Rel leaves) (.iterate body fuel start)
      (.iterate otherBody fuel other) := by
  induction fuel generalizing start other with
  | zero => exact .done .none
  | succ fuel ih =>
      apply (round start other related).seq
      intro decided partner decides
      cases decides with
      | again related => exact ih related
      | left related => exact .done (.some related)

/-- The runs of two programs in lockstep. -/
theorem runs {returns : α → β → Prop} {program : Program signature ε α}
    {other : Program signature ε β} {left : World signature ε σ} {right : World signature ε τ}
    {related : σ → τ → Prop} (lockstep : Lockstep pairs returns program other)
    (alike : WorldsAlike pairs left right related) {outcome : Except ε α}
    {otherOutcome : Except ε β} {state last : σ × History signature ε σ}
    {twin otherLast : τ × History signature ε τ}
    (runs : Runs left.recorded program state outcome last)
    (otherRuns : Runs right.recorded other twin otherOutcome otherLast)
    (together : related state.1 twin.1) (past : List.Forall₂ (CallsAlike pairs) state.2 twin.2) :
    AnswersAlike returns outcome otherOutcome ∧ related last.1 otherLast.1 ∧
      List.Forall₂ (CallsAlike pairs) last.2 otherLast.2 := by
  induction lockstep generalizing state twin with
  | done returned =>
      rcases Runs.ok_iff.mp runs with ⟨rfl, rfl⟩
      rcases Runs.ok_iff.mp otherRuns with ⟨rfl, rfl⟩
      exact ⟨.ok returned, together, past⟩
  | raise error =>
      rcases Runs.raise_iff.mp runs with ⟨rfl, rfl⟩
      rcases Runs.raise_iff.mp otherRuns with ⟨rfl, rfl⟩
      exact ⟨.error error, together, past⟩
  | call paired _ ih =>
      rcases Runs.call_iff.mp runs with ⟨answer, middle, served, rest⟩
      rcases Runs.call_iff.mp otherRuns with ⟨otherAnswer, otherMiddle, otherServed, otherRest⟩
      have answered := alike together paired served.1 otherServed.1
      apply ih answered.1 rest otherRest answered.2
      rw [served.2, otherServed.2]
      exact List.rel_append past (.cons ⟨_, paired, answered.1⟩ .nil)

end Lockstep

end Interaction
