import SlimxAgent.Interaction.Monitor

/-!
# Programs that hand on exceptions

A program relays exceptions when each one it is told either leaves it going or ends it
as it is.  What such a program ends with is then the exception it was told last, or a
refusal of its own.
-/

namespace Interaction

variable {signature : Signature} {ε σ α β : Type}

/-- What is known of a program that relays: the results it counts on, the exceptions of an
operation that it may end with, and those it raises by itself. -/
structure Conduct (signature : Signature) (ε : Type) where
  results : (op : signature.Op) → signature.Res op → Prop
  passes : signature.Op → ε → Prop
  refuses : ε → Prop

/-- Every exception passes, and there are no refusals. -/
def Conduct.plain : Conduct signature ε := ⟨fun _ _ => True, fun _ _ => True, fun _ => False⟩

namespace Program

/-- After an exception the program goes on or ends with it; by itself it raises its
refusals only. -/
def Relays (conduct : Conduct signature ε) : Program signature ε α → Prop
  | .done _ => True
  | .raise error => conduct.refuses error
  | .call op next =>
      (∀ error, (conduct.passes op error ∧ next (.error error) = .raise error) ∨
        (next (.error error)).Relays conduct) ∧
      ∀ result, conduct.results op result → (next (.ok result)).Relays conduct

variable {conduct : Conduct signature ε}

theorem Relays.bind {program : Program signature ε α} {rest : α → Program signature ε β}
    (first : program.Relays conduct) (second : ∀ value, (rest value).Relays conduct) :
    (program >>= rest).Relays conduct := by
  induction program with
  | done value => exact second value
  | raise error => exact first
  | call op next ih =>
      rcases first with ⟨errors, results⟩
      constructor
      · intro error
        rcases errors error with ⟨passes, raised⟩ | relays
        · left
          refine ⟨passes, ?_⟩
          change (next (.error error) >>= rest) = _
          rw [raised, raise_bind]
        · exact .inr (ih _ relays)
      · intro result counted
        exact ih _ (results result counted)

/-- One call, whose exceptions all pass, and what is made of its result. -/
theorem Relays.perform {op : signature.Op} {rest : signature.Res op → Program signature ε α}
    (passes : ∀ error, conduct.passes op error)
    (results : ∀ result, conduct.results op result → (rest result).Relays conduct) :
    (Program.perform op >>= rest).Relays conduct :=
  ⟨fun error => .inl ⟨passes error, rfl⟩, results⟩

/-- One call at the end. -/
theorem Relays.last {op : signature.Op} (passes : ∀ error, conduct.passes op error) :
    (Program.perform op).Relays conduct :=
  ⟨fun error => .inl ⟨passes error, rfl⟩, fun _ _ => trivial⟩

theorem Relays.iterate {body : β → Program signature ε (β ⊕ α)}
    (round : ∀ start, (body start).Relays conduct) (fuel : Nat) (start : β) :
    (Program.iterate body fuel start).Relays conduct := by
  induction fuel generalizing start with
  | zero => trivial
  | succ fuel ih =>
      apply (round start).bind
      intro decided
      cases decided with
      | inl again => exact ih again
      | inr value => trivial

end Program

/-- What a program that relays exceptions ends with is a refusal, or the answer of its
last call, where the results are such as it counts on. -/
theorem Runs.relayed {world : World signature ε σ} {conduct : Conduct signature ε}
    {program : Program signature ε α} {state last : σ × History signature ε σ}
    {outcome : Except ε α} {error : ε}
    (runs : Runs world.recorded program state outcome last) (relays : program.Relays conduct)
    (counted : ∀ {state op result after}, world.serve state op (.ok result) after →
      conduct.results op result)
    (raised : outcome = .error error) :
    conduct.refuses error ∨ ∃ earlier call, last.2 = earlier ++ [call] ∧
      call.answer = .error error ∧ conduct.passes call.op error ∧
      call.after = last.1 := by
  induction runs with
  | done value state => cases raised
  | raise error state =>
      cases raised
      exact .inl relays
  | @call op next answer state middle last outcome served rest ih =>
      cases answer with
      | ok result => exact ih (relays.2 result (counted served.1)) raised
      | error told =>
          rcases relays.1 told with ⟨passes, ends⟩ | goes
          · rw [ends] at rest
            rcases Runs.raise_iff.mp rest with ⟨same, rfl⟩
            cases same.symm.trans raised
            exact .inr ⟨state.2, _, served.2, rfl, passes, rfl⟩
          · exact ih goes raised

end Interaction
