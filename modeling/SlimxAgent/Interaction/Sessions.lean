import SlimxAgent.Interaction.Monitor

/-!
# Sessions

A program is run again and again, and its environment moves in between.  A session is
one such run, from a state to a state with the calls it made; `Sessions` keeps the calls
of all of them.
-/

namespace Interaction

variable {signature : Signature} {ε σ : Type}

/-- Where a recorded run stands after some of its calls: before the next one, or at its
end. -/
inductive Standing (history : History signature ε σ) (last : σ) :
    History signature ε σ → σ → Prop where
  | ended : Standing history last history last
  | amid {earlier later : History signature ε σ} {call : Served signature ε σ} :
      history = earlier ++ call :: later → Standing history last earlier call.before

theorem Standing.holds {history calls : History signature ε σ} {last here : σ}
    (standing : Standing history last calls here) (holds : σ → Prop)
    (amid : ∀ earlier call later, history = earlier ++ call :: later → holds call.before)
    (ended : holds last) : holds here := by
  cases standing with
  | ended => exact ended
  | amid split => exact amid _ _ _ split

/-- States reached from a start by sessions and moves between them, with the calls made
so far. -/
inductive Sessions (session : σ → History signature ε σ → σ → Prop) (moves : σ → σ → Prop)
    (start : σ) : History signature ε σ → σ → Prop where
  | nothing : Sessions session moves start [] start
  | move {history : History signature ε σ} {state after : σ} :
      Sessions session moves start history state → moves state after →
      Sessions session moves start history after
  | session {history calls : History signature ε σ} {state last : σ} :
      Sessions session moves start history state → session state calls last →
      Sessions session moves start (history ++ calls) last

namespace Sessions

variable {session : σ → History signature ε σ → σ → Prop} {moves : σ → σ → Prop} {start : σ}
  {history : History signature ε σ} {last : σ}

/-- What every move and every session keeps holds throughout. -/
theorem invariant (sessions : Sessions session moves start history last)
    (holds : History signature ε σ → σ → Prop) (initially : holds [] start)
    (moved : ∀ {history state after}, holds history state → moves state after →
      holds history after)
    (kept : ∀ {history state calls last}, holds history state → session state calls last →
      holds (history ++ calls) last) : holds history last := by
  induction sessions with
  | nothing => exact initially
  | move _ moves ih => exact moved ih moves
  | session _ runs ih => exact kept ih runs

/-- The same, for assertions on the state alone. -/
theorem preserved (sessions : Sessions session moves start history last) (holds : σ → Prop)
    (initially : holds start)
    (moved : ∀ {state after}, holds state → moves state after → holds after)
    (kept : ∀ {state calls last}, holds state → session state calls last → holds last) :
    holds last :=
  sessions.invariant (fun _ => holds) initially moved kept

end Sessions

end Interaction
