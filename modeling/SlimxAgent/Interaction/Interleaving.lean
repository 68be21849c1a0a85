import SlimxAgent.Interaction.Monitor
import Mathlib.Logic.Function.Basic

/-!
# Interleaved programs

Several parties run programs over one state.  They take turns in any order: a turn is one
call of one party, answered by that party's world, and the environment may move the state
between turns.

What a party is known to do is proved of its program alone, in a world where the state may
change after every answer as the party relies on (`World.relying`).  If the others' turns
and the moves are among those changes, it holds of the party's turns in every interleaving
(`Interleaves.outlined`), and an invariant of the state and the record only needs to be
kept by turns that meet their guards (`Interleaves.invariant`).
-/

namespace Interaction

variable {signature : Signature} {ε σ μ α κ : Type}

/-- An answered call, with the party that made it. -/
structure Turn (κ : Type) (signature : Signature) (ε σ : Type) where
  party : κ
  call : Served signature ε σ

/-- The calls of one party. -/
def callsOf [DecidableEq κ] (party : κ) (record : List (Turn κ signature ε σ)) :
    History signature ε σ :=
  (record.filter fun turn => turn.party = party).map Turn.call

/-- Turns taken from a start, with what is left of every program. -/
inductive Interleaves [DecidableEq κ] (worlds : κ → World signature ε σ) (moves : σ → σ → Prop)
    (start : κ → Program signature ε α) (initial : σ) :
    List (Turn κ signature ε σ) → (κ → Program signature ε α) → σ → Prop where
  | nothing : Interleaves worlds moves start initial [] start initial
  | move {record : List (Turn κ signature ε σ)} {programs : κ → Program signature ε α}
      {state after : σ} :
      Interleaves worlds moves start initial record programs state → moves state after →
      Interleaves worlds moves start initial record programs after
  | turn {record : List (Turn κ signature ε σ)} {programs : κ → Program signature ε α}
      {state after : σ} {party : κ} {op : signature.Op}
      {next : Except ε (signature.Res op) → Program signature ε α}
      {answer : Except ε (signature.Res op)} :
      Interleaves worlds moves start initial record programs state →
      programs party = .call op next → (worlds party).serve state op answer after →
      Interleaves worlds moves start initial (record ++ [⟨party, ⟨state, op, answer, after⟩⟩])
        (Function.update programs party (next answer)) after

/-- The same world, where others may change the state after each answer. -/
def World.relying (world : World signature ε σ) (rely : σ → σ → Prop) : World signature ε σ where
  serve state op answer after := ∃ middle, world.serve state op answer middle ∧ rely middle after

section Calls

variable [DecidableEq κ] {party other : κ} {record : List (Turn κ signature ε σ)}
  {call : Served signature ε σ}

@[simp] theorem callsOf_nil :
    callsOf party ([] : List (Turn κ signature ε σ)) = [] :=
  rfl

theorem callsOf_own :
    callsOf party (record ++ [⟨party, call⟩]) = callsOf party record ++ [call] := by
  simp [callsOf]

theorem callsOf_other (different : party ≠ other) :
    callsOf other (record ++ [⟨party, call⟩]) = callsOf other record := by
  simp [callsOf, different]

theorem mem_callsOf {turn : Turn κ signature ε σ} (member : turn ∈ record) :
    turn.call ∈ callsOf turn.party record := by
  apply List.mem_map_of_mem
  exact List.mem_filter.mpr ⟨member, decide_eq_true rfl⟩

end Calls

section Parties

variable [DecidableEq κ] {worlds : κ → World signature ε σ} {moves : σ → σ → Prop}
  {start programs : κ → Program signature ε α} {initial last : σ}
  {record : List (Turn κ signature ε σ)}

/-- What the parties are bound to: the guards of their calls and the changes each relies on
the others and on the environment to make.  A monitor follows a party by its operations and
their answers. -/
structure Compatible (worlds : κ → World signature ε σ) (moves : σ → σ → Prop)
    (advance : κ → μ → Served signature ε σ → μ) (guard : κ → σ × μ → signature.Op → Prop)
    (rely : κ → σ → σ → Prop) : Prop where
  refl : ∀ party state, rely party state state
  trans : ∀ {party first second third}, rely party first second → rely party second third →
    rely party first third
  moved : ∀ {party state after}, moves state after → rely party state after
  served : ∀ {party other state monitor op answer after}, party ≠ other →
    guard other (state, monitor) op → (worlds other).serve state op answer after →
    rely party state after
  blind : ∀ party monitor call later,
    advance party monitor { call with after := later } = advance party monitor call

/-- The parties' outlines hold in every interleaving: every turn met its party's guard, as
its monitor stood, and what is left of each program satisfies what is left of its outline. -/
theorem Interleaves.outlined {advance : κ → μ → Served signature ε σ → μ}
    {guard : κ → σ × μ → signature.Op → Prop} {rely : κ → σ → σ → Prop}
    {onReturn : κ → α → σ × μ → Prop} {onRaise : κ → ε → σ × μ → Prop} (origin : κ → μ)
    (interleaves : Interleaves worlds moves start initial record programs last)
    (compatible : Compatible worlds moves advance guard rely)
    (holds : ∀ party later, rely party initial later →
      wp (((worlds party).relying (rely party)).monitored (advance party)) (guard party)
        (start party) (onReturn party) (onRaise party) (later, origin party)) :
    (∀ party later, rely party last later →
      wp (((worlds party).relying (rely party)).monitored (advance party)) (guard party)
        (programs party) (onReturn party) (onRaise party)
        (later, (callsOf party record).foldl (advance party) (origin party))) ∧
    ∀ earlier turn rest, record = earlier ++ turn :: rest →
      guard turn.party (turn.call.before,
        (callsOf turn.party earlier).foldl (advance turn.party) (origin turn.party))
        turn.call.op := by
  induction interleaves with
  | nothing =>
      constructor
      · exact holds
      · intro earlier turn rest split
        cases earlier <;> cases split
  | move _ moved ih =>
      constructor
      · intro party later relied
        exact ih.1 party later (compatible.trans (compatible.moved moved) relied)
      · exact ih.2
  | @turn record programs state after party op next answer _ calls served ih =>
      have outline := ih.1 party state (compatible.refl party state)
      rw [calls] at outline
      rcases outline with ⟨met, every⟩
      constructor
      · intro one later relied
        by_cases own : party = one
        · subst own
          have monitor : advance party ((callsOf party record).foldl (advance party)
              (origin party)) ⟨state, op, answer, later⟩ =
              (callsOf party (record ++ [⟨party, ⟨state, op, answer, after⟩⟩])).foldl
                (advance party) (origin party) := by
            rw [callsOf_own, List.foldl_append]
            exact compatible.blind party _ ⟨state, op, answer, after⟩ later
          rw [Function.update_self, ← monitor]
          exact every answer _ ⟨⟨after, served, relied⟩, rfl⟩
        · rw [Function.update_of_ne (Ne.symm own), callsOf_other own]
          apply ih.1 one later
          exact compatible.trans (compatible.served (Ne.symm own) met served) relied
      · intro earlier turn rest split
        rcases split_concat.mp split with ⟨rfl, rfl, rfl⟩ | ⟨before, rfl, equal⟩
        · exact met
        · exact ih.2 earlier turn before equal

/-- Every turn was answered by its party's world. -/
theorem Interleaves.answered
    (interleaves : Interleaves worlds moves start initial record programs last)
    {turn : Turn κ signature ε σ} (member : turn ∈ record) :
    (worlds turn.party).serve turn.call.before turn.call.op turn.call.answer turn.call.after := by
  induction interleaves with
  | nothing => exact absurd member List.not_mem_nil
  | move _ _ ih => exact ih member
  | turn _ _ served ih =>
      rcases List.mem_append.mp member with earlier | now
      · exact ih earlier
      · cases List.mem_singleton.mp now
        exact served

/-- An invariant of the state and the record, kept by every turn that meets its guard,
holds at every turn and at the end. -/
theorem Interleaves.invariant (holds : List (Turn κ signature ε σ) → σ → Prop)
    (permits : List (Turn κ signature ε σ) → κ → σ → signature.Op → Prop)
    (interleaves : Interleaves worlds moves start initial record programs last)
    (met : ∀ earlier turn rest, record = earlier ++ turn :: rest →
      permits earlier turn.party turn.call.before turn.call.op)
    (initially : holds [] initial)
    (moved : ∀ {record state after}, holds record state → moves state after →
      holds record after)
    (kept : ∀ {record party state op answer after}, holds record state →
      permits record party state op → (worlds party).serve state op answer after →
      holds (record ++ [⟨party, ⟨state, op, answer, after⟩⟩]) after) :
    holds record last ∧
    ∀ earlier turn rest, record = earlier ++ turn :: rest → holds earlier turn.call.before := by
  induction interleaves with
  | nothing =>
      constructor
      · exact initially
      · intro earlier turn rest split
        cases earlier <;> cases split
  | move _ moves ih =>
      have still := ih met
      exact ⟨moved still.1 moves, still.2⟩
  | @turn record programs state after party op next answer _ calls served ih =>
      have earlierMet : ∀ earlier turn rest, record = earlier ++ turn :: rest →
          permits earlier turn.party turn.call.before turn.call.op := by
        intro earlier turn rest split
        apply met earlier turn (rest ++ [⟨party, ⟨state, op, answer, after⟩⟩])
        rw [split, List.append_assoc, List.cons_append]
      have still := ih earlierMet
      constructor
      · exact kept still.1 (met record _ [] rfl) served
      · intro earlier turn rest split
        rcases split_concat.mp split with ⟨rfl, rfl, rfl⟩ | ⟨before, rfl, equal⟩
        · exact still.1
        · exact still.2 earlier turn before equal

end Parties

/-! ## Schedules -/

section Concert

variable [DecidableEq κ]

/-- Let the parties take turns in the given order, each answered by a function.  A party
that is done has no turn. -/
def concert (respond : κ → (op : signature.Op) → σ → Except ε (signature.Res op) × σ) :
    List κ → (κ → Program signature ε α) → σ →
      List (Turn κ signature ε σ) × (κ → Program signature ε α) × σ
  | [], programs, state => ([], programs, state)
  | party :: schedule, programs, state =>
      match programs party with
      | .call op next =>
          let answered := respond party op state
          let rest := concert respond schedule
            (Function.update programs party (next answered.1)) answered.2
          (⟨party, ⟨state, op, answered.1, answered.2⟩⟩ :: rest.1, rest.2)
      | _ => concert respond schedule programs state

/-- A concert is an interleaving. -/
theorem Interleaves.concert
    (respond : κ → (op : signature.Op) → σ → Except ε (signature.Res op) × σ)
    {moves : σ → σ → Prop} {start programs : κ → Program signature ε α} {initial state : σ}
    {record : List (Turn κ signature ε σ)}
    (interleaves : Interleaves (fun party => World.ofFn (respond party)) moves start initial
      record programs state) (schedule : List κ) :
    Interleaves (fun party => World.ofFn (respond party)) moves start initial
      (record ++ (concert respond schedule programs state).1)
      (concert respond schedule programs state).2.1
      (concert respond schedule programs state).2.2 := by
  induction schedule generalizing record programs state with
  | nil =>
      rw [Interaction.concert, List.append_nil]
      exact interleaves
  | cons party schedule ih =>
      rw [Interaction.concert]
      cases calls : programs party with
      | done value => exact ih interleaves
      | raise error => exact ih interleaves
      | call op next =>
          have served : (World.ofFn (respond party)).serve state op (respond party op state).1
              (respond party op state).2 := rfl
          have taken := ih (interleaves.turn calls served)
          rw [List.append_assoc] at taken
          exact taken

end Concert

end Interaction
