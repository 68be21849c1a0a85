import Mathlib.Data.List.Basic

/-!
# Machines

Several parties act on one state, in any order.  A machine says what each action does,
where it can be taken; a schedule is a list of actions.  What every action keeps holds
after any schedule, and a party whose actions use up a measure that nobody refills
takes at most that many of them.
-/

namespace Interaction

variable {σ α : Type} {act : α → σ → Option σ} {start last : σ} {schedule : List α}

/-- The schedule leads from the one state to the other. -/
def Schedules (act : α → σ → Option σ) (start : σ) (schedule : List α) (last : σ) : Prop :=
  schedule.foldlM (fun state action => act action state) start = some last

namespace Schedules

theorem nil_iff : Schedules act start [] last ↔ start = last := by
  simp [Schedules]

theorem cons_iff {action : α} :
    Schedules act start (action :: schedule) last ↔
      ∃ next, act action start = some next ∧ Schedules act next schedule last := by
  simp only [Schedules, List.foldlM_cons]
  exact Option.bind_eq_some_iff

/-- What every action keeps holds at the end of a schedule. -/
theorem invariant (schedules : Schedules act start schedule last) {holds : σ → Prop}
    (initially : holds start)
    (kept : ∀ {state action after}, holds state → act action state = some after → holds after) :
    holds last := by
  induction schedule generalizing start with
  | nil => exact nil_iff.mp schedules ▸ initially
  | cons action schedule ih =>
      rcases cons_iff.mp schedules with ⟨next, acts, rest⟩
      exact ih rest (kept initially acts)

/-- What every action keeps of the state and of the actions so far holds at the end. -/
theorem tracks (schedules : Schedules act start schedule last) (holds : List α → σ → Prop)
    {past : List α} (initially : holds past start)
    (kept : ∀ {past state action after}, holds past state → act action state = some after →
      holds (past ++ [action]) after) :
    holds (past ++ schedule) last := by
  induction schedule generalizing start past with
  | nil =>
      rw [List.append_nil]
      exact nil_iff.mp schedules ▸ initially
  | cons action schedule ih =>
      rcases cons_iff.mp schedules with ⟨next, acts, rest⟩
      rw [← List.singleton_append, ← List.append_assoc]
      exact ih rest (kept initially acts)

/-- A count that grows with certain actions only is the number of those. -/
theorem counted (schedules : Schedules act start schedule last) (count : σ → Nat) (mine : α → Bool)
    (grows : ∀ {state action after}, act action state = some after →
      count after = count state + if mine action then 1 else 0) :
    count last = count start + schedule.countP mine := by
  induction schedule generalizing start with
  | nil => rw [nil_iff.mp schedules]; rfl
  | cons action schedule ih =>
      rcases cons_iff.mp schedules with ⟨next, acts, rest⟩
      rw [ih rest, grows acts, List.countP_cons, Nat.add_assoc, Nat.add_comm (schedule.countP mine)]

/-- A party that uses up a measure with each of its actions, while nobody refills it. -/
theorem bounded (schedules : Schedules act start schedule last) (measure : σ → Nat)
    (mine : α → Bool)
    (uses : ∀ {state action after}, act action state = some after →
      (measure after + if mine action then 1 else 0) ≤ measure state) :
    measure last + schedule.countP mine ≤ measure start := by
  induction schedule generalizing start with
  | nil => rw [nil_iff.mp schedules]; exact Nat.le_refl _
  | cons action schedule ih =>
      rcases cons_iff.mp schedules with ⟨next, acts, rest⟩
      have here := uses acts
      have later := ih rest
      rw [List.countP_cons]
      omega

end Schedules

end Interaction
