import SlimxAgent.Book
import Mathlib.Data.List.Nodup

/-!
# Plans

The steps of a book in their order: which are done, how many are not, and what a
listing of them shows.  A host may append steps at the end of a plan; what is done
stays done.
-/

namespace SlimxAgent

open Interaction

variable {ι : Type}

/-- The step needs no more work. -/
def StepStatus.done (status : StepStatus) : Bool :=
  status == .completed || status == .skipped

/-! ## Counting -/

/-- The members satisfying a predicate are a given one and the others. -/
theorem countP_split [DecidableEq ι] (members : List ι) (holds : ι → Bool) (chosen : ι) :
    members.countP holds =
      members.countP (fun member => decide (member ≠ chosen) && holds member) +
        if holds chosen then members.count chosen else 0 := by
  induction members with
  | nil => simp
  | cons member members ih =>
      rw [List.countP_cons, List.countP_cons, List.count_cons, ih]
      by_cases same : member = chosen
      · subst same
        cases holds member <;> simp
        omega
      · cases holds member <;> cases holds chosen <;> simp [same]
        omega

/-- Appending members adds at most their number, when no predicate turns true. -/
theorem countP_grows {members more : List ι} (grows : members <+: more) {before after : ι → Bool}
    (falls : ∀ member ∈ members, after member = true → before member = true) :
    more.countP after + members.length ≤ members.countP before + more.length := by
  rcases grows with ⟨added, rfl⟩
  have old := List.countP_mono_left falls
  have new := List.countP_le_length (p := after) (l := added)
  rw [List.countP_append, List.length_append]
  omega

namespace Book

variable [DecidableEq ι]

omit [DecidableEq ι] in
/-- How many steps are not done. -/
def unfinished (book : Book ι) : Nat :=
  book.order.countP fun stepId => !(book.status stepId).done

/-- How many steps other than the given one are not done. -/
def others (book : Book ι) (chosen : ι) : Nat :=
  book.order.countP fun stepId => decide (stepId ≠ chosen) && !(book.status stepId).done

/-- Steps are appended, and what is done stays done. -/
structure Grows (before after : Book ι) : Prop where
  added : before.order <+: after.order
  distinct : before.order.Nodup → after.order.Nodup
  done : ∀ stepId ∈ before.order, (before.status stepId).done = true →
    (after.status stepId).done = true

omit [DecidableEq ι] in
theorem Grows.refl (book : Book ι) : book.Grows book :=
  ⟨List.prefix_rfl, fun distinct => distinct, fun _ _ done => done⟩

/-- Steps are appended, and the listed ones keep their statuses. -/
structure Extends (before after : Book ι) : Prop where
  added : before.order <+: after.order
  distinct : before.order.Nodup → after.order.Nodup
  status : ∀ stepId ∈ before.order, after.status stepId = before.status stepId

/-- The plan and its statuses stay. -/
structure SamePlan (before after : Book ι) : Prop where
  order : after.order = before.order
  status : ∀ stepId ∈ before.order, after.status stepId = before.status stepId

omit [DecidableEq ι] in
theorem SamePlan.extends {before after : Book ι} (same : before.SamePlan after) :
    before.Extends after := by
  refine ⟨?_, ?_, same.status⟩
  · exact ⟨[], by rw [same.order, List.append_nil]⟩
  · rw [same.order]
    exact id

omit [DecidableEq ι] in
theorem SamePlan.refl (book : Book ι) : book.SamePlan book :=
  ⟨rfl, fun _ _ => rfl⟩

omit [DecidableEq ι] in
theorem SamePlan.append (book : Book ι) (event : Event) : book.SamePlan (book.append event) :=
  ⟨rfl, fun _ _ => rfl⟩

omit [DecidableEq ι] in
theorem Extends.grows {before after : Book ι} (more : before.Extends after) :
    before.Grows after := by
  refine ⟨more.added, more.distinct, ?_⟩
  intro stepId member done
  rw [more.status stepId member]
  exact done

theorem unfinished_split (book : Book ι) (chosen : ι) :
    book.unfinished = book.others chosen +
      if !(book.status chosen).done then book.order.count chosen else 0 :=
  countP_split ..

theorem others_lt {book : Book ι} {chosen : ι} (member : chosen ∈ book.order)
    (remains : (book.status chosen).done = false) : book.others chosen + 1 ≤ book.unfinished := by
  have listed := List.one_le_count_iff.mpr member
  rw [book.unfinished_split chosen, remains]
  simpa using listed

theorem unfinished_le {book : Book ι} (distinct : book.order.Nodup) (chosen : ι) :
    book.unfinished ≤ book.others chosen + 1 := by
  have once := List.nodup_iff_count.mp distinct chosen
  rw [book.unfinished_split chosen]
  split <;> omega

theorem unfinished_of_done {book : Book ι} {chosen : ι}
    (done : (book.status chosen).done = true) : book.unfinished = book.others chosen := by
  rw [book.unfinished_split chosen, done]
  rfl

omit [DecidableEq ι] in
theorem Grows.falls {before after : Book ι} (grows : before.Grows after) {stepId : ι}
    (member : stepId ∈ before.order) (remains : (!(after.status stepId).done) = true) :
    (!(before.status stepId).done) = true := by
  rw [Bool.not_eq_true'] at remains ⊢
  rw [← Bool.not_eq_true]
  intro done
  rw [grows.done stepId member done] at remains
  cases remains

omit [DecidableEq ι] in
theorem Grows.unfinished {before after : Book ι} (grows : before.Grows after) :
    after.unfinished + before.order.length ≤ before.unfinished + after.order.length :=
  countP_grows grows.added fun _ member remains => grows.falls member remains

theorem Grows.others {before after : Book ι} (grows : before.Grows after) (chosen : ι) :
    after.others chosen + before.order.length ≤ before.others chosen + after.order.length := by
  apply countP_grows grows.added
  intro stepId member counted
  rw [Bool.and_eq_true] at counted ⊢
  exact ⟨counted.1, grows.falls member counted.2⟩

@[simp] theorem others_setStatus (book : Book ι) (chosen : ι) (status : StepStatus) :
    (book.setStatus chosen status).others chosen = book.others chosen := by
  apply List.countP_congr
  intro stepId _
  by_cases same : stepId = chosen <;> simp [same]

/-! ## What a transition leaves -/

omit [DecidableEq ι] in
/-- The step was given the status, and the answer showed it. -/
structure Marked (book : Book ι) (stepId : ι) (status : StepStatus) (row : StepView ι) :
    Prop where
  id : row.id = stepId
  shown : row.status = status
  done : status.done = true → (book.status stepId).done = true
  failed : status = .failed → book.status stepId = .failed

theorem marked_setStatus {book : Book ι} {stepId : ι} {status : StepStatus} {row : StepView ι}
    (answers : row.id = stepId ∧ row.status = status) :
    (book.setStatus stepId status).Marked stepId status row where
  id := answers.1
  shown := answers.2
  done finished := by
    rw [setStatus_self]
    exact finished
  failed ends := by
    rw [setStatus_self]
    exact ends

omit [DecidableEq ι] in
theorem Marked.extends {book later : Book ι} {stepId : ι} {status : StepStatus}
    {row : StepView ι} (marked : book.Marked stepId status row) (more : book.Extends later)
    (listed : stepId ∈ book.order) : later.Marked stepId status row where
  id := marked.id
  shown := marked.shown
  done finished := by
    rw [more.status stepId listed]
    exact marked.done finished
  failed ends := by
    rw [more.status stepId listed]
    exact marked.failed ends

/-! ## What a listing shows -/

omit [DecidableEq ι] in
/-- Every step of a listing without an unfinished one is done. -/
theorem Lists.finished {book : Book ι} {steps : List (StepView ι)} (lists : book.Lists steps)
    (selected : firstUnfinished steps = none) :
    ∀ stepId ∈ book.order, (book.status stepId).done = true := by
  intro stepId member
  rw [← lists.order, List.mem_map] at member
  rcases member with ⟨step, listed, rfl⟩
  have finished := List.find?_eq_none.mp selected step listed
  rw [← lists.status step listed]
  simpa [StepStatus.done, or_iff_not_imp_left] using finished

omit [DecidableEq ι] in
/-- The selected step is the first of the plan that is not done. -/
theorem Lists.selected {book : Book ι} {steps : List (StepView ι)} {step : StepView ι}
    (lists : book.Lists steps) (selected : firstUnfinished steps = some step) :
    step.status = book.status step.id ∧ (book.status step.id).done = false ∧
      ∃ front back, book.order = front ++ step.id :: back ∧
        ∀ stepId ∈ front, (book.status stepId).done = true := by
  rcases List.find?_eq_some_iff_append.mp selected with ⟨unfinished, front, back, rfl, finished⟩
  have status := lists.status step (by simp)
  refine ⟨status, ?_, front.map StepView.id, back.map StepView.id, ?_, ?_⟩
  · rw [← status]
    simpa [StepStatus.done] using unfinished
  · rw [← lists.order]
    simp
  · intro stepId member
    rcases List.mem_map.mp member with ⟨earlier, before, rfl⟩
    rw [← lists.status earlier (by simp [before])]
    simpa [StepStatus.done] using finished earlier before

end Book

/-! ## A plan that grows -/

/-- A run with one model call. -/
def seedHost : HostState :=
  .holding ⟨"run-1", .other "planned" RunStatus.planned_unlisted, some .autoComplete, false,
    .json .null, .null, .null, .json .null⟩
    [("step-1", ⟨"model_call", "Plan", .pending, false, none, none⟩)]

/-- Tools that complete; the first step adds another one to the plan. -/
def seedRules : HostRules where
  invoke stepId state :=
    (.completed none,
      if stepId = "step-1" ∧ "step-2" ∉ state.order then
        { state.setRow "step-2" ⟨"model_call", "Write", .pending, false, none, none⟩ with
          order := state.order ++ ["step-2"] }
      else state)
  epilogue _ state := state

theorem seedRules_extends (stepId : String) (state : HostState) :
    state.book.Extends (seedRules.invoke stepId state).2.book := by
  simp only [seedRules]
  split
  · rename_i fresh
    refine ⟨List.prefix_append .., ?_, ?_⟩
    · intro distinct
      change (state.order ++ ["step-2"]).Nodup
      rw [← List.concat_eq_append]
      exact List.Nodup.concat fresh.2 distinct
    · intro member listed
      have other : member ≠ "step-2" := by
        rintro rfl
        exact fresh.2 listed
      simp [HostState.book, HostState.setRow, other]
  · exact (Book.SamePlan.refl _).extends

end SlimxAgent
