import SlimxAgent.Lifecycle
import SlimxAgent.Plan

/-!
# The review of a run

A drive stops at a gate, the host approves the step that waits there, and the run is driven
again.  The steps at which this happens follow the plan: each of them stops the run once, so
there are no more rounds than steps.
-/

namespace SlimxAgent

open Interaction

variable {ι σ : Type}

/-- The book of a stored run. -/
def StoredRun.book (stored : StoredRun ι) : Book ι where
  runStatus := stored.run.status
  order := stored.order
  status stepId := (stored.row stepId).status
  log := stored.log

theorem StoredRun.lists (stored : StoredRun ι) : stored.book.Lists stored.steps where
  order := by
    rw [StoredRun.steps, List.map_map]
    have named : StepView.id ∘ stored.row = id := funext stored.identified
    rw [named, List.map_id]
    rfl
  status := by
    intro step member
    rcases List.mem_map.mp member with ⟨stepId, _, rfl⟩
    rw [stored.identified]
    rfl

namespace Book

/-- The first step that is not done. -/
structure Next (book : Book ι) (stepId : ι) (front back : List ι) : Prop where
  order : book.order = front ++ stepId :: back
  done : ∀ earlier ∈ front, (book.status earlier).done = true
  remains : (book.status stepId).done = false

variable {before after : Book ι} {stepId other : ι} {front back : List ι}

theorem Advances.done (advances : before.Advances after) (member : stepId ∈ before.order)
    (done : (before.status stepId).done = true) : (after.status stepId).done = true := by
  have ended : (before.status stepId).rank = 4 := by
    revert done
    cases before.status stepId <;> simp [StepStatus.done, StepStatus.rank]
  rw [advances.ended member ended]
  exact done

/-- Another step is the next one only later in the plan. -/
theorem Next.later {front' back' : List ι} (next : before.Next stepId front back)
    (following : after.Next other front' back') (advances : before.Advances after)
    (apart : other ≠ stepId) : ∃ between, front' = front ++ stepId :: between := by
  rcases advances.added with ⟨more, order⟩
  rw [next.order, following.order, List.append_assoc, List.cons_append] at order
  rcases List.append_eq_append_iff.mp order with ⟨rest, rfl, split⟩ | ⟨rest, rfl, split⟩
  · cases rest with
    | nil => exact absurd (List.cons.inj split).1.symm apart
    | cons first between =>
        rw [(List.cons.inj split).1]
        exact ⟨between, rfl⟩
  · cases rest with
    | nil => exact absurd (List.cons.inj split).1 apart
    | cons first between =>
        -- The step would be one of those that were done.
        have same := (List.cons.inj split).1
        have member : other ∈ front' ++ first :: between := by
          rw [same]
          exact List.mem_append_right _ List.mem_cons_self
        have listed : other ∈ before.order := by
          rw [next.order]
          exact List.mem_append_left _ member
        have done := advances.done listed (next.done other member)
        rw [following.remains] at done
        cases done

end Book

/-! ## Rounds -/

/-- The host approves a step that waits, and may approve and append others. -/
structure StoredRun.Approves (before after : StoredRun ι) (stepId : ι) : Prop where
  grants : before.book.Grants after.book
  approved : after.book.status stepId = .approved

/-- Rounds of review: a drive returns with the run awaiting approval, and the host approves
the step that it waits at. -/
inductive Reviewed [HostId ι] (world : World (engineSignature ι) (Raised ι) σ) (runId : ι)
    (stored : σ → StoredRun ι) (start : σ) : List ι → σ → Prop where
  | nothing : Reviewed world runId stored start [] start
  | round {stops : List ι} {state stopped here : σ} {registry : ToolRegistry} {drive : RunView ι}
      {hooked : Bool} {fuel : Nat} {history : History (engineSignature ι) (Raised ι) σ}
      {step : StepView ι} :
      Reviewed world runId stored start stops state →
      drive.id = runId → (stored state).run.id = drive.id →
      (stored state).run.status = drive.status →
      Runs world.recorded (executeRunEvents registry drive hooked fuel) (state, [])
        (.ok (some ())) (stopped, history) →
      (stored stopped).run.status = .awaitingApproval →
      firstUnfinished (stored stopped).steps = some step →
      (stored stopped).Approves (stored here) step.id →
      Reviewed world runId stored start (stops ++ [step.id]) here

section Rounds

variable [DecidableEq ι] {begun stopped here : Book ι} {stops front back : List ι} {stepId : ι}

/-- The step was not done yet, or is new. -/
def Book.undone (book : Book ι) (stepId : ι) : Bool :=
  !(decide (stepId ∈ book.order) && (book.status stepId).done)

/-- Where the rounds have got to: the last stop is approved, and those before it are done. -/
structure Rounds (begun here : Book ι) (stops : List ι) : Prop where
  advances : begun.Advances here
  last : stops = [] ∨ ∃ earlier stepId front back, stops = earlier ++ [stepId] ∧
    here.Next stepId front back ∧ here.status stepId = .approved ∧
    earlier.Sublist (front.filter begun.undone) ∧ begun.undone stepId = true

/-- A step that is next was not done before. -/
theorem Book.Advances.undone (advances : begun.Advances here)
    (remains : (here.status stepId).done = false) : begun.undone stepId = true := by
  rw [Book.undone, Bool.not_eq_true']
  by_contra both
  rw [Bool.not_eq_false, Bool.and_eq_true, decide_eq_true_iff] at both
  rw [advances.done both.1 both.2] at remains
  cases remains

/-- One more round. -/
theorem Rounds.next {state : Book ι} (rounds : Rounds begun state stops)
    (drives : state.Advances stopped) (next : stopped.Next stepId front back)
    (waits : stopped.status stepId = .awaitingApproval) (grants : stopped.Grants here)
    (approved : here.status stepId = .approved) : Rounds begun here (stops ++ [stepId]) := by
  have still : ∀ earlier ∈ front, here.status earlier = stopped.status earlier := by
    intro earlier member
    have listed : earlier ∈ stopped.order := by
      rw [next.order]
      exact List.mem_append_left _ member
    refine (grants.granted earlier listed).resolve_right fun waiting => ?_
    have done := next.done earlier member
    rw [waiting.1] at done
    cases done
  rcases grants.added with ⟨more, order⟩
  have after : here.Next stepId front (back ++ more) := by
    refine ⟨?_, ?_, ?_⟩
    · rw [← order, next.order, List.append_assoc, List.cons_append]
    · intro earlier member
      rw [still earlier member]
      exact next.done earlier member
    · rw [approved]
      rfl
  have undone := (rounds.advances.trans drives).undone next.remains
  refine ⟨(rounds.advances.trans drives).trans grants.advances,
    .inr ⟨stops, stepId, front, back ++ more, rfl, after, approved, ?_, undone⟩⟩
  rcases rounds.last with rfl | ⟨earlier, other, front', back', rfl, before, past, sub, waited⟩
  · exact List.nil_sublist _
  · have apart : stepId ≠ other := by
      rintro rfl
      have listed : stepId ∈ state.order := by
        rw [before.order]
        exact List.mem_append_right _ List.mem_cons_self
      rcases drives.forward stepId listed with same | further
      · rw [waits, past] at same
        cases same
      · rw [waits, past] at further
        exact absurd further (by decide)
    rcases before.later next drives apart with ⟨between, rfl⟩
    rw [List.filter_append, List.filter_cons, if_pos waited]
    exact sub.append (List.singleton_sublist.mpr List.mem_cons_self)

/-- The stops are steps of the plan, in its order. -/
theorem Rounds.sublist (rounds : Rounds begun here stops) :
    stops.Sublist (here.order.filter begun.undone) := by
  rcases rounds.last with rfl | ⟨earlier, stepId, front, back, rfl, next, _, sub, waited⟩
  · exact List.nil_sublist _
  · rw [next.order, List.filter_append, List.filter_cons, if_pos waited]
    exact sub.append (List.singleton_sublist.mpr List.mem_cons_self)

theorem Rounds.dropLast_done (rounds : Rounds begun here stops) :
    ∀ stepId ∈ stops.dropLast, (here.status stepId).done = true := by
  rcases rounds.last with rfl | ⟨earlier, stepId, front, back, rfl, next, _, sub, _⟩
  · exact fun _ absent => absurd absent List.not_mem_nil
  · rw [List.dropLast_concat]
    intro other member
    exact next.done other (List.mem_of_mem_filter (sub.subset member))

/-- There are no more of them than steps that were not done, or were appended. -/
theorem Rounds.bounded (rounds : Rounds begun here stops) :
    stops.length + begun.order.length ≤ begun.unfinished + here.order.length := by
  have fewer := rounds.sublist.length_le
  rcases rounds.advances.added with ⟨more, order⟩
  have listed : begun.order.filter begun.undone =
      begun.order.filter fun stepId => !(begun.status stepId).done := by
    apply List.filter_congr
    intro stepId member
    rw [Book.undone, decide_eq_true member, Bool.true_and]
  have added := List.length_filter_le begun.undone more
  rw [← order, List.filter_append, List.length_append, listed] at fewer
  rw [← order, List.length_append, Book.unfinished, List.countP_eq_length_filter]
  omega

end Rounds

/-- Over a store that applies every write, with a host that only approves and appends steps and
handlers that leave their own step to the engine: however often a run that awaits approval is
approved and driven again, it stops at each step at most once and in the order of the plan,
every approved step but the last was done by the next stop, and there are no more rounds than
steps that were not done or were appended. -/
theorem review_rounds [HostId ι] [DecidableEq ι] {world : World (engineSignature ι) (Raised ι) σ}
    {run : RunView ι} {stored : σ → StoredRun ι} (store : StoreKept world stored)
    (books : BookKept world run (fun state => (stored state).book) Book.Grants Book.Works)
    {start here : σ} {stops : List ι} (reviewed : Reviewed world run.id stored start stops here) :
    stops.Sublist ((stored here).order.filter (stored start).book.undone) ∧
      (∀ stepId ∈ stops.dropLast, ((stored here).row stepId).status.done = true) ∧
      stops.length + (stored start).order.length ≤
        (stored start).book.unfinished + (stored here).order.length := by
  have rounds : Rounds (stored start).book (stored here).book stops := by
    induction reviewed with
    | nothing => exact ⟨.refl _, .inl rfl⟩
    | @round stops state stopped here registry drive hooked fuel history step _ named own current
        runs awaiting first approves ih =>
        have lived := (Lived.nothing (fun state => (stored state).book) state).driven books
          ⟨registry, drive, hooked, fuel, _, history, stopped, named, runs, .ended⟩
        rcases awaiting_atGate store runs own current awaiting with ⟨parked, gate⟩
        have same : parked = step := Option.some.inj (gate.first.symm.trans first)
        subst same
        rcases (stored stopped).lists.selected first
          with ⟨status, remains, front, back, order, done⟩
        exact ih.next lived.since ⟨order, done, remains⟩ (status ▸ gate.waits) approves.grants
          approves.approved
  exact ⟨rounds.sublist, rounds.dropLast_done, rounds.bounded⟩

theorem parkedHost_approves :
    parkedHost.stored.Approves approvedHost.stored "step-2" := by
  refine ⟨⟨List.prefix_rfl, ?_⟩, by decide⟩
  intro stepId member
  by_cases same : stepId = "step-2"
  · subst same
    exact .inr ⟨by decide, by decide⟩
  · left
    change (approvedHost.rows stepId).status = (parkedHost.rows stepId).status
    exact congrArg StepRow.status (Function.update_of_ne same _ _)

/-- The connector call stops the run once. -/
theorem review_rounds_reviewed :
    ∃ stops,
      Reviewed (World.ofFn (plainRules.respond fun _ => 0)) reviewedHost.run.id HostState.stored
        reviewedHost stops approvedHost ∧
      stops = ["step-2"] ∧
      stops.Sublist (approvedHost.order.filter reviewedHost.stored.book.undone) ∧
      (∀ stepId ∈ stops.dropLast, (approvedHost.stored.row stepId).status.done = true) ∧
      stops.length + reviewedHost.order.length ≤
        reviewedHost.stored.book.unfinished + approvedHost.order.length := by
  rcases record_ofFn (plainRules.respond fun _ => 0) (Course.advance reviewedHost.run true)
    (executeRunEvents reviewedTools reviewedHost.run true 3) reviewedHost .start
    with ⟨history, parks, _⟩
  have parked : parkedHost.run.status = .awaitingApproval := by decide
  have first : firstUnfinished parkedHost.stored.steps =
    some ((parkedHost.rows "step-2").view "step-2") := rfl
  have reviewed : Reviewed (World.ofFn (plainRules.respond fun _ => 0)) reviewedHost.run.id
      HostState.stored reviewedHost ([] ++ [((parkedHost.rows "step-2").view "step-2").id])
      approvedHost :=
    .round .nothing rfl rfl rfl parks parked first parkedHost_approves
  exact ⟨_, reviewed, rfl, review_rounds
    (HostRules.storeKept (fun _ _ => ⟨rfl, id⟩) fun _ _ => ⟨rfl, id⟩)
    (plainRules_works reviewedHost.run) reviewed⟩

end SlimxAgent
