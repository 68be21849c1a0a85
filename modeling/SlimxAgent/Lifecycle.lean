import SlimxAgent.Standstill
import SlimxAgent.Interaction.Sessions

/-!
# The lifecycle of a step

A step comes from `pending` over its gate and its handler to one of three ends, and never
goes back.  Every write of a drive is a transition of this lifecycle (`Moves`), also where
the host approves steps while the drive goes on; over any number of drives, each to its end
or cut short, a step that has ended is not written again.
-/

namespace SlimxAgent

open Interaction

variable {ι σ : Type}

namespace StepStatus

/-- How far a step has come. -/
def rank : StepStatus → Nat
  | .pending => 0
  | .awaitingApproval => 1
  | .approved => 2
  | .running => 3
  | _ => 4

/-- The step stays, or comes further. -/
def Forward (before after : StepStatus) : Prop :=
  after = before ∨ before.rank < after.rank

/-- The transitions that a drive writes. -/
inductive Moves : StepStatus → StepStatus → Prop where
  | parks : Moves .pending .awaitingApproval
  | clears {status : StepStatus} : status.Waiting → Moves status .approved
  | enters {status : StepStatus} :
      status = .pending ∨ status = .approved ∨ status = .running → Moves status .running
  | skips {status : StepStatus} : status.Waiting → Moves status .skipped
  | completes : Moves .running .completed
  | fails : Moves .running .failed
  | drops : Moves .running .skipped

variable {before middle after : StepStatus}

theorem rank_le (status : StepStatus) : status.rank ≤ 4 := by
  cases status <;> simp [rank]

theorem Forward.refl (status : StepStatus) : status.Forward status :=
  .inl rfl

theorem Forward.trans (first : before.Forward middle) (second : middle.Forward after) :
    before.Forward after := by
  rcases first with rfl | further
  · exact second
  · rcases second with rfl | beyond
    · exact .inr further
    · exact .inr (further.trans beyond)

/-- No step comes further than its end. -/
theorem Forward.ended (forward : before.Forward after) (ended : before.rank = 4) :
    after = before := by
  rcases forward with same | further
  · exact same
  · rw [ended] at further
    exact absurd (after.rank_le) (not_le.mpr further)

theorem Moves.forward (moves : Moves before after) : before.Forward after := by
  cases moves with
  | parks => exact .inr (by decide)
  | clears waiting =>
      rcases waiting with rfl | rfl | rfl
      · exact .inr (by decide)
      · exact .inr (by decide)
      · exact .refl _
  | enters entered =>
      rcases entered with rfl | rfl | rfl
      · exact .inr (by decide)
      · exact .inr (by decide)
      · exact .refl _
  | skips waiting => rcases waiting with rfl | rfl | rfl <;> exact .inr (by decide)
  | completes | fails | drops => exact .inr (by decide)

/-- There is no transition from an end. -/
theorem Moves.live (moves : Moves before after) : before.rank ≠ 4 := by
  cases moves with
  | clears waiting | skips waiting => rcases waiting with rfl | rfl | rfl <;> decide
  | enters entered => rcases entered with rfl | rfl | rfl <;> decide
  | _ => decide

end StepStatus

namespace Book

variable {before middle after : Book ι}

/-- Steps are appended, and every step stays or comes further. -/
structure Advances (before after : Book ι) : Prop where
  added : before.order <+: after.order
  forward : ∀ stepId ∈ before.order, (before.status stepId).Forward (after.status stepId)

/-- Steps are appended, and waiting ones approved. -/
structure Grants (before after : Book ι) : Prop where
  added : before.order <+: after.order
  granted : ∀ stepId ∈ before.order, after.status stepId = before.status stepId ∨
    before.status stepId = .awaitingApproval ∧ after.status stepId = .approved

/-- A handler leaves the step that is running to the engine. -/
structure Works (before after : Book ι) : Prop extends before.Advances after where
  running : ∀ stepId ∈ before.order, before.status stepId = .running →
    after.status stepId = .running

theorem Advances.refl (book : Book ι) : book.Advances book :=
  ⟨List.prefix_rfl, fun _ _ => .refl _⟩

theorem Advances.trans (first : before.Advances middle) (second : middle.Advances after) :
    before.Advances after :=
  ⟨first.added.trans second.added, fun stepId member =>
    (first.forward stepId member).trans (second.forward stepId (first.added.subset member))⟩

theorem Grants.refl (book : Book ι) : book.Grants book :=
  ⟨List.prefix_rfl, fun _ _ => .inl rfl⟩

theorem Grants.advances (grants : before.Grants after) : before.Advances after := by
  refine ⟨grants.added, fun stepId member => ?_⟩
  rcases grants.granted stepId member with same | ⟨waits, approved⟩
  · exact .inl same
  · right
    rw [waits, approved]
    decide

/-- A step that has ended stays as it is. -/
theorem Advances.ended (advances : before.Advances after) {stepId : ι}
    (member : stepId ∈ before.order) (ended : (before.status stepId).rank = 4) :
    after.status stepId = before.status stepId :=
  (advances.forward stepId member).ended ended

theorem Advances.setStatus [DecidableEq ι] {book : Book ι} {stepId : ι} {status : StepStatus}
    (forward : (book.status stepId).Forward status) :
    book.Advances (book.setStatus stepId status) := by
  refine ⟨List.prefix_rfl, fun other _ => ?_⟩
  by_cases same : other = stepId
  · subst same
    rw [book.setStatus_self]
    exact forward
  · exact .inl (book.setStatus_of_ne same status)

/-- What the engine writes apart from steps. -/
theorem Wrote.advances [HostId ι] [DecidableEq ι] {op : EngineOp ι} (wrote : Wrote op before after)
    (forward : ∀ stepId status error outputRefs, op = .setStepState stepId status error outputRefs →
      (before.status stepId).Forward status) : before.Advances after := by
  cases op with
  | setStepState stepId status error outputRefs =>
      cases wrote
      exact .setStatus (forward stepId status error outputRefs rfl)
  | appendEvent run type stepId payload commit =>
      rcases wrote with ⟨event, _, rfl⟩
      exact ⟨List.prefix_rfl, fun _ _ => .refl _⟩
  | _ =>
      cases wrote
      exact ⟨List.prefix_rfl, fun _ _ => .refl _⟩

/-- The book holds the status that was read, unless the step was approved since. -/
def Holds (book : Book ι) (step : StepView ι) : Prop :=
  book.status step.id = step.status ∨
    step.status = .awaitingApproval ∧ book.status step.id = .approved

end Book

/-- Where the book has the step of a stage. -/
def Stage.Places (stage : Stage ι) (book : Book ι) : Prop :=
  match stage with
  | .visiting visit => book.Holds visit.step
  | .recording visit mark _ =>
      (mark.status = .approved ∨ mark.status = .running) → book.status visit.step.id = mark.status
  | .cleared visit => book.status visit.step.id = .approved
  | .entered visit _ => book.status visit.step.id = .running
  | .started visit => book.status visit.step.id = .running
  | .typed visit _ => book.status visit.step.id = .running
  | .handled visit _ => book.status visit.step.id = .running
  | .rolledBack visit _ => book.status visit.step.id = .running
  | .decided visit _ => book.status visit.step.id = .running
  | _ => True

section Proof

variable [HostId ι] {registry : ToolRegistry} {run : RunView ι} {hooked : Bool}
  {stage : Stage ι} {book moved later : Book ι} {op : EngineOp ι} {stepId : ι}
  {status : StepStatus} {passes : Nat}

omit [HostId ι] in
/-- Approvals leave the step of a stage where it is. -/
theorem Stage.Places.grants (places : stage.Places book) (listed : stage.Listed book)
    (grants : book.Grants moved) : stage.Places moved := by
  have kept : ∀ {stepId status}, stage.stepId? = some stepId → book.status stepId = status →
      status ≠ .awaitingApproval → moved.status stepId = status := by
    rintro stepId _ here rfl settled
    exact (grants.granted stepId (listed stepId here)).resolve_right fun waits => settled waits.1
  cases stage with
  | visiting visit =>
      rcases grants.granted visit.step.id (listed _ rfl) with same | ⟨waits, approved⟩
      · rw [Stage.Places, Book.Holds, same]
        exact places
      · right
        rcases places with shown | ⟨waiting, _⟩
        · exact ⟨shown.symm.trans waits, approved⟩
        · exact ⟨waiting, approved⟩
  | recording visit mark row =>
      intro entered
      refine kept rfl (places entered) ?_
      rcases entered with approved | running
      · rw [approved]
        decide
      · rw [running]
        decide
  | cleared visit => exact kept rfl places (by decide)
  | entered visit _ | started visit | typed visit _ | handled visit _ | rolledBack visit _
  | decided visit _ =>
      exact kept rfl places (by decide)
  | _ => trivial

omit [HostId ι] in
/-- A step that waits for approval does not pass its gate unrecorded. -/
theorem needsClearing_of_waits {visit : Visit ι} (waits : visit.step.status = .awaitingApproval) :
    visit.NeedsClearing := by
  rw [Visit.NeedsClearing, waits]
  simp

/-- What a drive writes is a transition of the step that it is at. -/
theorem Stage.Places.moves (places : stage.Places book) (sound : stage.Sound)
    (asks : Asks registry run stage op) {error : Given (Option String)}
    {outputRefs : Given (Option Dict)}
    (writes : op = .setStepState stepId status error outputRefs) :
    stage.stepId? = some stepId ∧ (book.status stepId).Moves status := by
  cases asks with
  | streams streams served =>
      subst writes
      exact served.elim
  | skips waiting blocked =>
      cases writes
      refine ⟨rfl, .skips ?_⟩
      rcases places with shown | ⟨_, approved⟩
      · rw [shown]
        exact waiting
      · exact .inr (.inr approved)
  | parks affordable pending stops =>
      cases writes
      rcases places with shown | ⟨waits, _⟩
      · refine ⟨rfl, ?_⟩
        rw [shown, pending]
        exact .parks
      · cases pending.symm.trans waits
  | clears affordable gated passes needs =>
      cases writes
      refine ⟨rfl, .clears ?_⟩
      rcases places with shown | ⟨_, approved⟩
      · rw [shown]
        exact gated.imp_right .inl
      · exact .inr (.inr approved)
  | enters affordable ungated =>
      cases writes
      refine ⟨rfl, .enters ?_⟩
      have settled : _ ≠ StepStatus.awaitingApproval := fun waits =>
        (ungated (.inr waits)).2 (needsClearing_of_waits waits)
      have shown := places.resolve_right fun waits => settled waits.1
      rw [shown]
      rcases affordable.unsettled with (pending | waits | approved) | running
      · exact .inl pending
      · exact absurd waits settled
      · exact .inr (.inl approved)
      · exact .inr (.inr running)
  | proceeds =>
      cases writes
      exact ⟨rfl, .enters (.inr (.inl places))⟩
  | refuses unresolved =>
      cases writes
      have running : book.status _ = .running := places
      exact ⟨rfl, running ▸ .fails⟩
  | completes =>
      cases writes
      have running : book.status _ = .running := places
      exact ⟨rfl, running ▸ .completes⟩
  | settles =>
      have running : book.status _ = .running := places
      rcases sound with ⟨_, _, stepType, message, rfl | rfl⟩
      · cases writes
        exact ⟨rfl, running ▸ .fails⟩
      · cases writes
        exact ⟨rfl, running ▸ .drops⟩
  | _ => cases writes

variable [DecidableEq ι] {before after : σ}

omit [HostId ι] in
/-- A transition is written. -/
theorem Stage.Places.writes {visit : Visit ι} (book : Book ι) (mark : Mark) (row : StepView ι) :
    (Stage.recording visit mark row).Places (book.setStatus visit.step.id mark.status) :=
  fun _ => book.setStatus_self ..

omit [HostId ι] [DecidableEq ι] in
theorem places_hooking {status : RunStatus} : (Stage.hooking hooked status).Places book := by
  cases hooked <;> trivial

/-- Every answer keeps the step where the stage says. -/
theorem Stage.Places.answered (places : stage.Places book) (sound : stage.Sound)
    (asks : Asks registry run stage op) (wrote : Book.Wrote op book later) (result : op.Res)
    (answers : later.Answers run.id op result) :
    (stage.next run hooked op result).Places later := by
  cases asks with
  | streams streams served =>
      have same : later = book := wrote.streamed served
      rw [next_streams streams served, same]
      exact places
  | rereads turns =>
      rw [next_turns turns]
      trivial
  | lists ongoing =>
      rename_i current
      change (Stage.listed run current result).Places later
      rw [Stage.listed]
      cases selected : firstUnfinished result with
      | none => trivial
      | some step =>
          exact .inl ((answers rfl).status step (firstUnfinished_mem selected)).symm
  | times affordable limited =>
      cases wrote
      exact places
  | skips waiting blocked =>
      cases wrote
      exact .writes book _ result
  | clears affordable gated passes needs =>
      cases wrote
      exact .writes book _ result
  | enters affordable ungated =>
      cases wrote
      exact book.setStatus_self ..
  | proceeds =>
      cases wrote
      exact book.setStatus_self ..
  | titles =>
      rintro (approved | running)
      · cases approved
      · cases running
  | shows =>
      cases wrote
      exact fun _ => places
  | refuses unresolved =>
      cases wrote
      exact .writes book _ result
  | completes =>
      cases wrote
      exact .writes book _ result
  | settles =>
      rcases sound with ⟨_, _, stepType, message, rfl | rfl⟩
      · cases wrote
        exact .writes book _ result
      · cases wrote
        exact .writes book _ result
  | records =>
      rename_i visit mark row
      rcases wrote with ⟨event, _, rfl⟩
      cases mark <;> first | exact places (.inl rfl) | exact places (.inr rfl) | trivial
  | handles resolved =>
      cases wrote
      exact places
  | rollsBack bug =>
      cases wrote
      exact places
  | types | drops | fails | failsBug bug =>
      cases wrote
      exact places
  | refetches => cases result <;> trivial
  | failsRun | logsCompletion => exact places_hooking
  | _ => trivial

omit [DecidableEq ι] in
/-- A handler leaves its step running, however it ends. -/
theorem places_worked {visit : Visit ι} {stepType : String}
    {answer : Except (Raised ι) (Option Dict)}
    (running : later.status visit.step.id = .running) :
    ((Course.mk (.typed visit stepType) passes).advance run hooked
      ⟨before, .handle run { visit.step with type := stepType }, answer, after⟩).stage.Places
      later := by
  cases answer <;> exact running

end Proof

/-! ## Whole runs -/

/-- The call writes this status of the step. -/
def Writes (call : Served (engineSignature ι) (Raised ι) σ) (stepId : ι) (status : StepStatus) :
    Prop :=
  ∃ error outputRefs, call.op = .setStepState stepId status error outputRefs

/-- A run, from its start through the calls of its drives. -/
structure Lived (book : σ → Book ι) (start : σ)
    (history : History (engineSignature ι) (Raised ι) σ) (here : σ) : Prop where
  since : (book start).Advances (book here)
  left : ∀ call ∈ history, (book call.after).Advances (book here)
  moves : ∀ call ∈ history, ∀ stepId status, Writes call stepId status →
    stepId ∈ (book call.before).order ∧ ((book call.before).status stepId).Moves status ∧
      stepId ∈ (book call.after).order ∧ (book call.after).status stepId = status
  final : history.Pairwise fun earlier later => ∀ stepId status other,
    Writes earlier stepId status → status.rank = 4 → ¬ Writes later stepId other

namespace Lived

variable {book : σ → Book ι} {start here there : σ}
  {history : History (engineSignature ι) (Raised ι) σ}

theorem nothing (book : σ → Book ι) (start : σ) : Lived book start [] start where
  since := .refl _
  left := fun _ absent => absurd absent List.not_mem_nil
  moves := fun _ absent => absurd absent List.not_mem_nil
  final := .nil

/-- The host moves between drives. -/
theorem moved (lived : Lived book start history here)
    (advances : (book here).Advances (book there)) : Lived book start history there where
  since := lived.since.trans advances
  left := fun call member => (lived.left call member).trans advances
  moves := lived.moves
  final := lived.final

/-- One more call. -/
theorem called (lived : Lived book start history here) {op : EngineOp ι}
    {answer : Except (Raised ι) op.Res} (advances : (book here).Advances (book there))
    (moves : ∀ stepId status, Writes ⟨here, op, answer, there⟩ stepId status →
      stepId ∈ (book here).order ∧ ((book here).status stepId).Moves status ∧
        (book there).status stepId = status) :
    Lived book start (history ++ [⟨here, op, answer, there⟩]) there where
  since := lived.since.trans advances
  left := by
    intro call member
    rcases List.mem_append.mp member with earlier | now
    · exact (lived.left call earlier).trans advances
    · cases List.mem_singleton.mp now
      exact .refl _
  moves := by
    intro call member stepId status writes
    rcases List.mem_append.mp member with earlier | now
    · exact lived.moves call earlier stepId status writes
    · cases List.mem_singleton.mp now
      rcases moves stepId status writes with ⟨listed, step, written⟩
      exact ⟨listed, step, advances.added.subset listed, written⟩
  final := by
    rw [List.pairwise_append]
    refine ⟨lived.final, List.pairwise_singleton _ _, ?_⟩
    intro earlier member call now stepId status other ends ended writes
    cases List.mem_singleton.mp now
    -- The step had ended by then, and nothing leads from an end.
    rcases lived.moves earlier member stepId status ends with ⟨_, _, listed, written⟩
    have still := (lived.left earlier member).ended listed (written ▸ ended)
    have live := (moves stepId other writes).2.1.live
    rw [still, written] at live
    exact live ended

end Lived

section Drives

variable [HostId ι] [DecidableEq ι] {world : World (engineSignature ι) (Raised ι) σ}
  {registry : ToolRegistry} {run : RunView ι} {book : σ → Book ι}

/-- A call of a drive moves its step along the lifecycle, and leaves it where the next stage
says. -/
structure Stage.Transits (stage next : Stage ι) (op : EngineOp ι) (before after : Book ι) :
    Prop where
  advances : before.Advances after
  moves : ∀ stepId status error outputRefs, op = .setStepState stepId status error outputRefs →
    stepId ∈ before.order ∧ (before.status stepId).Moves status ∧ after.status stepId = status
  listed : next.Listed after
  places : next.Places after

omit [HostId ι] [DecidableEq ι] in
theorem Stage.Listed.grown {stage : Stage ι} {before after : Book ι} (listed : stage.Listed before)
    (added : before.order <+: after.order) : stage.Listed after :=
  fun stepId here => added.subset (listed stepId here)

/-- A call other than a handler's, before which the host may approve steps. -/
theorem transits_granted {stage next : Stage ι} {op : EngineOp ι} {before moved after : Book ι}
    (sound : stage.Sound) (asks : Asks registry run stage op) (listed : stage.Listed before)
    (places : stage.Places before) (grants : before.Grants moved)
    (wrote : Book.Wrote op moved after) (nextListed : next.Listed after)
    (nextPlaces : next.Places after) : stage.Transits next op before after where
  advances := by
    refine grants.advances.trans (wrote.advances ?_)
    rintro stepId status error outputRefs rfl
    exact ((places.grants listed grants).moves sound asks rfl).2.forward
  moves := by
    rintro stepId status error outputRefs rfl
    rcases places.moves sound asks rfl with ⟨here, moves⟩
    refine ⟨listed stepId here, moves, ?_⟩
    cases wrote
    exact moved.setStatus_self stepId status
  listed := nextListed
  places := nextPlaces

/-- A call of a drive, over a store that applies it. -/
theorem transits_served (store : BookKept world run book Book.Grants Book.Works)
    {stage : Stage ι} (sound : stage.Sound) {op : EngineOp ι} (asks : Asks registry run stage op)
    {here there : σ} {answer : Except (Raised ι) op.Res} (listed : stage.Listed (book here))
    (places : stage.Places (book here)) (served : world.serve here op answer there)
    (hooked : Bool) (passes : Nat) :
    stage.Transits ((Course.mk stage passes).advance run hooked ⟨here, op, answer, there⟩).stage op
      (book here) (book there) := by
  rcases store.served served with ⟨moved, host, wrote⟩
  have order := wrote.order
  cases op with
  | handle handled step =>
      rcases asks_handle asks with ⟨visit, stepType, rfl, rfl, rfl⟩
      have works : (book here).Works moved := host
      have same : book there = moved := wrote
      rw [same]
      have member := listed visit.step.id rfl
      refine ⟨works.toAdvances, ?_, ?_, places_worked (works.running _ member places)⟩
      · intro _ _ _ _ written
        cases written
      · cases answer <;> exact listed.grown works.added
  | _ =>
      have grants : (book here).Grants moved := host
      have grown : stage.Listed (book there) :=
        listed.grown (grants.added.trans (order ▸ List.prefix_rfl))
      cases answer with
      | ok result =>
          exact transits_granted sound asks listed places grants wrote
            (grown.answered asks result (store.answers served))
            ((places.grants listed grants).answered sound asks wrote result (store.answers served))
      | error error =>
          exact transits_granted sound asks listed places grants wrote (.of_idle rfl) trivial

/-- A drive of a run, to its end or cut short. -/
def DriveCalls (world : World (engineSignature ι) (Raised ι) σ) (runId : ι) (state : σ)
    (calls : History (engineSignature ι) (Raised ι) σ) (here : σ) : Prop :=
  ∃ registry run hooked fuel outcome history last, run.id = runId ∧
    Runs world.recorded (executeRunEvents registry run hooked fuel) (state, []) outcome
      (last, history) ∧ Standing history last calls here

/-- A drive goes on with a run. -/
theorem Lived.driven (store : BookKept world run book Book.Grants Book.Works) {start state here : σ}
    {history calls : History (engineSignature ι) (Raised ι) σ}
    (lived : Lived book start history state) (drives : DriveCalls world run.id state calls here) :
    Lived book start (history ++ calls) here := by
  rcases drives with ⟨registry, drive, hooked, fuel, outcome, recorded, last, same, runs, standing⟩
  have kept := course_invariant (fun here course record => course.stage.Listed (book here) ∧
      course.stage.Places (book here) ∧ Lived book start (history ++ record) here) runs
    (fun {before course record op answer after} sound asks known served => by
      rcases course with ⟨stage, passes⟩
      rcases known with ⟨listed, places, lived⟩
      have transits := transits_served (store.of_id same) sound asks listed places served hooked
        passes
      refine ⟨transits.listed, transits.places, ?_⟩
      rw [← List.append_assoc]
      apply lived.called transits.advances
      rintro stepId status ⟨error, outputRefs, written⟩
      exact transits.moves stepId status error outputRefs written)
    ⟨.of_idle rfl, trivial, by rw [List.append_nil]; exact lived⟩
  cases standing with
  | ended => exact kept.2.1.2.2
  | amid split => exact (kept.1 _ _ _ split).2.2.2.2

end Drives

/-- Over a store that applies every write, while the host approves and appends steps, handlers
leave the step that they work on to the engine, and between drives the host moves steps
forward: through any number of drives, each to its end or cut short at any call, steps only
come further, every write is a transition of the lifecycle, and a step that was completed,
failed or skipped is not written again. -/
theorem steps_advance [HostId ι] [DecidableEq ι] {world : World (engineSignature ι) (Raised ι) σ}
    {run : RunView ι} {book : σ → Book ι}
    (store : BookKept world run book Book.Grants Book.Works) {start here : σ}
    {history : History (engineSignature ι) (Raised ι) σ}
    (sessions : Sessions (DriveCalls world run.id)
      (fun before after => (book before).Advances (book after)) start history here) :
    (book start).Advances (book here) ∧
      (∀ call ∈ history, ∀ stepId status, Writes call stepId status →
        stepId ∈ (book call.before).order ∧ ((book call.before).status stepId).Moves status) ∧
      history.Pairwise fun earlier later => ∀ stepId status other, Writes earlier stepId status →
        status.rank = 4 → ¬ Writes later stepId other := by
  have lived := sessions.invariant (fun history here => Lived book start history here)
    (.nothing book start) (fun lived moves => lived.moved moves)
    fun lived drives => lived.driven store drives
  refine ⟨lived.since, ?_, lived.final⟩
  intro call member stepId status writes
  rcases lived.moves call member stepId status writes with ⟨listed, moves, _⟩
  exact ⟨listed, moves⟩

/-- The host once the connector call was approved. -/
def approvedHost : HostState :=
  parkedHost.setRow "step-2" { parkedHost.rows "step-2" with status := .approved }

theorem parkedHost_approved : parkedHost.book.Advances approvedHost.book := by
  rw [approvedHost, HostState.book_setRow]
  refine .setStatus ?_
  have waits : parkedHost.book.status "step-2" = .awaitingApproval := by decide
  rw [waits]
  exact .inr (by decide)

/-- Plain rules keep the plan and its steps to the engine. -/
theorem plainRules_works (run : RunView String) :
    BookKept (World.ofFn (plainRules.respond fun _ => 0)) run HostState.book Book.Grants
      Book.Works :=
  HostRules.bookKept .refl (fun _ _ => ⟨.refl _, fun _ _ running => running⟩) fun _ _ => .refl _

/-- A step is parked, approved and, in the next drive, completed. -/
theorem steps_advance_approved :
    ∃ last history,
      Sessions (DriveCalls (World.ofFn (plainRules.respond fun _ => 0)) reviewedHost.run.id)
        (fun before after => before.book.Advances after.book) reviewedHost history last ∧
      last.order.map (fun stepId => (last.rows stepId).status) = [.completed, .completed] ∧
      reviewedHost.book.Advances last.book ∧
      (∀ call ∈ history, ∀ stepId status, Writes call stepId status →
        stepId ∈ call.before.book.order ∧ (call.before.book.status stepId).Moves status) ∧
      history.Pairwise fun earlier later => ∀ stepId status other, Writes earlier stepId status →
        status.rank = 4 → ¬ Writes later stepId other := by
  rcases record_ofFn (plainRules.respond fun _ => 0) (Course.advance reviewedHost.run true)
    (executeRunEvents reviewedTools reviewedHost.run true 3) reviewedHost .start
    with ⟨first, parks, _⟩
  rcases record_ofFn (plainRules.respond fun _ => 0) (Course.advance approvedHost.run true)
    (executeRunEvents reviewedTools approvedHost.run true 3) approvedHost .start
    with ⟨second, completes, _⟩
  have sessions : Sessions
      (DriveCalls (World.ofFn (plainRules.respond fun _ => 0)) reviewedHost.run.id)
      (fun before after => before.book.Advances after.book) reviewedHost ([] ++ first ++ second)
      ((executeRunEvents reviewedTools approvedHost.run true 3).eval
        (plainRules.respond fun _ => 0) approvedHost).2 :=
    .session (.move (.session .nothing ⟨_, _, _, _, _, _, _, rfl, parks, .ended⟩)
      parkedHost_approved) ⟨_, approvedHost.run, _, _, _, _, _, rfl, completes, .ended⟩
  exact ⟨_, _, sessions, by decide, steps_advance (plainRules_works reviewedHost.run) sessions⟩

end SlimxAgent
