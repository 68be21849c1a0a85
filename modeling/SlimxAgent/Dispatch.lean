import SlimxAgent.Plan

/-!
# The order of dispatches

A drive works through the plan from its front: what lies before the step it visits is
done, and what it has dispatched lies there, in order.  Steps appended meanwhile come
after all of that.
-/

namespace SlimxAgent

open Interaction

variable {ι σ : Type}

/-- The step whose handler a call runs. -/
def EngineOp.dispatches : EngineOp ι → Option ι
  | .handle _ step => some step.id
  | _ => none

/-- The dispatched steps, oldest first. -/
def dispatched (history : History (engineSignature ι) (Raised ι) σ) : List ι :=
  history.filterMap fun call => call.op.dispatches

theorem dispatched_concat (record : History (engineSignature ι) (Raised ι) σ)
    (call : Served (engineSignature ι) (Raised ι) σ) :
    dispatched (record ++ [call]) = dispatched record ++ call.op.dispatches.toList := by
  rw [dispatched, List.filterMap_append, ← dispatched]
  cases dispatches : call.op.dispatches <;> simp [dispatches]

theorem dispatched_foldl (history : History (engineSignature ι) (Raised ι) σ) (called : List ι) :
    history.foldl (fun called call => called ++ call.op.dispatches.toList) called =
      called ++ dispatched history := by
  induction history generalizing called with
  | nil => exact (List.append_nil _).symm
  | cons call history ih =>
      rw [List.foldl_cons, ih, List.append_assoc]
      cases dispatches : call.op.dispatches <;> simp [dispatched, dispatches]

/-- A step fails, or is found failed. -/
def Fails (call : Served (engineSignature ι) (Raised ι) σ) : Prop :=
  match call with
  | ⟨_, .setStepState _ status _ _, _, _⟩ => status = .failed
  | ⟨_, .getSteps _, .ok steps, _⟩ =>
      ∃ step, firstUnfinished steps = some step ∧ step.status = .failed
  | _ => False

namespace Book

/-- The dispatched steps lie in a front of the plan that is done. -/
def Cleared (book : Book ι) (called : List ι) : Prop :=
  ∃ front, front <+: book.order ∧ (∀ stepId ∈ front, (book.status stepId).done = true) ∧
    called.Sublist front

/-- They lie before a step, and all that lies before it is done. -/
def Reached (book : Book ι) (called : List ι) (stepId : ι) : Prop :=
  ∃ front, front ++ [stepId] <+: book.order ∧
    (∀ earlier ∈ front, (book.status earlier).done = true) ∧ called.Sublist front

/-- The step is dispatched, and all that lies before it is done. -/
def Passing (book : Book ι) (called : List ι) (stepId : ι) : Prop :=
  ∃ front, front ++ [stepId] <+: book.order ∧
    (∀ earlier ∈ front, (book.status earlier).done = true) ∧ called.Sublist (front ++ [stepId]) ∧
    stepId ∈ called

section Fronts

variable {book later : Book ι} {called : List ι} {stepId : ι}

theorem Extends.front (more : book.Extends later) {front : List ι} (listed : front <+: book.order)
    (done : ∀ earlier ∈ front, (book.status earlier).done = true) :
    ∀ earlier ∈ front, (later.status earlier).done = true := by
  intro earlier member
  rw [more.status earlier (listed.subset member)]
  exact done earlier member

theorem Cleared.extends (cleared : book.Cleared called) (more : book.Extends later) :
    later.Cleared called := by
  rcases cleared with ⟨front, listed, done, within⟩
  exact ⟨front, listed.trans more.added, more.front listed done, within⟩

theorem Reached.extends (reached : book.Reached called stepId) (more : book.Extends later) :
    later.Reached called stepId := by
  rcases reached with ⟨front, listed, done, within⟩
  have before : front <+: book.order := (List.prefix_append _ _).trans listed
  exact ⟨front, listed.trans more.added, more.front before done, within⟩

theorem Passing.extends (passing : book.Passing called stepId) (more : book.Extends later) :
    later.Passing called stepId := by
  rcases passing with ⟨front, listed, done, within⟩
  have before : front <+: book.order := (List.prefix_append _ _).trans listed
  exact ⟨front, listed.trans more.added, more.front before done, within⟩

theorem Cleared.within (cleared : book.Cleared called) : called.Sublist book.order := by
  rcases cleared with ⟨front, listed, _, within⟩
  exact within.trans listed.sublist

theorem Reached.within (reached : book.Reached called stepId) : called.Sublist book.order := by
  rcases reached with ⟨front, listed, _, within⟩
  exact within.trans ((List.sublist_append_left _ _).trans listed.sublist)

theorem Passing.within (passing : book.Passing called stepId) : called.Sublist book.order := by
  rcases passing with ⟨front, listed, _, within, _⟩
  exact within.trans listed.sublist

theorem Reached.listed (reached : book.Reached called stepId) : stepId ∈ book.order := by
  rcases reached with ⟨front, listed, _⟩
  exact listed.subset (by simp)

theorem Passing.listed (passing : book.Passing called stepId) : stepId ∈ book.order := by
  rcases passing with ⟨front, listed, _⟩
  exact listed.subset (by simp)

/-- What lies before a step is not the step. -/
theorem ne_of_front (distinct : book.order.Nodup) {front : List ι}
    (listed : front ++ [stepId] <+: book.order) : ∀ earlier ∈ front, earlier ≠ stepId := by
  have nodup : (front ++ [stepId]).Nodup := listed.sublist.nodup distinct
  rintro earlier member rfl
  rw [← List.concat_eq_append, List.nodup_concat] at nodup
  exact nodup.1 member

/-- The step is dispatched. -/
theorem Reached.dispatch (reached : book.Reached called stepId) :
    book.Passing (called ++ [stepId]) stepId := by
  rcases reached with ⟨front, listed, done, within⟩
  exact ⟨front, listed, done, within.append (List.Sublist.refl _), by simp⟩

/-- The step a listing selects is reached. -/
theorem Cleared.select {steps : List (StepView ι)} {step : StepView ι}
    (cleared : book.Cleared called) (lists : book.Lists steps)
    (selected : firstUnfinished steps = some step) : book.Reached called step.id := by
  rcases cleared with ⟨past, listed, settled, within⟩
  rcases lists.selected selected with ⟨_, remains, front, back, order, done⟩
  have ahead : front ++ [step.id] <+: book.order := ⟨back, by simp [order]⟩
  have short : past <+: front := by
    rcases List.prefix_or_prefix_of_prefix listed ahead with shorter | longer
    · rcases List.prefix_concat_iff.mp shorter with equal | shorter
      · have finished := settled step.id (by simp [equal])
        rw [remains] at finished
        cases finished
      · exact shorter
    · have finished := settled step.id (longer.subset (by simp))
      rw [remains] at finished
      cases finished
  exact ⟨front, ahead, done, within.trans short.sublist⟩

variable [DecidableEq ι]

theorem front_setStatus (distinct : book.order.Nodup) {front : List ι} {status : StepStatus}
    (listed : front ++ [stepId] <+: book.order)
    (done : ∀ earlier ∈ front, (book.status earlier).done = true) :
    ∀ earlier ∈ front, ((book.setStatus stepId status).status earlier).done = true := by
  intro earlier member
  rw [book.setStatus_of_ne (ne_of_front distinct listed earlier member)]
  exact done earlier member

theorem Reached.setStatus (reached : book.Reached called stepId) (distinct : book.order.Nodup)
    (status : StepStatus) : (book.setStatus stepId status).Reached called stepId := by
  rcases reached with ⟨front, listed, done, within⟩
  exact ⟨front, listed, front_setStatus distinct listed done, within⟩

/-- With the step done, so is the plan up to it. -/
theorem Passing.setStatus (passing : book.Passing called stepId) (distinct : book.order.Nodup)
    {status : StepStatus} (settles : status.done = true) :
    (book.setStatus stepId status).Cleared called := by
  rcases passing with ⟨front, listed, done, within, _⟩
  refine ⟨front ++ [stepId], listed, ?_, within⟩
  intro earlier member
  rcases List.mem_append.mp member with before | here
  · exact front_setStatus distinct listed done earlier before
  · rw [List.mem_singleton.mp here, setStatus_self]
    exact settles

theorem Reached.skip (reached : book.Reached called stepId) (distinct : book.order.Nodup)
    {status : StepStatus} (settles : status.done = true) :
    (book.setStatus stepId status).Cleared called := by
  rcases reached.dispatch.setStatus distinct settles with ⟨front, listed, done, within⟩
  exact ⟨front, listed, done, (List.sublist_append_left _ _).trans within⟩

end Fronts

/-- A transition of a step as it was answered, and the dispatches so far. -/
structure Written (book : Book ι) (called : List ι) (stepId : ι) (status : StepStatus)
    (row : StepView ι) : Prop extends book.Marked stepId status row where
  listed : stepId ∈ book.order
  reached : status = .approved ∨ status = .running → book.Reached called stepId
  cleared : status.done = true → book.Cleared called
  within : called.Sublist book.order

/-- A step as its dispatch left it, and the dispatches so far. -/
structure Ran (book : Book ι) (called : List ι) (stepId : ι) (ran : StepView ι) : Prop where
  id : ran.id = stepId
  listed : stepId ∈ book.order
  failed : ran.status = .failed → book.status stepId = .failed
  cleared : ran.status ≠ .failed → book.Cleared called
  within : called.Sublist book.order

section Transitions

variable {book later : Book ι} {called : List ι} {stepId : ι} {status : StepStatus}
  {row : StepView ι}

theorem Written.same (written : book.Written called stepId status row)
    (same : book.SamePlan later) : later.Written called stepId status row where
  toMarked := written.toMarked.extends same.extends written.listed
  listed := by
    rw [same.order]
    exact written.listed
  reached entered := (written.reached entered).extends same.extends
  cleared done := (written.cleared done).extends same.extends
  within := by
    rw [same.order]
    exact written.within

theorem Ran.same (ran : book.Ran called stepId row) (same : book.SamePlan later) :
    later.Ran called stepId row where
  id := ran.id
  listed := by
    rw [same.order]
    exact ran.listed
  failed ends := by
    rw [same.status stepId ran.listed]
    exact ran.failed ends
  cleared unfailed := (ran.cleared unfailed).extends same.extends
  within := by
    rw [same.order]
    exact ran.within

/-- The transition ends the work on the step. -/
theorem Written.ran (written : book.Written called stepId status row)
    (settles : row.status ≠ .failed → status.done = true) : book.Ran called stepId row where
  id := written.id
  listed := written.listed
  failed ends := written.failed (written.shown.symm.trans ends)
  cleared unfailed := written.cleared (settles unfailed)
  within := written.within

/-- What failed still reads as failed. -/
theorem Ran.judged (ran : book.Ran called stepId row)
    (answers : status = book.status row.id ∨ status = row.status) :
    (row.status = .failed → status = .failed) ∧ (status ≠ .failed → book.Cleared called) := by
  have stays : row.status = .failed → status = .failed := by
    intro ends
    rcases answers with live | snapshot
    · rw [live, ran.id]
      exact ran.failed ends
    · exact snapshot.trans ends
  exact ⟨stays, fun unfailed => ran.cleared fun ends => unfailed (stays ends)⟩

end Transitions

end Book

/-- What a stage tells of the dispatches so far. -/
def Stage.Keeps (stage : Stage ι) (book : Book ι) (called : List ι) : Prop :=
  match stage with
  | .opening => book.Cleared called
  | .opened => book.Cleared called
  | .begun => book.Cleared called
  | .top => book.Cleared called
  | .runRead _ => book.Cleared called
  | .visiting visit => book.Reached called visit.step.id
  | .cleared visit => book.Reached called visit.step.id
  | .started visit => book.Reached called visit.step.id
  | .typed visit _ => book.Reached called visit.step.id
  | .recording visit mark row => book.Written called visit.step.id mark.status row
  | .parked visit row => book.Written called visit.step.id .awaitingApproval row
  | .entered visit row => book.Written called visit.step.id .running row
  | .handled _ (.error (.stepActionPrepared _)) => False
  | .handled visit _ => book.Passing called visit.step.id
  | .rolledBack visit _ => book.Passing called visit.step.id
  | .decided visit _ => book.Passing called visit.step.id
  | .settled visit ran => book.Ran called visit.step.id ran
  | .judged _ ran => (ran.status ≠ .failed → book.Cleared called) ∧ called.Sublist book.order
  | .allDone => (∀ stepId ∈ book.order, (book.status stepId).done = true) ∧
      called.Sublist book.order
  | .finalRead _ =>
      (∀ stepId ∈ book.order, (book.status stepId).done = true) ∧ called.Sublist book.order
  | _ => called.Sublist book.order

/-- A step failed; the drive is on its way out. -/
def Stage.Failed : Stage ι → Prop
  | .visiting visit => visit.step.status = .failed
  | .recording _ (.fails _ _) row => row.status = .failed
  | .settled _ ran => ran.status = .failed
  | .judged _ ran => ran.status = .failed
  | .looked _ _ => True
  | .failing _ => True
  | .notifying _ => True
  | .ended _ => True
  | .broken _ => True
  | _ => False

section Proof

variable {registry : ToolRegistry} {run : RunView ι} {hooked : Bool} {stage : Stage ι}
  {book later : Book ι} {called : List ι} {op : EngineOp ι} {before after : σ}

theorem Stage.Keeps.same (keeps : stage.Keeps book called) (same : book.SamePlan later) :
    stage.Keeps later called := by
  have more := same.extends
  have within : called.Sublist book.order → called.Sublist later.order := by
    rw [same.order]
    exact id
  have finished : (∀ stepId ∈ book.order, (book.status stepId).done = true) →
      ∀ stepId ∈ later.order, (later.status stepId).done = true := by
    intro done stepId member
    rw [same.order] at member
    rw [same.status stepId member]
    exact done stepId member
  cases stage with
  | opening | opened | begun | top | runRead _ => exact Book.Cleared.extends keeps more
  | visiting visit | cleared visit | started visit | typed visit _ =>
      exact Book.Reached.extends keeps more
  | recording visit mark row | parked visit row | entered visit row =>
      exact Book.Written.same keeps same
  | handled visit outcome =>
      rcases outcome with error | refs
      · cases error <;> first | exact Book.Passing.extends keeps more | exact keeps.elim
      · exact Book.Passing.extends keeps more
  | rolledBack visit _ | decided visit _ => exact Book.Passing.extends keeps more
  | settled visit ran => exact Book.Ran.same keeps same
  | judged visit ran =>
      exact ⟨fun unfailed => (keeps.1 unfailed).extends more, within keeps.2⟩
  | allDone | finalRead _ => exact ⟨finished keeps.1, within keeps.2⟩
  | _ => exact within keeps

theorem Stage.Keeps.within (keeps : stage.Keeps book called) : called.Sublist book.order := by
  cases stage with
  | opening | opened | begun | top | runRead _ => exact Book.Cleared.within keeps
  | visiting visit | cleared visit | started visit | typed visit _ =>
      exact Book.Reached.within keeps
  | recording visit mark row | parked visit row | entered visit row =>
      exact Book.Written.within keeps
  | handled visit outcome =>
      rcases outcome with error | refs
      · cases error <;> first | exact Book.Passing.within keeps | exact keeps.elim
      · exact Book.Passing.within keeps
  | rolledBack visit _ | decided visit _ => exact Book.Passing.within keeps
  | settled visit ran => exact Book.Ran.within keeps
  | judged visit ran | allDone | finalRead _ => exact keeps.2
  | _ => exact keeps

variable [DecidableEq ι]

/-- A transition of a step that is reached. -/
theorem Book.Reached.writes {stepId : ι} {status : StepStatus} {row : StepView ι}
    (reached : book.Reached called stepId) (distinct : book.order.Nodup)
    (answers : row.id = stepId ∧ row.status = status) :
    (book.setStatus stepId status).Written called stepId status row where
  toMarked := Book.marked_setStatus answers
  listed := reached.listed
  reached _ := reached.setStatus distinct status
  cleared settles := reached.skip distinct settles
  within := reached.within

/-- A transition of a step that was dispatched. -/
theorem Book.Passing.writes {stepId : ι} {status : StepStatus} {row : StepView ι}
    (passing : book.Passing called stepId) (distinct : book.order.Nodup)
    (settles : ¬ (status = .approved ∨ status = .running))
    (answers : row.id = stepId ∧ row.status = status) :
    (book.setStatus stepId status).Written called stepId status row where
  toMarked := Book.marked_setStatus answers
  listed := passing.listed
  reached entered := absurd entered settles
  cleared settled := passing.setStatus distinct settled
  within := passing.within

variable [HostId ι]

omit [DecidableEq ι] in
/-- Only at a dispatch may steps be appended. -/
theorem Stage.Keeps.between (keeps : stage.Keeps book called) (asks : Asks registry run stage op)
    (host : op.between Book.SamePlan Book.Extends book later) : stage.Keeps later called := by
  cases op with
  | handle handled step =>
      rcases asks_handle asks with ⟨visit, stepType, rfl, _⟩
      exact Book.Reached.extends keeps host
  | _ => exact keeps.same host

/-- What an answer does, when it is not a handler's. -/
theorem Stage.Keeps.answered (keeps : stage.Keeps book called) (distinct : book.order.Nodup)
    (sound : stage.Sound) (asks : Asks registry run stage op) (other : op.dispatches = none)
    (wrote : Book.Wrote op book later) (result : op.Res)
    (answers : later.Answers run.id op result) :
    (stage.next run hooked op result).Keeps later called := by
  cases asks with
  | opens | begins _ | clocks =>
      cases wrote
      exact keeps
  | streams streams served =>
      rw [next_streams streams served, wrote.streamed served]
      exact keeps
  | rereads turns =>
      cases wrote
      rw [next_turns turns]
      cases stage with
      | top => exact keeps
      | judged visit ran => exact keeps.1 (Stage.turns_judged.mp turns).2
      | _ => cases turns
  | lists ongoing =>
      rename_i current
      cases wrote
      have lists : book.Lists result := answers rfl
      change (Stage.listed run current result).Keeps book called
      rw [Stage.listed]
      cases selected : firstUnfinished result with
      | none => exact ⟨lists.finished selected, Book.Cleared.within keeps⟩
      | some step => exact Book.Cleared.select keeps lists selected
  | skips _ _ | parks _ _ _ | clears _ _ _ _ | enters _ _ | proceeds | refuses _ =>
      cases wrote
      exact Book.Reached.writes keeps distinct answers
  | records =>
      rename_i visit mark row
      rcases wrote with ⟨event, _, rfl⟩
      have written := Book.Written.same keeps (.append book event)
      cases mark with
      | skips reason => exact written.cleared rfl
      | parks title reason => exact written.within
      | clears payload => exact written.reached (.inl rfl)
      | enters startedType => exact written.reached (.inr rfl)
      | completes outputRefs => exact written.ran fun _ => rfl
      | fails stepType message => exact written.ran (absurd written.shown)
      | drops stepType reason => exact written.ran fun _ => rfl
  | handles _ => cases other
  | completes =>
      cases wrote
      exact Book.Passing.writes keeps distinct (by simp) answers
  | rollsBack rollsBack =>
      rename_i visit error
      cases wrote
      cases error <;> first | exact keeps | exact rollsBack.elim
  | titles | shows | types | drops | fails | failsBug _ =>
      cases wrote
      exact keeps
  | settles =>
      rcases sound with ⟨_, _, stepType, message, rfl | rfl⟩
      · cases wrote
        exact Book.Passing.writes keeps distinct (by simp) answers
      · cases wrote
        exact Book.Passing.writes keeps distinct (by simp) answers
  /- No handler prepared an action. -/
  | refetches => exact keeps.elim
  | judges =>
      cases wrote
      exact ⟨(Book.Ran.judged keeps answers).2, Book.Ran.within keeps⟩
  | times _ _ | repeats | pauses | waits | finishes | notifies =>
      cases wrote
      exact keeps
  | looks _ | stops _ _ _ | completesRun _ =>
      cases wrote
      exact keeps.within
  | failsRun =>
      cases wrote
      cases hooked <;> exact keeps
  | reports | logsPause =>
      rcases wrote with ⟨event, _, rfl⟩
      exact keeps
  | exhausts _ _ | reportsRan _ =>
      rcases wrote with ⟨event, _, rfl⟩
      exact keeps.within
  | logsCompletion =>
      rcases wrote with ⟨event, _, rfl⟩
      cases hooked <;> exact keeps

/-- A handler ran. -/
theorem Stage.Keeps.dispatched {visit : Visit ι} {stepType : String}
    (keeps : (Stage.typed visit stepType).Keeps book called)
    (wrote : Book.Wrote (.handle run { visit.step with type := stepType }) book later)
    {answer : Except (Raised ι) (Option Dict)}
    (prepares : ∀ message, answer ≠ .error (.stepActionPrepared message)) :
    (Stage.handled visit answer).Keeps later (called ++ [visit.step.id]) := by
  cases wrote
  have passing : book.Passing (called ++ [visit.step.id]) visit.step.id :=
    Book.Reached.dispatch keeps
  rcases answer with error | outputRefs
  · cases error with
    | stepActionPrepared message => exact prepares message rfl
    | _ => exact passing
  · exact passing

/-- After a failure the drive only goes out. -/
theorem Stage.Failed.answered (failed : stage.Failed) (keeps : stage.Keeps book called)
    (asks : Asks registry run stage op) (wrote : Book.Wrote op book later) (result : op.Res)
    (answers : later.Answers run.id op result) : (stage.next run hooked op result).Failed := by
  cases asks with
  | streams streams served =>
      rw [next_streams streams served]
      exact failed
  | rereads turns =>
      cases stage with
      | judged visit ran => exact absurd failed (Stage.turns_judged.mp turns).2
      | top => exact failed.elim
      | _ => cases turns
  | skips waiting _ => exact absurd failed waiting.not_failed
  | times _ _ => exact failed
  | exhausts admitted _ => exact absurd failed admitted.not_failed
  | parks affordable _ _ => exact absurd failed affordable.not_failed
  | clears affordable _ _ _ => exact absurd failed affordable.not_failed
  | enters affordable _ => exact absurd failed affordable.not_failed
  | judges =>
      cases wrote
      exact (Book.Ran.judged keeps answers).1 failed
  | failsRun => cases hooked <;> trivial
  | records =>
      rename_i visit mark row
      cases mark <;> first | exact failed.elim | exact failed
  | _ => first | exact failed.elim | trivial

omit [DecidableEq ι] in
theorem failed_of_fails (sound : stage.Sound) (asks : Asks registry run stage op)
    (result : op.Res) (answers : later.Answers run.id op result)
    (fails : Fails (σ := σ) ⟨before, op, .ok result, after⟩) :
    (stage.next run hooked op result).Failed := by
  cases asks with
  | lists ongoing =>
      rename_i current
      rcases fails with ⟨step, selected, failed⟩
      change (Stage.listed run current result).Failed
      rw [Stage.listed, selected]
      exact failed
  | refuses unresolved => exact answers.2
  | settles =>
      rcases sound with ⟨_, _, stepType, message, rfl | rfl⟩
      · exact answers.2
      · cases fails
  | streams streams served => cases op <;> first | exact fails.elim | exact served.elim
  | _ => first | exact fails.elim | cases fails

/-- What a drive tells of the plan it works through. -/
structure InOrder (book : σ → Book ι) (here : σ) (course : Course ι)
    (record : History (engineSignature ι) (Raised ι) σ) : Prop where
  distinct : (book here).order.Nodup
  keeps : course.stage.Keeps (book here) (dispatched record)
  added : ∀ call ∈ record, (book call.before).order <+: (book here).order
  /-- A step that became completed was dispatched. -/
  ran : ∀ call ∈ record, ∀ stepId ∈ (book call.before).order,
    (book call.before).status stepId ≠ .completed → (book here).status stepId = .completed →
    stepId ∈ dispatched record
  failed : (∃ call ∈ record, Fails call) → course.stage.Failed

variable {world : World (engineSignature ι) (Raised ι) σ} {course : Course ι}
  {record : History (engineSignature ι) (Raised ι) σ}

omit [DecidableEq ι] [HostId ι] in
/-- During a call no step is unlisted or takes another status. -/
theorem EngineOp.between.extends {moved book : Book ι}
    (host : op.between Book.SamePlan Book.Extends book moved) : book.Extends moved := by
  cases op with
  | handle handled step => exact host
  | _ => exact Book.SamePlan.extends host

theorem keeps_served {book : σ → Book ι}
    (store : BookKept world run book Book.SamePlan Book.Extends)
    (unprepared : Unprepared world)
    {answer : Except (Raised ι) op.Res} (distinct : (book before).order.Nodup)
    (keeps : course.stage.Keeps (book before) (dispatched record)) (sound : course.stage.Sound)
    (asks : Asks registry run course.stage op) (served : world.serve before op answer after) :
    (course.advance run hooked ⟨before, op, answer, after⟩).stage.Keeps (book after)
      (dispatched (record ++ [⟨before, op, answer, after⟩])) := by
  rcases store.served served with ⟨moved, host, wrote⟩
  rcases course with ⟨stage, passes⟩
  have keeps := keeps.between asks host
  have more := host.extends
  rw [dispatched_concat]
  cases op with
  | handle handled step =>
      rcases asks_handle asks with ⟨visit, stepType, rfl, rfl, rfl⟩
      have prepares : ∀ message, answer ≠ .error (.stepActionPrepared message) := by
        rintro message rfl
        exact unprepared _ _ _ _ _ served
      cases answer <;> exact keeps.dispatched wrote prepares
  | _ =>
      simp only [EngineOp.dispatches, Option.toList_none, List.append_nil]
      cases answer with
      | ok result =>
          exact keeps.answered (more.distinct distinct) sound asks rfl wrote result
            (store.answers served)
      | error error =>
          change (dispatched record).Sublist (book after).order
          rw [wrote.order]
          exact keeps.within

theorem InOrder.served {book : σ → Book ι}
    (store : BookKept world run book Book.SamePlan Book.Extends)
    (unprepared : Unprepared world)
    {answer : Except (Raised ι) op.Res} (inOrder : InOrder book before course record)
    (sound : course.stage.Sound) (asks : Asks registry run course.stage op)
    (served : world.serve before op answer after) :
    InOrder book after (course.advance run hooked ⟨before, op, answer, after⟩)
      (record ++ [⟨before, op, answer, after⟩]) := by
  rcases store.served served with ⟨moved, host, wrote⟩
  have more := host.extends
  have added : (book before).order <+: (book after).order := by
    rw [wrote.order]
    exact more.added
  have earlier : ∀ stepId ∈ dispatched record,
      stepId ∈ dispatched (record ++ [⟨before, op, answer, after⟩]) := by
    intro stepId member
    rw [dispatched_concat]
    exact List.mem_append_left _ member
  /- A step completed by this call. -/
  have completed : ∀ stepId ∈ (book before).order, (book before).status stepId ≠ .completed →
      (book after).status stepId = .completed → stepId ∈ dispatched record := by
    intro stepId member unfinished finished
    rcases wrote.status stepId with same | ⟨status, message, outputRefs, rfl, written⟩
    · rw [same, more.status stepId member] at finished
      exact absurd finished unfinished
    · rw [written] at finished
      subst finished
      rcases asks_completed sound asks with ⟨visit, refs, here, rfl⟩
      have keeps := inOrder.keeps
      rw [here] at keeps
      rcases keeps with ⟨front, _, _, _, called⟩
      exact called
  constructor
  · rw [wrote.order]
    exact more.distinct inOrder.distinct
  · exact keeps_served store unprepared inOrder.distinct inOrder.keeps sound asks served
  · intro call member
    rcases List.mem_append.mp member with past | here
    · exact (inOrder.added call past).trans added
    · cases List.mem_singleton.mp here
      exact added
  · intro call member stepId listed unfinished finished
    apply earlier
    rcases List.mem_append.mp member with past | here
    · have still := (inOrder.added call past).subset listed
      by_cases settled : (book before).status stepId = .completed
      · exact inOrder.ran call past stepId listed unfinished settled
      · exact completed stepId still settled finished
    · cases List.mem_singleton.mp here
      exact completed stepId listed unfinished finished
  · rintro ⟨call, member, fails⟩
    cases answer with
    | error error =>
        cases op with
        | handle handled step =>
            rcases asks_handle asks with ⟨visit, stepType, here, _⟩
            rcases List.mem_append.mp member with past | now
            · have failed := inOrder.failed ⟨call, past, fails⟩
              rw [here] at failed
              exact failed.elim
            · cases List.mem_singleton.mp now
              exact fails.elim
        | _ => trivial
    | ok result =>
        rcases List.mem_append.mp member with past | here
        · exact (inOrder.failed ⟨call, past, fails⟩).answered (inOrder.keeps.between asks host)
            asks wrote result (store.answers served)
        · cases List.mem_singleton.mp here
          exact failed_of_fails sound asks result (store.answers served) fails

omit [HostId ι] [DecidableEq ι] in
theorem InOrder.start {book : σ → Book ι} {state : σ} (distinct : (book state).order.Nodup) :
    InOrder book state .start [] := by
  constructor
  · exact distinct
  · exact ⟨[], List.nil_prefix, fun _ member => absurd member List.not_mem_nil, .refl _⟩
  · exact fun _ member => absurd member List.not_mem_nil
  · exact fun _ member => absurd member List.not_mem_nil
  · rintro ⟨call, member, _⟩
    exact absurd member List.not_mem_nil

end Proof

/-- Positions in a list without repeats. -/
theorem pairwise_idxOf_of_sublist [DecidableEq ι] {front order : List ι}
    (sublist : front.Sublist order) (distinct : order.Nodup) :
    front.Pairwise fun earlier later => order.idxOf earlier < order.idxOf later := by
  apply List.Pairwise.sublist sublist
  apply List.pairwise_iff_getElem.mpr
  intro first second inside within before
  rw [distinct.idxOf_getElem, distinct.idxOf_getElem]
  exact before

/-- The plan and the dispatches of a drive.  Handlers may append steps to the plan, but
keep the statuses of the listed ones and prepare no action.  Then dispatched steps are in
plan order; what lies before a dispatched step is done; nothing is dispatched after a
failure; and when the run is marked completed every step is done, and each that became
completed in the drive was dispatched once. -/
theorem dispatched_in_order [HostId ι] [DecidableEq ι]
    {world : World (engineSignature ι) (Raised ι) σ} {run : RunView ι} {book : σ → Book ι}
    (store : BookKept world run book Book.SamePlan Book.Extends)
    (unprepared : Unprepared world)
    (registry : ToolRegistry) (hooked : Bool) (fuel : Nat) {state last : σ}
    {outcome : Except (Raised ι) (Option Unit)}
    {history : History (engineSignature ι) (Raised ι) σ}
    (runs : Runs world.recorded (executeRunEvents registry run hooked fuel) (state, []) outcome
      (last, history)) (distinct : (book state).order.Nodup) :
    ((∀ call ∈ history, (book call.before).order <+: (book last).order) ∧
      (dispatched history).Pairwise fun earlier later =>
        (book last).order.idxOf earlier < (book last).order.idxOf later) ∧
    (∀ earlier call later handled step, history = earlier ++ call :: later →
      call.op = .handle handled step → ∃ front back,
        (book call.before).order = front ++ step.id :: back ∧
        ∀ stepId ∈ front, ((book call.before).status stepId).done = true) ∧
    (∀ earlier call later, history = earlier ++ call :: later → Fails call →
      dispatched later = []) ∧
    (∀ earlier call later completed, history = earlier ++ call :: later →
      call.op = .setRunStatus completed .completed →
      ∀ stepId ∈ (book call.before).order, ((book call.before).status stepId).done = true ∧
        ((book call.before).status stepId = .completed →
          (∃ past ∈ earlier, stepId ∈ (book past.before).order ∧
            (book past.before).status stepId ≠ .completed) →
          (dispatched history).count stepId = 1)) := by
  have kept := course_invariant (InOrder book) runs
    (fun sound asks inOrder served => inOrder.served store unprepared sound asks served)
    (.start distinct)
  rcases kept with ⟨calls, inOrder, _⟩
  have within := inOrder.keeps.within
  refine ⟨⟨inOrder.added, pairwise_idxOf_of_sublist within inOrder.distinct⟩, ?_, ?_, ?_⟩
  · intro earlier call later handled step split dispatches
    rcases calls earlier call later split with ⟨asks, _, before⟩
    rw [dispatches] at asks
    rcases asks_handle asks with ⟨visit, stepType, here, _, rfl⟩
    have keeps := before.keeps
    rw [here] at keeps
    rcases keeps with ⟨front, ⟨back, listed⟩, done, _⟩
    exact ⟨front, back, by rw [← listed, List.append_assoc]; rfl, done⟩
  · intro earlier call later split fails
    apply List.filterMap_eq_nil_iff.mpr
    intro next member
    rcases List.append_of_mem member with ⟨between, rest, rfl⟩
    have cut : history = (earlier ++ call :: between) ++ next :: rest := by
      rw [split, List.append_assoc, List.cons_append]
    rcases calls _ _ _ cut with ⟨asks, _, before⟩
    have failed := before.failed ⟨call, by simp, fails⟩
    rcases next with ⟨state, op, answer, after⟩
    cases op with
    | handle handled step =>
        rcases asks_handle asks with ⟨visit, stepType, here, _⟩
        rw [here] at failed
        exact failed.elim
    | _ => rfl
  · intro earlier call later completed split writes stepId listed
    rcases calls earlier call later split with ⟨asks, _, before⟩
    rw [writes] at asks
    rcases asks_completion asks with ⟨current, here⟩
    have keeps := before.keeps
    rw [here] at keeps
    refine ⟨keeps.1 stepId listed, ?_⟩
    rintro finished ⟨past, member, known, unfinished⟩
    have ran := before.ran past member stepId known unfinished finished
    apply List.count_eq_one_of_mem (within.nodup inOrder.distinct)
    rw [split, dispatched, List.filterMap_append]
    exact List.mem_append_left _ ran

/-- A step appended by the first one is dispatched after it. -/
theorem dispatched_in_order_seed :
    ∃ last history,
      Runs (World.ofFn (seedRules.respond fun _ => 0)).recorded
        (executeRunEvents ⟨["model_call"], by decide⟩ seedHost.run true 3) (seedHost, [])
        (.ok (some ())) (last, history) ∧
      dispatched history = ["step-1", "step-2"] ∧
      (dispatched history).Pairwise fun earlier later =>
        last.book.order.idxOf earlier < last.book.order.idxOf later := by
  have store : BookKept (World.ofFn (seedRules.respond fun _ => 0)) seedHost.run HostState.book
      Book.SamePlan Book.Extends :=
    HostRules.bookKept .refl seedRules_extends fun _ _ => .refl _
  have unprepared : Unprepared (World.ofFn (seedRules.respond fun _ => 0)) := by
    intro before handled step message after served
    cases congrArg Prod.fst served
  rcases record_ofFn (seedRules.respond fun _ => 0)
    (fun called (call : Served (engineSignature String) (Raised String) HostState) =>
      called ++ call.op.dispatches.toList)
    (executeRunEvents ⟨["model_call"], by decide⟩ seedHost.run true 3) seedHost []
    with ⟨history, runs, view⟩
  have ordered := dispatched_in_order store unprepared _ _ _ runs (by decide)
  refine ⟨_, history, runs, ?_, ordered.1.2⟩
  rw [dispatched_foldl, List.nil_append] at view
  rw [view]
  decide

end SlimxAgent
