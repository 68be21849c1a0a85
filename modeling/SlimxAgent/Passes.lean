import SlimxAgent.Plan

/-!
# How many passes a drive makes

Every pass that does not end the drive settles the step it selected, or that step's
handler prepared an action.  So the steps not yet done bound the passes, with the steps
appended and the actions prepared meanwhile.
-/

namespace SlimxAgent

open Interaction

variable {ι σ : Type}

/-- What a drive has selected and prepared. -/
structure PassView (ι : Type) where
  /-- The step selected last. -/
  selected : Option ι
  /-- Its handler prepared an action. -/
  prepared : Bool
  preparations : Nat

namespace PassView

def start : PassView ι := ⟨none, false, 0⟩

def advance (view : PassView ι) (call : Served (engineSignature ι) (Raised ι) σ) : PassView ι :=
  match call with
  | ⟨_, .getSteps _, .ok steps, _⟩ =>
      ⟨(firstUnfinished steps).map StepView.id, false, view.preparations⟩
  | ⟨_, .handle _ _, .error (.stepActionPrepared _), _⟩ =>
      ⟨view.selected, true, view.preparations + 1⟩
  | _ => view

/-- The step selected last is done, or its handler prepared an action. -/
def Progressed (view : PassView ι) (book : Book ι) : Prop :=
  ∀ stepId, view.selected = some stepId →
    stepId ∈ book.order ∧ (book.status stepId).done = true ∨ view.prepared = true

end PassView

/-- Steps are appended, and what is done or failed stays so. -/
structure Book.Rests (before after : Book ι) : Prop extends before.Grows after where
  failed : ∀ stepId ∈ before.order, before.status stepId = .failed → after.status stepId = .failed

theorem Book.Rests.refl (book : Book ι) : book.Rests book :=
  ⟨.refl book, fun _ _ failed => failed⟩

theorem Book.Rests.append (book : Book ι) (event : Event) : book.Rests (book.append event) :=
  ⟨⟨List.prefix_rfl, fun distinct => distinct, fun _ _ done => done⟩, fun _ _ failed => failed⟩

/-- The passes that a stage may still need, with the one it is in. -/
def Stage.owes [DecidableEq ι] (book : Book ι) : Stage ι → Nat
  | .opening => book.unfinished + 1
  | .opened => book.unfinished + 1
  | .begun => book.unfinished + 1
  | .top => book.unfinished + 1
  | .runRead _ => book.unfinished
  | .visiting visit => book.others visit.step.id + 1
  | .recording visit _ _ => book.others visit.step.id + 1
  | .parked visit _ => book.others visit.step.id + 1
  | .cleared visit => book.others visit.step.id + 1
  | .entered visit _ => book.others visit.step.id + 1
  | .started visit => book.others visit.step.id + 1
  | .typed visit _ => book.others visit.step.id + 1
  | .handled visit (.error (.stepActionPrepared _)) => book.others visit.step.id + 2
  | .handled visit _ => book.others visit.step.id + 1
  | .rolledBack visit _ => book.others visit.step.id + 1
  | .decided visit _ => book.others visit.step.id + 1
  | .settled _ ran => if ran.status = .failed then 0 else book.unfinished + 1
  | .judged _ ran => if ran.status = .failed then 0 else book.unfinished + 1
  | _ => 0

/-- What a stage tells of the step that was selected last. -/
def Stage.Follows (stage : Stage ι) (book : Book ι) (view : PassView ι) : Prop :=
  match stage with
  | .opening => view.Progressed book
  | .opened => view.Progressed book
  | .begun => view.Progressed book
  | .top => view.Progressed book
  | .recording visit mark row => book.Marked visit.step.id mark.status row
  | .parked visit row => book.Marked visit.step.id .awaitingApproval row
  | .entered visit row => book.Marked visit.step.id .running row
  | .handled _ (.error (.stepActionPrepared _)) => view.prepared = true
  | .settled visit ran => ran.id = visit.step.id ∧
      (ran.status = .failed → book.status visit.step.id = .failed) ∧
      (ran.status ≠ .failed → view.Progressed book)
  | .judged _ ran => ran.status ≠ .failed → view.Progressed book
  | _ => True

/-- The account of a drive: its passes, and those it may still need, against the steps
it began with, the steps appended and the actions prepared. -/
structure Accounted [DecidableEq ι] (begun book : Book ι) (course : Course ι)
    (view : PassView ι) : Prop where
  distinct : book.order.Nodup
  grown : begun.order.length ≤ book.order.length
  bounded : course.passes + course.stage.owes book + begun.order.length ≤
    begun.unfinished + book.order.length + view.preparations + 1
  listed : ∀ stepId, course.stage.stepId? = some stepId →
    stepId ∈ book.order ∧ view.selected = some stepId
  follows : course.stage.Follows book view

section Proof

variable [DecidableEq ι] {registry : ToolRegistry} {run : RunView ι} {hooked : Bool}
  {begun book later : Book ι} {course : Course ι} {view : PassView ι}

theorem owes_grows (grows : book.Grows later) (stage : Stage ι) :
    stage.owes later + book.order.length ≤ stage.owes book + later.order.length := by
  have longer := grows.added.length_le
  have unfinished := grows.unfinished
  have others := grows.others
  cases stage with
  | handled visit outcome =>
      have here := others visit.step.id
      rcases outcome with error | refs
      · cases error <;> simp only [Stage.owes] <;> omega
      · simp only [Stage.owes]
        omega
  | settled visit ran | judged visit ran =>
      simp only [Stage.owes]
      split <;> omega
  | visiting visit | recording visit _ _ | parked visit _ | cleared visit | entered visit _
  | started visit | typed visit _ | rolledBack visit _ | decided visit _ =>
      have here := others visit.step.id
      simp only [Stage.owes]
      omega
  | _ =>
      simp only [Stage.owes]
      omega

omit [DecidableEq ι] in
theorem Book.Marked.rests {stepId : ι} {status : StepStatus} {row : StepView ι}
    (marked : book.Marked stepId status row) (member : stepId ∈ book.order)
    (rests : book.Rests later) : later.Marked stepId status row where
  id := marked.id
  shown := marked.shown
  done finished := rests.done stepId member (marked.done finished)
  failed ends := rests.failed stepId member (marked.failed ends)

/-- While a handler runs, steps may come to any end. -/
theorem Accounted.invokes {passes : Nat} {visit : Visit ι} {stepType : String}
    (account : Accounted begun book ⟨.typed visit stepType, passes⟩ view)
    (grows : book.Grows later) : Accounted begun later ⟨.typed visit stepType, passes⟩ view := by
  have longer := grows.added.length_le
  have owes := owes_grows grows (.typed visit stepType)
  have bounded := account.bounded
  simp only at bounded
  refine ⟨grows.distinct account.distinct, account.grown.trans longer, by simp only; omega, ?_,
    trivial⟩
  intro stepId here
  rcases account.listed stepId here with ⟨member, selected⟩
  exact ⟨grows.added.subset member, selected⟩

/-- What the host does on its own keeps the account. -/
theorem Accounted.moves (account : Accounted begun book course view) (rests : book.Rests later) :
    Accounted begun later course view := by
  have grows := rests.toGrows
  have longer := grows.added.length_le
  have owes := owes_grows grows course.stage
  have progressed : view.Progressed book → view.Progressed later := by
    intro progressed stepId selected
    rcases progressed stepId selected with ⟨member, done⟩ | prepared
    · exact .inl ⟨grows.added.subset member, grows.done stepId member done⟩
    · exact .inr prepared
  refine ⟨grows.distinct account.distinct, account.grown.trans longer, ?_, ?_, ?_⟩
  · have bounded := account.bounded
    omega
  · intro stepId here
    rcases account.listed stepId here with ⟨member, selected⟩
    exact ⟨grows.added.subset member, selected⟩
  · have follows := account.follows
    have listed := account.listed
    revert follows listed
    cases course.stage with
    | opening | opened | begun | top => exact fun follows _ => progressed follows
    | settled visit ran =>
        intro follows listed
        exact ⟨follows.1,
          fun failed => rests.failed _ (listed visit.step.id rfl).1 (follows.2.1 failed),
          fun unfailed => progressed (follows.2.2 unfailed)⟩
    | judged visit ran => exact fun follows _ unfailed => progressed (follows unfailed)
    | recording visit mark row =>
        exact fun follows listed => follows.rests (listed visit.step.id rfl).1 rests
    | parked visit row =>
        exact fun follows listed => follows.rests (listed visit.step.id rfl).1 rests
    | entered visit row =>
        exact fun follows listed => follows.rests (listed visit.step.id rfl).1 rests
    | handled visit outcome =>
        rcases outcome with error | refs
        · cases error <;> exact fun follows _ => follows
        · exact fun follows _ => follows
    | _ => exact fun follows _ => follows

/-- What is kept when the stage changes, and the plan does not. -/
theorem Accounted.step {stage : Stage ι} {passes : Nat} (account : Accounted begun book course view)
    (order : later.order = book.order)
    (owes : passes + stage.owes later ≤ course.passes + course.stage.owes book)
    (listed : ∀ stepId, stage.stepId? = some stepId → course.stage.stepId? = some stepId)
    (follows : stage.Follows later view) : Accounted begun later ⟨stage, passes⟩ view := by
  have bounded := account.bounded
  constructor
  · rw [order]
    exact account.distinct
  · rw [order]
    exact account.grown
  · rw [order]
    simp only
    omega
  · intro stepId here
    rw [order]
    exact account.listed stepId (listed stepId here)
  · exact follows

/-- A transition is written. -/
theorem Accounted.writes {stage written : Stage ι} {passes : Nat} {visit : Visit ι}
    {status : StepStatus} (account : Accounted begun book ⟨stage, passes⟩ view)
    (here : stage.stepId? = some visit.step.id)
    (owes : stage.owes book = book.others visit.step.id + 1)
    (there : written.stepId? = some visit.step.id)
    (owed : written.owes (book.setStatus visit.step.id status) =
      (book.setStatus visit.step.id status).others visit.step.id + 1)
    (follows : written.Follows (book.setStatus visit.step.id status) view) :
    Accounted begun (book.setStatus visit.step.id status) ⟨written, passes⟩ view := by
  apply account.step (Book.setStatus_order ..)
  · change passes + written.owes (book.setStatus visit.step.id status) ≤ passes + stage.owes book
    rw [owed, Book.others_setStatus, owes]
  · intro stepId equal
    rw [here, ← there]
    exact equal
  · exact follows

/-- The step of the visit is settled, and not as failed. -/
theorem Accounted.settles {stage : Stage ι} {passes : Nat} {visit : Visit ι} {ran : StepView ι}
    (account : Accounted begun book ⟨stage, passes⟩ view)
    (here : stage.stepId? = some visit.step.id) (same : ran.id = visit.step.id)
    (failed : ran.status = .failed → book.status visit.step.id = .failed)
    (owes : ran.status ≠ .failed → book.unfinished + 1 ≤ stage.owes book)
    (progressed : ran.status ≠ .failed → view.Progressed book) :
    Accounted begun book ⟨.settled visit ran, passes⟩ view := by
  apply account.step rfl
  · change passes + (if ran.status = .failed then 0 else book.unfinished + 1) ≤
      passes + stage.owes book
    split
    · omega
    · rename_i unfailed
      have enough := owes unfailed
      omega
  · intro stepId equal
    exact here.trans equal
  · exact ⟨same, failed, progressed⟩

/-- The step is judged by its status as read again. -/
theorem Accounted.judges {passes : Nat} {visit : Visit ι} {ran : StepView ι} {status : StepStatus}
    (account : Accounted begun book ⟨.settled visit ran, passes⟩ view)
    (answers : status = book.status ran.id ∨ status = ran.status) :
    Accounted begun book ⟨.judged visit { ran with status := status }, passes⟩ view := by
  have same : ran.id = visit.step.id := account.follows.1
  have failed : ran.status = .failed → book.status visit.step.id = .failed := account.follows.2.1
  have progressed : ran.status ≠ .failed → view.Progressed book := account.follows.2.2
  rw [same] at answers
  have stays : ran.status = .failed → status = .failed := by
    intro ends
    rcases answers with live | snapshot
    · exact live.trans (failed ends)
    · exact snapshot.trans ends
  apply account.step rfl
  · change passes + (if status = .failed then 0 else book.unfinished + 1) ≤
      passes + (if ran.status = .failed then 0 else book.unfinished + 1)
    by_cases ends : ran.status = .failed
    · rw [if_pos (stays ends)]
      omega
    · rw [if_neg ends]
      split <;> omega
  · exact fun stepId equal => equal
  · exact fun unfailed => progressed fun ends => unfailed (stays ends)

/-- The event of a transition is logged. -/
theorem Accounted.records {passes : Nat} {visit : Visit ι} {mark : Mark} {row : StepView ι}
    (account : Accounted begun book ⟨.recording visit mark row, passes⟩ view) :
    Accounted begun book ⟨Stage.recorded visit row mark, passes⟩ view := by
  have here := account.listed visit.step.id rfl
  have marked : book.Marked visit.step.id mark.status row := account.follows
  have done := marked.done
  have owes : mark.status.done = true → book.unfinished + 1 = book.others visit.step.id + 1 := by
    intro finished
    rw [Book.unfinished_of_done (done finished)]
  have progressed : mark.status.done = true → view.Progressed book := by
    intro finished stepId selected
    cases here.2.symm.trans selected
    exact .inl ⟨here.1, done finished⟩
  have failed : row.status = .failed → book.status visit.step.id = .failed := by
    intro ends
    exact marked.failed (marked.shown.symm.trans ends)
  cases mark with
  | skips reason =>
      apply account.step rfl
      · exact Nat.add_le_add_left (owes rfl).le passes
      · nofun
      · exact progressed rfl
  | parks title reason =>
      exact account.step rfl (Nat.add_le_add_left (Nat.zero_le _) _) nofun trivial
  | clears payload => exact account.step rfl le_rfl (fun _ equal => equal) trivial
  | enters startedType => exact account.step rfl le_rfl (fun _ equal => equal) trivial
  | completes outputRefs =>
      exact account.settles rfl marked.id failed (fun _ => (owes rfl).le) fun _ => progressed rfl
  | fails stepType message =>
      exact account.settles rfl marked.id failed (absurd marked.shown) (absurd marked.shown)
  | drops stepType reason =>
      exact account.settles rfl marked.id failed (fun _ => (owes rfl).le) fun _ => progressed rfl

/-- Nothing is owed any more. -/
theorem Accounted.ends {stage ended : Stage ι} {passes : Nat}
    (account : Accounted begun book ⟨stage, passes⟩ view) (order : later.order = book.order)
    (owes : ended.owes later = 0) (nowhere : ended.stepId? = none)
    (follows : ended.Follows later view) : Accounted begun later ⟨ended, passes⟩ view := by
  apply account.step order
  · rw [owes]
    exact Nat.add_le_add_left (Nat.zero_le _) passes
  · intro stepId here
    rw [nowhere] at here
    cases here
  · exact follows

/-- A pass that begins is one of those that were owed. -/
theorem Accounted.rereads {stage : Stage ι} {passes : Nat} {current : Option (RunView ι)}
    (account : Accounted begun book ⟨stage, passes⟩ view) (turns : stage.turns = true) :
    Accounted begun book ⟨.runRead current, passes + 1⟩ view := by
  have owed : stage.owes book = book.unfinished + 1 := by
    cases stage with
    | top => rfl
    | judged visit ran =>
        exact if_neg (Stage.turns_judged.mp turns).2
    | _ => cases turns
  apply account.step rfl
  · rw [owed]
    change passes + 1 + book.unfinished ≤ passes + (book.unfinished + 1)
    omega
  · nofun
  · trivial

/-- The listing selects a step that is not done. -/
theorem Accounted.lists {passes : Nat} {current : Option (RunView ι)} {steps : List (StepView ι)}
    (account : Accounted begun book ⟨.runRead current, passes⟩ view) (lists : book.Lists steps) :
    Accounted begun book ⟨Stage.listed run current steps, passes⟩
      ⟨(firstUnfinished steps).map StepView.id, false, view.preparations⟩ := by
  have bounded : passes + book.unfinished + begun.order.length ≤
      begun.unfinished + book.order.length + view.preparations + 1 := account.bounded
  rw [Stage.listed]
  cases selected : firstUnfinished steps with
  | none =>
      have enough : passes + 0 + begun.order.length ≤
          begun.unfinished + book.order.length + view.preparations + 1 := by omega
      refine ⟨account.distinct, account.grown, enough, ?_, trivial⟩
      intro stepId idle
      cases idle
  | some step =>
      rcases lists.selected selected with ⟨_, remains, front, back, order, _⟩
      have member : step.id ∈ book.order := by simp [order]
      have fewer := Book.others_lt member remains
      have enough : passes + (book.others step.id + 1) + begun.order.length ≤
          begun.unfinished + book.order.length + view.preparations + 1 := by omega
      refine ⟨account.distinct, account.grown, enough, ?_, trivial⟩
      rintro stepId ⟨⟩
      exact ⟨member, rfl⟩

/-- The handler prepared an action: another pass is allowed for, whatever the step says. -/
theorem Accounted.prepares {stage : Stage ι} {passes : Nat} {visit : Visit ι} {ran : StepView ι}
    (account : Accounted begun book ⟨stage, passes⟩ view)
    (here : stage.stepId? = some visit.step.id)
    (owes : stage.owes book = book.others visit.step.id + 2) (prepared : view.prepared = true)
    (same : ran.id = visit.step.id)
    (failed : ran.status = .failed → book.status visit.step.id = .failed) :
    Accounted begun book ⟨.settled visit ran, passes⟩ view := by
  have enough : book.unfinished + 1 ≤ stage.owes book := by
    rw [owes]
    exact Nat.succ_le_succ (Book.unfinished_le account.distinct visit.step.id)
  exact account.settles here same failed (fun _ => enough) fun _ _ _ => .inr prepared

variable [HostId ι] {op : EngineOp ι} {before after : σ}

/-- What an answer does to the account. -/
theorem Accounted.answered {stage : Stage ι} {passes : Nat}
    (account : Accounted begun book ⟨stage, passes⟩ view) (sound : stage.Sound)
    (asks : Asks registry run stage op)
    (wrote : Book.Wrote op book later) (result : op.Res)
    (answers : later.Answers run.id op result) :
    Accounted begun later
      (Course.advance run hooked ⟨stage, passes⟩ ⟨before, op, .ok result, after⟩)
      (view.advance ⟨before, op, .ok result, after⟩) := by
  cases asks with
  | opens | begins _ | clocks =>
      cases wrote
      exact account.step rfl le_rfl nofun account.follows
  | streams streams served =>
      have same : later = book := wrote.streamed served
      have still : Course.advance run hooked ⟨stage, passes⟩ ⟨before, op, .ok result, after⟩ =
          ⟨stage, passes⟩ := by
        simp only [Course.advance, next_streams streams served, Course.mk.injEq, true_and]
        cases op <;> first | rfl | exact served.elim
      have unseen : view.advance ⟨before, op, .ok result, after⟩ = view := by
        cases op <;> first | rfl | exact served.elim
      rw [same, still, unseen]
      exact account
  | rereads turns =>
      cases wrote
      have reread : Course.advance run hooked ⟨stage, passes⟩
          ⟨before, .getRun run.id, .ok result, after⟩ = ⟨.runRead result, passes + 1⟩ := by
        simp only [Course.advance, next_turns turns, Course.countPass, turns, ↓reduceIte]
      rw [reread]
      exact account.rereads turns
  | lists ongoing =>
      cases wrote
      exact account.lists (answers rfl)
  | skips _ _ =>
      cases wrote
      exact account.writes rfl rfl rfl rfl (Book.marked_setStatus answers)
  | times _ _ =>
      cases wrote
      exact account
  | parks _ _ _ =>
      cases wrote
      exact account.writes rfl rfl rfl rfl (Book.marked_setStatus answers)
  | clears _ _ _ _ =>
      cases wrote
      exact account.writes rfl rfl rfl rfl (Book.marked_setStatus answers)
  | enters _ _ | proceeds =>
      cases wrote
      exact account.writes rfl rfl rfl rfl (Book.marked_setStatus answers)
  | titles | shows =>
      cases wrote
      exact account.step rfl le_rfl (fun _ equal => equal) account.follows
  | records =>
      rcases wrote with ⟨event, _, rfl⟩
      exact (account.moves (.append book event)).records
  | refuses _ =>
      cases wrote
      exact account.writes rfl rfl rfl rfl (Book.marked_setStatus answers)
  | completes =>
      cases wrote
      exact account.writes rfl rfl rfl rfl (Book.marked_setStatus answers)
  | refetches =>
      rename_i visit message
      cases wrote
      cases result with
      | some row =>
          exact account.prepares rfl rfl account.follows answers.1 (answers.2.symm.trans ·)
      | none =>
          exact account.prepares rfl rfl account.follows rfl fun failed => by
            have ends : visit.step.status = .failed := failed
            have unsettled := sound.2.unsettled
            simp [ends, StepStatus.Waiting] at unsettled
  | rollsBack rollsBack =>
      rename_i visit error
      cases wrote
      cases error <;>
        first | exact account.step rfl le_rfl (fun _ equal => equal) trivial | exact rollsBack.elim
  | types | handles _ | drops | fails | failsBug _ =>
      cases wrote
      exact account.step rfl le_rfl (fun _ equal => equal) trivial
  | settles =>
      rename_i visit mark
      rcases sound with ⟨_, _, stepType, message, rfl | rfl⟩
      · cases wrote
        exact account.writes rfl rfl rfl rfl (Book.marked_setStatus answers)
      · cases wrote
        exact account.writes rfl rfl rfl rfl (Book.marked_setStatus answers)
  | judges =>
      cases wrote
      exact account.judges answers
  /- The drive is about to end. -/
  | looks _ | stops _ _ _ | repeats | pauses | waits | finishes | completesRun _ | notifies =>
      cases wrote
      exact account.ends rfl rfl rfl trivial
  | exhausts _ _ | reports | logsPause | reportsRan _ =>
      rcases wrote with ⟨event, _, rfl⟩
      exact account.ends rfl rfl rfl trivial
  | failsRun =>
      cases wrote
      cases hooked <;> exact account.ends rfl rfl rfl trivial
  | logsCompletion =>
      rcases wrote with ⟨event, _, rfl⟩
      cases hooked <;> exact account.ends rfl rfl rfl trivial

/-- What an exception does to the account. -/
theorem Accounted.raised {stage : Stage ι} {passes : Nat} {error : Raised ι}
    (account : Accounted begun book ⟨stage, passes⟩ view) (asks : Asks registry run stage op)
    (leaves : op.LeavesStore) (wrote : Book.Wrote op book later) :
    Accounted begun later
      (Course.advance run hooked ⟨stage, passes⟩ ⟨before, op, .error error, after⟩)
      (view.advance ⟨before, op, .error error, after⟩) := by
  cases asks with
  | handles resolved =>
      rename_i visit stepType
      cases wrote
      cases error with
      | stepActionPrepared message =>
          have bounded : passes + (book.others visit.step.id + 1) + begun.order.length ≤
              begun.unfinished + book.order.length + view.preparations + 1 := account.bounded
          have enough : passes + (book.others visit.step.id + 2) + begun.order.length ≤
              begun.unfinished + book.order.length + (view.preparations + 1) + 1 := by omega
          exact ⟨account.distinct, account.grown, enough, account.listed, rfl⟩
      | _ => exact account.step rfl le_rfl (fun _ equal => equal) trivial
  | streams streams served =>
      cases op with
      | yieldEvent payload =>
          cases wrote
          exact account.ends rfl rfl rfl trivial
      | _ => first | exact leaves.elim | exact served.elim
  | settles =>
      rename_i visit mark
      cases mark <;> exact leaves.elim
  | notifies =>
      cases wrote
      exact account.ends rfl rfl rfl trivial
  | _ => exact leaves.elim

theorem Accounted.served {world : World (engineSignature ι) (Raised ι) σ} {book : σ → Book ι}
    {course : Course ι} (store : BookKept world run book Book.Rests Book.Grows)
    {answer : Except (Raised ι) op.Res} (account : Accounted begun (book before) course view)
    (sound : course.stage.Sound) (asks : Asks registry run course.stage op)
    (served : world.serve before op answer after) :
    Accounted begun (book after) (course.advance run hooked ⟨before, op, answer, after⟩)
      (view.advance ⟨before, op, answer, after⟩) := by
  rcases course with ⟨stage, passes⟩
  rcases store.served served with ⟨moved, between, wrote⟩
  have kept : Accounted begun moved ⟨stage, passes⟩ view := by
    cases op with
    | handle handled step =>
        rcases asks_handle asks with ⟨visit, stepType, rfl, _⟩
        exact account.invokes between
    | _ => exact account.moves between
  cases answer with
  | ok result => exact kept.answered sound asks wrote result (store.answers served)
  | error error => exact kept.raised asks (store.succeeds served) wrote

omit [HostId ι] in
/-- Between two passes the step of the last one is settled. -/
theorem Accounted.progressed (account : Accounted begun book course view)
    (turns : course.stage.turns = true) : view.Progressed book := by
  rcases course with ⟨stage, passes⟩
  have follows := account.follows
  cases stage with
  | top => exact follows
  | judged visit ran => exact follows (Stage.turns_judged.mp turns).2
  | _ => cases turns

omit [HostId ι] in
theorem Accounted.owes_pos (account : Accounted begun book course view)
    (turns : course.stage.turns = true) : 0 < course.stage.owes book := by
  rcases course with ⟨stage, passes⟩
  cases stage with
  | top => exact Nat.succ_pos _
  | judged visit ran =>
      have unfailed := (Stage.turns_judged.mp turns).2
      simp [Stage.owes, unfailed]
  | _ => cases turns

/-- The account of a drive, at every call and at its end. -/
theorem account_drive {world : World (engineSignature ι) (Raised ι) σ} {book : σ → Book ι}
    (store : BookKept world run book Book.Rests Book.Grows) {fuel : Nat} {state last : σ}
    {outcome : Except (Raised ι) (Option Unit)}
    {history : History (engineSignature ι) (Raised ι) σ}
    (runs : Runs world.recorded (executeRunEvents registry run hooked fuel) (state, []) outcome
      (last, history)) (distinct : (book state).order.Nodup) :
    (∀ earlier call later, history = earlier ++ call :: later →
      Accounted (book state) (book call.before) (courseOf run hooked earlier)
        (earlier.foldl PassView.advance .start)) ∧
    Accounted (book state) (book last) (courseOf run hooked history)
      (history.foldl PassView.advance .start) ∧
    CourseEnds run fuel outcome (courseOf run hooked history) := by
  have initially : 0 + ((book state).unfinished + 1) + (book state).order.length ≤
      (book state).unfinished + (book state).order.length + 0 + 1 := by omega
  have kept := course_invariant (fun here course record =>
      Accounted (book state) (book here) course (record.foldl PassView.advance .start)) runs
    (fun sound asks account served => by
      rw [List.foldl_append]
      exact account.served store sound asks served)
    ⟨distinct, le_rfl, initially, nofun, nofun⟩
  exact ⟨fun earlier call later split => (kept.1 earlier call later split).2.2, kept.2⟩

end Proof

/-- How long a drive may take.  A plan has `unfinished` steps that are not done; in the
drive at most `added` steps are appended and at most `prepared` actions prepared, nothing
done is reopened, and nothing failed is reset but by a handler.  Then the loop makes at
most `unfinished + added + prepared + 1` passes, so it does end; and every pass that is
followed by another has settled the step it selected, or that step's handler prepared an
action. -/
theorem passes_bounded [HostId ι] [DecidableEq ι]
    {world : World (engineSignature ι) (Raised ι) σ} {run : RunView ι} {book : σ → Book ι}
    (store : BookKept world run book Book.Rests Book.Grows)
    (registry : ToolRegistry) (hooked : Bool) (fuel : Nat) {state last : σ}
    {outcome : Except (Raised ι) (Option Unit)}
    {history : History (engineSignature ι) (Raised ι) σ}
    (runs : Runs world.recorded (executeRunEvents registry run hooked fuel) (state, []) outcome
      (last, history)) (distinct : (book state).order.Nodup) {added prepared : Nat}
    (appends : (book last).order.length ≤ (book state).order.length + added)
    (prepares : (history.foldl PassView.advance .start).preparations ≤ prepared) :
    (courseOf run hooked history).passes ≤ (book state).unfinished + added + prepared + 1 ∧
    ((book state).unfinished + added + prepared < fuel → outcome ≠ .ok none) ∧
    (∀ earlier call later, history = earlier ++ call :: later →
      (courseOf run hooked earlier).stage.turns = true →
      (earlier.foldl PassView.advance .start).Progressed (book call.before)) ∧
    (outcome = .ok none → (history.foldl PassView.advance .start).Progressed (book last)) := by
  rcases account_drive store runs distinct with ⟨calls, account, ends⟩
  have bounded := account.bounded
  refine ⟨by omega, ?_, ?_, ?_⟩
  · rintro enough rfl
    have owed := account.owes_pos ends.1
    have counted : (courseOf run hooked history).passes = fuel := ends.2
    omega
  · intro earlier call later split turns
    exact (calls earlier call later split).progressed turns
  · rintro rfl
    exact account.progressed ends.1

theorem seedRules_bookKept :
    BookKept (World.ofFn (seedRules.respond fun _ => 0)) seedHost.run HostState.book
      Book.Rests Book.Grows :=
  HostRules.bookKept .refl (fun stepId state => (seedRules_extends stepId state).grows)
    fun _ _ => .refl _

/-- The added step is run in the same drive, by the second of its three passes. -/
theorem passes_bounded_seed :
    ∃ last history outcome,
      Runs (World.ofFn (seedRules.respond fun _ => 0)).recorded
        (executeRunEvents ⟨["model_call"], by decide⟩ seedHost.run true 4) (seedHost, [])
        outcome (last, history) ∧
      last.order = ["step-1", "step-2"] ∧ (courseOf seedHost.run true history).passes ≤ 3 ∧
      outcome ≠ .ok none := by
  rcases record_ofFn (seedRules.respond fun _ => 0) PassView.advance
    (executeRunEvents ⟨["model_call"], by decide⟩ seedHost.run true 4) seedHost .start
    with ⟨history, runs, view⟩
  have prepares : (history.foldl PassView.advance .start).preparations ≤ 0 := by
    rw [view]
    decide
  have appends : (HostState.book ((executeRunEvents ⟨["model_call"], by decide⟩ seedHost.run true
      4).eval (seedRules.respond fun _ => 0) seedHost).2).order.length ≤
      seedHost.book.order.length + 1 := by
    decide
  have bounded := passes_bounded seedRules_bookKept _ _ _ runs (by decide) appends prepares
  refine ⟨_, history, _, runs, by decide, bounded.1, bounded.2.1 (by decide)⟩

end SlimxAgent
