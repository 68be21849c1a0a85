import SlimxAgent.Book

/-!
# The status a drive leaves its run in

The entry of a drive writes `running`; every way out has to take it back.
-/

namespace SlimxAgent

open Interaction

variable {ι σ : Type}

/-- The statuses a stopped run may have. -/
def stopStatuses : List RunStatus := [.paused, .cancelled, .awaitingApproval, .completed, .failed]

/-- Nobody but the engine writes the run's status. -/
def Book.SameRunStatus (before after : Book ι) : Prop :=
  after.runStatus = before.runStatus

/-- Nobody but the engine writes a status. -/
structure Book.SameStatuses (before after : Book ι) : Prop where
  ofRun : after.runStatus = before.runStatus
  ofSteps : after.status = before.status

/-- The handler raised `StepActionPrepared`. -/
def Prepares (call : Served (engineSignature ι) (Raised ι) σ) : Prop :=
  ∃ before run step message after,
    call = ⟨before, .handle run step, .error (.stepActionPrepared message), after⟩

/-- The drive stands at the review boundary: a prepared action awaits approval. -/
def Stage.AtReview : Stage ι → Prop
  | .judged _ ran => ran.status = .awaitingApproval
  | _ => False

/-- What a stage tells of the stored run status. -/
def Stage.Marks : Stage ι → RunStatus → Prop
  | .opening, _ => True
  | .opened, _ => True
  | .runRead current, status => status = .running ∧ userStopped current = false
  | .finalRead current, status => status = .running ∧ userStopped current = false
  | .pausing _ _, status => status = .paused
  | .completing, status => status = .completed
  | .notifying last, status => status = last ∧ last ∈ stopStatuses
  | .ended last, status => status = last ∧ last ∈ stopStatuses
  | .broken _, _ => True
  | _, status => status = .running

/-- What a stage tells of the status of the step it settles: it awaits approval only
where a handler has prepared an action. -/
def Stage.Reviews (stage : Stage ι) (book : Book ι)
    (record : History (engineSignature ι) (Raised ι) σ) : Prop :=
  let prepared := ∃ call ∈ record, Prepares call
  match stage with
  | .recording _ mark row => row.status = mark.status ∧ book.status row.id = mark.status
  | .parked _ row => row.status = .awaitingApproval ∧ book.status row.id = .awaitingApproval
  | .entered _ row => row.status = .running ∧ book.status row.id = .running
  | .handled _ (.error (.stepActionPrepared _)) => prepared
  | .settled _ ran =>
      ran.status = .awaitingApproval ∨ book.status ran.id = .awaitingApproval → prepared
  | .judged _ ran => ran.status = .awaitingApproval → prepared
  | _ => True

/-- The run status a call leaves, when only the engine writes it. -/
def EngineOp.leavesStatus (status : RunStatus) : EngineOp ι → RunStatus
  | .setRunStatus _ written => written
  | _ => status

section Proof

variable [HostId ι] [DecidableEq ι] {world : World (engineSignature ι) (Raised ι) σ}
  {registry : ToolRegistry} {run : RunView ι} {hooked : Bool} {book : σ → Book ι}

omit [HostId ι] [DecidableEq ι] in
theorem marks_hooking {status : RunStatus} (stops : status ∈ stopStatuses) :
    (Stage.hooking (ι := ι) hooked status).Marks status := by
  cases hooked
  · exact ⟨rfl, stops⟩
  · exact ⟨rfl, stops⟩

omit [HostId ι] [DecidableEq ι] in
/-- A read of a running run stops nothing. -/
theorem ongoing_of_running {current : Option (RunView ι)}
    (running : ∀ run, current = some run → run.status = .running) :
    userStopped current = false := by
  cases current with
  | none => rfl
  | some run => simp [userStopped, userStopStatuses, running run rfl]

theorem runStatus_served
    (store : BookKept world run book Book.SameRunStatus Book.SameRunStatus) {before after : σ}
    {op : EngineOp ι} {answer : Except (Raised ι) op.Res}
    (served : world.serve before op answer after) :
    (book after).runStatus = op.leavesStatus (book before).runStatus := by
  rcases store.moved served with ⟨moved, kept, wrote⟩
  change moved.runStatus = (book before).runStatus at kept
  cases op with
  | setRunStatus run status =>
      rw [show book after = moved.setRunStatus status from wrote]
      rfl
  | setStepState stepId status error outputRefs =>
      rw [show book after = moved.setStatus stepId status from wrote]
      exact kept
  | appendEvent runId type stepId payload commit =>
      rcases wrote with ⟨event, _, equal⟩
      rw [equal]
      exact kept
  | _ =>
      rw [show book after = moved from wrote]
      exact kept

theorem marks_next (store : BookKept world run book Book.SameRunStatus Book.SameRunStatus)
    {before after : σ} {stage : Stage ι} {op : EngineOp ι} {result : op.Res}
    (asks : Asks registry run stage op) (marks : stage.Marks (book before).runStatus)
    (served : world.serve before op (.ok result) after) :
    (stage.next run hooked op result).Marks (book after).runStatus := by
  have left := runStatus_served store served
  cases asks with
  | streams streams streaming =>
      have unchanged : (book after).runStatus = (book before).runStatus := by
        rw [left]
        cases op <;> first | rfl | exact streaming.elim
      rw [next_streams streams streaming, unchanged]
      exact marks
  | rereads turns =>
      have running : (book before).runStatus = .running := by
        cases stage <;> first | exact marks | cases turns
      rw [next_turns turns, left]
      refine ⟨running, ongoing_of_running ?_⟩
      rintro current rfl
      rw [store.answers served rfl, left]
      exact running
  | lists ongoing =>
      rename_i current
      change (Stage.listed run current result).Marks _
      rw [left]
      cases selected : firstUnfinished result <;> simp only [Stage.listed, selected] <;>
        exact marks.1
  | finishes =>
      refine ⟨left.trans marks, ongoing_of_running ?_⟩
      rintro current rfl
      rw [store.answers served rfl, left]
      exact marks
  | opens => trivial
  | begins _ | pauses | completesRun _ => exact left
  | settles =>
      rename_i visit mark
      cases mark <;> exact left.trans marks
  | records =>
      rename_i visit mark row
      cases mark <;> exact left.trans marks
  | rollsBack rollsBack =>
      rename_i visit error
      cases error <;> exact left.trans marks
  | stops _ _ _ | repeats | waits => exact ⟨left, by decide⟩
  | logsPause => exact ⟨left.trans marks, by decide⟩
  | failsRun =>
      rw [left]
      exact marks_hooking (by decide)
  | logsCompletion =>
      rw [left.trans marks]
      exact marks_hooking (by decide)
  | notifies => exact ⟨left.trans marks.1, marks.2⟩
  | _ => exact left.trans marks

/-- A call that raised. -/
theorem marks_fail (store : BookKept world run book Book.SameRunStatus Book.SameRunStatus)
    {before after : σ} {stage : Stage ι} {op : EngineOp ι} {error : Raised ι}
    (asks : Asks registry run stage op) (marks : stage.Marks (book before).runStatus)
    (served : world.serve before op (.error error) after) :
    (stage.fail op error).Marks (book after).runStatus := by
  cases asks with
  | handles _ => exact (runStatus_served store served).trans marks
  | streams streams streaming => cases op <;> trivial
  | settles =>
      rename_i visit mark
      cases mark <;> trivial
  | _ => trivial

omit [HostId ι] [DecidableEq ι] in
theorem marks_returns {stage : Stage ι} {status : RunStatus}
    (alive : run.status ∉ terminalRunStatuses) (marks : stage.Marks status)
    (returns : stage.Returns run) :
    (¬ stage.AtReview → status ∈ stopStatuses) ∧ (stage.AtReview → status = .running) := by
  cases stage with
  | opened => exact absurd returns alive
  | runRead current => exact absurd returns (by simp [Stage.Returns, marks.2])
  | finalRead current => exact absurd returns (by simp [Stage.Returns, marks.2])
  | judged visit ran =>
      constructor
      · intro elsewhere
        exact absurd returns elsewhere
      · intro _
        exact marks
  | ended last =>
      constructor
      · intro _
        rw [marks.1]
        exact marks.2
      · exact False.elim
  | _ => exact returns.elim

/-! ### The boundary is a prepared action's -/

/-- Outside handlers only a transition of the engine moves a step. -/
theorem statuses_served
    (store : BookKept world run book Book.SameStatuses Book.SameRunStatus) {before after : σ}
    {op : EngineOp ι} {answer : Except (Raised ι) op.Res}
    (served : world.serve before op answer after)
    (unhandled : ∀ run step, op ≠ .handle run step)
    (unmarked : ∀ stepId status error outputRefs,
      op ≠ .setStepState stepId status error outputRefs) :
    (book after).status = (book before).status := by
  rcases store.served served with ⟨moved, kept, wrote⟩
  have still : moved.status = (book before).status := by
    cases op with
    | handle handled step => exact absurd rfl (unhandled handled step)
    | _ => exact kept.ofSteps
  rw [← still]
  funext stepId
  rcases wrote.status stepId with unchanged | ⟨status, error, outputRefs, marks, _⟩
  · exact unchanged
  · exact absurd marks (unmarked stepId status error outputRefs)

/-- A transition of a step, as answered and as stored. -/
theorem marked_served
    (store : BookKept world run book Book.SameStatuses Book.SameRunStatus) {before after : σ}
    {stepId : ι} {status : StepStatus} {error : Given (Option String)}
    {outputRefs : Given (Option Dict)} {row : StepView ι}
    (served : world.serve before (.setStepState stepId status error outputRefs) (.ok row) after) :
    row.status = status ∧ (book after).status row.id = status := by
  rcases store.answers served with ⟨same, shown⟩
  rcases store.served served with ⟨moved, _, wrote⟩
  refine ⟨shown, ?_⟩
  rw [same, show book after = moved.setStatus stepId status from wrote]
  exact moved.setStatus_self stepId status

theorem reviews_next (store : BookKept world run book Book.SameStatuses Book.SameRunStatus)
    {before after : σ} {stage : Stage ι} {record : History (engineSignature ι) (Raised ι) σ}
    {op : EngineOp ι} {result : op.Res} (asks : Asks registry run stage op)
    (reviews : stage.Reviews (book before) record)
    (served : world.serve before op (.ok result) after) :
    (stage.next run hooked op result).Reviews (book after) record := by
  cases asks with
  | streams streams streaming =>
      have unmoved : (book after).status = (book before).status := by
        apply statuses_served store served
        · rintro handled step rfl
          exact streaming
        · rintro stepId status error outputRefs rfl
          exact streaming
      rw [next_streams streams streaming]
      cases stage with
      | settled visit ran =>
          change _ ∨ (book after).status ran.id = _ → _
          rw [unmoved]
          exact reviews
      | _ => trivial
  | rereads turns =>
      rw [next_turns turns]
      trivial
  | lists ongoing =>
      rename_i current
      change (Stage.listed run current result).Reviews (book after) record
      cases selected : firstUnfinished result <;> simp only [Stage.listed, selected] <;> trivial
  | skips _ _ | parks _ _ _ | clears _ _ _ _ | enters _ _ | proceeds | refuses _ | completes =>
      exact marked_served store served
  | settles =>
      rename_i visit mark
      cases mark <;> exact marked_served store served
  | titles | shows =>
      have unmoved := statuses_served store served (by rintro _ _ ⟨⟩) (by rintro _ _ _ _ ⟨⟩)
      exact ⟨reviews.1, by rw [unmoved]; exact reviews.2⟩
  | records =>
      rename_i visit mark row
      have unmoved := statuses_served store served (by rintro _ _ ⟨⟩) (by rintro _ _ _ _ ⟨⟩)
      have ended : mark.status ≠ .awaitingApproval →
          (Stage.settled visit row).Reviews (book after) record := by
        intro ended awaiting
        rw [unmoved, reviews.1, reviews.2, or_self] at awaiting
        exact absurd awaiting ended
      cases mark <;> first | trivial | exact ended (by rintro ⟨⟩)
  | refetches => exact fun _ => reviews
  | judges =>
      intro awaiting
      apply reviews
      rcases store.answers served with live | snapshot
      · have unmoved := statuses_served store served (by rintro _ _ ⟨⟩) (by rintro _ _ _ _ ⟨⟩)
        exact .inr (by rw [← unmoved, ← live]; exact awaiting)
      · exact .inl (snapshot.symm.trans awaiting)
  | rollsBack rollsBack =>
      rename_i visit error
      cases error <;> trivial
  | failsRun | logsCompletion => cases hooked <;> trivial
  | _ => trivial

omit [DecidableEq ι] in
theorem reviews_fail {stage : Stage ι} {here : Book ι}
    {record : History (engineSignature ι) (Raised ι) σ} {before after : σ} {op : EngineOp ι}
    {error : Raised ι} (asks : Asks registry run stage op) :
    (stage.fail op error).Reviews here (record ++ [⟨before, op, .error error, after⟩]) := by
  cases asks with
  | handles _ =>
      cases error with
      | stepActionPrepared message =>
          refine ⟨_, List.mem_append_right _ (List.mem_singleton_self _), ?_⟩
          exact ⟨_, _, _, message, _, rfl⟩
      | _ => trivial
  | streams streams streaming => cases op <;> trivial
  | settles =>
      rename_i visit mark
      cases mark <;> trivial
  | _ => trivial

omit [HostId ι] [DecidableEq ι] in
theorem Stage.Reviews.append {stage : Stage ι} {here : Book ι}
    {record : History (engineSignature ι) (Raised ι) σ} (reviews : stage.Reviews here record)
    (call : Served (engineSignature ι) (Raised ι) σ) : stage.Reviews here (record ++ [call]) := by
  have more : (∃ earlier ∈ record, Prepares earlier) → ∃ earlier ∈ record ++ [call],
      Prepares earlier := by
    rintro ⟨earlier, member, prepares⟩
    exact ⟨earlier, List.mem_append_left _ member, prepares⟩
  cases stage with
  | handled visit outcome =>
      rcases outcome with error | refs
      · cases error with
        | stepActionPrepared message => exact more reviews
        | _ => trivial
      · trivial
  | settled visit ran => exact fun awaiting => more (reviews awaiting)
  | judged visit ran => exact fun awaiting => more (reviews awaiting)
  | _ => exact reviews

/-- Where only handlers and the engine move steps, a drive at the review boundary comes
from a prepared action. -/
theorem atReview_prepares (store : BookKept world run book Book.SameStatuses Book.SameRunStatus)
    {fuel : Nat} {state last : σ} {history : History (engineSignature ι) (Raised ι) σ}
    {outcome : Except (Raised ι) (Option Unit)}
    (runs : Runs world.recorded (executeRunEvents registry run hooked fuel) (state, []) outcome
      (last, history))
    (atReview : (courseOf run hooked history).stage.AtReview) :
    ∃ call ∈ history, Prepares call := by
  have kept := course_invariant
    (fun here course record => course.stage.Reviews (book here) record) runs
    (fun {before course record op answer after} _ asks reviews served => by
      cases answer with
      | ok result => exact (reviews_next store asks reviews served).append _
      | error error => exact reviews_fail asks) trivial
  have reviews := kept.2.1
  cases stands : (courseOf run hooked history).stage with
  | judged visit ran =>
      rw [stands] at reviews atReview
      exact reviews atReview
  | _ =>
      rw [stands] at atReview
      exact atReview.elim

end Proof

/-- A drive that returns on a run that was not terminal leaves it stopped, except at the
review boundary: there the engine writes no run status, and the run is as its entry wrote
it.  Where the host leaves the steps to the engine and the handlers, the boundary is that
of a prepared action. -/
theorem stopped_unless_at_review [HostId ι] [DecidableEq ι]
    {world : World (engineSignature ι) (Raised ι) σ} {run : RunView ι} {book : σ → Book ι}
    (store : BookKept world run book Book.SameRunStatus Book.SameRunStatus)
    (registry : ToolRegistry) (hooked : Bool) (fuel : Nat) {state last : σ}
    {history : History (engineSignature ι) (Raised ι) σ}
    (runs : Runs world.recorded (executeRunEvents registry run hooked fuel) (state, [])
      (.ok (some ())) (last, history))
    (alive : run.status ∉ terminalRunStatuses) :
    (¬ (courseOf run hooked history).stage.AtReview → (book last).runStatus ∈ stopStatuses) ∧
    ((courseOf run hooked history).stage.AtReview → (book last).runStatus = .running ∧
      (BookKept world run book Book.SameStatuses Book.SameRunStatus →
        ∃ call ∈ history, Prepares call)) := by
  have kept := course_invariant (fun here course _ => course.stage.Marks (book here).runStatus)
    runs
    (fun {before course record op answer after} _ asks marks served => by
      cases answer with
      | ok result => exact marks_next store asks marks served
      | error error => exact marks_fail store asks marks served) trivial
  rcases marks_returns alive kept.2.1 kept.2.2 with ⟨elsewhere, atReview⟩
  exact ⟨elsewhere, fun here => ⟨atReview here, fun strict => atReview_prepares strict runs here⟩⟩

/-- A planned run with one model call, already approved. -/
def draftHost : HostState :=
  .holding ⟨"run-1", .other "planned" RunStatus.planned_unlisted, some .autoComplete, false,
    .json .null, .null, .null, .json .null⟩
    [("step-1", ⟨"model_call", "Ask", .approved, true, none, none⟩)]

/-- A tool that prepares an action and parks its step, and nothing else. -/
def preparingRules : HostRules :=
  ⟨fun stepId state => (.prepared "candidate ready",
      state.setRow stepId { state.rows stepId with status := .awaitingApproval }),
    fun _ state => state⟩

theorem preparingRules_bookKept :
    BookKept (World.ofFn (preparingRules.respond fun _ => 0)) draftHost.run HostState.book
      Book.SameStatuses Book.SameRunStatus :=
  HostRules.bookKept (fun _ => ⟨rfl, rfl⟩) (fun _ _ => rfl) fun _ _ => ⟨rfl, rfl⟩

/-- Its drive ends at the review boundary. -/
theorem stopped_unless_at_review_prepared :
    ∃ last history,
      Runs (World.ofFn (preparingRules.respond fun _ => 0)).recorded
        (executeRunEvents ⟨["model_call"], by decide⟩ draftHost.run true 2) (draftHost, [])
        (.ok (some ())) (last, history) ∧
      last.book.runStatus = .running ∧ ∃ call ∈ history, Prepares call := by
  rcases record_ofFn (preparingRules.respond fun _ => 0) (Course.advance draftHost.run true)
    (executeRunEvents ⟨["model_call"], by decide⟩ draftHost.run true 2) draftHost .start
    with ⟨history, runs, course⟩
  have atReview : (courseOf draftHost.run true history).stage.AtReview := by
    rw [courseOf, course]
    exact (rfl : StepStatus.awaitingApproval = .awaitingApproval)
  have store : BookKept (World.ofFn (preparingRules.respond fun _ => 0)) draftHost.run
      HostState.book Book.SameRunStatus Book.SameRunStatus :=
    preparingRules_bookKept.mono (fun same => same.ofRun) fun same => same
  have waits := (stopped_unless_at_review store _ _ _ runs (by decide)).2 atReview
  exact ⟨_, history, runs, waits.1, waits.2 preparingRules_bookKept⟩

/-- It leaves the run marked running. -/
theorem stopped_unless_at_review_running :
    BookKept (World.ofFn (preparingRules.respond fun _ => 0)) draftHost.run HostState.book
      Book.SameStatuses Book.SameRunStatus ∧
    draftHost.run.status ∉ terminalRunStatuses ∧
    ∃ last history,
      Runs (World.ofFn (preparingRules.respond fun _ => 0)).recorded
        (executeRunEvents ⟨["model_call"], by decide⟩ draftHost.run true 2) (draftHost, [])
        (.ok (some ())) (last, history) ∧
      ¬ last.book.runStatus ∈ stopStatuses := by
  rcases record_ofFn (preparingRules.respond fun _ => 0) (Course.advance draftHost.run true)
    (executeRunEvents ⟨["model_call"], by decide⟩ draftHost.run true 2) draftHost .start
    with ⟨history, runs, _⟩
  refine ⟨preparingRules_bookKept, by decide, _, history, runs, ?_⟩
  decide

end SlimxAgent
