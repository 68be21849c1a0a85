import SlimxAgent.Passes
import SlimxAgent.Stopping

/-!
# Plans without grants

When nothing moves but the drive, a plan whose unfinished steps all lack their grants is
skipped through to its end: the permission gate comes first, so neither the budget nor
the approval gate is reached.
-/

namespace SlimxAgent

open Interaction

variable {ι σ : Type}

/-- Nothing happens to the book but what the drive writes. -/
def Book.Same (before after : Book ι) : Prop :=
  after = before

/-- What a drive reads of the run's grants and of the types of its steps stays. -/
structure Steady (run : RunView ι) (type : ι → String)
    (history : History (engineSignature ι) (Raised ι) σ) : Prop where
  grants : ReadsRun (fun current => current.allowedToolsJson = run.allowedToolsJson) history
  types : ReadsSteps (fun step => step.type = type step.id) history

theorem Steady.left {run : RunView ι} {type : ι → String}
    {earlier later : History (engineSignature ι) (Raised ι) σ}
    (steady : Steady run type (earlier ++ later)) : Steady run type earlier :=
  ⟨steady.grants.left, steady.types.left⟩

/-- Every unfinished step waits, and lacks its grant. -/
def Book.Denied (book : Book ι) (run : RunView ι) (type : ι → String) : Prop :=
  ∀ stepId ∈ book.order, (book.status stepId).done = false →
    (book.status stepId).Waiting ∧ ¬ Permitted (type stepId) run

/-- The call asks for what the permission gate keeps a drive from. -/
def EngineOp.PassesGate : EngineOp ι → Prop
  | .handle _ _ => True
  | .appendEvent _ .budgetExhausted _ _ _ => True
  | .setRunStatus _ .paused => True
  | .appendEvent _ .runPaused _ _ _ => True
  | _ => False

/-- The plan has been skipped this far. -/
structure OnlySkipped (begun book : Book ι) : Prop where
  order : book.order = begun.order
  status : ∀ stepId ∈ begun.order, book.status stepId = begun.status stepId ∨
    (begun.status stepId).done = false ∧ book.status stepId = .skipped

/-- Every step is done. -/
def Book.Finished (book : Book ι) : Prop :=
  ∀ stepId ∈ book.order, (book.status stepId).done = true

/-- Where a drive may stand that skips everything. -/
def Stage.Skipping (stage : Stage ι) (run : RunView ι) (book : Book ι)
    (record : History (engineSignature ι) (Raised ι) σ) : Prop :=
  match stage with
  | .opening => True
  | .opened => True
  | .begun => book.runStatus = .running
  | .top => book.runStatus = .running
  | .runRead current => book.runStatus = .running ∧ userStopped current = false ∧
      ∀ fresh, current = some fresh → fresh.allowedToolsJson = run.allowedToolsJson
  | .visiting visit => book.runStatus = .running ∧ visit.step.id ∈ book.order ∧
      (book.status visit.step.id).done = false ∧
      visit.step.status.Waiting ∧ ¬ Permitted visit.step.type visit.fresh
  | .recording _ mark _ => book.runStatus = .running ∧ ∃ reason, mark = .skips reason
  | .allDone => book.runStatus = .running ∧ book.Finished
  | .finalRead current => userStopped current = false ∧ book.Finished
  | .completing => book.runStatus = .completed ∧ book.Finished
  | .notifying status => status = .completed ∧ book.runStatus = .completed ∧ book.Finished
  | .ended status => status = .completed ∧ book.runStatus = .completed ∧ book.Finished
  | .broken _ => ∃ call ∈ record, ∃ error, call.answer = .error error
  | _ => False

section Proof

variable [HostId ι] [DecidableEq ι] {world : World (engineSignature ι) (Raised ι) σ}
  {registry : ToolRegistry} {run : RunView ι} {hooked : Bool} {type : ι → String}
  {stage : Stage ι} {op : EngineOp ι} {before after : σ} {begun book later : Book ι}
  {record : History (engineSignature ι) (Raised ι) σ}

omit [HostId ι] [DecidableEq ι] in
theorem Stage.Skipping.append (skipping : stage.Skipping run book record)
    (call : Served (engineSignature ι) (Raised ι) σ) :
    stage.Skipping run book (record ++ [call]) := by
  cases stage with
  | broken error =>
      rcases skipping with ⟨earlier, member, raised⟩
      exact ⟨earlier, List.mem_append_left _ member, raised⟩
  | _ => exact skipping

omit [HostId ι] in
/-- A step that is not done is skipped. -/
theorem OnlySkipped.skip (only : OnlySkipped begun book) {stepId : ι}
    (remains : (book.status stepId).done = false) :
    OnlySkipped begun (book.setStatus stepId .skipped) := by
  refine ⟨only.order, ?_⟩
  intro other member
  by_cases same : other = stepId
  · subst same
    rw [book.setStatus_self]
    rcases only.status other member with unchanged | skipped
    · rw [unchanged] at remains
      exact .inr ⟨remains, rfl⟩
    · exact .inr ⟨skipped.1, rfl⟩
  · rw [book.setStatus_of_ne same]
    exact only.status other member

omit [HostId ι] [DecidableEq ι] in
/-- The first unfinished step of a denied plan is denied. -/
theorem OnlySkipped.denies (only : OnlySkipped begun book) (denied : begun.Denied run type)
    {stepId : ι} (member : stepId ∈ book.order) (remains : (book.status stepId).done = false) :
    (book.status stepId).Waiting ∧ ¬ Permitted (type stepId) run := by
  rw [only.order] at member
  rcases only.status stepId member with unchanged | skipped
  · rw [unchanged] at remains ⊢
    exact denied stepId member remains
  · rw [skipped.2] at remains
    cases remains

omit [HostId ι] [DecidableEq ι] in
/-- A listing selects a step that waits for a grant the run does not have, or none. -/
theorem OnlySkipped.lists {current : Option (RunView ι)} {steps : List (StepView ι)}
    (only : OnlySkipped begun book) (denied : begun.Denied run type) (lists : book.Lists steps)
    (typed : ∀ step ∈ steps, step.type = type step.id)
    (skipping : (Stage.runRead current).Skipping run book record) :
    (Stage.listed run current steps).Skipping run book record := by
  rcases skipping with ⟨running, _, kept⟩
  have grants : (current.getD run).allowedToolsJson = run.allowedToolsJson := by
    cases current with
    | none => rfl
    | some fresh => exact kept fresh rfl
  rw [Stage.listed]
  cases selected : firstUnfinished steps with
  | none => exact ⟨running, lists.finished selected⟩
  | some step =>
      rcases lists.selected selected with ⟨status, remains, _⟩
      have member := lists.member selected
      rcases only.denies denied member remains with ⟨waiting, refused⟩
      refine ⟨running, member, remains, ?_, ?_⟩
      · change step.status.Waiting
        rw [status]
        exact waiting
      · change ¬ Permitted step.type (current.getD run)
        rw [typed step (firstUnfinished_mem selected)]
        intro permitted
        apply refused
        intro grant required
        rw [← grants]
        exact permitted grant required

/-- What an answer does, when nothing else moves. -/
theorem Stage.Skipping.answered {book : σ → Book ι}
    (store : BookKept world run book Book.Same Book.Same)
    (denied : begun.Denied run type) (only : OnlySkipped begun (book before))
    (skipping : stage.Skipping run (book before) record)
    (asks : Asks registry run stage op) {result : op.Res}
    (served : world.serve before op (.ok result) after)
    (steady : Steady run type (record ++ [⟨before, op, .ok result, after⟩])) :
    OnlySkipped begun (book after) ∧
      (stage.next run hooked op result).Skipping run (book after) record := by
  have wrote : Book.Wrote op (book before) (book after) := by
    rcases store.moved served with ⟨moved, same, wrote⟩
    rw [show moved = book before from same] at wrote
    exact wrote
  have answers := store.answers served
  have now := List.mem_append_right record (List.mem_singleton_self
    (⟨before, op, .ok result, after⟩ : Served (engineSignature ι) (Raised ι) σ))
  cases asks with
  | opens =>
      rw [show book after = book before from wrote]
      exact ⟨only, trivial⟩
  | begins alive =>
      rw [show book after = (book before).setRunStatus .running from wrote]
      exact ⟨⟨only.order, only.status⟩, rfl⟩
  | clocks =>
      rw [show book after = book before from wrote]
      exact ⟨only, skipping⟩
  | streams streams streaming =>
      rw [next_streams streams streaming, wrote.streamed streaming]
      exact ⟨only, skipping⟩
  | rereads turns =>
      have same : book after = book before := wrote
      have running : (book before).runStatus = .running := by
        cases stage <;> first | exact skipping | exact skipping.elim | cases turns
      rw [next_turns turns, same]
      refine ⟨only, running, ongoing_of_running ?_, ?_⟩
      · rintro current rfl
        rw [answers rfl, same]
        exact running
      · rintro current rfl
        exact steady.grants before run.id current after now
  | lists ongoing =>
      rename_i current
      have same : book after = book before := wrote
      have lists : (book before).Lists result := by
        rw [← same]
        exact answers rfl
      have typed : ∀ step ∈ result, step.type = type step.id :=
        steady.types before run.id result after now
      rw [same]
      exact ⟨only, only.lists denied lists typed skipping⟩
  | looks failed => exact absurd failed skipping.2.2.2.1.not_failed
  | skips waiting blocked =>
      rename_i visit reason
      rw [show book after = (book before).setStatus visit.step.id .skipped from wrote]
      exact ⟨only.skip skipping.2.2.1, skipping.1, _, rfl⟩
  | times admitted _ | exhausts admitted _ | parks admitted _ _ | stops admitted _ _
  | clears admitted _ _ _ | enters admitted _ => exact absurd admitted.permitted skipping.2.2.2.2
  | records =>
      rename_i visit mark row
      rcases wrote with ⟨event, _, equal⟩
      rw [equal]
      rcases skipping with ⟨running, reason, rfl⟩
      exact ⟨⟨only.order, only.status⟩, running⟩
  | finishes =>
      have same : book after = book before := wrote
      rw [same]
      refine ⟨only, ongoing_of_running ?_, skipping.2⟩
      rintro current rfl
      rw [answers rfl, same]
      exact skipping.1
  | completesRun ongoing =>
      rw [show book after = (book before).setRunStatus .completed from wrote]
      exact ⟨⟨only.order, only.status⟩, rfl, skipping.2⟩
  | logsCompletion =>
      rcases wrote with ⟨event, _, equal⟩
      rw [equal]
      refine ⟨⟨only.order, only.status⟩, ?_⟩
      cases hooked <;> exact ⟨rfl, skipping⟩
  | notifies =>
      rw [show book after = book before from wrote]
      exact ⟨only, skipping⟩
  | _ => exact skipping.elim

omit [DecidableEq ι] in
/-- No call of such a drive passes the permission gate. -/
theorem Stage.Skipping.stays (skipping : stage.Skipping run book record)
    (asks : Asks registry run stage op) : ¬ op.PassesGate := by
  cases asks with
  | handles _ => exact skipping.elim
  | exhausts admitted _ => exact absurd admitted.permitted skipping.2.2.2.2
  | streams streams served => cases op <;> first | exact served.elim | exact not_false
  | pauses | logsPause | settles => exact skipping.elim
  | records =>
      rename_i visit mark row
      cases mark <;> exact not_false
  | _ => exact not_false

/-- A drive of a plan whose unfinished steps all lack their grants, when nothing else
moves. -/
theorem skipping_drive {book : σ → Book ι}
    (store : BookKept world run book Book.Same Book.Same) {fuel : Nat} {state last : σ}
    {outcome : Except (Raised ι) (Option Unit)}
    {history : History (engineSignature ι) (Raised ι) σ}
    (runs : Runs world.recorded (executeRunEvents registry run hooked fuel) (state, []) outcome
      (last, history)) (steady : Steady run type history) (denied : (book state).Denied run type) :
    (∀ call ∈ history, ¬ call.op.PassesGate) ∧ OnlySkipped (book state) (book last) ∧
    (courseOf run hooked history).stage.Skipping run (book last) history ∧
    CourseEnds run fuel outcome (courseOf run hooked history) := by
  have kept := course_invariant (fun here course record =>
      Steady run type record →
        OnlySkipped (book state) (book here) ∧ course.stage.Skipping run (book here) record)
    runs
    (fun {before course record op answer after} sound asks known served steady => by
      rcases known steady.left with ⟨only, skipping⟩
      cases answer with
      | ok result =>
          rcases skipping.answered store denied only asks served steady with ⟨after, skipping⟩
          exact ⟨after, skipping.append _⟩
      | error error =>
          rcases store.moved served with ⟨moved, host, wrote⟩
          have leaves := store.succeeds served
          have same : book after = book before := by
            cases op <;> first | exact leaves.elim | exact wrote.trans host
          rcases course with ⟨stage, passes⟩
          rw [same]
          refine ⟨only, ?_⟩
          cases op with
          | handle handled step =>
              rcases asks_handle asks with ⟨visit, stepType, rfl, _⟩
              exact skipping.elim
          | _ => exact ⟨_, List.mem_append_right _ (List.mem_singleton_self _), error, rfl⟩)
    (fun _ => ⟨⟨rfl, fun _ _ => .inl rfl⟩, trivial⟩)
  rcases kept with ⟨calls, known, ends⟩
  rcases known steady with ⟨only, skipping⟩
  refine ⟨?_, only, skipping, ends⟩
  intro call member
  rcases List.append_of_mem member with ⟨earlier, later, split⟩
  rcases calls earlier call later split with ⟨asks, _, before⟩
  rw [split] at steady
  exact (before steady.left).2.stays asks

omit [HostId ι] [DecidableEq ι] in
theorem Stage.Skipping.completed (skipping : stage.Skipping run book record)
    (alive : run.status ∉ terminalRunStatuses) (returns : stage.Returns run) :
    book.runStatus = .completed ∧ book.Finished := by
  cases stage with
  | opened => exact absurd returns alive
  | runRead current => exact absurd returns (by simp [Stage.Returns, skipping.2.1])
  | finalRead current => exact absurd returns (by simp [Stage.Returns, skipping.1])
  | judged visit ran => exact skipping.elim
  | ended status => exact skipping.2
  | _ => exact returns.elim

omit [HostId ι] [DecidableEq ι] in
/-- An exception comes out of a call. -/
theorem Stage.Skipping.raised {error : Raised ι} (skipping : stage.Skipping run book record)
    (raises : stage.Raises error) : ∃ call ∈ record, ∃ error, call.answer = .error error := by
  cases stage with
  | visiting visit =>
      have waiting := skipping.2.2.2.1
      cases raises with
      | unknown status =>
          rw [status] at waiting
          rcases waiting with equal | equal | equal <;> cases equal
      | running status _ =>
          rw [status] at waiting
          rcases waiting with equal | equal | equal <;> cases equal
  | handled visit outcome => exact skipping.elim
  | broken => exact skipping
  | _ => exact raises.elim

omit [HostId ι] [DecidableEq ι] in
/-- Without dispatches no action is prepared. -/
theorem preparations_of_gated (history : History (engineSignature ι) (Raised ι) σ)
    (gated : ∀ call ∈ history, ¬ call.op.PassesGate) (view : PassView ι) :
    (history.foldl PassView.advance view).preparations = view.preparations := by
  induction history generalizing view with
  | nil => rfl
  | cons call history ih =>
      rw [List.foldl_cons, ih fun later member => gated later (List.mem_cons_of_mem _ member)]
      have here := gated call (List.mem_cons_self ..)
      rcases call with ⟨before, op, answer, after⟩
      cases op with
      | handle handled step => exact absurd trivial here
      | getSteps runId => cases answer <;> rfl
      | _ => rfl

/-- The plan is skipped through, and the run completed. -/
theorem denied_plan_skipped {book : σ → Book ι}
    (store : BookKept world run book Book.Same Book.Same)
    (alive : run.status ∉ terminalRunStatuses) {fuel : Nat} {state last : σ}
    {outcome : Except (Raised ι) (Option Unit)}
    {history : History (engineSignature ι) (Raised ι) σ}
    (runs : Runs world.recorded (executeRunEvents registry run hooked fuel) (state, []) outcome
      (last, history)) (steady : Steady run type history)
    (distinct : (book state).order.Nodup) (denied : (book state).Denied run type) :
    (∀ call ∈ history, ¬ call.op.PassesGate) ∧
    (outcome = .ok (some ()) → (book last).runStatus = .completed ∧
      (book last).order = (book state).order ∧ ∀ stepId ∈ (book state).order,
        (book last).status stepId =
          if ((book state).status stepId).done then (book state).status stepId else .skipped) ∧
    ((book state).unfinished < fuel → (∀ call ∈ history, ∃ result, call.answer = .ok result) →
      outcome = .ok (some ())) := by
  rcases skipping_drive store runs steady denied with ⟨gated, only, skipping, ends⟩
  refine ⟨gated, ?_, ?_⟩
  · rintro rfl
    have completed := skipping.completed alive ends
    refine ⟨completed.1, only.order, ?_⟩
    intro stepId member
    rcases only.status stepId member with unchanged | ⟨remained, skipped⟩
    · have done := completed.2 stepId (by rw [only.order]; exact member)
      rw [unchanged] at done ⊢
      rw [if_pos done]
    · rw [skipped, remained]
      rfl
  · intro enough calm
    rcases outcome with error | _ | _
    · rcases skipping.raised ends with ⟨call, member, error, raised⟩
      rcases calm call member with ⟨result, returned⟩
      rw [raised] at returned
      cases returned
    · have rests : BookKept world run book Book.Rests Book.Grows :=
        store.mono (fun same => same ▸ .refl _) fun same => same ▸ .refl _
      rcases account_drive rests runs distinct with ⟨_, account, turns, passes⟩
      have bounded := account.bounded
      have owes := account.owes_pos turns
      have unprepared : (history.foldl PassView.advance .start).preparations = 0 :=
        preparations_of_gated history gated .start
      have length := congrArg List.length only.order
      omega
    · rfl

end Proof

end SlimxAgent
