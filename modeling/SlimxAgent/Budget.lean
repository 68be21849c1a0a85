import SlimxAgent.Ungranted
import SlimxAgent.Interaction.Sessions

/-!
# The step budget

A run with a step budget executes no more steps than it allows, however often it is
paused, re-opened and driven again: a handler is called only in a pass that found fewer
executed steps than the budget, and only a handler's end executes one more.
-/

namespace SlimxAgent

open Interaction

variable {ι σ : Type}

/-- The step counts against the budget. -/
def StepStatus.executed (status : StepStatus) : Bool :=
  status == .completed || status == .failed

/-- Where a predicate changes for one member only, one more is counted at most. -/
theorem countP_le_succ [DecidableEq ι] {members : List ι} (distinct : members.Nodup)
    {before after : ι → Bool} {chosen : ι}
    (others : ∀ member ≠ chosen, after member = before member) :
    members.countP after ≤ members.countP before + if after chosen then 1 else 0 := by
  have once := List.nodup_iff_count.mp distinct chosen
  have same : members.countP (fun member => decide (member ≠ chosen) && after member) =
      members.countP (fun member => decide (member ≠ chosen) && before member) := by
    apply List.countP_congr
    intro member _
    by_cases here : member = chosen
    · simp [here]
    · rw [others member here]
  rw [countP_split members after chosen, countP_split members before chosen, same]
  split <;> omega

namespace Book

/-- How many steps are executed. -/
def executed (book : Book ι) : Nat :=
  book.order.countP fun stepId => (book.status stepId).executed

/-- Nobody but the engine executes a step, or takes back that one was executed; steps may
be appended. -/
structure Unexecuted (before after : Book ι) : Prop where
  added : before.order <+: after.order
  distinct : before.order.Nodup → after.order.Nodup
  kept : ∀ stepId ∈ before.order,
    (after.status stepId).executed = (before.status stepId).executed
  fresh : ∀ stepId ∈ after.order, stepId ∉ before.order → (after.status stepId).executed = false

theorem Unexecuted.executed {before after : Book ι} (idle : before.Unexecuted after)
    (distinct : before.order.Nodup) : after.executed = before.executed := by
  have unique := idle.distinct distinct
  have fresh := idle.fresh
  rcases idle.added with ⟨extra, grown⟩
  rw [Book.executed, ← grown, List.countP_append]
  rw [← grown] at unique fresh
  have old : before.order.countP (fun stepId => (after.status stepId).executed) =
      before.executed := by
    apply List.countP_congr
    intro stepId member
    rw [idle.kept stepId member]
  have new : extra.countP (fun stepId => (after.status stepId).executed) = 0 := by
    apply List.countP_eq_zero.mpr
    intro stepId member
    have apart := (List.nodup_append.mp unique).2.2
    rw [fresh stepId (List.mem_append_right _ member) fun listed =>
      apart stepId listed stepId member rfl]
    nofun
  rw [old, new, Nat.add_zero]

theorem executed_setStatus [DecidableEq ι] {book : Book ι} (distinct : book.order.Nodup)
    (stepId : ι) (status : StepStatus) :
    (book.setStatus stepId status).executed ≤
      book.executed + if status.executed then 1 else 0 := by
  have others : ∀ other ≠ stepId, ((book.setStatus stepId status).status other).executed =
      (book.status other).executed := by
    intro other different
    rw [book.setStatus_of_ne different]
  have counted := countP_le_succ distinct others
  rw [book.setStatus_self] at counted
  exact counted

theorem executed_setStatus_idle [DecidableEq ι] {book : Book ι} (distinct : book.order.Nodup)
    (stepId : ι) {status : StepStatus} (idle : status.executed = false) :
    (book.setStatus stepId status).executed ≤ book.executed := by
  have counted := executed_setStatus distinct stepId status
  rw [idle] at counted
  exact counted

theorem executed_setStatus_one [DecidableEq ι] {book : Book ι} (distinct : book.order.Nodup)
    (stepId : ι) (status : StepStatus) :
    (book.setStatus stepId status).executed ≤ book.executed + 1 := by
  have counted := executed_setStatus distinct stepId status
  split at counted <;> omega

theorem Lists.executed {book : Book ι} {steps : List (StepView ι)} (lists : book.Lists steps) :
    steps.countP (fun step => step.status.executed) = book.executed := by
  rw [Book.executed, ← lists.order, List.countP_map]
  apply List.countP_congr
  intro step member
  rw [lists.status step member]
  rfl

end Book

/-! ## What a pass has read -/

/-- The run and the steps that a drive read last. -/
structure PassReads (ι : Type) where
  read : Option (RunView ι)
  steps : List (StepView ι)

namespace PassReads

def start : PassReads ι := ⟨none, []⟩

def advance (reads : PassReads ι) (call : Served (engineSignature ι) (Raised ι) σ) :
    PassReads ι :=
  match call with
  | ⟨_, .getRun _, .ok current, _⟩ => ⟨current, reads.steps⟩
  | ⟨_, .getSteps _, .ok steps, _⟩ => ⟨reads.read, steps⟩
  | _ => reads

/-- The run as the pass sees it: as read, or as the drive was given it. -/
def fresh (reads : PassReads ι) (run : RunView ι) : RunView ι :=
  reads.read.getD run

end PassReads

/-- What a drive has read so far. -/
def readsOf (history : History (engineSignature ι) (Raised ι) σ) : PassReads ι :=
  history.foldl PassReads.advance .start

/-- The visit is one of what was read. -/
structure Visit.Of (visit : Visit ι) (run : RunView ι) (reads : PassReads ι) : Prop where
  fresh : visit.fresh = reads.fresh run
  steps : visit.steps = reads.steps

/-- What a stage tells of what was read. -/
def Stage.Saw (stage : Stage ι) (run : RunView ι) (reads : PassReads ι) : Prop :=
  match stage with
  | .runRead current => reads.read = current
  | .visiting visit => visit.Of run reads
  | .looked visit _ => visit.Of run reads
  | .exhausted visit _ => visit.Of run reads
  | .pausing visit _ => visit.Of run reads
  | .recording visit _ _ => visit.Of run reads
  | .parked visit _ => visit.Of run reads
  | .stopping visit => visit.Of run reads
  | .cleared visit => visit.Of run reads
  | .entered visit _ => visit.Of run reads
  | .started visit => visit.Of run reads
  | .typed visit _ => visit.Of run reads
  | .handled visit _ => visit.Of run reads
  | .rolledBack visit _ => visit.Of run reads
  | .decided visit _ => visit.Of run reads
  | _ => True

section Reading

variable [HostId ι] {registry : ToolRegistry} {run : RunView ι} {hooked : Bool}
  {stage : Stage ι} {reads : PassReads ι} {op : EngineOp ι} {before after : σ}

/-- Only the two reads of a pass change what was read. -/
theorem Stage.Saw.answered (saw : stage.Saw run reads) (asks : Asks registry run stage op)
    (result : op.Res) :
    (stage.next run hooked op result).Saw run (reads.advance ⟨before, op, .ok result, after⟩) := by
  cases asks with
  | streams streams served =>
      have same : reads.advance ⟨before, op, .ok result, after⟩ = reads := by
        cases op <;> first | rfl | exact served.elim
      rw [next_streams streams served, same]
      exact saw
  | rereads turns =>
      rw [next_turns turns]
      rfl
  | lists ongoing =>
      rename_i current
      have read : reads.read = current := saw
      change (Stage.listed run current result).Saw run ⟨reads.read, result⟩
      rw [Stage.listed]
      cases selected : firstUnfinished result with
      | none => trivial
      | some step => exact ⟨by rw [PassReads.fresh, read], rfl⟩
  | records =>
      rename_i visit mark row
      cases mark <;> first | exact saw | trivial
  | refetches => cases result <;> first | exact saw | trivial
  | failsRun | logsCompletion => cases hooked <;> trivial
  | settles =>
      rename_i visit mark
      cases mark <;> exact saw
  | _ => first | exact saw | trivial

theorem Stage.Saw.raised (saw : stage.Saw run reads) (asks : Asks registry run stage op)
    (error : Raised ι) :
    (stage.fail op error).Saw run (reads.advance ⟨before, op, .error error, after⟩) := by
  cases op with
  | handle handled step =>
      rcases asks_handle asks with ⟨visit, stepType, rfl, _⟩
      exact saw
  | _ => trivial

end Reading

/-! ## The bound -/

/-- What a stage tells of the steps executed so far. -/
def Stage.Spares (stage : Stage ι) (limit executed : Nat) : Prop :=
  match stage with
  | .visiting visit => visit.steps.countP (fun step => step.status.executed) = executed
  | .recording _ mark _ => mark.status = .approved ∨ mark.status = .running → executed < limit
  | .cleared _ => executed < limit
  | .entered _ _ => executed < limit
  | .started _ => executed < limit
  | .typed _ _ => executed < limit
  | .handled _ _ => executed < limit
  | .rolledBack _ _ => executed < limit
  | .decided _ _ => executed < limit
  | _ => True

/-- A step budget within which a further step may be executed. -/
theorem stepBudgetReason_eq_none {limit : Nat} (positive : 0 < limit)
    {steps : List (StepView ι)} :
    stepBudgetReason (.int limit) steps = none ↔
      steps.countP (fun step => step.status.executed) < limit := by
  have counted : steps.countP (fun step => step.status.executed) =
      steps.countP fun step => step.status == .completed || step.status == .failed := rfl
  simp only [stepBudgetReason, Json.asInt?, counted]
  split
  · rename_i reached
    simp only [reduceCtorEq, false_iff, not_lt]
    exact_mod_cast reached.2
  · rename_i unreached
    simp only [true_iff]
    by_contra spent
    exact unreached ⟨by exact_mod_cast positive, by exact_mod_cast not_lt.mp spent⟩

/-- The account of a drive with a step budget. -/
structure Budgeted (limit bound : Nat) (run : RunView ι) (book : Book ι) (stage : Stage ι)
    (reads : PassReads ι) : Prop where
  distinct : book.order.Nodup
  bounded : book.executed ≤ bound
  spares : stage.Spares limit book.executed
  saw : stage.Saw run reads
  fixed : ∀ current, reads.read = some current → current.budgetMaxSteps = .int limit

section Bounding

variable [HostId ι] {registry : ToolRegistry} {run : RunView ι} {hooked : Bool}
  {stage : Stage ι} {reads : PassReads ι} {op : EngineOp ι} {before after : σ}
  {book later : Book ι} {limit bound : Nat}

omit [HostId ι] in
theorem fresh_budget (own : run.budgetMaxSteps = .int limit)
    (fixed : ∀ current, reads.read = some current → current.budgetMaxSteps = .int limit) :
    (reads.fresh run).budgetMaxSteps = .int limit := by
  rw [PassReads.fresh]
  cases read : reads.read with
  | none => exact own
  | some current => exact fixed current read

omit [HostId ι] in
/-- A step may be executed in a visit that the budget gate lets through. -/
theorem Visit.Affordable.spare {visit : Visit ι} (affordable : visit.Affordable)
    (own : run.budgetMaxSteps = .int limit)
    (fixed : ∀ current, reads.read = some current → current.budgetMaxSteps = .int limit)
    (known : visit.Of run reads) (positive : 0 < limit) :
    visit.steps.countP (fun step => step.status.executed) < limit := by
  have within := affordable.within
  rw [known.fresh, fresh_budget own fixed] at within
  exact (stepBudgetReason_eq_none positive).mp within

variable [DecidableEq ι]

/-- What an answer does to the number of executed steps. -/
theorem Budgeted.answered (account : Budgeted limit bound run book stage reads)
    (own : run.budgetMaxSteps = .int limit) (positive : 0 < limit) (enough : limit ≤ bound)
    (sound : stage.Sound) (asks : Asks registry run stage op) (wrote : Book.Wrote op book later)
    (result : op.Res) (answers : later.Answers run.id op result) :
    later.executed ≤ bound ∧ (stage.next run hooked op result).Spares limit later.executed := by
  have bounded := account.bounded
  have spares := account.spares
  have idle : ∀ stepId status, status.executed = false →
      (book.setStatus stepId status).executed ≤ book.executed :=
    fun stepId _ => Book.executed_setStatus_idle account.distinct stepId
  have one := Book.executed_setStatus_one account.distinct
  cases asks with
  | streams streams served =>
      rw [next_streams streams served, wrote.streamed served]
      exact ⟨bounded, spares⟩
  | rereads turns =>
      cases wrote
      rw [next_turns turns]
      exact ⟨bounded, trivial⟩
  | lists ongoing =>
      rename_i current
      cases wrote
      have lists : book.Lists result := answers rfl
      change book.executed ≤ bound ∧ (Stage.listed run current result).Spares limit book.executed
      rw [Stage.listed]
      cases selected : firstUnfinished result with
      | none => exact ⟨bounded, trivial⟩
      | some step => exact ⟨bounded, lists.executed⟩
  | skips _ _ =>
      cases wrote
      refine ⟨(idle _ _ rfl).trans bounded, ?_⟩
      rintro (entered | entered) <;> cases entered
  | parks _ _ _ =>
      cases wrote
      exact ⟨(idle _ _ rfl).trans bounded, trivial⟩
  | titles =>
      cases wrote
      refine ⟨bounded, ?_⟩
      rintro (entered | entered) <;> cases entered
  | clears affordable _ _ _ =>
      cases wrote
      have spare := affordable.spare own account.fixed account.saw positive
      rw [show _ = book.executed from spares] at spare
      exact ⟨(idle _ _ rfl).trans bounded, fun _ => (idle _ _ rfl).trans_lt spare⟩
  | enters affordable _ =>
      cases wrote
      have spare := affordable.spare own account.fixed account.saw positive
      rw [show _ = book.executed from spares] at spare
      exact ⟨(idle _ _ rfl).trans bounded, (idle _ _ rfl).trans_lt spare⟩
  | proceeds =>
      cases wrote
      exact ⟨(idle _ _ rfl).trans bounded, (idle _ _ rfl).trans_lt spares⟩
  | shows =>
      cases wrote
      exact ⟨bounded, fun _ => spares⟩
  | refuses _ | completes =>
      cases wrote
      refine ⟨(one _ _).trans ((Nat.succ_le_of_lt spares).trans enough), ?_⟩
      rintro (entered | entered) <;> cases entered
  | settles =>
      rcases sound with ⟨_, _, stepType, message, rfl | rfl⟩ <;> cases wrote
      · refine ⟨(one _ _).trans ((Nat.succ_le_of_lt spares).trans enough), ?_⟩
        rintro (entered | entered) <;> cases entered
      · refine ⟨(idle _ _ rfl).trans bounded, ?_⟩
        rintro (entered | entered) <;> cases entered
  | records =>
      rename_i visit mark row
      rcases wrote with ⟨event, _, rfl⟩
      cases mark with
      | clears payload => exact ⟨bounded, spares (.inl rfl)⟩
      | enters => exact ⟨bounded, spares (.inr rfl)⟩
      | _ => exact ⟨bounded, trivial⟩
  | exhausts _ _ | reports | logsPause | reportsRan _ =>
      rcases wrote with ⟨event, _, rfl⟩
      exact ⟨bounded, trivial⟩
  | logsCompletion =>
      rcases wrote with ⟨event, _, rfl⟩
      cases hooked <;> exact ⟨bounded, trivial⟩
  | refetches =>
      cases wrote
      cases result <;> exact ⟨bounded, trivial⟩
  | failsRun =>
      cases wrote
      cases hooked <;> exact ⟨bounded, trivial⟩
  | _ =>
      cases wrote
      first | exact ⟨bounded, spares⟩ | exact ⟨bounded, trivial⟩

variable {world : World (engineSignature ι) (Raised ι) σ} {course : Course ι}

/-- The run is read with this step budget, always. -/
def FixedBudget (limit : Nat) (history : History (engineSignature ι) (Raised ι) σ) : Prop :=
  ReadsRun (fun current => current.budgetMaxSteps = .int limit) history

omit [HostId ι] [DecidableEq ι] in
theorem fixed_advance {record : History (engineSignature ι) (Raised ι) σ}
    {answer : Except (Raised ι) op.Res}
    (fixed : FixedBudget limit (record ++ [⟨before, op, answer, after⟩]))
    (known : ∀ current, reads.read = some current → current.budgetMaxSteps = .int limit) :
    ∀ current, (reads.advance ⟨before, op, answer, after⟩).read = some current →
      current.budgetMaxSteps = .int limit := by
  cases op with
  | getRun runId =>
      cases answer with
      | ok read =>
          rintro current rfl
          exact fixed before runId current after
            (List.mem_append_right _ (List.mem_singleton_self _))
      | error error => exact known
  | getSteps runId => cases answer <;> exact known
  | _ => exact known

theorem Budgeted.served {book : σ → Book ι}
    (store : BookKept world run book Book.Unexecuted Book.Unexecuted)
    (account : Budgeted limit bound run (book before) course.stage reads)
    (own : run.budgetMaxSteps = .int limit) (positive : 0 < limit) (enough : limit ≤ bound)
    (sound : course.stage.Sound) (asks : Asks registry run course.stage op)
    {answer : Except (Raised ι) op.Res} (served : world.serve before op answer after)
    {record : History (engineSignature ι) (Raised ι) σ}
    (fixed : FixedBudget limit (record ++ [⟨before, op, answer, after⟩])) :
    Budgeted limit bound run (book after)
      (course.advance run hooked ⟨before, op, answer, after⟩).stage
      (reads.advance ⟨before, op, answer, after⟩) := by
  rcases store.moved served with ⟨moved, idle, wrote⟩
  have same := idle.executed account.distinct
  have moves : Budgeted limit bound run moved course.stage reads := by
    refine ⟨idle.distinct account.distinct, ?_, ?_, account.saw, account.fixed⟩
    · rw [same]
      exact account.bounded
    · rw [same]
      exact account.spares
  have known := fixed_advance fixed account.fixed
  have distinct : (book after).order.Nodup := by
    rw [wrote.order]
    exact moves.distinct
  cases answer with
  | ok result =>
      rcases moves.answered own positive enough sound asks wrote result (store.answers served)
        with ⟨bounded, spares⟩
      exact ⟨distinct, bounded, spares, account.saw.answered asks result, known⟩
  | error error =>
      have unwritten : book after = moved := by
        have leaves := store.succeeds served
        cases op <;> first | exact wrote | exact leaves.elim
      refine ⟨distinct, ?_, ?_, account.saw.raised asks error, known⟩
      · rw [unwritten]
        exact moves.bounded
      · rw [unwritten]
        rcases course with ⟨stage, passes⟩
        cases op with
        | handle handled step =>
            rcases asks_handle asks with ⟨visit, stepType, rfl, _⟩
            exact moves.spares
        | _ => trivial

/-- The account of a drive, wherever it stands. -/
theorem budgeted_drive {book : σ → Book ι}
    (store : BookKept world run book Book.Unexecuted Book.Unexecuted)
    (own : run.budgetMaxSteps = .int limit) (positive : 0 < limit) (enough : limit ≤ bound)
    {fuel : Nat} {state last : σ} {outcome : Except (Raised ι) (Option Unit)}
    {history : History (engineSignature ι) (Raised ι) σ}
    (runs : Runs world.recorded (executeRunEvents registry run hooked fuel) (state, []) outcome
      (last, history)) (fixed : FixedBudget limit history) (distinct : (book state).order.Nodup)
    (bounded : (book state).executed ≤ bound) :
    (∀ earlier call later, history = earlier ++ call :: later →
      Budgeted limit bound run (book call.before) (courseOf run hooked earlier).stage
        (readsOf earlier)) ∧
    Budgeted limit bound run (book last) (courseOf run hooked history).stage (readsOf history) := by
  have kept := course_invariant (fun here course record => FixedBudget limit record →
      Budgeted limit bound run (book here) course.stage (readsOf record)) runs
    (fun sound asks account served fixed => by
      rw [readsOf, List.foldl_append]
      exact (account fixed.left).served store own positive enough sound asks served fixed)
    (fun _ => ⟨distinct, bounded, trivial, trivial, nofun⟩)
  refine ⟨?_, kept.2.1 fixed⟩
  intro earlier call later split
  rw [split] at fixed
  exact (kept.1 earlier call later split).2.2 fixed.left

end Bounding

/-! ## Budget pauses -/

/-- The operations of a budget pause, in order. -/
def budgetPause (run : RunView ι) (reason : String) : List (EngineOp ι) :=
  [.appendEvent run.id .budgetExhausted none (some [("reason", .str reason)]) true,
    .setRunStatus run .paused,
    .appendEvent run.id .runPaused none (some [("reason", .str reason)]) true]

/-- The operation is one of a budget pause. -/
def EngineOp.Pauses : EngineOp ι → Prop
  | .appendEvent _ .budgetExhausted _ _ _ => True
  | .setRunStatus _ .paused => True
  | .appendEvent _ .runPaused _ _ _ => True
  | _ => False

/-- What a stage tells of a pause that has begun. -/
def Stage.PausesAfter (stage : Stage ι) (run : RunView ι)
    (record : History (engineSignature ι) (Raised ι) σ) : Prop :=
  match stage with
  | .exhausted _ payload => ∃ front first reason, record = front ++ [first] ∧
      payload = some [("reason", .str reason)] ∧
      first.op = .appendEvent run.id .budgetExhausted none payload true
  | .pausing _ payload => ∃ front first second reason, record = front ++ [first, second] ∧
      payload = some [("reason", .str reason)] ∧
      first.op = .appendEvent run.id .budgetExhausted none payload true ∧
      second.op = .setRunStatus run .paused
  | _ => True

section Pausing

variable [HostId ι] {registry : ToolRegistry} {run : RunView ι} {hooked : Bool}
  {stage : Stage ι} {op : EngineOp ι} {before after : σ}
  {record : History (engineSignature ι) (Raised ι) σ}

theorem Stage.PausesAfter.answered (pauses : stage.PausesAfter run record)
    (asks : Asks registry run stage op) (result : op.Res) :
    (stage.next run hooked op result).PausesAfter run
      (record ++ [⟨before, op, .ok result, after⟩]) := by
  cases asks with
  | exhausts _ _ => exact ⟨record, _, _, rfl, rfl, rfl⟩
  | pauses =>
      rcases pauses with ⟨front, first, reason, rfl, payload, begun⟩
      exact ⟨front, first, _, reason, by rw [List.append_assoc]; rfl, payload, begun, rfl⟩
  | streams streams served =>
      rw [next_streams streams served]
      cases stage <;> trivial
  | rereads turns =>
      rw [next_turns turns]
      trivial
  | lists ongoing =>
      rename_i current
      change (Stage.listed run current result).PausesAfter run _
      rw [Stage.listed]
      cases firstUnfinished result <;> trivial
  | records =>
      rename_i visit mark row
      cases mark <;> trivial
  | refetches => cases result <;> trivial
  | failsRun | logsCompletion => cases hooked <;> trivial
  | settles =>
      rename_i visit mark
      cases mark <;> trivial
  | _ => trivial

omit [HostId ι] in
theorem Stage.PausesAfter.raised {error : Raised ι} (op : EngineOp ι) :
    (stage.fail op error).PausesAfter run record := by
  cases op with
  | handle handled step => cases stage <;> trivial
  | _ => trivial

/-- Where the operations of a pause are asked for. -/
theorem asks_pauses (asks : Asks registry run stage op) (pauses : op.Pauses) :
    (∃ visit reason, stage = .visiting visit ∧ visit.Admitted ∧
      op = .appendEvent run.id .budgetExhausted none (some [("reason", .str reason)]) true) ∨
    (∃ visit payload, stage = .exhausted visit payload ∧ op = .setRunStatus run .paused) ∨
    (∃ visit payload, stage = .pausing visit payload ∧
      op = .appendEvent run.id .runPaused none payload true) := by
  cases asks with
  | exhausts admitted _ => exact .inl ⟨_, _, rfl, admitted, rfl⟩
  | pauses => exact .inr (.inl ⟨_, _, rfl, rfl⟩)
  | logsPause => exact .inr (.inr ⟨_, _, rfl, rfl⟩)
  | streams streams served => cases op <;> first | exact pauses.elim | exact served.elim
  | records =>
      rename_i visit mark row
      cases mark <;> exact pauses.elim
  | settles =>
      rename_i visit mark
      cases mark <;> exact pauses.elim
  | _ => exact pauses.elim

variable {world : World (engineSignature ι) (Raised ι) σ} {fuel : Nat} {state last : σ}
  {outcome : Except (Raised ι) (Option Unit)} {history : History (engineSignature ι) (Raised ι) σ}

/-- What a drive tells of its pauses, at every call and at its end. -/
theorem pausing_drive
    (runs : Runs world.recorded (executeRunEvents registry run hooked fuel) (state, []) outcome
      (last, history)) :
    (∀ earlier call later, history = earlier ++ call :: later →
      Asks registry run (courseOf run hooked earlier).stage call.op ∧
      (courseOf run hooked earlier).stage.Sound ∧
      (courseOf run hooked earlier).stage.Saw run (readsOf earlier) ∧
      (courseOf run hooked earlier).stage.PausesAfter run earlier) ∧
    CourseEnds run fuel outcome (courseOf run hooked history) := by
  have kept := course_invariant (fun _ course record =>
      course.stage.Saw run (readsOf record) ∧ course.stage.PausesAfter run record) runs
    (fun {before course record op answer after} _ asks known _ => by
      rw [readsOf, List.foldl_append]
      cases answer with
      | ok result => exact ⟨known.1.answered asks result, known.2.answered asks result⟩
      | error error => exact ⟨known.1.raised asks error, Stage.PausesAfter.raised op⟩)
    ⟨trivial, trivial⟩
  exact ⟨kept.1, kept.2.2⟩

/-- A stage that a drive does not end at is followed by another call. -/
theorem call_follows {earlier : History (engineSignature ι) (Raised ι) σ}
    {later : History (engineSignature ι) (Raised ι) σ} (split : history = earlier ++ later)
    (ends : CourseEnds run fuel outcome (courseOf run hooked history))
    (returns : ¬ (courseOf run hooked earlier).stage.Returns run)
    (turns : (courseOf run hooked earlier).stage.turns = false)
    (raises : ∀ error, ¬ (courseOf run hooked earlier).stage.Raises error) :
    ∃ call rest, later = call :: rest := by
  cases later with
  | cons call rest => exact ⟨call, rest, rfl⟩
  | nil =>
      rw [split, List.append_nil] at ends
      rcases outcome with error | _ | _
      · exact absurd ends (raises error)
      · have turning := ends.1
        rw [turns] at turning
        cases turning
      · exact absurd ends returns

/-- Once the budget is found exhausted, the drive pauses its run and logs it. -/
theorem pause_completes
    (runs : Runs world.recorded (executeRunEvents registry run hooked fuel) (state, []) outcome
      (last, history))
    (results : ∀ call ∈ history, ¬ call.op.LeavesStore → ∃ result, call.answer = .ok result)
    {earlier later : History (engineSignature ι) (Raised ι) σ} (split : history = earlier ++ later)
    {visit : Visit ι} {payload : Option Dict}
    (here : (courseOf run hooked earlier).stage = .exhausted visit payload) :
    ∃ second third back, later = second :: third :: back ∧
      second.op = .setRunStatus run .paused ∧
      third.op = .appendEvent run.id .runPaused none payload true := by
  rcases pausing_drive runs with ⟨calls, ends⟩
  rcases call_follows split ends (by rw [here]; exact id) (by rw [here]; rfl)
    (by rw [here]; exact fun _ => id) with ⟨second, rest, rfl⟩
  have asks := (calls earlier second rest split).1
  rw [here] at asks
  rcases second with ⟨before, op, answer, after⟩
  have marks : op = .setRunStatus run .paused := by
    cases asks with
    | pauses => rfl
    | streams streams _ => exact streams.elim
    | rereads turns => cases turns
  cases marks
  have member : ⟨before, .setRunStatus run .paused, answer, after⟩ ∈ history := by
    rw [split]
    exact List.mem_append_right _ (List.mem_cons_self ..)
  have returned : ∃ result, answer = .ok result := results _ member id
  rcases returned with ⟨result, rfl⟩
  have pausing : (courseOf run hooked (earlier ++ [⟨before, .setRunStatus run .paused, .ok result,
      after⟩])).stage = .pausing visit payload := by
    rw [courseOf_append]
    change (courseOf run hooked earlier).stage.next run hooked _ _ = _
    rw [here]
    rfl
  have resplit : history = (earlier ++ [⟨before, .setRunStatus run .paused, .ok result,
      after⟩]) ++ rest := by
    rw [split, List.append_assoc]
    rfl
  rcases call_follows resplit ends (by rw [pausing]; exact id) (by rw [pausing]; rfl)
    (by rw [pausing]; exact fun _ => id) with ⟨third, back, rfl⟩
  have asks := (calls _ third back resplit).1
  rw [pausing] at asks
  refine ⟨_, third, back, rfl, rfl, ?_⟩
  generalize third.op = op at asks
  cases asks with
  | logsPause => rfl
  | streams streams _ => exact streams.elim
  | rereads turns => cases turns

/-- A budget pause runs to its end, and begins at a step that passed the permission
gate. -/
theorem pause_follows
    (succeeds : ∀ {before op error after}, world.serve before op (.error error) after →
      op.LeavesStore)
    (runs : Runs world.recorded (executeRunEvents registry run hooked fuel) (state, []) outcome
      (last, history)) {earlier later : History (engineSignature ι) (Raised ι) σ}
    {call : Served (engineSignature ι) (Raised ι) σ} (split : history = earlier ++ call :: later)
    {payload : Option Dict}
    (begun : call.op = .appendEvent run.id .budgetExhausted none payload true) :
    ∃ second third back reason, later = second :: third :: back ∧
      [call.op, second.op, third.op] = budgetPause run reason ∧
      ∃ step, firstUnfinished (readsOf earlier).steps = some step ∧
        (step.status.Waiting ∨ step.status = .running) ∧
        Permitted step.type ((readsOf earlier).fresh run) := by
  rcases pausing_drive runs with ⟨calls, ends⟩
  have answered := runs.answered (fun _ member => absurd member List.not_mem_nil)
  have results : ∀ call ∈ history, ¬ call.op.LeavesStore → ∃ result, call.answer = .ok result := by
    rintro ⟨before, op, answer, after⟩ member stays
    cases answer with
    | ok result => exact ⟨result, rfl⟩
    | error error => exact absurd (succeeds (answered _ member)) stays
  rcases calls earlier call later split with ⟨asks, sound, saw, _⟩
  rcases call with ⟨before, op, answer, after⟩
  cases begun
  have member : ⟨before, .appendEvent run.id .budgetExhausted none payload true, answer, after⟩ ∈
      history := by
    rw [split]
    exact List.mem_append_right _ (List.mem_cons_self ..)
  have returned : ∃ result, answer = .ok result := results _ member id
  rcases returned with ⟨result, rfl⟩
  rcases asks_pauses asks trivial with ⟨visit, reason, here, admitted, same⟩ | ⟨_, _, _, same⟩ |
    ⟨_, _, _, same⟩
  · cases same
    rw [here] at sound saw
    have selected : firstUnfinished visit.steps = some visit.step := sound
    have exhausted : (courseOf run hooked (earlier ++ [⟨before,
        .appendEvent run.id .budgetExhausted none (some [("reason", .str reason)]) true,
        .ok result, after⟩])).stage = .exhausted visit (some [("reason", .str reason)]) := by
      rw [courseOf_append]
      change (courseOf run hooked earlier).stage.next run hooked _ _ = _
      rw [here]
      rfl
    have resplit : history = (earlier ++ [⟨before,
        .appendEvent run.id .budgetExhausted none (some [("reason", .str reason)]) true,
        .ok result, after⟩]) ++ later := by
      rw [split, List.append_assoc]
      rfl
    rcases pause_completes runs results resplit exhausted with
      ⟨second, third, back, equal, marks, logs⟩
    refine ⟨second, third, back, reason, equal, by rw [marks, logs]; rfl, visit.step, ?_,
      admitted.unsettled, ?_⟩
    · rw [← saw.steps]
      exact selected
    · rw [← saw.fresh]
      exact admitted.permitted
  · cases same
  · cases same

/-- Every operation of a pause belongs to a whole one. -/
theorem pause_whole
    (succeeds : ∀ {before op error after}, world.serve before op (.error error) after →
      op.LeavesStore)
    (runs : Runs world.recorded (executeRunEvents registry run hooked fuel) (state, []) outcome
      (last, history)) {earlier later : History (engineSignature ι) (Raised ι) σ}
    {call : Served (engineSignature ι) (Raised ι) σ} (split : history = earlier ++ call :: later)
    (pauses : call.op.Pauses) :
    ∃ front first second third back reason, history = front ++ [first, second, third] ++ back ∧
      call ∈ [first, second, third] ∧ front.length ≤ earlier.length ∧
      earlier.length < front.length + 3 ∧
      [first.op, second.op, third.op] = budgetPause run reason ∧
      ∃ step, firstUnfinished (readsOf front).steps = some step ∧
        (step.status.Waiting ∨ step.status = .running) ∧
        Permitted step.type ((readsOf front).fresh run) := by
  rcases (pausing_drive runs).1 earlier call later split with ⟨asks, _, _, after⟩
  rcases asks_pauses asks pauses with ⟨visit, reason, here, _, same⟩ |
    ⟨visit, payload, here, same⟩ |
    ⟨visit, payload, here, same⟩
  · rcases pause_follows succeeds runs split same with
      ⟨second, third, back, reason, rfl, whole, gate⟩
    exact ⟨earlier, call, second, third, back, reason, by simp [split], by simp, le_rfl, by omega,
      whole, gate⟩
  · rw [here] at after
    rcases after with ⟨front, first, _, rfl, rfl, begun⟩
    have resplit : history = front ++ first :: call :: later := by
      rw [split, List.append_assoc]
      rfl
    rcases pause_follows succeeds runs resplit begun with
      ⟨second, third, back, reason, equal, whole, gate⟩
    cases equal
    exact ⟨front, first, call, third, back, reason, by simp [resplit], by simp, by simp, by simp,
      whole, gate⟩
  · rw [here] at after
    rcases after with ⟨front, first, second, _, rfl, rfl, begun, _⟩
    have resplit : history = front ++ first :: second :: call :: later := by
      rw [split, List.append_assoc]
      rfl
    rcases pause_follows succeeds runs resplit begun with
      ⟨_, third, back, reason, equal, whole, gate⟩
    cases equal
    exact ⟨front, first, second, call, later, reason, by simp [resplit], by simp, by simp, by simp,
      whole, gate⟩

end Pausing

/-- A drive of a run with a step budget, to its end or cut short. -/
def BudgetDrives [HostId ι] (world : World (engineSignature ι) (Raised ι) σ) (runId : ι)
    (limit : Nat) (state : σ) (calls : History (engineSignature ι) (Raised ι) σ) (here : σ) :
    Prop :=
  ∃ registry run hooked fuel outcome history last, run.id = runId ∧
    run.budgetMaxSteps = .int limit ∧
    Runs world.recorded (executeRunEvents registry run hooked fuel) (state, []) outcome
      (last, history) ∧ FixedBudget limit history ∧ Standing history last calls here

/-- The budget bounds the executed steps, wherever drives and the host have got to. -/
theorem executed_bounded [HostId ι] [DecidableEq ι]
    {world : World (engineSignature ι) (Raised ι) σ} {run : RunView ι} {book : σ → Book ι}
    {limit : Nat} (store : BookKept world run book Book.Unexecuted Book.Unexecuted)
    (positive : 0 < limit) {state here : σ}
    {history : History (engineSignature ι) (Raised ι) σ}
    (sessions : Sessions (BudgetDrives world run.id limit)
      (fun before after => (book before).Unexecuted (book after)) state history here)
    (distinct : (book state).order.Nodup) :
    (book here).executed ≤ max limit (book state).executed := by
  have kept := sessions.preserved (fun here =>
      (book here).order.Nodup ∧ (book here).executed ≤ max limit (book state).executed)
    ⟨distinct, le_max_right _ _⟩
    (fun {before after} known idle => by
      refine ⟨idle.distinct known.1, ?_⟩
      rw [idle.executed known.1]
      exact known.2)
    (fun known drive => by
      rcases drive with ⟨registry, drive, hooked, fuel, outcome, calls, last, same, own, runs,
        fixed, standing⟩
      have reached := budgeted_drive (store.of_id same) own positive
        (le_max_left limit (book state).executed) runs fixed known.1 known.2
      exact standing.holds (fun here =>
          (book here).order.Nodup ∧ (book here).executed ≤ max limit (book state).executed)
        (fun earlier call later split =>
          ⟨(reached.1 earlier call later split).distinct,
            (reached.1 earlier call later split).bounded⟩)
        ⟨reached.2.distinct, reached.2.bounded⟩)
  exact kept.2

/-- A handler is called in a pass that found the budget unspent. -/
theorem dispatch_within_budget [HostId ι] [DecidableEq ι]
    {world : World (engineSignature ι) (Raised ι) σ} {registry : ToolRegistry} {run : RunView ι}
    {hooked : Bool} {book : σ → Book ι} {limit : Nat}
    (store : BookKept world run book Book.Unexecuted Book.Unexecuted)
    (own : run.budgetMaxSteps = .int limit) (positive : 0 < limit) {fuel : Nat} {state last : σ}
    {outcome : Except (Raised ι) (Option Unit)}
    {history : History (engineSignature ι) (Raised ι) σ}
    (runs : Runs world.recorded (executeRunEvents registry run hooked fuel) (state, []) outcome
      (last, history)) (fixed : FixedBudget limit history) (distinct : (book state).order.Nodup)
    {earlier later : History (engineSignature ι) (Raised ι) σ}
    {call : Served (engineSignature ι) (Raised ι) σ} (split : history = earlier ++ call :: later)
    {handled : RunView ι} {step : StepView ι} (dispatches : call.op = .handle handled step) :
    (readsOf earlier).steps.countP (fun step => step.status.executed) < limit := by
  rcases (pausing_drive runs).1 earlier call later split with ⟨asks, sound, saw, _⟩
  have account := (budgeted_drive store own positive
    (le_max_left limit (book state).executed) runs fixed distinct (le_max_right _ _)).1
    earlier call later split
  rw [dispatches] at asks
  rcases asks_handle asks with ⟨visit, stepType, here, _⟩
  rw [here] at sound saw
  rw [← saw.steps]
  exact sound.2.spare own account.fixed saw positive

/-- A fixed step budget, over whole runs.  Neither the host nor its handlers execute
steps or take back that one was executed; they may append steps, pause and re-open the
run, and drive it again, also after a drive was cut short.  Then the executed steps stay
within the budget, or within their number at the start; a handler is called in a pass
that read fewer; a budget pause is whole, and begins at a step that passed the permission
gate; and when the unfinished steps lack their grants and nothing else moves, a drive
skips them all and completes the run. -/
theorem step_budget [HostId ι] [DecidableEq ι] {world : World (engineSignature ι) (Raised ι) σ}
    {run : RunView ι} {book : σ → Book ι} {limit : Nat}
    (store : BookKept world run book Book.Unexecuted Book.Unexecuted) (positive : 0 < limit) :
    (∀ state history here, Sessions (BudgetDrives world run.id limit)
        (fun before after => (book before).Unexecuted (book after)) state history here →
      (book state).order.Nodup → (book here).executed ≤ max limit (book state).executed) ∧
    (∀ registry drive hooked fuel state outcome last history, drive.id = run.id →
      drive.budgetMaxSteps = .int limit →
      Runs world.recorded (executeRunEvents registry drive hooked fuel) (state, []) outcome
        (last, history) → FixedBudget limit history → (book state).order.Nodup →
      (∀ earlier call later handled step, history = earlier ++ call :: later →
        call.op = .handle handled step →
        (readsOf earlier).steps.countP (fun step => step.status.executed) < limit) ∧
      ∀ earlier call later, history = earlier ++ call :: later → call.op.Pauses →
        ∃ front first second third back reason,
          history = front ++ [first, second, third] ++ back ∧ call ∈ [first, second, third] ∧
          front.length ≤ earlier.length ∧ earlier.length < front.length + 3 ∧
          [first.op, second.op, third.op] = budgetPause drive reason ∧
          ∃ step, firstUnfinished (readsOf front).steps = some step ∧
            (step.status.Waiting ∨ step.status = .running) ∧
            Permitted step.type ((readsOf front).fresh drive)) ∧
    (∀ (quiet : World (engineSignature ι) (Raised ι) σ) registry drive hooked fuel state outcome
        last history type, BookKept quiet drive book Book.Same Book.Same →
      drive.status ∉ terminalRunStatuses →
      Runs quiet.recorded (executeRunEvents registry drive hooked fuel) (state, []) outcome
        (last, history) → Steady drive type history → (book state).order.Nodup →
      (book state).Denied drive type →
      (∀ call ∈ history, ¬ call.op.PassesGate) ∧
      (outcome = .ok (some ()) → (book last).runStatus = .completed ∧
        (book last).order = (book state).order ∧ ∀ stepId ∈ (book state).order,
          (book last).status stepId =
            if ((book state).status stepId).done then (book state).status stepId
            else .skipped) ∧
      ((book state).unfinished < fuel → (∀ call ∈ history, ∃ result, call.answer = .ok result) →
        outcome = .ok (some ()))) := by
  refine ⟨?_, ?_, ?_⟩
  · intro state history here sessions distinct
    exact executed_bounded store positive sessions distinct
  · intro registry drive hooked fuel state outcome last history same own runs fixed distinct
    constructor
    · intro earlier call later handled step split dispatches
      exact dispatch_within_budget (store.of_id same) own positive runs fixed distinct split
        dispatches
    · intro earlier call later split pauses
      exact pause_whole store.succeeds runs split pauses
  · intro quiet registry drive hooked fuel state outcome last history type still alive runs
      steady distinct denied
    exact denied_plan_skipped still alive runs steady distinct denied

/-- A run with two model calls and a budget for one. -/
def thriftyHost : HostState :=
  .holding ⟨"run-1", .other "planned" RunStatus.planned_unlisted, some .autoComplete, false,
    .json .null, .int 1, .null, .json .null⟩
    [("step-1", ⟨"model_call", "Ask", .pending, false, none, none⟩),
      ("step-2", ⟨"model_call", "Ask again", .pending, false, none, none⟩)]

/-- It executes one, and pauses before the other. -/
theorem step_budget_thrifty :
    ∃ last history,
      Sessions (BudgetDrives (World.ofFn (plainRules.respond fun _ => 0)) thriftyHost.run.id 1)
        (fun before after => before.book.Unexecuted after.book) thriftyHost history last ∧
      last.run.status = .paused ∧
      last.order.map (fun stepId => (last.rows stepId).status) = [.completed, .pending] ∧
      last.book.executed ≤ max 1 thriftyHost.book.executed := by
  have idle : ∀ book : Book String, book.Unexecuted book := fun book =>
    ⟨List.prefix_rfl, id, fun _ _ => rfl, fun _ listed new => absurd listed new⟩
  have store : BookKept (World.ofFn (plainRules.respond fun _ => 0)) thriftyHost.run HostState.book
      Book.Unexecuted Book.Unexecuted :=
    HostRules.bookKept idle (fun _ _ => idle _) fun _ _ => idle _
  rcases record_ofFn (plainRules.respond fun _ => 0) (Course.advance thriftyHost.run true)
    (executeRunEvents ⟨["model_call"], by decide⟩ thriftyHost.run true 3) thriftyHost .start
    with ⟨history, runs, _⟩
  have fixed : FixedBudget 1 history :=
    HostRules.readsRun (fun _ _ budget => budget) (fun _ _ budget => budget)
      (fun _ _ budget => budget) runs rfl fun _ _ _ _ member => absurd member List.not_mem_nil
  have sessions : Sessions (BudgetDrives (World.ofFn (plainRules.respond fun _ => 0))
      thriftyHost.run.id 1) (fun before after => before.book.Unexecuted after.book) thriftyHost
      ([] ++ history) _ :=
    .session .nothing ⟨_, _, _, _, _, _, _, rfl, rfl, runs, fixed, .ended⟩
  exact ⟨_, _, sessions, by decide, by decide,
    (step_budget store Nat.one_pos).1 _ _ _ sessions (by decide)⟩

end SlimxAgent
