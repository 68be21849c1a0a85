import SlimxAgent.Book

/-!
# Drives of a stopped run

A drive that leaves its run awaiting approval leaves it at a gate that the next drive finds
shut in the same way.  So a second drive reads, marks the run running, marks it waiting
again, and does nothing else; of a run that has ended it does not even do that.
-/

namespace SlimxAgent

open Interaction

variable {ι σ : Type}

/-! ## What a store holds of a run -/

/-- A run with its steps and its log, as a store holds them. -/
@[ext]
structure StoredRun (ι : Type) where
  run : RunView ι
  /-- The steps, in execution order. -/
  order : List ι
  row : ι → StepView ι
  log : List Event
  identified : ∀ stepId, (row stepId).id = stepId

namespace StoredRun

def steps (stored : StoredRun ι) : List (StepView ι) :=
  stored.order.map stored.row

def setRunStatus (stored : StoredRun ι) (status : RunStatus) : StoredRun ι :=
  { stored with run := { stored.run with status := status } }

def setStepStatus [DecidableEq ι] (stored : StoredRun ι) (stepId : ι) (status : StepStatus) :
    StoredRun ι where
  run := stored.run
  order := stored.order
  row := Function.update stored.row stepId { stored.row stepId with status := status }
  log := stored.log
  identified := by
    intro other
    by_cases same : other = stepId
    · subst same
      rw [Function.update_self]
      exact stored.identified other
    · rw [Function.update_of_ne same]
      exact stored.identified other

def append (stored : StoredRun ι) (event : Event) : StoredRun ι :=
  { stored with log := stored.log ++ [event] }

/-- A host's own code may change what is stored, but does not send the run to review. -/
def Meddled (before after : StoredRun ι) : Prop :=
  after.run.id = before.run.id ∧
    (after.run.status = .awaitingApproval → before.run.status = .awaitingApproval)

/-- What a call changes. -/
def Wrote [HostId ι] [DecidableEq ι] (op : EngineOp ι) (before after : StoredRun ι) : Prop :=
  match op with
  | .setRunStatus _ status => after = before.setRunStatus status
  | .setStepState stepId status _ _ => after = before.setStepStatus stepId status
  | .appendEvent _ type stepId _ _ =>
      ∃ event : Event, event.Records type stepId ∧ after = before.append event
  | .handle _ _ => before.Meddled after
  | .rollback => before.Meddled after
  | .onRunEnd _ _ => before.Meddled after
  | _ => after = before

/-- What a result tells of what is stored. -/
def Answers (stored : StoredRun ι) : (op : EngineOp ι) → op.Res → Prop
  | .getRun runId, current => runId = stored.run.id → current = some stored.run
  | .getSteps runId, steps => runId = stored.run.id → steps = stored.steps
  | .nextSequence _, next => ∀ event ∈ stored.log, event.sequence < next
  | .drainedEvents _ afterSequence, events =>
      ∀ event ∈ events, event ∈ stored.log ∧ afterSequence < event.sequence
  | _, _ => True

end StoredRun

/-- A store that applies every write; only calls that leave it may raise. -/
structure StoreKept [HostId ι] [DecidableEq ι] (world : World (engineSignature ι) (Raised ι) σ)
    (stored : σ → StoredRun ι) : Prop where
  succeeds : ∀ {state op error after}, world.serve state op (.error error) after →
    op.LeavesStore
  wrote : ∀ {state op answer after}, world.serve state op answer after →
    StoredRun.Wrote op (stored state) (stored after)
  answers : ∀ {state op result after}, world.serve state op (.ok result) after →
    (stored after).Answers op result

/-! ## A run at its gate -/

/-- The run waits at the gate of its first unfinished step. -/
structure StoredRun.AtGate (stored : StoredRun ι) (step : StepView ι) : Prop where
  first : firstUnfinished stored.steps = some step
  waits : step.status = .awaitingApproval
  permitted : Permitted step.type stored.run
  within : stepBudgetReason stored.run.budgetMaxSteps stored.steps = none
  stops : (gateDecision stored.run step).stop = true

namespace StoredRun.AtGate

variable {stored : StoredRun ι} {step : StepView ι}

/-- The gate does not look at the status of the run. -/
theorem setRunStatus (gate : stored.AtGate step) (status : RunStatus) :
    (stored.setRunStatus status).AtGate step :=
  ⟨gate.first, gate.waits, gate.permitted, gate.within, gate.stops⟩

theorem append (gate : stored.AtGate step) (event : Event) : (stored.append event).AtGate step :=
  ⟨gate.first, gate.waits, gate.permitted, gate.within, gate.stops⟩

end StoredRun.AtGate

section Parking

variable [DecidableEq ι] {stored : StoredRun ι} {step : StepView ι}

omit [DecidableEq ι] in
/-- A step that is listed is the row of its id. -/
theorem StoredRun.row_of_first (first : firstUnfinished stored.steps = some step) :
    stored.row step.id = step ∧
      stored.order.find? (fun stepId => !((stored.row stepId).status == .completed ||
        (stored.row stepId).status == .skipped)) = some step.id := by
  rw [firstUnfinished, StoredRun.steps, List.find?_map, Option.map_eq_some_iff] at first
  rcases first with ⟨stepId, found, rfl⟩
  rw [stored.identified]
  exact ⟨rfl, found⟩

/-- Parking changes no other row. -/
theorem StoredRun.row_setStepStatus (stored : StoredRun ι) (stepId other : ι)
    (status : StepStatus) :
    (stored.setStepStatus stepId status).row other =
      if other = stepId then { stored.row stepId with status := status } else stored.row other := by
  rw [StoredRun.setStepStatus]
  by_cases same : other = stepId
  · subst same
    rw [if_pos rfl]
    exact Function.update_self ..
  · rw [if_neg same]
    exact Function.update_of_ne same ..

/-- A step that is parked is still the first unfinished one. -/
theorem firstUnfinished_parked (first : firstUnfinished stored.steps = some step) :
    firstUnfinished (stored.setStepStatus step.id .awaitingApproval).steps =
      some { step with status := .awaitingApproval } := by
  rcases StoredRun.row_of_first first with ⟨row, found⟩
  have unfinished := firstUnfinished_status first
  rw [firstUnfinished, StoredRun.steps, List.find?_map, Option.map_eq_some_iff]
  refine ⟨step.id, ?_, ?_⟩
  · rw [← found]
    apply congrArg (List.find? · stored.order)
    funext stepId
    rw [Function.comp_apply, StoredRun.row_setStepStatus]
    by_cases same : stepId = step.id
    · subst same
      rw [if_pos rfl, row, beq_eq_false_iff_ne.mpr unfinished.1,
        beq_eq_false_iff_ne.mpr unfinished.2]
      rfl
    · rw [if_neg same]
  · rw [StoredRun.row_setStepStatus, if_pos rfl, row]

/-- A pending step that is parked counts as executed no more than before. -/
theorem stepBudgetReason_parked (first : firstUnfinished stored.steps = some step)
    (pending : step.status = .pending) (budget : Json) :
    stepBudgetReason budget (stored.setStepStatus step.id .awaitingApproval).steps =
      stepBudgetReason budget stored.steps := by
  rcases StoredRun.row_of_first first with ⟨row, _⟩
  have executed : (stored.setStepStatus step.id .awaitingApproval).steps.countP
      (fun step => step.status == .completed || step.status == .failed) =
        stored.steps.countP fun step => step.status == .completed || step.status == .failed := by
    rw [StoredRun.steps, StoredRun.steps, List.countP_map, List.countP_map]
    apply congrArg (List.countP · stored.order)
    funext stepId
    rw [Function.comp_apply, Function.comp_apply, StoredRun.row_setStepStatus]
    by_cases same : stepId = step.id
    · subst same
      rw [if_pos rfl, row, pending]
      rfl
    · rw [if_neg same]
  rw [stepBudgetReason, stepBudgetReason, executed]

/-- Parking a step leaves the run at its gate. -/
theorem StoredRun.AtGate.parked (first : firstUnfinished stored.steps = some step)
    (pending : step.status = .pending) (permitted : Permitted step.type stored.run)
    (within : stepBudgetReason stored.run.budgetMaxSteps stored.steps = none)
    (stops : (gateDecision stored.run step).stop = true) :
    (stored.setStepStatus step.id .awaitingApproval).AtGate
      { step with status := .awaitingApproval } where
  first := firstUnfinished_parked first
  waits := rfl
  permitted := permitted
  within := (stepBudgetReason_parked first pending _).trans within
  stops := stops

end Parking

/-! ## The drive that stops -/

theorem StoredRun.Wrote.id [HostId ι] [DecidableEq ι] {op : EngineOp ι}
    {before after : StoredRun ι} (wrote : StoredRun.Wrote op before after) :
    after.run.id = before.run.id := by
  cases op with
  | appendEvent runId type stepId payload commit =>
      rcases wrote with ⟨event, _, rfl⟩
      rfl
  | handle run step => exact wrote.1
  | rollback => exact wrote.1
  | onRunEnd run status => exact wrote.1
  | _ =>
      cases wrote
      rfl

/-- A run that is not under review is not sent there by the host. -/
theorem StoredRun.Meddled.calm {before after : StoredRun ι} (meddled : before.Meddled after)
    (calm : before.run.status ≠ .awaitingApproval) : after.run.status ≠ .awaitingApproval :=
  fun waiting => calm (meddled.2 waiting)

/-- What a stage holds of the stored run.  A drive awaits approval at a gate or not at all. -/
def Stage.Waits (run : RunView ι) (stage : Stage ι) (stored : StoredRun ι) : Prop :=
  match stage with
  | .opening => stored.run.status = run.status
  | .opened => stored.run.status = run.status
  | .runRead current => stored.run.status ≠ .awaitingApproval ∧ current = some stored.run
  | .visiting visit => stored.run.status ≠ .awaitingApproval ∧ visit.fresh = stored.run ∧
      visit.steps = stored.steps
  | .parked _ _ => stored.run.status ≠ .awaitingApproval ∧ ∃ step, stored.AtGate step
  | .recording _ (.parks _ _) _ =>
      stored.run.status ≠ .awaitingApproval ∧ ∃ step, stored.AtGate step
  | .stopping _ => stored.run.status ≠ .awaitingApproval ∧ ∃ step, stored.AtGate step
  | .ended _ => stored.run.status = .awaitingApproval → ∃ step, stored.AtGate step
  | .broken _ => True
  | _ => stored.run.status ≠ .awaitingApproval

section Stopping

variable [HostId ι] [DecidableEq ι] {registry : ToolRegistry} {run : RunView ι} {hooked : Bool}
  {stage : Stage ι} {before after : StoredRun ι}

omit [HostId ι] [DecidableEq ι] in
theorem waits_hooking {status : RunStatus} (calm : after.run.status ≠ .awaitingApproval) :
    (Stage.hooking hooked status).Waits run after := by
  cases hooked with
  | true => exact calm
  | false => exact fun waiting => absurd waiting calm

omit [HostId ι] [DecidableEq ι] in
theorem waits_turns (turns : stage.turns = true) (waits : stage.Waits run before) :
    before.run.status ≠ .awaitingApproval := by
  cases stage <;> first | exact waits | cases turns

theorem waits_next {op : EngineOp ι} (sound : stage.Sound) (own : before.run.id = run.id)
    (waits : stage.Waits run before) (asks : Asks registry run stage op) {result : op.Res}
    (wrote : StoredRun.Wrote op before after) (answers : after.Answers op result) :
    (stage.next run hooked op result).Waits run after := by
  cases asks with
  | begins _ | repeats | pauses =>
      cases wrote
      intro waiting
      cases waiting
  | streams streams served =>
      rw [next_streams streams served result]
      cases op <;> first | (cases wrote; exact waits) | exact served.elim
  | rereads turns =>
      rw [next_turns turns result]
      cases wrote
      exact ⟨waits_turns turns waits, answers own.symm⟩
  | lists ongoing =>
      rename_i current
      cases wrote
      rcases waits with ⟨calm, rfl⟩
      have listed : result = before.steps := answers own.symm
      change (Stage.listed run (some before.run) result).Waits run before
      rw [Stage.listed]
      cases selected : firstUnfinished result with
      | none => exact calm
      | some step => exact ⟨calm, rfl, listed⟩
  | looks _ | skips _ _ | clears _ _ _ _ | enters _ _ =>
      cases wrote
      exact waits.1
  | exhausts _ _ =>
      rcases wrote with ⟨event, _, rfl⟩
      exact waits.1
  | parks affordable pending stops =>
      cases wrote
      rcases waits with ⟨calm, fresh, steps⟩
      exact ⟨calm, _, StoredRun.AtGate.parked (steps ▸ sound) pending
        (fresh ▸ affordable.permitted) (fresh ▸ steps ▸ affordable.within) (fresh ▸ stops)⟩
  | stops affordable waiting stops =>
      cases wrote
      rcases waits with ⟨calm, fresh, steps⟩
      have gate : before.AtGate _ := ⟨steps ▸ sound, waiting, fresh ▸ affordable.permitted,
        fresh ▸ steps ▸ affordable.within, fresh ▸ stops⟩
      exact fun _ => ⟨_, gate.setRunStatus _⟩
  | reports | reportsRan _ =>
      rcases wrote with ⟨event, _, rfl⟩
      exact waits
  | logsPause =>
      rcases wrote with ⟨event, _, rfl⟩
      exact fun waiting => absurd waiting waits
  | records =>
      rename_i visit mark row
      rcases wrote with ⟨event, _, rfl⟩
      cases mark with
      | parks title reason =>
          rcases waits with ⟨calm, step, gate⟩
          exact ⟨calm, step, gate.append event⟩
      | _ => exact waits
  | waits =>
      cases wrote
      rcases waits with ⟨_, step, gate⟩
      exact fun _ => ⟨step, gate.setRunStatus _⟩
  | handles _ | rollsBack _ => exact wrote.calm waits
  | refetches =>
      cases wrote
      cases result <;> exact waits
  | settles =>
      rcases sound with ⟨_, _, _, _, rfl | rfl⟩ <;>
        (cases wrote; exact waits)
  | failsRun =>
      cases wrote
      apply waits_hooking
      intro waiting
      cases waiting
  | completesRun _ =>
      cases wrote
      intro waiting
      cases waiting
  | logsCompletion =>
      rcases wrote with ⟨event, _, rfl⟩
      exact waits_hooking waits
  | notifies => exact fun waiting => absurd waiting (wrote.calm waits)
  | _ =>
      cases wrote
      exact waits

/-- Every call of a drive keeps what its stage holds. -/
theorem waits_served {world : World (engineSignature ι) (Raised ι) σ} {stored : σ → StoredRun ι}
    (store : StoreKept world stored) (sound : stage.Sound) {op : EngineOp ι}
    (asks : Asks registry run stage op) {here there : σ} {answer : Except (Raised ι) op.Res}
    (served : world.serve here op answer there) {passes : Nat}
    (known : (stored here).run.id = run.id ∧ stage.Waits run (stored here)) :
    (stored there).run.id = run.id ∧
      ((Course.mk stage passes).advance run hooked ⟨here, op, answer, there⟩).stage.Waits run
        (stored there) := by
  have wrote := store.wrote served
  refine ⟨wrote.id.trans known.1, ?_⟩
  cases answer with
  | ok result => exact waits_next sound known.1 known.2 asks wrote (store.answers served)
  | error error =>
      have leaves := store.succeeds served
      cases op with
      | handle handled step =>
          rcases asks_handle asks with ⟨visit, stepType, rfl, _⟩
          exact wrote.calm known.2
      | onRunEnd ended status => exact trivial
      | yieldEvent payload => exact trivial
      | _ => exact leaves.elim

/-- A drive that returned with its run awaiting approval left it at a gate. -/
theorem awaiting_atGate {world : World (engineSignature ι) (Raised ι) σ}
    {stored : σ → StoredRun ι} (store : StoreKept world stored) {fuel : Nat} {state last : σ}
    {history : History (engineSignature ι) (Raised ι) σ}
    (runs : Runs world.recorded (executeRunEvents registry run hooked fuel) (state, [])
      (.ok (some ())) (last, history))
    (own : (stored state).run.id = run.id) (current : (stored state).run.status = run.status)
    (awaiting : (stored last).run.status = .awaitingApproval) :
    ∃ step, (stored last).AtGate step := by
  have kept := course_invariant (fun here course _ =>
      (stored here).run.id = run.id ∧ course.stage.Waits run (stored here)) runs
    (fun sound asks known served => waits_served store sound asks served known) ⟨own, current⟩
  rcases kept with ⟨_, ⟨_, waits⟩, ends⟩
  have returns : (courseOf run hooked history).stage.Returns run := ends
  generalize (courseOf run hooked history).stage = stage at waits returns
  cases stage with
  | opened =>
      have ended : run.status ∈ terminalRunStatuses := returns
      rw [← waits, awaiting] at ended
      exact absurd ended (by decide)
  | runRead current => exact absurd awaiting waits.1
  | judged visit ran => exact absurd awaiting waits
  | finalRead current => exact absurd awaiting waits
  | ended status => exact waits awaiting
  | _ => exact returns.elim

end Stopping

/-! ## The drive that follows -/

/-- The calls of a drive that stands still: reads, the clock, and marks of the run. -/
def EngineOp.Idle : EngineOp ι → Prop
  | .getRun _ => True
  | .getSteps _ => True
  | .setRunStatus _ _ => True
  | .nextSequence _ => True
  | .drainedEvents _ _ => True
  | .now => True
  | _ => False

section Following

variable [HostId ι] [DecidableEq ι] {world : World (engineSignature ι) (Raised ι) σ}
  {stored : σ → StoredRun ι} {registry : ToolRegistry} {run : RunView ι} {hooked : Bool}
  {left : StoredRun ι} {step : StepView ι} {status : RunStatus} {cursor : Int} {state : σ}

theorem wp_idle (store : StoreKept world stored) {op : EngineOp ι} (idle : op.Idle) (state : σ) :
    wp world (fun _ op => op.Idle) (@Program.perform (engineSignature ι) (Raised ι) op)
      (fun result after => StoredRun.Wrote op (stored state) (stored after) ∧
        (stored after).Answers op result) (fun _ _ => False) state := by
  apply wp_perform.mpr
  refine ⟨idle, fun _ _ served => ⟨store.wrote served, store.answers served⟩, ?_⟩
  intro error after served
  have leaves := store.succeeds served
  cases op <;> first | exact leaves.elim | exact idle.elim

/-- A cursor past the log finds nothing to serve. -/
theorem wp_drain_past (store : StoreKept world stored)
    (past : ∀ event ∈ (stored state).log, event.sequence ≤ cursor) :
    wp world (fun _ op => op.Idle) (drain run.id cursor)
      (fun reached after => reached = cursor ∧ stored after = stored state) (fun _ _ => False)
      state := by
  have reads : EngineOp.Idle (.drainedEvents run.id cursor) := trivial
  apply wp_seq (wp_idle store reads state)
  rintro events after ⟨wrote, served⟩
  have same : stored after = stored state := wrote
  have nothing : events = [] := by
    apply List.eq_nil_iff_forall_not_mem.mpr
    intro event member
    rcases served event member with ⟨logged, beyond⟩
    have before := past event (same ▸ logged)
    omega
  rw [nothing]
  exact ⟨rfl, same⟩

theorem wp_marks (store : StoreKept world stored) (written : RunStatus)
    (here : stored state = left.setRunStatus status) :
    wp world (fun _ op => op.Idle) (setRunStatus run written)
      (fun _ after => stored after = left.setRunStatus written) (fun _ _ => False) state := by
  have marks : EngineOp.Idle (.setRunStatus run written) := trivial
  apply wp_post (wp_idle store marks state)
  rintro _ after ⟨wrote, _⟩
  have same : stored after = (stored state).setRunStatus written := wrote
  rw [same, here]
  rfl

/-- The gates find the step as they left it. -/
theorem wp_visitStep_atGate (store : StoreKept world stored) (gate : left.AtGate step)
    (unlimited : wallBudget left.run.budgetMaxWallSeconds = none)
    (past : ∀ event ∈ left.log, event.sequence ≤ cursor) (driveStarted : ℚ)
    (here : stored state = left.setRunStatus status) :
    wp world (fun _ op => op.Idle)
      (visitStep registry run hooked driveStarted (left.setRunStatus status).run left.steps step
        cursor)
      (VisitEnd (fun _ _ => False) fun after => stored after = left.setRunStatus .awaitingApproval)
      (fun _ _ => False) state := by
  have stops : wp world (fun _ op => op.Idle)
      (stopAtGate run step (gateDecision (left.setRunStatus status).run step).reason cursor)
      (VisitEnd (fun _ _ => False) fun after => stored after = left.setRunStatus .awaitingApproval)
      (fun _ _ => False) state := by
    have parked : parkPending run step (gateDecision (left.setRunStatus status).run step).reason =
        .done () := by
      rw [parkPending, gate.waits]
      rfl
    rw [stopAtGate, parked, Program.done_bind]
    apply wp_seq (wp_marks store .awaitingApproval here)
    intro _ marked waiting
    apply wp_drainAndReturn_of
    have beyond : ∀ event ∈ (stored marked).log, event.sequence ≤ cursor := by
      rw [waiting]
      exact past
    apply wp_post (wp_drain_past store beyond)
    intro _ after drained
    exact drained.2.trans waiting
  apply wp_visitStep_of gate.first
  · intro text unlisted other
    cases gate.waits.symm.trans other
  · intro failed
    cases gate.waits.symm.trans failed
  · intro reason running
    cases gate.waits.symm.trans running
  · intro reason _ blocked
    have permitted := permissionBlockReason_eq_none.mpr gate.permitted
    cases permitted.symm.trans blocked
  · intro _ _
    have passes : budgetExhaustedReason (left.setRunStatus status).run left.steps driveStarted =
        .done none := by
      rw [← gate.within]
      exact budgetExhaustedReason_unlimited unlimited left.steps driveStarted
    rw [budgetGate, passes, Program.done_bind]
    apply wp_approvalGate_of
    · intro _ _
      exact stops
    · intro _ proceeds
      cases gate.stops.symm.trans proceeds
    · intro ungated
      exact absurd (.inr gate.waits) ungated
    · intro _ never
      exact False.elim never

/-- The pass that finds the run at its gate. -/
theorem wp_loopPass_atGate (store : StoreKept world stored) (gate : left.AtGate step)
    (own : left.run.id = run.id) (unlimited : wallBudget left.run.budgetMaxWallSeconds = none)
    (past : ∀ event ∈ left.log, event.sequence ≤ cursor) (driveStarted : ℚ)
    (here : stored state = left.setRunStatus .running) :
    wp world (fun _ op => op.Idle) (loopPass registry run hooked driveStarted cursor)
      (PassEnd (fun _ _ => False)
        (fun after => stored after = left.setRunStatus .awaitingApproval) fun _ _ => False)
      (fun _ _ => False) state := by
  have reads : EngineOp.Idle (.getRun run.id) := trivial
  have lists : EngineOp.Idle (.getSteps run.id) := trivial
  have going : userStopped (some (left.setRunStatus .running).run) = false := rfl
  have read : wp world (fun _ op => op.Idle) (getRun run.id)
      (fun current after => current = some (left.setRunStatus .running).run ∧
        stored after = left.setRunStatus .running) (fun _ _ => False) state := by
    apply wp_post (wp_idle store reads state)
    rintro current after ⟨wrote, answers⟩
    have same : stored after = left.setRunStatus .running := wrote.trans here
    have own' : run.id = (stored after).run.id := by
      rw [same]
      exact own.symm
    have shown : current = some (stored after).run := answers own'
    exact ⟨same ▸ shown, same⟩
  apply wp_loopPass_of (fun current steps after =>
    current = some (left.setRunStatus .running).run ∧ steps = left.steps ∧
      stored after = left.setRunStatus .running) read
  · rintro _ after stopped ⟨rfl, _⟩
    cases going.symm.trans stopped
  · rintro current after _ ⟨shown, kept⟩
    apply wp_post (wp_idle store lists after)
    rintro steps there ⟨wrote, answers⟩
    have same : stored there = left.setRunStatus .running := wrote.trans kept
    have own' : run.id = (stored there).run.id := by
      rw [same]
      exact own.symm
    have listed : steps = (stored there).steps := answers own'
    rw [same] at listed
    exact ⟨shown, listed, same⟩
  · rintro current _ after finished ⟨_, rfl, _⟩
    cases gate.first.symm.trans finished
  · rintro _ _ selected after _ first ⟨rfl, rfl, kept⟩
    have same : step = selected := Option.some.inj (gate.first.symm.trans first)
    subst same
    exact wp_visitStep_atGate store gate unlimited past driveStarted kept

/-- A drive of a run at its gate takes one pass. -/
theorem wp_executeRunEvents_atGate (store : StoreKept world stored)
    (gate : (stored state).AtGate step) (own : (stored state).run.id = run.id)
    (alive : run.status ∉ terminalRunStatuses)
    (unlimited : wallBudget (stored state).run.budgetMaxWallSeconds = none) (fuel : Nat) :
    wp world (fun _ op => op.Idle) (executeRunEvents registry run hooked (fuel + 1))
      (fun result after => result = some () ∧
        stored after = (stored state).setRunStatus .awaitingApproval)
      (fun _ _ => False) state := by
  have numbers : EngineOp.Idle (.nextSequence run.id) := trivial
  have clocks : EngineOp.Idle (ι := ι) .now := trivial
  have numbered : wp world (fun _ op => op.Idle) (nextSequence run.id)
      (fun next after => stored after = stored state ∧
        ∀ event ∈ (stored state).log, event.sequence ≤ next - 1) (fun _ _ => False) state := by
    apply wp_post (wp_idle store numbers state)
    rintro next after ⟨wrote, answers⟩
    have same : stored after = stored state := wrote
    refine ⟨same, ?_⟩
    intro event member
    have before := answers event (same.symm ▸ member)
    omega
  have drains : ∀ next after, (stored after = (stored state).setRunStatus .running ∧
      ∀ event ∈ (stored state).log, event.sequence ≤ next - 1) →
      wp world (fun _ op => op.Idle) (drain run.id (next - 1))
        (fun cursor there => stored there = (stored state).setRunStatus .running ∧
          ∀ event ∈ (stored state).log, event.sequence ≤ cursor) (fun _ _ => False) after := by
    rintro next after ⟨running, past⟩
    have beyond : ∀ event ∈ (stored after).log, event.sequence ≤ next - 1 := by
      rw [running]
      exact past
    apply wp_post (wp_drain_past store beyond)
    rintro _ there ⟨rfl, kept⟩
    exact ⟨kept.trans running, past⟩
  -- The pass does not come back, so the fuel is as it was at the only head there is.
  refine wp_executeRunEvents_counted
    (fun left cursor after => left = fuel + 1 ∧
      stored after = (stored state).setRunStatus .running ∧
      ∀ event ∈ (stored state).log, event.sequence ≤ cursor)
    (fun after => stored after = (stored state).setRunStatus .awaitingApproval)
    (fun _ _ => False) numbered ?_ ?_ drains ?_ ?_ ?_ ?_ ?_
  · intro next after ended _
    exact absurd ended alive
  · rintro next after _ ⟨kept, past⟩
    have unmarked : stored after = (stored state).setRunStatus (stored state).run.status := kept
    apply wp_post (wp_marks store .running unmarked)
    intro _ there running
    exact ⟨running, past⟩
  · rintro cursor after ⟨running, past⟩
    apply wp_post (wp_idle store clocks after)
    rintro _ there ⟨wrote, _⟩
    have kept : stored there = stored after := wrote
    exact ⟨rfl, kept.trans running, past⟩
  · rintro driveStarted left cursor after ⟨_, running, past⟩
    apply wp_post (wp_loopPass_atGate store gate own unlimited past driveStarted running)
    rintro (again | _ | cursor) there ends
    · exact ends.elim
    · exact ends
    · exact ends.elim
  · rintro cursor after ⟨exhausted, _⟩
    cases exhausted
  · intro after waiting
    exact ⟨rfl, waiting⟩
  · intro cursor after never
    exact never.elim

/-- A drive of a run that has ended reads the next sequence and returns. -/
theorem wp_executeRunEvents_ended (store : StoreKept world stored)
    (ended : run.status ∈ terminalRunStatuses) (fuel : Nat) (state : σ) :
    wp world (fun _ op => op.Idle) (executeRunEvents registry run hooked fuel)
      (fun result after => result = some () ∧ stored after = stored state) (fun _ _ => False)
      state := by
  have numbers : EngineOp.Idle (.nextSequence run.id) := trivial
  apply wp_seq (wp_idle store numbers state)
  rintro next after ⟨wrote, _⟩
  rw [if_pos ended]
  exact ⟨rfl, wrote⟩

end Following

/-- Driving a stopped run again, over a store that applies every write.  Host code that
runs in the first drive changes what it likes, but does not send the run to review.  When
that drive returned and left the run ended, or awaiting approval without a wall budget, the
next drive of what it left returns too; it reads and marks the run, makes no other call,
and everything stored is as it was. -/
theorem redrive_idle [HostId ι] [DecidableEq ι] {world : World (engineSignature ι) (Raised ι) σ}
    {stored : σ → StoredRun ι} (store : StoreKept world stored) {registry : ToolRegistry}
    {run : RunView ι} {hooked : Bool} {fuel : Nat} {state last : σ}
    {history : History (engineSignature ι) (Raised ι) σ}
    (first : Runs world.recorded (executeRunEvents registry run hooked fuel) (state, [])
      (.ok (some ())) (last, history))
    (own : (stored state).run.id = run.id) (current : (stored state).run.status = run.status)
    (stopped : (stored last).run.status = .awaitingApproval ∨
      (stored last).run.status ∈ terminalRunStatuses)
    (unlimited : wallBudget (stored last).run.budgetMaxWallSeconds = none) {again after : σ}
    (unchanged : stored again = stored last) {tools : ToolRegistry} {reread : RunView ι}
    (sameRun : (stored last).run.id = reread.id)
    (sameStatus : (stored last).run.status = reread.status) {notified : Bool} {passes : Nat}
    {outcome : Except (Raised ι) (Option Unit)}
    {calls : History (engineSignature ι) (Raised ι) σ}
    (second : Runs world.recorded (executeRunEvents tools reread notified (passes + 1)) (again, [])
      outcome (after, calls)) :
    outcome = .ok (some ()) ∧ stored after = stored last ∧ ∀ call ∈ calls, call.op.Idle := by
  have idles : wp world (fun _ op => op.Idle) (executeRunEvents tools reread notified (passes + 1))
      (fun result there => result = some () ∧ stored there = stored last) (fun _ _ => False)
      again := by
    rcases stopped with awaiting | ended
    · rcases awaiting_atGate store first own current awaiting with ⟨step, gate⟩
      rw [← unchanged] at gate sameRun unlimited
      have alive : reread.status ∉ terminalRunStatuses := by
        rw [← sameStatus, awaiting]
        decide
      apply wp_post (wp_executeRunEvents_atGate store gate sameRun alive unlimited passes)
      rintro result there ⟨returned, kept⟩
      refine ⟨returned, ?_⟩
      rw [kept, unchanged, ← awaiting]
      rfl
    · rw [← unchanged]
      exact wp_executeRunEvents_ended store (sameStatus ▸ ended) (passes + 1) again
  rcases second.outlined idles fun _ none => absurd none List.not_mem_nil with ⟨ends, quiet⟩
  cases outcome with
  | ok result => exact ⟨congrArg Except.ok ends.1, ends.2, quiet⟩
  | error error => exact ends.elim

/-! ## A host's rows -/

def HostState.stored (state : HostState) : StoredRun String where
  run := state.run
  order := state.order
  row stepId := (state.rows stepId).view stepId
  log := state.log
  identified _ := rfl

theorem HostState.stored_setRow (state : HostState) (stepId : String) (status : StepStatus)
    (error : Given (Option String)) (outputRefs : Given (Option Dict)) :
    (state.setRow stepId ((state.rows stepId).transition status error outputRefs)).stored =
      state.stored.setStepStatus stepId status := by
  have rows : (fun other => (Function.update state.rows stepId
      ((state.rows stepId).transition status error outputRefs) other).view other) =
      Function.update state.stored.row stepId
        { state.stored.row stepId with status := status } := by
    funext other
    by_cases same : other = stepId
    · subst same
      rw [Function.update_self, Function.update_self]
      rfl
    · rw [Function.update_of_ne same, Function.update_of_ne same]
      rfl
  exact StoredRun.ext rfl rfl rows rfl

theorem HostState.stored_append (state : HostState) (entry : LogEntry) :
    (state.append entry).stored =
      state.stored.append (entry.event state.run.id state.nextSequence) := by
  have grown : (state.append entry).log = state.log ++ [entry].mapIdx fun index added =>
      added.event state.run.id (state.nextSequence + index) :=
    HostState.log_extends rfl rfl rfl
  simp only [HostState.stored, StoredRun.append, grown]
  rfl

/-- A host that serves a drive from its rows is such a store. -/
theorem HostRules.storeKept {rules : HostRules} {clock : HostState → ℚ}
    (invokes : ∀ stepId (state : HostState),
      state.stored.Meddled (rules.invoke stepId state).2.stored)
    (ends : ∀ status (state : HostState),
      state.stored.Meddled (rules.epilogue status state).stored) :
    StoreKept (World.ofFn (rules.respond clock)) HostState.stored where
  succeeds served := HostRules.leavesStore_of_raised served
  wrote {state op answer after} served := by
    have left : (rules.respond clock op state).2 = after := congrArg Prod.snd served
    subst left
    cases op with
    | setStepState stepId status error outputRefs => exact HostState.stored_setRow ..
    | appendEvent runId type stepId payload commit =>
        exact ⟨_, LogEntry.event_records .., HostState.stored_append ..⟩
    | handle run step => exact invokes step.id state
    | rollback => exact ⟨rfl, id⟩
    | onRunEnd run status => exact ends status { state with runEnds := state.runEnds ++ [status] }
    | _ => rfl
  answers {state op result after} served := by
    have answered : rules.respond clock op state = (.ok result, after) := served
    cases op with
    | getRun runId =>
        cases answered
        exact fun own => if_pos own
    | getSteps runId =>
        cases answered
        intro _
        rw [StoredRun.steps]
        rfl
    | nextSequence runId =>
        cases answered
        exact fun event member => HostState.sequence_lt_of_mem_log member
    | drainedEvents runId sequence =>
        cases answered
        intro event member
        rcases List.mem_filter.mp member with ⟨logged, beyond⟩
        exact ⟨logged, of_decide_eq_true beyond⟩
    | _ => trivial

/-- A run of a model call and a connector call, which no policy lets through. -/
def reviewedHost : HostState :=
  .holding ⟨"run-1", .other "planned" RunStatus.planned_unlisted, some .autoComplete, false,
    .json (.arr [.str "mcp_tools"]), .null, .null, .json .null⟩
    [("step-1", ⟨"model_call", "Ask", .pending, false, none, none⟩),
      ("step-2", ⟨"mcp_call", "Call a connector", .pending, false, none, none⟩)]

def reviewedTools : ToolRegistry := ⟨["model_call", "mcp_call"], by decide⟩

/-- The host as the first drive of its run leaves it. -/
def parkedHost : HostState :=
  ((executeRunEvents reviewedTools reviewedHost.run true 3).eval (plainRules.respond fun _ => 0)
    reviewedHost).2

/-- The first drive parks the connector call, the second does nothing. -/
theorem redrive_idle_reviewed :
    parkedHost.run.status = .awaitingApproval ∧
    parkedHost.entries.map LogEntry.type = ["agent.step.started", "agent.step.completed",
      "agent.approval.required"] ∧
    ∃ after calls,
      Runs (World.ofFn (plainRules.respond fun _ => 0)).recorded
        (executeRunEvents reviewedTools parkedHost.run true 3) (parkedHost, []) (.ok (some ()))
        (after, calls) ∧
      after.stored = parkedHost.stored ∧ ∀ call ∈ calls, call.op.Idle := by
  have store : StoreKept (World.ofFn (plainRules.respond fun _ => 0)) HostState.stored :=
    HostRules.storeKept (fun _ _ => ⟨rfl, id⟩) fun _ _ => ⟨rfl, id⟩
  have parked : parkedHost.run.status = .awaitingApproval := by decide
  rcases record_ofFn (plainRules.respond fun _ => 0) (Course.advance reviewedHost.run true)
    (executeRunEvents reviewedTools reviewedHost.run true 3) reviewedHost .start
    with ⟨history, first, _⟩
  rcases record_ofFn (plainRules.respond fun _ => 0) (Course.advance parkedHost.run true)
    (executeRunEvents reviewedTools parkedHost.run true 3) parkedHost .start
    with ⟨calls, second, _⟩
  have idle := redrive_idle store first rfl rfl (.inl parked) rfl rfl rfl rfl second
  exact ⟨parked, by decide, _, calls, second, idle.2⟩

end SlimxAgent
