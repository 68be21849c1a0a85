import SlimxAgent.Host
import SlimxAgent.Outline
import SlimxAgent.Interaction.Monitor

/-!
# Permission safety

A step is entered only when the run read at the top of the same pass grants the tool
of the type that the step was listed with.  The host is arbitrary: it may answer every
call with anything, so the run, its grants and its steps may change between any two
calls.  Grants are checked once in a pass: the handler is that of the type which the
step shows when it is looked up, and a host that gives the step another type in between
has the tool of that type called (`retyped_ungranted`).

A pass is followed by a monitor, which holds what the pass has read and what the
drive has asked for since.
-/

namespace SlimxAgent

open Interaction

/-- Where a drive stands in its current pass. -/
inductive PassState (ι : Type) where
  /-- No step is selected. -/
  | outside
  | runRead (current : Option (RunView ι))
  /-- The run as read (the drive's own when the read returned `None`), the selected
  step, the type it showed last, and the operations asked for since. -/
  | visiting (fresh : RunView ι) (step : StepView ι) (shown : String)
      (since : List (EngineOp ι))

variable {ι σ : Type}

namespace PassState

/-- Follow one answered call of a drive of `run`. -/
def advance (run : RunView ι) (pass : PassState ι)
    (call : Served (engineSignature ι) (Raised ι) σ) : PassState ι :=
  match call with
  | ⟨_, .getRun _, .ok current, _⟩ => .runRead current
  | ⟨_, .getRun _, .error _, _⟩ => .outside
  | ⟨_, .getSteps _, .ok steps, _⟩ =>
      match pass, firstUnfinished steps with
      | .runRead current, some step => .visiting (current.getD run) step step.type []
      | _, _ => .outside
  | ⟨_, .currentType asked, .ok stepType, _⟩ =>
      match pass with
      | .visiting fresh step _ since =>
          .visiting fresh step stepType (since ++ [.currentType asked])
      | other => other
  | ⟨_, op, _, _⟩ =>
      match pass with
      | .visiting fresh step shown since => .visiting fresh step shown (since ++ [op])
      | other => other

end PassState

/-- The operation asks for the running transition of a step, or calls its handler. -/
def EngineOp.Dispatches (stepId : ι) : EngineOp ι → Prop
  | .setStepState id .running _ _ => id = stepId
  | .handle _ step => step.id = stepId
  | _ => False

/-- The order of an honest skip: the write, its event, then only the live stream
until the next pass. -/
def NextOfSkip (run : RunView ι) (step : StepView ι) (since : List (EngineOp ι))
    (op : EngineOp ι) : Prop :=
  match since with
  | [] => op = .setStepState step.id .skipped (.given none) .unset
  | [_] => ∃ reason, op = .appendEvent run.id .stepSkipped (some step.id)
      (some [("type", .str step.type), ("reason", .str reason)]) true
  | _ => op = .getRun run.id ∨ op.Streams run.id

/-- What a pass may ask for once it has selected a step. -/
structure PermissionRule (run fresh : RunView ι) (step : StepView ι) (shown : String)
    (since : List (EngineOp ι)) (op : EngineOp ι) : Prop where
  /-- Only the selected step is dispatched, and only if the tool of the type it was
  listed with is granted. -/
  dispatch : ∀ stepId, op.Dispatches stepId → stepId = step.id ∧ Permitted step.type fresh
  /-- The handler is that of the type the step showed last. -/
  handler : ∀ handed handled, op = .handle handed handled → handled.type = shown
  skip : ¬ Permitted step.type fresh → step.status.Waiting → NextOfSkip run step since op
  /-- A running step without its grant: no call at all. -/
  refuse : ¬ Permitted step.type fresh → step.status ≠ .running

/-- The permission rule of a drive, wherever it stands. -/
def PermissionGuard (run : RunView ι) : PassState ι → EngineOp ι → Prop
  | .visiting fresh step shown since, op => PermissionRule run fresh step shown since op
  | _, op => ∀ stepId, ¬ op.Dispatches stepId

/-- How a drive may end in a pass that selected a step without its grant. -/
structure PermissionEnd (fresh : RunView ι) (step : StepView ι) (since : List (EngineOp ι))
    (outcome : Except (Raised ι) (Option Unit)) : Prop where
  /-- A waiting step was written skipped, with its event unless the write raised. -/
  skipped : ¬ Permitted step.type fresh → step.status.Waiting →
    2 ≤ since.length ∨ since.length = 1 ∧ ∃ error, outcome = .error error
  refused : ¬ Permitted step.type fresh → step.status = .running →
    since = [] ∧ ∃ reason, permissionBlockReason step fresh = some reason ∧
      outcome = .error (.runningStepNotPermitted step.id reason)

def PermissionEnds (outcome : Except (Raised ι) (Option Unit)) : PassState ι → Prop
  | .visiting fresh step _ since => PermissionEnd fresh step since outcome
  | _ => True

/-! ## Passes whose step is not held back -/

section Proof

variable {world : World (engineSignature ι) (Raised ι) σ} {run fresh : RunView ι}
  {step : StepView ι} {steps : List (StepView ι)}

/-- The guard over the states of a monitored drive. -/
def permissionGuard (σ : Type) (run : RunView ι) (state : σ × PassState ι) (op : EngineOp ι) :
    Prop :=
  PermissionGuard run state.2 op

/-- An exception may end the drive here. -/
def RaisedWell (error : Raised ι) (state : σ × PassState ι) : Prop :=
  PermissionEnds (.error error) state.2

/-- A step whose permission gate is open, or that was found failed. -/
def Unblocked (fresh : RunView ι) (step : StepView ι) : Prop :=
  Permitted step.type fresh ∨ step.status = .failed

/-- The pass has selected the step. -/
def Visiting (fresh : RunView ι) (step : StepView ι) (state : σ × PassState ι) : Prop :=
  ∃ shown since, state.2 = .visiting fresh step shown since

/-- The selected step showed this type last. -/
def TypeShown (fresh : RunView ι) (step : StepView ι) (shown : String)
    (state : σ × PassState ι) : Prop :=
  ∃ since, state.2 = .visiting fresh step shown since

/-- Operations on the selected step of a pass other than the call of its handler; it is
entered only if permitted. -/
def OnSelected (fresh : RunView ι) (step : StepView ι) : EngineOp ι → Prop
  | .getRun _ => False
  | .getSteps _ => False
  | .setStepState id .running _ _ => id = step.id ∧ Permitted step.type fresh
  | .handle _ _ => False
  | _ => True

theorem OnSelected.dispatch {op : EngineOp ι} (onSelected : OnSelected fresh step op)
    (stepId : ι) (dispatches : op.Dispatches stepId) :
    stepId = step.id ∧ Permitted step.type fresh := by
  cases op with
  | setStepState id status error outputRefs =>
      cases status with
      | running =>
          rw [EngineOp.Dispatches] at dispatches
          rw [← dispatches]
          exact onSelected
      | _ => exact dispatches.elim
  | handle run handled => exact onSelected.elim
  | _ => exact dispatches.elim

theorem OnSelected.not_handle {op : EngineOp ι} (onSelected : OnSelected fresh step op)
    (handed : RunView ι) (handled : StepView ι) : op ≠ .handle handed handled := by
  rintro rfl
  exact onSelected

theorem Unblocked.not_waiting (unblocked : Unblocked fresh step)
    (missing : ¬ Permitted step.type fresh) : ¬ step.status.Waiting := by
  cases unblocked with
  | inl permitted => exact absurd permitted missing
  | inr failed =>
      rw [failed]
      simp [StepStatus.Waiting]

theorem Unblocked.not_running (unblocked : Unblocked fresh step)
    (missing : ¬ Permitted step.type fresh) : step.status ≠ .running := by
  cases unblocked with
  | inl permitted => exact absurd permitted missing
  | inr failed =>
      rw [failed]
      exact StepStatus.noConfusion

theorem Unblocked.rule (unblocked : Unblocked fresh step) {op : EngineOp ι}
    (onSelected : OnSelected fresh step op) (shown : String) (since : List (EngineOp ι)) :
    PermissionRule run fresh step shown since op where
  dispatch := onSelected.dispatch
  handler handed handled same := absurd same (onSelected.not_handle handed handled)
  skip missing waiting := absurd waiting (unblocked.not_waiting missing)
  refuse missing := unblocked.not_running missing

theorem Unblocked.ends (unblocked : Unblocked fresh step) {state : σ × PassState ι}
    (visiting : Visiting fresh step state) (outcome : Except (Raised ι) (Option Unit)) :
    PermissionEnds outcome state.2 := by
  obtain ⟨shown, since, equal⟩ := visiting
  rw [equal]
  constructor
  · intro missing waiting
    exact absurd waiting (unblocked.not_waiting missing)
  · intro missing running
    exact absurd running (unblocked.not_running missing)

theorem advance_visiting {op : EngineOp ι} (onSelected : OnSelected fresh step op)
    (before after : σ) (answer : Except (Raised ι) op.Res) (shown : String)
    (since : List (EngineOp ι)) :
    ∃ now, PassState.advance run (.visiting fresh step shown since)
      ⟨before, op, answer, after⟩ = .visiting fresh step now (since ++ [op]) := by
  cases op with
  | getRun _ => exact onSelected.elim
  | getSteps _ => exact onSelected.elim
  | currentType asked =>
      cases answer with
      | ok stepType => exact ⟨stepType, rfl⟩
      | error error => exact ⟨shown, rfl⟩
  | _ => exact ⟨shown, rfl⟩

/-- One operation on the selected step. -/
theorem served_visiting (unblocked : Unblocked fresh step) (state : σ × PassState ι)
    (op : EngineOp ι) (onSelected : OnSelected fresh step op)
    (visiting : Visiting fresh step state) :
    permissionGuard σ run state op ∧
      ∀ answer after, (world.monitored (PassState.advance run)).serve state op answer after →
        Visiting fresh step after := by
  obtain ⟨shown, since, equal⟩ := visiting
  constructor
  · rw [permissionGuard, equal]
    exact unblocked.rule onSelected shown since
  · intro answer after served
    rcases advance_visiting onSelected state.1 after.1 answer shown since with ⟨now, advanced⟩
    refine ⟨now, since ++ [op], ?_⟩
    rw [served.2, equal]
    exact advanced

/-- Engine code that stays on the selected step. -/
theorem wp_visiting (unblocked : Unblocked fresh step) {α : Type} {program : Engine ι α}
    (propagates : program.Propagates (OnSelected fresh step)) {state : σ × PassState ι}
    (visiting : Visiting fresh step state) :
    wp (world.monitored (PassState.advance run)) (permissionGuard σ run) program
      (fun _ => Visiting fresh step) RaisedWell state := by
  apply wp_propagates (Visiting fresh step) ?_ ?_ propagates visiting
  · intro state op onSelected visiting
    obtain ⟨met, kept⟩ := served_visiting unblocked state op onSelected visiting
    refine ⟨met, fun result after served => kept _ after served, ?_⟩
    intro error after served
    exact unblocked.ends (kept _ after served) _
  · intro error state visiting
    exact unblocked.ends visiting _

/-- The type of the selected step, read of it. -/
theorem wp_showing (unblocked : Unblocked fresh step) {state : σ × PassState ι}
    (visiting : Visiting fresh step state) :
    wp (world.monitored (PassState.advance run)) (permissionGuard σ run) (currentType step)
      (TypeShown fresh step) RaisedWell state := by
  obtain ⟨before, pass⟩ := state
  obtain ⟨shown, since, rfl⟩ := visiting
  have reads : OnSelected fresh step (.currentType step) := trivial
  apply wp_perform_monitored (unblocked.rule reads shown since)
  · intro stepType after _
    exact ⟨_, rfl⟩
  · intro error after _
    exact unblocked.ends ⟨shown, _, rfl⟩ _

/-- The handler of the type that the selected step showed last. -/
theorem handle_onSelected (permitted : Permitted step.type fresh) {handed : RunView ι}
    {stepType : String} {state : σ × PassState ι} (told : TypeShown fresh step stepType state) :
    permissionGuard σ run state (.handle handed { step with type := stepType }) ∧
      ∀ answer after, (world.monitored (PassState.advance run)).serve state
        (.handle handed { step with type := stepType }) answer after →
        Visiting fresh step after := by
  obtain ⟨since, equal⟩ := told
  have unblocked : Unblocked fresh step := .inl permitted
  constructor
  · rw [permissionGuard, equal]
    constructor
    · rintro stepId rfl
      exact ⟨rfl, permitted⟩
    · rintro _ _ ⟨⟩
      rfl
    · intro missing
      exact absurd permitted missing
    · intro missing
      exact absurd permitted missing
  · intro answer after served
    refine ⟨stepType, since ++ [.handle handed { step with type := stepType }], ?_⟩
    rw [served.2, equal]
    rfl

theorem onSelected_drain : AllowsDrain (OnSelected fresh step) run.id :=
  ⟨fun _ => trivial, fun _ => trivial⟩

theorem onSelected_failing : AllowsFailing (OnSelected fresh step) run :=
  ⟨fun _ => trivial, trivial, trivial⟩

theorem onSelected_settling {stepId : ι} :
    AllowsSettling (OnSelected fresh step) run.id stepId where
  completes := ⟨fun _ _ => trivial, fun _ => trivial⟩
  fails := ⟨fun _ _ => trivial, fun _ => trivial⟩
  skips := ⟨fun _ _ => trivial, fun _ => trivial⟩
  rereads := trivial
  rollsBack := trivial
  readsType _ := trivial

/-! ## One pass -/

theorem wp_visiting_runStep [HostId ι] (registry : ToolRegistry)
    (permitted : Permitted step.type fresh)
    {state : σ × PassState ι} (visiting : Visiting fresh step state) :
    wp (world.monitored (PassState.advance run)) (permissionGuard σ run)
      (runStep registry run step) (fun _ => Visiting fresh step) RaisedWell state := by
  have unblocked : Unblocked fresh step := .inl permitted
  have entry : OnSelected fresh step (.setStepState step.id .running .unset .unset) :=
    ⟨rfl, permitted⟩
  apply wp_runStep_of (wp_visiting unblocked (setStepState_propagates entry) visiting)
  · intro written visiting
    exact wp_showing unblocked visiting
  · intro startedType shown told
    have visiting : Visiting fresh step shown := ⟨startedType, told⟩
    exact wp_visiting unblocked (appendEvent_propagates trivial) visiting
  · intro started visiting
    exact wp_showing unblocked visiting
  · intro stepType typed _ told
    have visiting : Visiting fresh step typed := ⟨stepType, told⟩
    exact wp_visiting unblocked (failStep_propagates onSelected_settling.fails _ _) visiting
  · intro stepType typed _ told
    rcases handle_onSelected permitted told with ⟨met, kept⟩
    refine ⟨met, ?_⟩
    intro outcome ended served
    apply wp_visiting unblocked (settleStep_propagates onSelected_settling outcome)
    exact kept outcome ended served

theorem wp_visiting_dispatchStep [HostId ι] (registry : ToolRegistry) (hooked : Bool)
    (permitted : Permitted step.type fresh) (cursor : Int) {state : σ × PassState ι}
    (visiting : Visiting fresh step state) :
    wp (world.monitored (PassState.advance run)) (permissionGuard σ run)
      (dispatchStep registry run hooked step cursor) (fun _ => Visiting fresh step) RaisedWell
      state := by
  have unblocked : Unblocked fresh step := .inl permitted
  apply wp_dispatchStep_of (wp_visiting_runStep registry permitted visiting)
  · intro ran settled visiting
    exact wp_visiting unblocked (drain_propagates onSelected_drain cursor) visiting
  · intro ran reached drained visiting
    exact wp_visiting unblocked (currentStatus_propagates trivial) visiting
  · intro ran reached judged visiting
    exact visiting
  · intro ran reached judged visiting
    exact wp_visiting unblocked (failRun_propagates onSelected_failing hooked ran.id) visiting
  · intro reached failed visiting
    exact wp_visiting unblocked (drainAndReturn_propagates onSelected_drain reached) visiting
  · intro ran reached status judged _ _ visiting
    exact visiting

theorem wp_visiting_budgetGate [HostId ι] (registry : ToolRegistry) (hooked : Bool)
    (driveStarted : ℚ)
    (permitted : Permitted step.type fresh) (cursor : Int) {state : σ × PassState ι}
    (visiting : Visiting fresh step state) :
    wp (world.monitored (PassState.advance run)) (permissionGuard σ run)
      (budgetGate registry run hooked driveStarted fresh steps step cursor)
      (fun _ => Visiting fresh step) RaisedWell state := by
  have unblocked : Unblocked fresh step := .inl permitted
  apply wp_budgetGate_of (wp_visiting unblocked (budgetExhaustedReason_propagates trivial fresh
    steps driveStarted) visiting)
  · intro reason checked visiting
    apply wp_visiting unblocked ?_ visiting
    exact pauseForBudget_propagates ⟨fun _ => trivial, trivial, fun _ => trivial⟩
      onSelected_drain reason cursor
  · intro checked visiting
    apply wp_approvalGate_of
    · intro _ _
      apply wp_visiting unblocked ?_ visiting
      exact stopAtGate_propagates ⟨⟨fun _ _ => trivial, fun _ => trivial⟩, fun _ => trivial⟩
        trivial onSelected_drain _ _
    · intro _ _
      exact wp_visiting unblocked (recordApproval_propagates
        ⟨fun _ _ => trivial, fun _ => trivial⟩ _ _ _) visiting
    · intro _
      exact visiting
    · intro cleared visiting
      exact wp_visiting_dispatchStep registry hooked permitted cursor visiting

/-! ## Steps held back -/

/-- A waiting step whose grant is missing. -/
structure SkipsHonestly (fresh : RunView ι) (step : StepView ι) : Prop where
  missing : ¬ Permitted step.type fresh
  waiting : step.status.Waiting

theorem StepStatus.Waiting.not_running {status : StepStatus} (waiting : status.Waiting) :
    status ≠ .running := by
  intro running
  rw [running] at waiting
  simp [StepStatus.Waiting] at waiting

theorem SkipsHonestly.rule (skips : SkipsHonestly fresh step) {shown : String}
    {since : List (EngineOp ι)} {op : EngineOp ι} (inert : ∀ stepId, ¬ op.Dispatches stepId)
    (next : NextOfSkip run step since op) : PermissionRule run fresh step shown since op where
  dispatch stepId dispatches := absurd dispatches (inert stepId)
  handler := by
    rintro handed handled rfl
    exact absurd rfl (inert handled.id)
  skip _ _ := next
  refuse _ := skips.waiting.not_running

theorem SkipsHonestly.ends (skips : SkipsHonestly fresh step) {since : List (EngineOp ι)}
    {outcome : Except (Raised ι) (Option Unit)}
    (written : 2 ≤ since.length ∨ since.length = 1 ∧ ∃ error, outcome = .error error) :
    PermissionEnd fresh step since outcome where
  skipped _ _ := written
  refused _ running := absurd running skips.waiting.not_running

/-- The skip is written, with its event. -/
def Skipped (fresh : RunView ι) (step : StepView ι) (state : σ × PassState ι) : Prop :=
  ∃ shown first second rest, state.2 = .visiting fresh step shown (first :: second :: rest)

/-- Between two passes: another may start here, or the drive may end. -/
structure Settled (run : RunView ι) (state : σ × PassState ι) : Prop where
  next : PermissionGuard run state.2 (.getRun run.id)
  ends : ∀ outcome, PermissionEnds outcome state.2

theorem Unblocked.settled (unblocked : Unblocked fresh step) {state : σ × PassState ι}
    (visiting : Visiting fresh step state) : Settled run state where
  next := by
    obtain ⟨shown, since, equal⟩ := visiting
    rw [equal]
    constructor
    · intro stepId dispatches
      exact dispatches.elim
    · intro handed handled same
      cases same
    · intro missing waiting
      exact absurd waiting (unblocked.not_waiting missing)
    · exact unblocked.not_running
  ends := unblocked.ends visiting

theorem SkipsHonestly.settled (skips : SkipsHonestly fresh step) {state : σ × PassState ι}
    (skipped : Skipped fresh step state) : Settled run state := by
  obtain ⟨shown, first, second, rest, equal⟩ := skipped
  constructor
  · rw [equal]
    exact skips.rule (fun _ dispatches => dispatches) (.inl rfl)
  · intro outcome
    rw [equal]
    exact skips.ends (.inl (by simp))

theorem served_skipped (skips : SkipsHonestly fresh step) (state : σ × PassState ι)
    (op : EngineOp ι) (streams : op.Streams run.id) (skipped : Skipped fresh step state) :
    permissionGuard σ run state op ∧
      ∀ answer after, (world.monitored (PassState.advance run)).serve state op answer after →
        Skipped fresh step after := by
  obtain ⟨shown, first, second, rest, equal⟩ := skipped
  constructor
  · rw [permissionGuard, equal]
    apply skips.rule
    · intro stepId dispatches
      cases op <;> first | exact streams.elim | exact dispatches.elim
    · exact Or.inr streams
  · intro answer after served
    refine ⟨shown, first, second, rest ++ [op], ?_⟩
    rw [served.2, equal]
    cases op <;> first | exact streams.elim | rfl

theorem wp_skipped_drain (skips : SkipsHonestly fresh step) (cursor : Int)
    {state : σ × PassState ι} (skipped : Skipped fresh step state) :
    wp (world.monitored (PassState.advance run)) (permissionGuard σ run)
      (drainAndContinue run cursor) (fun _ => Settled run) RaisedWell state := by
  have drained : wp (world.monitored (PassState.advance run)) (permissionGuard σ run)
      (drainAndContinue run cursor) (fun _ => Skipped fresh step) RaisedWell state := by
    apply wp_propagates (Skipped fresh step) ?_ ?_
      (drainAndContinue_propagates (streams_drain run.id) cursor) skipped
    · intro state op streams skipped
      obtain ⟨met, kept⟩ := served_skipped skips state op streams skipped
      refine ⟨met, fun result after served => kept _ after served, ?_⟩
      intro error after served
      have settled : Settled run after := skips.settled (kept _ after served)
      exact settled.ends _
    · intro error state skipped
      have settled : Settled run state := skips.settled skipped
      exact settled.ends _
  apply wp_post drained
  intro _ after skipped
  exact skips.settled skipped

theorem wp_skipsHonestly (skips : SkipsHonestly fresh step) (reason : String) (cursor : Int)
    (state : σ) :
    wp (world.monitored (PassState.advance run)) (permissionGuard σ run)
      (do
        let _ ← skipStep run step.id step.type reason
        drainAndContinue run cursor)
      (fun _ => Settled run) RaisedWell (state, .visiting fresh step step.type []) := by
  rw [skipStep, Program.bind_assoc]
  rw [wp_bind]
  apply wp_perform_monitored
  · exact skips.rule (fun _ dispatches => dispatches) rfl
  · intro row written _
    rw [Program.bind_assoc, wp_bind]
    apply wp_perform_monitored
    · exact skips.rule (fun _ dispatches => dispatches) ⟨reason, rfl⟩
    · intro _ appended _
      exact wp_skipped_drain skips cursor ⟨_, _, _, [], rfl⟩
    · intro error appended _
      exact skips.ends (.inl (by simp))
  · intro error written _
    exact skips.ends (.inr ⟨rfl, error, rfl⟩)

/-! ## The loop -/

/-- A step in no state that a pass acts on without its grant ends well anywhere. -/
theorem permissionEnd_inert (notWaiting : ¬ step.status.Waiting)
    (notRunning : step.status ≠ .running) (since : List (EngineOp ι))
    (outcome : Except (Raised ι) (Option Unit)) : PermissionEnd fresh step since outcome where
  skipped _ waiting := absurd waiting notWaiting
  refused _ running := absurd running notRunning

theorem wp_visitStep [HostId ι] (registry : ToolRegistry) (hooked : Bool) (driveStarted : ℚ)
    (cursor : Int)
    (selected : firstUnfinished steps = some step) (state : σ) :
    wp (world.monitored (PassState.advance run)) (permissionGuard σ run)
      (visitStep registry run hooked driveStarted fresh steps step cursor)
      (fun _ => Settled run) RaisedWell (state, .visiting fresh step step.type []) := by
  have visiting : Visiting fresh step (state, PassState.visiting fresh step step.type []) :=
    ⟨step.type, [], rfl⟩
  apply wp_visitStep_of selected
  · intro text unlisted status
    apply permissionEnd_inert
    · rw [status]
      simp [StepStatus.Waiting]
    · rw [status]
      exact StepStatus.noConfusion
  · intro status
    have unblocked : Unblocked fresh step := .inr status
    apply wp_post (wp_visiting unblocked (foundFailed_propagates onSelected_failing
      onSelected_drain hooked step.id cursor) visiting)
    intro _ after visiting
    exact unblocked.settled visiting
  · intro reason status blocked
    constructor
    · intro _ waiting
      exact absurd status waiting.not_running
    · intro _ _
      exact ⟨rfl, reason, blocked, rfl⟩
  · intro reason waiting blocked
    refine wp_skipsHonestly ⟨?_, waiting⟩ reason cursor state
    intro permitted
    rw [permissionBlockReason_eq_none.mpr permitted] at blocked
    cases blocked
  · intro _ permitted
    apply wp_post (wp_visiting_budgetGate registry hooked driveStarted permitted cursor visiting)
    intro _ after visiting
    exact Unblocked.settled (.inl permitted) visiting

/-- No step is selected. -/
def Unselected (state : σ × PassState ι) : Prop :=
  ∀ fresh step shown since, state.2 ≠ .visiting fresh step shown since

theorem Unselected.guard {state : σ × PassState ι} (unselected : Unselected state)
    {op : EngineOp ι} (inert : ∀ stepId, ¬ op.Dispatches stepId) :
    permissionGuard σ run state op := by
  rw [permissionGuard]
  cases equal : state.2 with
  | visiting fresh step shown since => exact absurd equal (unselected fresh step shown since)
  | _ => exact inert

theorem Unselected.ends {state : σ × PassState ι} (unselected : Unselected state)
    (outcome : Except (Raised ι) (Option Unit)) : PermissionEnds outcome state.2 := by
  cases equal : state.2 with
  | visiting fresh step shown since => exact absurd equal (unselected fresh step shown since)
  | _ => trivial

theorem Unselected.settled {state : σ × PassState ι} (unselected : Unselected state) :
    Settled run state :=
  ⟨unselected.guard fun _ dispatches => dispatches, unselected.ends⟩

/-- Operations that neither select a step nor dispatch one. -/
def OffSteps : EngineOp ι → Prop
  | .getSteps _ => False
  | .setStepState _ _ _ _ => False
  | .handle _ _ => False
  | _ => True

theorem served_unselected (state : σ × PassState ι) (op : EngineOp ι) (offSteps : OffSteps op)
    (unselected : Unselected state) :
    permissionGuard σ run state op ∧
      ∀ answer after, (world.monitored (PassState.advance run)).serve state op answer after →
        Unselected after := by
  constructor
  · apply unselected.guard
    intro stepId dispatches
    cases op <;> first | exact offSteps.elim | exact dispatches.elim
  · intro answer after served fresh step shown since selected
    rw [served.2] at selected
    cases equal : state.2 with
    | visiting fresh step shown since => exact unselected fresh step shown since equal
    | _ =>
        rw [equal] at selected
        cases op <;> cases answer <;> first | exact offSteps.elim | cases selected

theorem wp_unselected {α : Type} {program : Engine ι α} (propagates : program.Propagates OffSteps)
    {state : σ × PassState ι} (unselected : Unselected state) :
    wp (world.monitored (PassState.advance run)) (permissionGuard σ run) program
      (fun _ => Unselected) RaisedWell state := by
  apply wp_propagates Unselected ?_ ?_ propagates unselected
  · intro state op offSteps unselected
    obtain ⟨met, kept⟩ := served_unselected state op offSteps unselected
    refine ⟨met, fun result after served => kept _ after served, ?_⟩
    intro error after served
    exact (kept _ after served).ends _
  · intro error state unselected
    exact unselected.ends _

theorem offSteps_drain : AllowsDrain (OffSteps (ι := ι)) run.id :=
  ⟨fun _ => trivial, fun _ => trivial⟩

/-- What the monitor knows once a pass has listed the steps. -/
def Listed (run : RunView ι) (current : Option (RunView ι)) (steps : List (StepView ι))
    (state : σ × PassState ι) : Prop :=
  match firstUnfinished steps with
  | none => Unselected state
  | some step => state.2 = .visiting (current.getD run) step step.type []

theorem wp_loopPass [HostId ι] (registry : ToolRegistry) (hooked : Bool) (driveStarted : ℚ)
    (cursor : Int)
    {state : σ × PassState ι} (settled : Settled run state) :
    wp (world.monitored (PassState.advance run)) (permissionGuard σ run)
      (loopPass registry run hooked driveStarted cursor)
      (PassEnd (fun _ => Settled run) (Settled run) fun _ => Unselected) RaisedWell state := by
  have runRead : ∀ (read : σ) (current : Option (RunView ι)),
      Unselected (read, PassState.runRead current) := by
    intro read current fresh step shown since equal
    cases equal
  have rereads : wp (world.monitored (PassState.advance run)) (permissionGuard σ run)
      (getRun run.id) (fun current state => state.2 = .runRead current) RaisedWell state := by
    apply wp_perform_monitored settled.next
    · intro current read _
      rfl
    · intro error read _
      trivial
  apply wp_loopPass_of (Listed run) rereads
  · intro current state _ reread
    have unselected : Unselected state := by
      intro fresh step shown since equal
      rw [reread] at equal
      cases equal
    apply wp_post (wp_unselected (drainAndReturn_propagates offSteps_drain cursor) unselected)
    intro next after unselected
    cases next with
    | none => exact unselected.settled
    | some cursor => exact unselected.settled
  · intro current state _ reread
    obtain ⟨before, pass⟩ := state
    cases reread
    apply wp_perform_monitored
    · intro _ dispatches
      exact dispatches
    · intro steps listed _
      unfold Listed
      cases selected : firstUnfinished steps with
      | none =>
          intro fresh step shown since equal
          simp only [PassState.advance, selected] at equal
          cases equal
      | some step =>
          simp only [PassState.advance, selected]
    · intro error listed _
      exact (runRead listed current).ends _
  · intro current steps state selected listed
    simp only [Listed, selected] at listed
    exact listed
  · intro current steps step state _ selected listed
    simp only [Listed, selected] at listed
    obtain ⟨before, pass⟩ := state
    cases listed
    apply wp_post (wp_visitStep registry hooked driveStarted cursor selected before)
    intro next after settled
    cases next with
    | none => exact settled
    | some cursor => exact settled

theorem wp_executeRunEvents [HostId ι] (registry : ToolRegistry) (hooked : Bool) (fuel : Nat)
    (state : σ) :
    wp (world.monitored (PassState.advance run)) (permissionGuard σ run)
      (executeRunEvents registry run hooked fuel)
      (fun result after => PermissionEnds (.ok result) after.2) RaisedWell
      (state, .outside) := by
  have start : Unselected (state, (PassState.outside : PassState ι)) := by
    intro fresh step shown since equal
    cases equal
  apply wp_executeRunEvents_of (fun _ => Settled run) (Settled run) (fun _ => Unselected)
    (wp_unselected (nextSequence_propagates trivial) start)
  · intro next state _ unselected
    exact unselected.ends _
  · intro next state _ unselected
    exact wp_unselected (setRunStatus_propagates trivial) unselected
  · intro next state unselected
    exact wp_unselected (drain_propagates offSteps_drain _) unselected
  · intro cursor state unselected
    apply wp_post (wp_unselected (now_propagates trivial) unselected)
    intro _ after unselected
    exact unselected.settled
  · intro driveStarted cursor state settled
    exact wp_loopPass registry hooked driveStarted cursor settled
  · intro cursor state settled
    exact settled.ends _
  · intro state settled
    exact settled.ends _
  · intro cursor state unselected
    apply wp_post (wp_unselected (completeRun_propagates trivial ⟨trivial, trivial, trivial⟩
      offSteps_drain hooked cursor) unselected)
    intro _ after unselected
    exact unselected.ends _

end Proof

/-- Permission safety of a whole drive, in any host environment.  Every call meets
the permission rule of the pass it is made in: dispatch is only of the selected
step and only with the grant of the type it was listed with, and the handler is that of
the type it showed last; a waiting step whose grant is missing is written
skipped, then its event, and nothing else is asked for in that pass but the live
stream; a running step whose grant is missing ends the drive with no call at
all. -/
theorem permission_safety [HostId ι] (world : World (engineSignature ι) (Raised ι) σ)
    (registry : ToolRegistry) (run : RunView ι) (hooked : Bool) (fuel : Nat) {state last : σ}
    {outcome : Except (Raised ι) (Option Unit)}
    {history : History (engineSignature ι) (Raised ι) σ}
    (runs : Runs world.recorded (executeRunEvents registry run hooked fuel) (state, []) outcome
      (last, history)) :
    (∀ earlier call later, history = earlier ++ call :: later →
      PermissionGuard run (earlier.foldl (PassState.advance run) .outside) call.op) ∧
    PermissionEnds outcome (history.foldl (PassState.advance run) .outside) := by
  have holds : wp (world.monitored (PassState.advance run)) (permissionGuard σ run)
      (executeRunEvents registry run hooked fuel)
      (fun result after => PermissionEnds (.ok result) after.2) RaisedWell
      (state, .outside) :=
    wp_executeRunEvents registry hooked fuel state
  constructor
  · intro earlier call later split
    exact runs.monitor_guarded PassState.outside holds split
  · have ends := runs.monitor_post holds
    cases outcome with
    | ok result => exact ends
    | error error => exact ends

/-- A run that grants nothing, with a connector step an earlier drive left running. -/
def ungrantedHost : HostState :=
  .holding ⟨"run-1", .awaitingApproval, some .autoComplete, false, .json .null, .null, .null,
    .json .null⟩ [("step-1", ⟨"mcp_call", "Call a connector", .running, false, none, none⟩)]

/-- Its drive ends by refusing the step. -/
theorem permission_safety_refused :
    ∃ last history,
      Runs (World.ofFn (HostRules.respond ⟨fun _ state => (.completed none, state),
          fun _ state => state⟩ fun _ => 0)).recorded
        (executeRunEvents ⟨["mcp_call"], by decide⟩ ungrantedHost.run true 1) (ungrantedHost, [])
        (.error (.runningStepNotPermitted "step-1" ("'Connector tools (MCP)' was not enabled " ++
          "for this run — skipping (turn it on in the run's Tools to use it)."))) (last, history) ∧
      (∀ earlier call later, history = earlier ++ call :: later →
        PermissionGuard ungrantedHost.run
          (earlier.foldl (PassState.advance ungrantedHost.run) .outside) call.op) := by
  obtain ⟨history, runs⟩ := Runs.record (runs_ofFn.mpr (Prod.ext rfl rfl)) []
  exact ⟨_, history, runs, (permission_safety _ _ _ _ _ runs).1⟩

/-- A host whose step objects are live, and that makes a search of a step as it marks it
running. -/
def retypingHost : (op : EngineOp String) → HostState → Except (Raised String) op.Res × HostState
  | .setStepState stepId .running error outputRefs, state =>
      let answered := plainRules.respond (fun _ => 0)
        (.setStepState stepId .running error outputRefs) state
      (answered.1, answered.2.setRow stepId { answered.2.rows stepId with type := "web_search" })
  | .currentType step, state => (.ok (state.rows step.id).type, state)
  | op, state => plainRules.respond (fun _ => 0) op state

/-- A run that grants nothing, with one step that needs no grant. -/
def modelHost : HostState :=
  .holding ⟨"run-1", .awaitingApproval, none, false, .json .null, .null, .null, .json .null⟩
    [("step-1", ⟨"model_call", "Ask the model", .pending, false, none, none⟩)]

/-- Its drive calls the handler of a tool that the run read in the same pass does not
grant. -/
theorem retyped_ungranted :
    ∃ last history earlier call later fresh step shown since handed handled,
      Runs (World.ofFn retypingHost).recorded
        (executeRunEvents ⟨["model_call", "web_search"], by decide⟩ modelHost.run true 1)
        (modelHost, []) (.ok none) (last, history) ∧
      history = earlier ++ call :: later ∧ call.op = .handle handed handled ∧
      earlier.foldl (PassState.advance modelHost.run) .outside =
        .visiting fresh step shown since ∧
      handled.type = "web_search" ∧ ¬ Permitted handled.type fresh := by
  rcases record_ofFn retypingHost (fun record call => record ++ [call])
    (executeRunEvents ⟨["model_call", "web_search"], by decide⟩ modelHost.run true 1) modelHost []
    with ⟨history, runs, recorded⟩
  rw [foldl_record, List.nil_append] at recorded
  subst recorded
  have ungranted : ¬ Permitted "web_search" (modelHost.setStatus .running).run := by
    intro permitted
    exact List.not_mem_nil (permitted _ rfl)
  exact ⟨_, _, _, _, _, _, _, _, _, _, _, runs, (List.take_append_drop 10 _).symm, rfl, rfl, rfl,
    ungranted⟩

end SlimxAgent
