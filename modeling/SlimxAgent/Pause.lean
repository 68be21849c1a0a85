import SlimxAgent.Host
import SlimxAgent.Outline
import SlimxAgent.Interaction.Monitor

/-!
# Pauses and cancels while a step runs

A handler may record the user's decision to pause or cancel its own run.  Every
exit of the loop but one re-reads the run before it writes a run status; the one
that does not is the failure of the step itself.
-/

namespace SlimxAgent

open Interaction

variable {ι σ : Type}

/-- The stored status, if the run is still there, is a user's decision to stop. -/
def isUserStop (stored : Option RunStatus) : Bool :=
  stored.any fun status => userStopStatuses.contains status

/-- What only a drive that goes on asks for: dispatches, run status writes, run-terminal
events, the hook. -/
def EngineOp.overrides : EngineOp ι → Bool
  | .setStepState _ status _ _ => status == .running
  | .handle _ _ => true
  | .setRunStatus _ _ => true
  | .appendEvent _ type _ _ _ => type == .runCompleted || type == .runFailed
  | .onRunEnd _ _ => true
  | _ => false

/-- The handler's end fails its step. -/
def failsStep : Except (Raised ι) (Option Dict) → Bool
  | .ok _ => false
  | .error (.stepActionPrepared _) => false
  | .error (.stepOutcomeUnknown _ _) => false
  | .error (.stepNotApplicable _) => false
  | .error (.baseException _) => false
  | .error _ => true

/-- A store that keeps the status of one run for as long as it has the run. -/
def StatusStore (world : World (engineSignature ι) (Raised ι) σ) (runId : ι)
    (stored : σ → Option RunStatus) : Prop :=
  ∀ {state current after}, world.serve state (.getRun runId) (.ok current) after →
    current.map RunView.status = stored after

/-- What the calls of a drive say about a stop recorded while a step ran. -/
structure PauseView where
  /-- A handler ended with its run paused or cancelled, and the host has not re-opened
  the run since. -/
  stopped : Bool
  /-- Such a step failed: by its handler's end, or as read after it. -/
  failing : Bool
  /-- The drive went on. -/
  overridden : Bool

namespace PauseView

def start : PauseView := ⟨false, false, false⟩

def advance (stored : σ → Option RunStatus) (view : PauseView)
    (call : Served (engineSignature ι) (Raised ι) σ) : PauseView :=
  let overridden := view.overridden || view.stopped && EngineOp.overrides call.op
  let stopped := isUserStop (stored call.after)
  match call with
  | ⟨_, .handle _ _, answer, _⟩ => ⟨stopped, view.failing || stopped && failsStep answer,
      overridden⟩
  | ⟨_, .setRunStatus _ _, _, _⟩ => ⟨view.stopped, view.failing, overridden⟩
  | ⟨_, .currentStatus _, .ok status, _⟩ =>
      ⟨view.stopped && stopped, view.failing || view.stopped && status == .failed, overridden⟩
  | _ => ⟨view.stopped && stopped, view.failing, overridden⟩

/-- The decision was final: the drive did not go on, and left the status alone. -/
structure Upheld (view : PauseView) (status : Option RunStatus) : Prop where
  final : view.overridden = false
  stays : view.stopped = true → isUserStop status = true

end PauseView

open PauseView

section Proof

variable {world : World (engineSignature ι) (Raised ι) σ} {run fresh : RunView ι}
  {step : StepView ι} {steps : List (StepView ι)} {stored : σ → Option RunStatus} {hooked : Bool}
  {driveStarted : ℚ} {cursor : Int} {registry : ToolRegistry}

/-- No call of a drive is refused here. -/
def freeCall (_ : σ × PauseView) (_ : EngineOp ι) : Prop := True

/-- No stop is recorded. -/
def Clear (state : σ × PauseView) : Prop :=
  state.2.failing = true ∨ state.2.stopped = false ∧ state.2.overridden = false

/-- A recorded stop still stands. -/
def Kept (stored : σ → Option RunStatus) (state : σ × PauseView) : Prop :=
  state.2.failing = true ∨ state.2.Upheld (stored state.1)

/-- An exception may end the drive here. -/
def RaisedKept (stored : σ → Option RunStatus) (_ : Raised ι) : σ × PauseView → Prop :=
  Kept stored

theorem Clear.kept {state : σ × PauseView} (clear : Clear state) : Kept stored state := by
  cases clear with
  | inl failing => exact .inl failing
  | inr idle =>
      refine .inr ⟨idle.2, ?_⟩
      rw [idle.1]
      intro stopped
      cases stopped

/-- Every operation but a handler call. -/
def OffHandler : EngineOp ι → Prop
  | .handle _ _ => False
  | _ => True

/-- Operations of a drive that has been stopped. -/
def Inert (op : EngineOp ι) : Prop :=
  op.overrides = false

theorem failing_stays (view : PauseView) (call : Served (engineSignature ι) (Raised ι) σ)
    (failing : view.failing = true) : (view.advance stored call).failing = true := by
  unfold PauseView.advance
  split <;> simp [failing]

theorem advance_clear (view : PauseView) (before after : σ) (op : EngineOp ι)
    (answer : Except (Raised ι) op.Res) (offHandler : OffHandler op)
    (stopped : view.stopped = false) :
    view.advance stored ⟨before, op, answer, after⟩ = view := by
  obtain ⟨_, failing, overridden⟩ := view
  cases stopped
  cases op with
  | handle _ _ => exact offHandler.elim
  | currentStatus step => cases answer <;> simp [PauseView.advance]
  | _ => simp [PauseView.advance]

theorem served_clear {state : σ × PauseView} {op : EngineOp ι} (offHandler : OffHandler op)
    (clear : Clear state) {answer : Except (Raised ι) op.Res} {after : σ × PauseView}
    (served : (world.monitored (PauseView.advance stored)).serve state op answer after) :
    Clear after := by
  have equal : after.2 = state.2.advance stored ⟨state.1, op, answer, after.1⟩ := served.2
  rw [Clear, equal]
  cases clear with
  | inl failing => exact .inl (failing_stays _ _ failing)
  | inr idle =>
      rw [advance_clear _ _ _ _ _ offHandler idle.1]
      exact .inr idle

theorem advance_upheld {view : PauseView} {before after : σ} {op : EngineOp ι}
    {answer : Except (Raised ι) op.Res} (inert : Inert op)
    (upheld : view.Upheld (stored before)) :
    (view.advance stored ⟨before, op, answer, after⟩).Upheld (stored after) := by
  have final := upheld.final
  have quiet : op.overrides = false := inert
  cases op with
  | handle _ _ => cases quiet
  | setRunStatus _ _ => cases quiet
  | currentStatus step => cases answer <;> constructor <;> simp_all [PauseView.advance]
  | _ => constructor <;> simp_all [PauseView.advance]

theorem served_kept {state : σ × PauseView} {op : EngineOp ι} (inert : Inert op)
    (kept : Kept stored state) {answer : Except (Raised ι) op.Res} {after : σ × PauseView}
    (served : (world.monitored (PauseView.advance stored)).serve state op answer after) :
    Kept stored after := by
  have equal : after.2 = state.2.advance stored ⟨state.1, op, answer, after.1⟩ := served.2
  rw [Kept, equal]
  cases kept with
  | inl failing => exact .inl (failing_stays _ _ failing)
  | inr upheld => exact .inr (advance_upheld inert upheld)

theorem wp_clear {α : Type} {program : Engine ι α} (propagates : program.Propagates OffHandler)
    {state : σ × PauseView} (clear : Clear state) :
    wp (world.monitored (PauseView.advance stored)) freeCall program (fun _ => Clear)
      (RaisedKept stored) state := by
  apply wp_propagates Clear ?_ ?_ propagates clear
  · intro state op offHandler clear
    refine ⟨trivial, ?_, ?_⟩
    · intro result after served
      exact served_clear offHandler clear served
    · intro error after served
      exact (served_clear offHandler clear served).kept
  · intro error state clear
    exact clear.kept

theorem wp_kept {α : Type} {program : Engine ι α} (propagates : program.Propagates Inert)
    {state : σ × PauseView} (kept : Kept stored state) :
    wp (world.monitored (PauseView.advance stored)) freeCall program (fun _ => Kept stored)
      (RaisedKept stored) state := by
  apply wp_propagates (Kept stored) ?_ ?_ propagates kept
  · intro state op inert kept
    refine ⟨trivial, ?_, ?_⟩
    · intro result after served
      exact served_kept inert kept served
    · intro error after served
      exact served_kept inert kept served
  · intro error state kept
    exact kept

theorem inert_drain : AllowsDrain Inert run.id :=
  ⟨fun _ => rfl, fun _ => rfl⟩

theorem offHandler_transition {stepId : ι} {status : StepStatus} {type : EventType} :
    AllowsTransition OffHandler run.id stepId status type :=
  ⟨fun _ _ => trivial, fun _ => trivial⟩

theorem offHandler_failing : AllowsFailing OffHandler run :=
  ⟨fun _ => trivial, trivial, trivial⟩

theorem offHandler_drain : AllowsDrain OffHandler run.id :=
  ⟨fun _ => trivial, fun _ => trivial⟩

/-! ## One step -/

/-- A handler called while no stop is recorded. -/
theorem served_handle {state : σ × PauseView} {handed : RunView ι} {handled : StepView ι}
    {outcome : Except (Raised ι) (Option Dict)} {after : σ × PauseView} (clear : Clear state)
    (served : (world.monitored (PauseView.advance stored)).serve state (.handle handed handled)
      outcome after) : Kept stored after := by
  have equal : after.2 =
      state.2.advance stored ⟨state.1, .handle handed handled, outcome, after.1⟩ := served.2
  cases clear with
  | inl failing =>
      left
      rw [equal]
      exact failing_stays _ _ failing
  | inr idle =>
      refine .inr ⟨?_, ?_⟩
      · rw [equal]
        simp [PauseView.advance, idle]
      · rw [equal]
        exact id

/-- One call while a recorded stop stands, with what its answer says. -/
theorem wp_kept_call {op : EngineOp ι} (inert : Inert op) {state : σ × PauseView}
    (kept : Kept stored state) {Q : op.Res → σ × PauseView → Prop}
    (returns : ∀ result after,
      (world.monitored (PauseView.advance stored)).serve state op (.ok result) after →
      Kept stored after → Q result after) :
    wp (world.monitored (PauseView.advance stored)) freeCall
      (@Program.perform (engineSignature ι) _ op) Q (RaisedKept stored) state := by
  rw [wp_perform]
  refine ⟨trivial, ?_, ?_⟩
  · intro result after served
    exact returns result after served (served_kept inert kept served)
  · intro error after served
    exact served_kept inert kept served

/-- A step that is read as failed while a stop is recorded is the exception to the rule. -/
theorem clear_of_current_failed {state : σ × PauseView} {ran : StepView ι}
    {after : σ × PauseView} (kept : Kept stored state)
    (served : (world.monitored (PauseView.advance stored)).serve state (.currentStatus ran)
      (.ok .failed) after) : Clear after := by
  have equal : after.2 =
      state.2.advance stored ⟨state.1, .currentStatus ran, .ok .failed, after.1⟩ := served.2
  rw [Clear, equal]
  cases kept with
  | inl failing => exact .inl (failing_stays _ _ failing)
  | inr upheld =>
      cases stopped : state.2.stopped with
      | true => exact .inl (by simp [PauseView.advance, stopped])
      | false =>
          have offHandler : OffHandler (EngineOp.currentStatus ran) := trivial
          rw [advance_clear _ _ _ _ _ offHandler stopped]
          exact .inr ⟨stopped, upheld.final⟩

theorem inert_settling {stepId : ι} : AllowsSettling Inert run.id stepId where
  completes := ⟨fun _ _ => rfl, fun _ => rfl⟩
  fails := ⟨fun _ _ => rfl, fun _ => rfl⟩
  skips := ⟨fun _ _ => rfl, fun _ => rfl⟩
  rereads := rfl
  rollsBack := rfl
  readsType _ := rfl

variable [HostId ι]

/-! ## Passes -/

theorem wp_kept_runStep {state : σ × PauseView} (clear : Clear state) :
    wp (world.monitored (PauseView.advance stored)) freeCall (runStep registry run step)
      (fun _ => Kept stored) (RaisedKept stored) state := by
  apply wp_runStep_of (wp_clear (setStepState_propagates trivial) clear)
  · intro entered clear
    exact wp_clear (currentType_propagates trivial) clear
  · intro startedType shown clear
    exact wp_clear (appendEvent_propagates trivial) clear
  · intro started clear
    exact wp_clear (currentType_propagates trivial) clear
  · intro stepType typed _ clear
    exact wp_kept (failStep_propagates inert_settling.fails _ _) clear.kept
  · intro stepType typed _ clear
    refine ⟨trivial, fun outcome after served => ?_⟩
    exact wp_kept (settleStep_propagates inert_settling outcome) (served_handle clear served)

/-- The stop survives the drain; a step that is read as failed after it leaves none
standing. -/
theorem wp_kept_dispatchStep {state : σ × PauseView} (clear : Clear state) :
    wp (world.monitored (PauseView.advance stored)) freeCall
      (dispatchStep registry run hooked step cursor)
      (VisitEnd (fun _ => Kept stored) (Kept stored)) (RaisedKept stored) state := by
  have judges : ∀ (ran : StepView ι) (drained : σ × PauseView), Kept stored drained →
      wp (world.monitored (PauseView.advance stored)) freeCall (currentStatus ran)
        (fun status after => Kept stored after ∧ (status = .failed → Clear after))
        (RaisedKept stored) drained := by
    intro ran drained kept
    have reads : Inert (.currentStatus ran) := rfl
    apply wp_kept_call reads kept
    intro status after served keptHere
    refine ⟨keptHere, ?_⟩
    rintro rfl
    exact clear_of_current_failed kept served
  apply wp_dispatchStep_of (wp_kept_runStep clear)
  · intro ran after kept
    exact wp_kept (drain_propagates inert_drain cursor) kept
  · intro ran reached drained kept
    exact judges ran drained kept
  · intro ran reached judged known
    exact known.1
  · intro ran reached judged known
    exact wp_clear (failRun_propagates offHandler_failing hooked ran.id) (known.2 rfl)
  · intro reached failed clear
    apply wp_drainAndReturn_of
    exact wp_kept (drain_propagates inert_drain reached) clear.kept
  · intro ran reached status judged _ _ known
    exact known.1

omit [HostId ι] in
/-- Engine code without a handler call, at the end of a visit. -/
theorem wp_visited {program : Engine ι (Option Int)} (propagates : program.Propagates OffHandler)
    {state : σ × PauseView} (clear : Clear state) :
    wp (world.monitored (PauseView.advance stored)) freeCall program
      (VisitEnd (fun _ => Kept stored) (Kept stored)) (RaisedKept stored) state := by
  apply wp_post (wp_clear propagates clear)
  intro next after clear
  cases next with
  | none => exact clear.kept
  | some cursor => exact clear.kept

theorem wp_kept_visitStep (selected : firstUnfinished steps = some step)
    {state : σ × PauseView} (clear : Clear state) :
    wp (world.monitored (PauseView.advance stored)) freeCall
      (visitStep registry run hooked driveStarted fresh steps step cursor)
      (VisitEnd (fun _ => Kept stored) (Kept stored)) (RaisedKept stored) state := by
  apply wp_visitStep_of selected
  · intro text unlisted _
    exact clear.kept
  · intro _
    exact wp_visited (foundFailed_propagates offHandler_failing offHandler_drain hooked _ _) clear
  · intro reason _ _
    exact clear.kept
  · intro reason _ _
    apply wp_visited ?_ clear
    apply Program.Propagates.bind
    · exact skipStep_propagates offHandler_transition step.type reason
    · intro _
      exact drainAndContinue_propagates offHandler_drain cursor
  · intro _ _
    apply wp_budgetGate_of (wp_clear (budgetExhaustedReason_propagates trivial _ _ _) clear)
    · intro reason checked clear
      apply wp_visited ?_ clear
      exact pauseForBudget_propagates ⟨fun _ => trivial, trivial, fun _ => trivial⟩
        offHandler_drain reason cursor
    · intro checked clear
      apply wp_approvalGate_of
      · intro _ _
        exact wp_visited (stopAtGate_propagates ⟨offHandler_transition, fun _ => trivial⟩ trivial
          offHandler_drain _ _) clear
      · intro _ _
        exact wp_clear (recordApproval_propagates offHandler_transition _ _ _) clear
      · intro _
        exact clear
      · intro cleared clear
        exact wp_kept_dispatchStep clear

omit [HostId ι] in
/-- What re-reading the run shows of a recorded stop. -/
theorem wp_reread (store : StatusStore world run.id stored) {state : σ × PauseView}
    (kept : Kept stored state) :
    wp (world.monitored (PauseView.advance stored)) freeCall (getRun run.id)
      (fun current after => Kept stored after ∧ (userStopped current = false → Clear after))
      (RaisedKept stored) state := by
  have read : Inert (.getRun run.id) := rfl
  apply wp_kept_call read kept
  intro current after served keptHere
  refine ⟨keptHere, fun running => ?_⟩
  have open_status : isUserStop (stored after.1) = false := by
    rw [← store served.1, isUserStop, Option.any_map]
    exact running
  cases keptHere with
  | inl failing => exact .inl failing
  | inr upheld =>
      refine .inr ⟨?_, upheld.final⟩
      cases stopped : after.2.stopped with
      | false => rfl
      | true =>
          rw [upheld.stays stopped] at open_status
          cases open_status

theorem wp_kept_loopPass (store : StatusStore world run.id stored) {state : σ × PauseView}
    (kept : Kept stored state) :
    wp (world.monitored (PauseView.advance stored)) freeCall
      (loopPass registry run hooked driveStarted cursor)
      (PassEnd (fun _ => Kept stored) (Kept stored) fun _ => Kept stored) (RaisedKept stored)
      state := by
  apply wp_loopPass_of (fun _ _ => Clear) (wp_reread store kept)
  · intro current reread _ known
    apply wp_drainAndReturn_of
    exact wp_kept (drain_propagates inert_drain cursor) known.1
  · intro current reread running known
    exact wp_clear (getSteps_propagates trivial) (known.2 running)
  · intro current steps listed _ clear
    exact clear.kept
  · intro current steps step listed _ selected clear
    exact wp_kept_visitStep selected clear

theorem wp_kept_executeRunEvents (store : StatusStore world run.id stored) (fuel : Nat)
    (state : σ) :
    wp (world.monitored (PauseView.advance stored)) freeCall
      (executeRunEvents registry run hooked fuel) (fun _ => Kept stored) (RaisedKept stored)
      (state, PauseView.start) := by
  have start : Clear (state, PauseView.start) := .inr ⟨rfl, rfl⟩
  apply wp_executeRunEvents_of (fun _ => Kept stored) (Kept stored) (fun _ => Kept stored)
    (wp_clear (nextSequence_propagates trivial) start)
  · intro next opened _ clear
    exact clear.kept
  · intro next opened _ clear
    exact wp_clear (setRunStatus_propagates trivial) clear
  · intro next begun clear
    exact wp_clear (drain_propagates offHandler_drain _) clear
  · intro cursor drained clear
    apply wp_post (wp_clear (now_propagates trivial) clear)
    intro _ after clear
    exact clear.kept
  · intro driveStarted cursor after kept
    exact wp_kept_loopPass store kept
  · intro cursor after kept
    exact kept
  · intro after kept
    exact kept
  · intro cursor after kept
    apply wp_completeRun_of Clear Clear Clear
      (wp_reread store kept)
    · intro current reread _ known
      exact wp_kept (drain_propagates inert_drain cursor) known.1
    · intro current reread running known
      exact wp_clear (setRunStatus_propagates trivial) (known.2 running)
    · intro written clear
      exact wp_clear (appendEvent_propagates trivial) clear
    · intro appended clear
      exact wp_clear (notifyRunEnd_propagates trivial hooked) clear
    · intro notified clear
      exact wp_kept (drain_propagates inert_drain cursor) clear.kept

end Proof

/-- The status the host stores for a run. -/
def HostState.storedStatus (runId : String) (state : HostState) : Option RunStatus :=
  if runId = state.run.id then some state.run.status else none

theorem HostRules.statusStore (rules : HostRules) (clock : HostState → ℚ) (runId : String) :
    StatusStore (World.ofFn (rules.respond clock)) runId (HostState.storedStatus runId) := by
  intro state current after served
  have answered : rules.respond clock (.getRun runId) state = (.ok current, after) := served
  cases answered
  rw [HostState.storedStatus]
  split <;> rfl

/-- A pause or cancel recorded while a step runs is final for the drive, unless that
step is failed: no dispatch, no run status write, no run-terminal event and no
hook call follows, and the stored status stays as it was. -/
theorem pause_is_final [HostId ι] {world : World (engineSignature ι) (Raised ι) σ}
    {run : RunView ι} {stored : σ → Option RunStatus} (store : StatusStore world run.id stored)
    (registry : ToolRegistry) (hooked : Bool) (fuel : Nat) {state last : σ}
    {outcome : Except (Raised ι) (Option Unit)}
    {history : History (engineSignature ι) (Raised ι) σ}
    (runs : Runs world.recorded (executeRunEvents registry run hooked fuel) (state, []) outcome
      (last, history))
    (unfailing : (history.foldl (PauseView.advance stored) .start).failing = false) :
    (history.foldl (PauseView.advance stored) .start).Upheld (stored last) := by
  have upheld : Kept stored (last, history.foldl (PauseView.advance stored) .start) := by
    have ends := runs.monitor_post (wp_kept_executeRunEvents store fuel state)
    cases outcome with
    | ok result => exact ends
    | error error => exact ends
  cases upheld with
  | inl failing =>
      rw [unfailing] at failing
      cases failing
  | inr upheld => exact upheld

/-- A run of one connector call, approved. -/
def connectorHost : HostState :=
  .holding ⟨"run-1", .awaitingApproval, some .autoComplete, false, .json (.arr [.str "mcp_tools"]),
    .null, .null, .json .null⟩
    [("step-1", ⟨"mcp_call", "Call a connector", .approved, true, none, none⟩),
      ("step-2", ⟨"model_call", "Ask", .pending, false, none, none⟩)]

/-- The tool pauses its run, then ends so. -/
def pausingRules (outcome : ToolOutcome) : HostRules :=
  ⟨fun _ state => (outcome, state.setStatus .paused), fun _ state => state⟩

/-- A connector call that pauses its run and completes: the drive stops there. -/
theorem pause_is_final_completed :
    ∃ last history,
      Runs (World.ofFn ((pausingRules (.completed none)).respond fun _ => 0)).recorded
        (executeRunEvents ⟨["mcp_call", "model_call"], by decide⟩ connectorHost.run true 3)
        (connectorHost, []) (.ok (some ())) (last, history) ∧
      (history.foldl (PauseView.advance (HostState.storedStatus "run-1")) .start).stopped = true ∧
      (history.foldl (PauseView.advance (HostState.storedStatus "run-1")) .start).Upheld
        (last.storedStatus "run-1") := by
  obtain ⟨history, runs, view⟩ := record_ofFn ((pausingRules (.completed none)).respond fun _ => 0)
    (PauseView.advance (HostState.storedStatus "run-1"))
    (executeRunEvents ⟨["mcp_call", "model_call"], by decide⟩ connectorHost.run true 3)
    connectorHost .start
  have unfailing : (history.foldl (PauseView.advance (HostState.storedStatus "run-1"))
      .start).failing = false := by
    rw [view]
    decide
  refine ⟨_, history, runs, ?_, ?_⟩
  · rw [view]
    decide
  · exact pause_is_final (HostRules.statusStore _ _ _) _ _ _ runs unfailing

/-- A tool that pauses its run and fails: the drive writes the run failed. -/
theorem pause_is_final_overridden :
    StatusStore (World.ofFn ((pausingRules (.failed "refused")).respond fun _ => 0)) "run-1"
      (HostState.storedStatus "run-1") ∧
    ∃ last history,
      Runs (World.ofFn ((pausingRules (.failed "refused")).respond fun _ => 0)).recorded
        (executeRunEvents ⟨["mcp_call", "model_call"], by decide⟩ connectorHost.run true 3)
        (connectorHost, []) (.ok (some ())) (last, history) ∧
      last.run.status = .failed ∧
      ¬ (history.foldl (PauseView.advance (HostState.storedStatus "run-1")) .start).Upheld
        (last.storedStatus "run-1") := by
  refine ⟨HostRules.statusStore _ _ _, ?_⟩
  obtain ⟨history, runs, view⟩ := record_ofFn
    ((pausingRules (.failed "refused")).respond fun _ => 0)
    (PauseView.advance (HostState.storedStatus "run-1"))
    (executeRunEvents ⟨["mcp_call", "model_call"], by decide⟩ connectorHost.run true 3)
    connectorHost .start
  refine ⟨_, history, runs, rfl, ?_⟩
  rw [view]
  intro upheld
  have final := upheld.final
  revert final
  decide

end SlimxAgent
