import SlimxAgent.HttpHost
import SlimxAgent.Outline

/-!
# Fail-stop over the wire

A standalone drive whose host refuses a callback, loses one or answers one outside
the wire shape sends nothing more that could change the host.  `runStep` catches what
a handler raises and the run-end hook swallows everything; these are the two places
where a failed callback does not end the drive by itself.
-/

namespace SlimxAgent

open Interaction

variable {σ : Type}

/-! ## Failed callbacks -/

/-- The callbacks that may change the host. -/
def Target.mutates : Target → Bool
  | .runStatus _ => true
  | .stepState _ => true
  | .events _ => true
  | .invoke _ _ => true
  | .runEnd _ => true
  | _ => false

def WireOp.mutates (op : WireOp) : Bool :=
  op.target?.any Target.mutates

/-- The result is a raised `HostError`. -/
def raisesHostError {α : Type} : Except (Raised String) α → Bool
  | .error (.hostError _) => true
  | _ => false

/-- The callback ended in a `HostError`. -/
def hostFailed (call : Served wireSignature (Raised String) σ) : Bool :=
  match call with
  | ⟨_, .request request, reply, _⟩ => raisesHostError (observe request.target.settle reply)
  | ⟨_, .refused _ _, _, _⟩ => true
  | _ => false

/-- The exceptions that report a failed callback. -/
def Raised.ReportsHost : Raised String → Prop
  | .hostError _ => True
  | .stepOutcomeUnknown _ _ => True
  | _ => False

/-- What a failed callback leaves of the drive. -/
structure StoppedBy {α : Type} (call : Served wireSignature (Raised String) σ)
    (later : History wireSignature (Raised String) σ) (outcome : Except (Raised String) α) :
    Prop where
  silent : ∀ next ∈ later, next.op.mutates = false
  once : ∀ next ∈ later, next.op ≠ call.op
  raised : call.op.isRunEnd = false → ∃ error, outcome = .error error ∧ error.ReportsHost

/-- In every run of the program, every callback that ends in a `HostError` stops it. -/
def FailStop {α : Type} (world : World wireSignature (Raised String) σ) (program : Wire α)
    (state : σ) : Prop :=
  ∀ outcome last history, Runs world.recorded program (state, []) outcome (last, history) →
    ∀ earlier call later, history = earlier ++ call :: later → hostFailed call = true →
      StoppedBy call later outcome

/-! ## The alarms of a record -/

/-- The operations of the failed callbacks. -/
def raiseAlarm (alarms : List WireOp) (call : Served wireSignature (Raised String) σ) :
    List WireOp :=
  alarms ++ if hostFailed call then [call.op] else []

theorem alarms_eq (history : History wireSignature (Raised String) σ) (alarms : List WireOp) :
    history.foldl raiseAlarm alarms =
      alarms ++ (history.filter hostFailed).map Served.op := by
  induction history generalizing alarms with
  | nil => simp
  | cons call history ih =>
      rw [List.foldl_cons, ih, raiseAlarm, List.filter_cons]
      cases hostFailed call <;> simp

theorem alarm_of_mem {history : History wireSignature (Raised String) σ}
    {call : Served wireSignature (Raised String) σ} (member : call ∈ history)
    (failed : hostFailed call = true) : call.op ∈ history.foldl raiseAlarm [] := by
  rw [alarms_eq, List.nil_append]
  exact List.mem_map_of_mem (List.mem_filter.mpr ⟨member, failed⟩)

/-- No callback has failed. -/
def Unalarmed (state : σ × List WireOp) : Prop :=
  state.2 = []

/-- No callback but the hook has failed. -/
def HookAlarmed (state : σ × List WireOp) : Prop :=
  ∀ op ∈ state.2, op.isRunEnd = true

/-- Nothing that may change the host is sent once a callback has failed. -/
def heeds (state : σ × List WireOp) (op : WireOp) : Prop :=
  Unalarmed state ∨ HookAlarmed state ∧ op.mutates = false

/-- The drive ends with the report of the failure, unless only the hook failed. -/
def Reported (error : Raised String) (state : σ × List WireOp) : Prop :=
  error.ReportsHost ∨ HookAlarmed state

theorem Unalarmed.hook {state : σ × List WireOp} (unalarmed : Unalarmed state) :
    HookAlarmed state := by
  intro op member
  rw [unalarmed] at member
  cases member

theorem mutates_of_isRunEnd {op : WireOp} (runEnd : op.isRunEnd = true) : op.mutates = true := by
  rw [WireOp.isRunEnd, Option.any_eq_true] at runEnd
  obtain ⟨target, asked, ends⟩ := runEnd
  rw [WireOp.mutates, asked]
  cases target <;> first | rfl | cases ends

/-- What `wp` over the alarmed world proves of the runs. -/
theorem failStop_of_wp {α : Type} {world : World wireSignature (Raised String) σ}
    {program : Wire α} {state : σ}
    (holds : wp (world.monitored raiseAlarm) heeds program (fun _ => HookAlarmed) Reported
      (state, [])) : FailStop world program state := by
  intro outcome last history runs earlier call later split failed
  have heeded : ∀ middle next rest, later = middle ++ next :: rest →
      HookAlarmed (next.before, (earlier ++ call :: middle).foldl raiseAlarm []) ∧
        next.op.mutates = false := by
    intro middle next rest tail
    have whole : history = [] ++ (earlier ++ call :: middle) ++ next :: rest := by
      rw [split, tail]
      simp
    have met := runs.monitor_guarded [] holds whole
    cases met with
    | inr quiet => exact quiet
    | inl unalarmed =>
        have member : call ∈ earlier ++ call :: middle := by simp
        have alarm := alarm_of_mem member failed
        have none : (earlier ++ call :: middle).foldl raiseAlarm [] = [] := unalarmed
        rw [none] at alarm
        cases alarm
  have ended := runs.monitor_post holds
  have recorded : call ∈ history := by
    rw [split]
    simp
  have alarm := alarm_of_mem recorded failed
  constructor
  · intro next member
    obtain ⟨middle, rest, tail⟩ := List.append_of_mem member
    exact (heeded middle next rest tail).2
  · intro next member same
    obtain ⟨middle, rest, tail⟩ := List.append_of_mem member
    obtain ⟨hook, silent⟩ := heeded middle next rest tail
    have mutates := mutates_of_isRunEnd (hook call.op (alarm_of_mem (by simp) failed))
    rw [← same, silent] at mutates
    cases mutates
  · intro notHook
    have notOnly : ¬ HookAlarmed (last, history.foldl raiseAlarm []) := by
      intro hook
      rw [hook call.op alarm] at notHook
      cases notHook
    cases outcome with
    | ok value => exact absurd ended notOnly
    | error error =>
        refine ⟨error, rfl, ?_⟩
        cases ended with
        | inl reports => exact reports
        | inr hook => exact absurd hook notOnly

/-! ## One operation -/

theorem raisesHostError_map {α β : Type} (result : Except HostError α) (f : α → β) :
    raisesHostError ((result.map f).mapError .hostError) =
      raisesHostError (result.mapError .hostError) := by
  cases result <;> rfl

/-- The value does not decide how a callback ends. -/
theorem raisesHostError_observe {α β : Type} (parse : Response → Except HostError α) (f : α → β)
    (reply : Except (Raised String) Response) :
    raisesHostError (observe (fun response => (parse response).map f) reply) =
      raisesHostError (observe parse reply) := by
  cases reply with
  | error error => cases error <;> rfl
  | ok response => exact raisesHostError_map (parse response) f

section Operations

variable {world : World wireSignature (Raised String) σ} {profile : RunProfile}
  {state after : σ × List WireOp}

theorem replies_alarmed {request : Request} {reply : Except (Raised String) Response}
    (replies : Replies (world.monitored raiseAlarm) state request reply after) :
    after.2 = state.2 ++
      if raisesHostError (observe request.target.settle reply) then [request.op] else [] := by
  cases replies_monitored replies with
  | inl sent =>
      rw [sent.1]
      exact sent.2.2
  | inr refused =>
      obtain ⟨error, answer, path, raised, _, moved⟩ := refused
      rw [path, raised]
      exact moved

/-- Every operation but a handler call and the hook. -/
def StoreCall : EngineOp String → Prop
  | .handle _ _ => False
  | .onRunEnd _ _ => False
  | _ => True

/-- The store calls that cannot change the host. -/
def ReadCall : EngineOp String → Prop
  | .getRun _ => True
  | .drainedEvents _ _ => True
  | .yieldEvent _ => True
  | _ => False

/-- An answer to a store call: without an alarm, or with its exception. -/
def Answered {α : Type} (state : σ × List WireOp) (answer : Except (Raised String) α)
    (after : σ × List WireOp) : Prop :=
  after.2 = state.2 ∨ ∃ error, answer = .error (.hostError error)

theorem raisesHostError_iff {α : Type} {result : Except (Raised String) α} :
    raisesHostError result = true ↔ ∃ error, result = .error (.hostError error) := by
  constructor
  · intro raises
    cases result with
    | ok value => cases raises
    | error error =>
        cases error with
        | hostError error => exact ⟨error, rfl⟩
        | _ => cases raises
  · intro ⟨error, equal⟩
    rw [equal]
    rfl

theorem answered_exchange {α : Type} {request : Request} {parse : Response → Except HostError α}
    (settles : request.target.settle = fun response => (parse response).map fun _ => ())
    {answer : Except (Raised String) α}
    (runs : Runs (world.monitored raiseAlarm) (exchange request (observe parse)) state answer
      after) : Answered state answer after := by
  obtain ⟨reply, replies, ended⟩ := runs_exchange.mp runs
  have alarms := replies_alarmed replies
  rw [settles, raisesHostError_observe] at alarms
  cases raises : raisesHostError (observe parse reply) with
  | false =>
      rw [raises] at alarms
      exact .inl (alarms.trans (List.append_nil _))
  | true =>
      obtain ⟨error, raised⟩ := raisesHostError_iff.mp raises
      exact .inr ⟨error, ended.trans raised⟩

/-- An operation without a callback raises no alarm. -/
theorem unalarmed_of_silent {op : EngineOp String} (silent : op.request profile = none)
    {answer : Except (Raised String) op.Res}
    (served : (engineWorld (world.monitored raiseAlarm) profile).serve state op answer after) :
    after.2 = state.2 := by
  have unmoved : ∀ call : Served wireSignature (Raised String) σ,
      call.op.target? = none → raiseAlarm state.2 call = state.2 := by
    intro call unasked
    obtain ⟨before, op, answer, after⟩ := call
    cases op with
    | request sent => cases unasked
    | refused target error => cases unasked
    | now => exact List.append_nil _
    | yieldEvent payload => exact List.append_nil _
  cases served_monitored unmoved served with
  | inl unasked => exact unasked.2
  | inr asked =>
      obtain ⟨request, call, asks, _⟩ := asked
      rw [silent] at asks
      cases asks

/-- A store call raises no alarm, or ends with the `HostError` that it reports. -/
theorem answered_storeCall {op : EngineOp String} (store : StoreCall op)
    {answer : Except (Raised String) op.Res}
    (served : (engineWorld (world.monitored raiseAlarm) profile).serve state op answer after) :
    Answered state answer after := by
  have runs : Runs (world.monitored raiseAlarm) (overWire profile op) state answer after := served
  cases op with
  | handle run step => exact store.elim
  | onRunEnd run status => exact store.elim
  | getRun runId =>
      rw [overWire_getRun] at runs
      exact answered_exchange rfl runs
  | getSteps runId =>
      rw [overWire_getSteps] at runs
      exact answered_exchange rfl runs
  | getStep stepId =>
      rw [overWire_getStep] at runs
      exact answered_exchange rfl runs
  | setRunStatus run status =>
      rw [overWire_setRunStatus] at runs
      exact answered_exchange rfl runs
  | setStepState stepId status error outputRefs =>
      rw [overWire_setStepState] at runs
      exact answered_exchange rfl runs
  | appendEvent runId type stepId payload commit =>
      rw [overWire_appendEvent] at runs
      exact answered_exchange rfl runs
  | nextSequence runId =>
      rw [overWire_nextSequence] at runs
      exact answered_exchange rfl runs
  | drainedEvents runId afterSequence =>
      rw [overWire_drainedEvents] at runs
      exact answered_exchange rfl runs
  | currentType step => exact .inl (unalarmed_of_silent rfl served)
  | currentTitle step => exact .inl (unalarmed_of_silent rfl served)
  | currentStatus step => exact .inl (unalarmed_of_silent rfl served)
  | rollback => exact .inl (unalarmed_of_silent rfl served)
  | now => exact .inl (unalarmed_of_silent rfl served)
  | yieldEvent payload => exact .inl (unalarmed_of_silent rfl served)

/-- The handler turns an alarm into an unknown outcome. -/
theorem answered_handle {run : RunView String} {step : StepView String}
    {answer : Except (Raised String) (Option Dict)}
    (served : (engineWorld (world.monitored raiseAlarm) profile).serve state
      (.handle run step) answer after) :
    after.2 = state.2 ∨ ∃ message cause, answer = .error (.stepOutcomeUnknown message cause) := by
  have runs : Runs (world.monitored raiseAlarm) (overWire profile (.handle run step)) state answer
    after := served
  rw [overWire_handle] at runs
  obtain ⟨reply, replies, ended⟩ := runs_exchange.mp runs
  have settles : (Target.invoke run.id step.id).settle = fun response =>
      (HostClient.object "invocation outcome" response).map fun _ => () := rfl
  have alarms := replies_alarmed replies
  rw [settles, raisesHostError_observe] at alarms
  cases raises : raisesHostError (observe (HostClient.object "invocation outcome") reply) with
  | false =>
      rw [raises] at alarms
      exact .inl (alarms.trans (List.append_nil _))
  | true =>
      obtain ⟨error, raised⟩ := raisesHostError_iff.mp raises
      rw [raised] at ended
      exact .inr ⟨_, _, ended⟩

theorem hookAlarmed_of_append {op : WireOp} (hook : HookAlarmed state)
    (runEnd : op.isRunEnd = true) (raised : Bool)
    (equal : after.2 = state.2 ++ if raised then [op] else []) : HookAlarmed after := by
  intro alarm member
  rw [equal, List.mem_append] at member
  cases member with
  | inl known => exact hook alarm known
  | inr new =>
      cases raised with
      | false => cases new
      | true =>
          rw [List.mem_singleton.mp new]
          exact runEnd

end Operations

/-! ## The drive -/

section Drive

variable {world : World wireSignature (Raised String) σ} {profile : RunProfile}
  {state : σ × List WireOp} {registry : ToolRegistry} {run fresh : RunView String}
  {step : StepView String} {steps : List (StepView String)} {driveStarted : ℚ} {cursor : Int}

/-- Any operation may be asked for while nothing has failed. -/
theorem heeds_unalarmed {op : EngineOp String} (unalarmed : Unalarmed state) :
    Meets (world.monitored raiseAlarm) profile heeds state op :=
  meets_of_request (fun _ _ => .inl unalarmed) fun _ _ => .inl unalarmed

/-- Reads may be asked for while nothing but the hook has failed. -/
theorem heeds_read {op : EngineOp String} (read : ReadCall op) (hook : HookAlarmed state) :
    Meets (world.monitored raiseAlarm) profile heeds state op := by
  apply meets_of_request
  · intro request asks
    refine .inr ⟨hook, ?_⟩
    rw [WireOp.mutates, Request.target?_op]
    cases op with
    | getRun runId => cases asks; rfl
    | drainedEvents runId afterSequence => cases asks; rfl
    | yieldEvent payload => cases asks
    | _ => exact read.elim
  · intro wireOp unasked
    refine .inr ⟨hook, ?_⟩
    rw [WireOp.mutates, unasked]
    rfl

theorem wp_unalarmed {α : Type} {program : Engine String α}
    (propagates : program.Propagates StoreCall) (unalarmed : Unalarmed state) :
    wireWp (world.monitored raiseAlarm) profile heeds program (fun _ => Unalarmed) Reported state
      := by
  apply wp_propagates Unalarmed ?_ ?_ propagates unalarmed
  · intro state op store unalarmed
    refine ⟨heeds_unalarmed unalarmed, ?_, ?_⟩
    · intro result after served
      cases answered_storeCall store served with
      | inl same => exact same.trans unalarmed
      | inr raised =>
          obtain ⟨error, impossible⟩ := raised
          cases impossible
    · intro error after served
      cases answered_storeCall store served with
      | inl same => exact .inr (Unalarmed.hook (same.trans unalarmed))
      | inr raised =>
          obtain ⟨reported, equal⟩ := raised
          cases equal
          exact .inl trivial
  · intro error state unalarmed
    exact .inr unalarmed.hook

theorem ReadCall.store {op : EngineOp String} (read : ReadCall op) : StoreCall op := by
  cases op <;> trivial

/-- Once only the hook has failed, a drive still reads. -/
theorem wp_hookAlarmed {α : Type} {program : Engine String α}
    (propagates : program.Propagates ReadCall) (hook : HookAlarmed state) :
    wireWp (world.monitored raiseAlarm) profile heeds program (fun _ => HookAlarmed) Reported state
      := by
  apply wp_propagates HookAlarmed ?_ ?_ propagates hook
  · intro state op read hook
    refine ⟨heeds_read read hook, ?_, ?_⟩
    · intro result after served
      cases answered_storeCall read.store served with
      | inl same =>
          rw [HookAlarmed, same]
          exact hook
      | inr raised =>
          obtain ⟨error, impossible⟩ := raised
          cases impossible
    · intro error after served
      cases answered_storeCall read.store served with
      | inl same =>
          refine .inr ?_
          rw [HookAlarmed, same]
          exact hook
      | inr raised =>
          obtain ⟨reported, equal⟩ := raised
          cases equal
          exact .inl trivial
  · intro error state hook
    exact .inr hook

theorem readCall_drain {runId : String} : AllowsDrain ReadCall runId :=
  ⟨fun _ => trivial, fun _ => trivial⟩

theorem storeCall_drain {runId : String} : AllowsDrain StoreCall runId :=
  ⟨fun _ => trivial, fun _ => trivial⟩

theorem storeCall_transition {runId stepId : String} {status : StepStatus} {type : EventType} :
    AllowsTransition StoreCall runId stepId status type :=
  ⟨fun _ _ => trivial, fun _ => trivial⟩

/-- The hook, whatever becomes of its callback. -/
theorem wp_notify_alarmed {status : RunStatus} (unalarmed : Unalarmed state) :
    wireWp (world.monitored raiseAlarm) profile heeds (notifyRunEnd true run status)
      (fun _ => HookAlarmed) Reported state := by
  have answered : ∀ answer after, (engineWorld (world.monitored raiseAlarm) profile).serve state
      (.onRunEnd run status) answer after → HookAlarmed after := by
    intro answer after served
    have runs : Runs (world.monitored raiseAlarm) (overWire profile (.onRunEnd run status)) state
      answer after := served
    rw [overWire_onRunEnd] at runs
    obtain ⟨reply, replies, ended⟩ := runs_exchange.mp runs
    refine hookAlarmed_of_append unalarmed.hook ?_ _ (replies_alarmed replies)
    rw [WireOp.isRunEnd, Request.target?_op]
    rfl
  apply wp_perform.mpr
  refine ⟨heeds_unalarmed unalarmed, ?_, ?_⟩
  · intro result after served
    exact answered _ after served
  · intro error after served
    exact .inr (answered _ after served)

theorem wp_failRun_alarmed {stepId : String} (unalarmed : Unalarmed state) :
    wireWp (world.monitored raiseAlarm) profile heeds (failRun true run stepId)
      (fun _ => HookAlarmed) Reported state := by
  apply wp_seq (wp_unalarmed (appendEvent_propagates trivial) unalarmed)
  intro _ state unalarmed
  apply wp_seq (wp_unalarmed (setRunStatus_propagates trivial) unalarmed)
  intro _ state unalarmed
  exact wp_notify_alarmed unalarmed

/-- What a visit leaves: nothing failed, or the drive returns. -/
abbrev VisitSafe : Option Int → σ × List WireOp → Prop :=
  VisitEnd (fun _ => Unalarmed) HookAlarmed

theorem visitSafe_of_unalarmed {next : Option Int} (unalarmed : Unalarmed state) :
    VisitSafe next state := by
  cases next with
  | none => exact unalarmed.hook
  | some cursor => exact unalarmed

theorem wp_visitSafe {program : Engine String (Option Int)}
    (propagates : program.Propagates StoreCall) (unalarmed : Unalarmed state) :
    wireWp (world.monitored raiseAlarm) profile heeds program VisitSafe Reported state :=
  wp_post (wp_unalarmed propagates unalarmed) fun _ _ => visitSafe_of_unalarmed

theorem wp_returnAlarmed (hook : HookAlarmed state) :
    wireWp (world.monitored raiseAlarm) profile heeds (drainAndReturn run cursor) VisitSafe
      Reported state :=
  wp_drainAndReturn_of (wp_hookAlarmed (drain_propagates readCall_drain cursor) hook)

/-- Executing a step: a failed invocation ends the drive, any other failed callback too. -/
theorem wp_runStep_alarmed (unalarmed : Unalarmed state) :
    wireWp (world.monitored raiseAlarm) profile heeds (runStep registry run step)
      (fun _ => Unalarmed) Reported state := by
  have settles : AllowsSettling StoreCall run.id step.id :=
    ⟨storeCall_transition, storeCall_transition, storeCall_transition, trivial, trivial,
      fun _ => trivial⟩
  apply wp_runStep_of
  · exact wp_unalarmed (setStepState_propagates trivial) unalarmed
  · intro state unalarmed
    exact wp_unalarmed (currentType_propagates trivial) unalarmed
  · intro startedType state unalarmed
    exact wp_unalarmed (appendEvent_propagates trivial) unalarmed
  · intro state unalarmed
    exact wp_unalarmed (currentType_propagates trivial) unalarmed
  · intro stepType state _ unalarmed
    exact wp_unalarmed (failStep_propagates storeCall_transition _ _) unalarmed
  · intro stepType state _ unalarmed
    refine ⟨heeds_unalarmed unalarmed, ?_⟩
    intro outcome after served
    cases answered_handle served with
    | inl same =>
        exact wp_unalarmed (settleStep_propagates settles outcome) (same.trans unalarmed)
    | inr unknown =>
        obtain ⟨message, cause, equal⟩ := unknown
        rw [equal]
        exact Or.inl trivial

theorem wp_dispatchStep_alarmed (unalarmed : Unalarmed state) :
    wireWp (world.monitored raiseAlarm) profile heeds (dispatchStep registry run true step cursor)
      VisitSafe Reported state := by
  apply wp_dispatchStep_of
  · exact wp_runStep_alarmed unalarmed
  · intro ran state unalarmed
    exact wp_unalarmed (drain_propagates storeCall_drain cursor) unalarmed
  · intro ran reached state unalarmed
    exact wp_unalarmed (currentStatus_propagates trivial) unalarmed
  · intro ran reached state unalarmed
    exact unalarmed.hook
  · intro ran reached state unalarmed
    exact wp_failRun_alarmed unalarmed
  · intro reached state hook
    exact wp_returnAlarmed hook
  · intro ran reached status state _ _ unalarmed
    exact unalarmed

theorem wp_visitStep_alarmed (selected : firstUnfinished steps = some step)
    (unalarmed : Unalarmed state) :
    wireWp (world.monitored raiseAlarm) profile heeds
      (visitStep registry run true driveStarted fresh steps step cursor) VisitSafe Reported state
      := by
  apply wp_visitStep_of selected
  · intro text unlisted _
    exact .inr unalarmed.hook
  · intro _
    apply wp_foundFailed_of HookAlarmed
    · exact wp_unalarmed (runFailureReported_propagates trivial step.id) unalarmed
    · intro state unalarmed
      apply wp_post (wp_unalarmed (setRunStatus_propagates trivial) unalarmed)
      intro _ state unalarmed
      exact unalarmed.hook
    · intro state unalarmed
      exact wp_failRun_alarmed unalarmed
    · intro state hook
      exact wp_returnAlarmed hook
  · intro reason _ _
    exact .inr unalarmed.hook
  · intro reason _ _
    apply wp_seq (wp_unalarmed (skipStep_propagates storeCall_transition _ _) unalarmed)
    intro _ state unalarmed
    exact wp_visitSafe (drainAndContinue_propagates storeCall_drain cursor) unalarmed
  · intro _ _
    apply wp_budgetGate_of
    · exact wp_unalarmed (budgetExhaustedReason_propagates trivial _ _ _) unalarmed
    · intro reason state unalarmed
      have pausing : AllowsPausing StoreCall run := ⟨fun _ => trivial, trivial, fun _ => trivial⟩
      exact wp_visitSafe (pauseForBudget_propagates pausing storeCall_drain _ _) unalarmed
    · intro state unalarmed
      apply wp_approvalGate_of
      · intro _ _
        exact wp_visitSafe
          (stopAtGate_propagates ⟨storeCall_transition, fun _ => trivial⟩ trivial storeCall_drain
            _ _) unalarmed
      · intro _ _
        exact wp_unalarmed (recordApproval_propagates storeCall_transition _ _ _) unalarmed
      · intro _
        exact unalarmed
      · intro state unalarmed
        exact wp_dispatchStep_alarmed unalarmed

theorem wp_loopPass_alarmed (unalarmed : Unalarmed state) :
    wireWp (world.monitored raiseAlarm) profile heeds
      (loopPass registry run true driveStarted cursor)
      (PassEnd (fun _ => Unalarmed) HookAlarmed (fun _ => Unalarmed)) Reported state := by
  apply wp_loopPass_of (fun _ _ => Unalarmed)
  · exact wp_unalarmed (getRun_propagates trivial) unalarmed
  · intro current state _ unalarmed
    exact wp_returnAlarmed unalarmed.hook
  · intro current state _ unalarmed
    exact wp_unalarmed (getSteps_propagates trivial) unalarmed
  · intro current steps state _ unalarmed
    exact unalarmed
  · intro current steps step state _ selected unalarmed
    exact wp_visitStep_alarmed selected unalarmed

theorem wp_completeRun_alarmed (unalarmed : Unalarmed state) :
    wireWp (world.monitored raiseAlarm) profile heeds (completeRun run true cursor)
      (fun _ => HookAlarmed) Reported state := by
  apply wp_completeRun_of Unalarmed Unalarmed HookAlarmed
  · exact wp_unalarmed (getRun_propagates trivial) unalarmed
  · intro current state _ unalarmed
    exact wp_hookAlarmed (drain_propagates readCall_drain cursor) unalarmed.hook
  · intro current state _ unalarmed
    exact wp_unalarmed (setRunStatus_propagates trivial) unalarmed
  · intro state unalarmed
    exact wp_unalarmed (appendEvent_propagates trivial) unalarmed
  · intro state unalarmed
    exact wp_notify_alarmed unalarmed
  · intro state hook
    exact wp_hookAlarmed (drain_propagates readCall_drain cursor) hook

theorem wp_executeRunEvents_alarmed (fuel : Nat) (unalarmed : Unalarmed state) :
    wireWp (world.monitored raiseAlarm) profile heeds (executeRunEvents registry run true fuel)
      (fun _ => HookAlarmed) Reported state := by
  apply wp_executeRunEvents_of (fun _ => Unalarmed) HookAlarmed (fun _ => Unalarmed)
  · exact wp_unalarmed (nextSequence_propagates trivial) unalarmed
  · intro next state _ unalarmed
    exact unalarmed.hook
  · intro next state _ unalarmed
    exact wp_unalarmed (setRunStatus_propagates trivial) unalarmed
  · intro next state unalarmed
    exact wp_unalarmed (drain_propagates storeCall_drain _) unalarmed
  · intro cursor state unalarmed
    exact wp_unalarmed (now_propagates trivial) unalarmed
  · intro driveStarted cursor state unalarmed
    exact wp_loopPass_alarmed unalarmed
  · intro cursor state unalarmed
    exact unalarmed.hook
  · intro state hook
    exact hook
  · intro cursor state unalarmed
    exact wp_completeRun_alarmed unalarmed

theorem wp_executeRun_alarmed (fuel : Nat) (unalarmed : Unalarmed state) :
    wireWp (world.monitored raiseAlarm) profile heeds (executeRun registry run true fuel)
      (fun _ => HookAlarmed) Reported state := by
  apply wp_seq (wp_executeRunEvents_alarmed fuel unalarmed)
  intro ended state hook
  cases ended with
  | none => exact hook
  | some _ =>
      apply wp_seq (wp_hookAlarmed (getRun_propagates trivial) hook)
      intro refreshed state hook
      exact hook

end Drive

/-- A callback that ends in a `HostError` is the last that could change the host.  It is
never sent again, and unless it was the run-end hook the drive ends with the error. -/
theorem fail_stop (world : World wireSignature (Raised String) σ) (profile : RunProfile)
    (registry : ToolRegistry) (run : RunView String) (fuel : Nat) (state : σ) :
    FailStop world (standaloneEvents profile registry run fuel) state ∧
      FailStop world (standaloneRun profile registry run fuel) state := by
  constructor
  · apply failStop_of_wp
    apply wp_overWire
    exact wp_executeRunEvents_alarmed fuel rfl
  · apply failStop_of_wp
    apply wp_overWire
    exact wp_executeRun_alarmed fuel rfl

/-- A host that has given the lease to another execution refuses to move its steps. -/
def reassigned : (op : WireOp) → HostState → Except (Raised String) op.Res × HostState
  | .request ⟨.stepState _, _⟩, state =>
      (.ok ⟨409, false, some (.obj [("detail", .str "stale execution lease")]), ""⟩, state)
  | op, state => plainRules.serve (fun _ => 0) op state

/-- The running transition is refused, and the drive ends there. -/
theorem fail_stop_reassigned :
    ∃ last earlier call later error,
      Runs (World.ofFn reassigned).recorded
        (standaloneEvents ⟨"ollama", "qwen3:8b", none⟩ remoteRegistry modelCallHost.run 3)
        (modelCallHost, []) (.error error) (last, earlier ++ call :: later) ∧
      call.op.target? = some (.stepState "step-1") ∧
      StoppedBy call later (Except.error error : Except (Raised String) (Option Unit)) := by
  rcases record_ofFn reassigned (fun record call => record ++ [call])
    (standaloneEvents ⟨"ollama", "qwen3:8b", none⟩ remoteRegistry modelCallHost.run 3)
    modelCallHost [] with ⟨history, runs, recorded⟩
  rw [foldl_record, List.nil_append] at recorded
  subst recorded
  rw [← List.take_append_drop 6 (Prod.snd (Prod.snd _))] at runs
  have stops := (fail_stop (World.ofFn reassigned) ⟨"ollama", "qwen3:8b", none⟩ remoteRegistry
    modelCallHost.run 3 modelCallHost).1 _ _ _ runs _ _ _ rfl rfl
  exact ⟨_, _, _, _, _, runs, rfl, stops⟩

end SlimxAgent
