import SlimxAgent.HttpHost

/-!
# Operations over the wire

What each operation of the engine comes to when it is a callback to a host over HTTP:
the rows change as an in-process store would change them, and the snapshots are read
back as the rows they were taken from.
-/

namespace SlimxAgent

open Interaction

/-! ## One operation over the wire -/

/-- An identity that can be a path segment. -/
structure Segmentable (text : String) : Prop where
  filled : text ≠ ""
  notHere : text ≠ "."
  notUp : text ≠ ".."

theorem Segmentable.segment {text : String} (segmentable : Segmentable text) :
    SlimxAgent.segment text = .ok (quote text) := by
  simp [SlimxAgent.segment, segmentable.filled, segmentable.notHere, segmentable.notUp]

namespace HostRules

/-- What an operation over the wire comes to. -/
def remote (rules : HostRules) (clock : HostState → ℚ) (profile : RunProfile)
    (op : EngineOp String) (state : HostState) : Except (Raised String) op.Res × HostState :=
  (overWire profile op).eval (rules.serve clock) state

end HostRules

/-- A host whose rows the wire can carry: documented types throughout, identities that
can be addressed, and no wall budget. -/
structure WireReady (runId : String) (planned : String → Prop) (state : HostState) : Prop where
  runId : state.run.id = runId
  run : WireRun state.run
  unwalled : wallBudget state.run.budgetMaxWallSeconds = none
  steps : ∀ stepId, planned stepId → WireStep stepId (state.rows stepId)
  order : ∀ stepId ∈ state.order, planned stepId

section Remote

variable {rules : HostRules} {clock : HostState → ℚ} {profile : RunProfile} {state : HostState}
  {runId stepId : String} {planned : String → Prop}

theorem eval_exchange {α : Type} {request : Request} {path : String}
    {finish : Except (Raised String) Response → Except (Raised String) α}
    (sent : request.target.path = .ok path) :
    (exchange request finish).eval (rules.serve clock) state =
      (finish (.ok (rules.answer request.target (request.json.getD []) state).1),
        (rules.answer request.target (request.json.getD []) state).2) := by
  rw [exchange, sent]
  exact eval_ofExcept _ _

theorem remote_getRun (segmentable : Segmentable runId) (ready : WireReady runId planned state) :
    rules.remote clock profile (.getRun runId) state =
      rules.respond clock (.getRun runId) state := by
  have sent : (Target.run runId).path = .ok ("/runs/" ++ quote runId) := by
    rw [Target.path, segmentable.segment]
    rfl
  rw [HostRules.remote, overWire_getRun, eval_exchange sent]
  simp [HostRules.answer, HostRules.respond, ready.runId, observe, readRun,
    HostClient.optionalObject, expectObject, parse_runRow ready.run, bind, Except.bind, pure,
    Except.pure, Except.mapError]

theorem parse_stepRows {order : List String} (wired : ∀ stepId ∈ order,
    WireStep stepId (state.rows stepId)) :
    (order.map fun stepId => stepRow stepId (state.rows stepId)).mapM StepSnapshot.fromWire =
      .ok (order.map fun stepId => (state.rows stepId).view stepId) := by
  induction order with
  | nil => rfl
  | cons stepId order ih =>
      have rest := ih fun later member => wired later (List.mem_cons_of_mem _ member)
      rw [List.map_cons, List.mapM_cons, parse_stepRow (wired stepId List.mem_cons_self), rest]
      rfl

theorem remote_getSteps (segmentable : Segmentable runId)
    (ready : WireReady runId planned state) :
    rules.remote clock profile (.getSteps runId) state =
      rules.respond clock (.getSteps runId) state := by
  have sent : (Target.steps runId).path = .ok ("/runs/" ++ quote runId ++ "/steps") := by
    rw [Target.path, segmentable.segment]
    rfl
  have rows : (state.order.map fun stepId => Json.obj (stepRow stepId (state.rows stepId))) =
      (state.order.map fun stepId => stepRow stepId (state.rows stepId)).map .obj := by
    rw [List.map_map]
    rfl
  have parsed := parse_stepRows fun stepId listed => ready.steps stepId (ready.order stepId listed)
  rw [HostRules.remote, overWire_getSteps, eval_exchange sent]
  simp only [HostRules.answer, HostRules.respond, observe, readSteps, HostClient.objectList,
    requestAnswer_json, expectObjectList, rows, objects?_map, bind, Except.bind, parsed]
  rfl

theorem remote_getStep (segmentable : Segmentable stepId)
    (ready : WireReady runId planned state) :
    rules.remote clock profile (.getStep stepId) state =
      rules.respond clock (.getStep stepId) state := by
  have sent : (Target.step stepId).path = .ok ("/steps/" ++ quote stepId) := by
    rw [Target.path, segmentable.segment]
    rfl
  rw [HostRules.remote, overWire_getStep, eval_exchange sent]
  by_cases listed : stepId ∈ state.order
  · simp [HostRules.answer, HostRules.respond, listed, observe, readStep,
      HostClient.optionalObject, expectObject,
      parse_stepRow (ready.steps stepId (ready.order stepId listed)), bind, Except.bind, pure,
      Except.pure, Except.mapError]
  · simp [HostRules.answer, HostRules.respond, listed, observe, readStep,
      HostClient.optionalObject, bind, Except.bind, pure, Except.pure, Except.mapError]

/-- A run that takes a status the wire can carry stays within the wire shape. -/
theorem WireRun.setStatus {run : RunView String} (wired : WireRun run) {status : RunStatus}
    (filled : status.text ≠ "") : WireRun { run with status := status } :=
  ⟨wired.id, filled, wired.allowedTools, wired.budgetMaxSteps, wired.budgetMaxWallSeconds,
    wired.preapprovedTools⟩

theorem remote_setRunStatus {run : RunView String} {status : RunStatus}
    (segmentable : Segmentable run.id) (filled : status.text ≠ "")
    (ready : WireReady runId planned state) :
    rules.remote clock profile (.setRunStatus run status) state =
      rules.respond clock (.setRunStatus run status) state := by
  have sent : (Target.runStatus run.id).path = .ok ("/runs/" ++ quote run.id ++ "/status") := by
    rw [Target.path, segmentable.segment]
    rfl
  have text : RunStatus.ofText (Dict.get [("status", Json.str status.text)] "status").text =
      status := RunStatus.ofText_text status
  rw [HostRules.remote, overWire_setRunStatus, eval_exchange sent]
  simp [HostRules.answer, HostRules.respond, text, HostState.setStatus, observe, readRunWrite,
    HostClient.object, expectObject, parse_runRow (ready.run.setStatus filled), bind, Except.bind,
    Except.mapError]

/-- A transition is what its body asks for. -/
theorem transitionOf_stepStateBody (row : StepRow) (status : StepStatus)
    (error : Given (Option String)) (outputRefs : Given (Option Dict)) :
    transitionOf row (HostClient.stepStateBody status error outputRefs) =
      row.transition status error outputRefs := by
  have text : StepStatus.ofText (Dict.get (HostClient.stepStateBody status error outputRefs)
      "status").text = status := StepStatus.ofText_text status
  have errors : flagged (HostClient.stepStateBody status error outputRefs) "error_set" "error"
      Json.asStr? = error := by
    cases error with
    | unset => cases outputRefs <;> rfl
    | given value => cases value <;> cases outputRefs <;> rfl
  have refs : flagged (HostClient.stepStateBody status error outputRefs) "output_refs_set"
      "output_refs" Json.asDict? = outputRefs := by
    cases outputRefs with
    | unset => cases error <;> rfl
    | given value => cases value <;> cases error <;> rfl
  rw [transitionOf, text, errors, refs]

theorem WireStep.transition {row : StepRow} (wired : WireStep stepId row) {status : StepStatus}
    (recognized : status.recognized = true) (error : Given (Option String))
    (outputRefs : Given (Option Dict)) :
    WireStep stepId (row.transition status error outputRefs) :=
  ⟨wired.id, wired.type, recognized⟩

theorem remote_setStepState {status : StepStatus} {error : Given (Option String)}
    {outputRefs : Given (Option Dict)} (segmentable : Segmentable stepId)
    (recognized : status.recognized = true) (wired : WireStep stepId (state.rows stepId)) :
    rules.remote clock profile (.setStepState stepId status error outputRefs) state =
      rules.respond clock (.setStepState stepId status error outputRefs) state := by
  have sent : (Target.stepState stepId).path = .ok ("/steps/" ++ quote stepId ++ "/state") := by
    rw [Target.path, segmentable.segment]
    rfl
  rw [HostRules.remote, overWire_setStepState, eval_exchange sent]
  simp [HostRules.answer, HostRules.respond, transitionOf_stepStateBody, observe, readStepWrite,
    HostClient.object, expectObject, parse_stepRow (wired.transition recognized error outputRefs),
    bind, Except.bind, Except.mapError]

/-- An entry is what its body asks for. -/
theorem entryOf_eventBody (type : EventType) (named : Option String) (payload : Option Dict) :
    entryOf (HostClient.eventBody type named payload) = ⟨type.text, named, payload⟩ := by
  cases named <;> cases payload <;> rfl

theorem remote_appendEvent {type : EventType} {named : Option String} {payload : Option Dict}
    {commit : Bool} (segmentable : Segmentable runId) :
    rules.remote clock profile (.appendEvent runId type named payload commit) state =
      rules.respond clock (.appendEvent runId type named payload commit) state := by
  have sent : (Target.events runId).path = .ok ("/runs/" ++ quote runId ++ "/events") := by
    rw [Target.path, segmentable.segment]
    rfl
  rw [HostRules.remote, overWire_appendEvent, eval_exchange sent]
  simp [HostRules.answer, HostRules.respond, entryOf_eventBody, observe, readAppend,
    HostClient.oneEvent, HostClient.object, expectObject, expectEvent_fields, bind, Except.bind,
    pure, Except.pure, Except.mapError]

theorem remote_nextSequence (segmentable : Segmentable runId) :
    rules.remote clock profile (.nextSequence runId) state =
      rules.respond clock (.nextSequence runId) state := by
  have sent : (Target.nextSequence runId).path =
      .ok ("/runs/" ++ quote runId ++ "/events/next-sequence") := by
    rw [Target.path, segmentable.segment]
    rfl
  have unsigned : ¬ (state.nextSequence : Int) < 0 := by omega
  rw [HostRules.remote, overWire_nextSequence, eval_exchange sent]
  simp [HostRules.answer, HostRules.respond, observe, HostClient.sequenceAnswer,
    HostClient.object, expectObject, Dict.get, Dict.get?, unsigned, bind,
    Except.bind, Except.mapError]

theorem remote_drainedEvents {afterSequence : Int} (segmentable : Segmentable runId) :
    rules.remote clock profile (.drainedEvents runId afterSequence) state =
      rules.respond clock (.drainedEvents runId afterSequence) state := by
  have sent : (Target.eventsAfter runId afterSequence).path =
      .ok ("/runs/" ++ quote runId ++ "/events") := by
    rw [Target.path, segmentable.segment]
    rfl
  rw [HostRules.remote, overWire_drainedEvents, eval_exchange sent]
  simp only [HostRules.answer, HostRules.respond, observe, eventList_json, Except.mapError]

theorem remote_onRunEnd {run : RunView String} {status : RunStatus}
    (segmentable : Segmentable run.id) :
    rules.remote clock profile (.onRunEnd run status) state =
      rules.respond clock (.onRunEnd run status) state := by
  have sent : (Target.runEnd run.id).path = .ok ("/runs/" ++ quote run.id ++ "/run-end") := by
    rw [Target.path, segmentable.segment]
    rfl
  have text : RunStatus.ofText (Dict.get [("status", Json.str status.text),
      ("profile", .obj (profileWire profile))] "status").text = status :=
    RunStatus.ofText_text status
  rw [HostRules.remote, overWire_onRunEnd, eval_exchange sent]
  simp [HostRules.answer, HostRules.respond, text, observe, HostClient.noAnswer, hookEnd, bind,
    Except.bind, pure, Except.pure, Except.mapError]

/-- A message that is not blank is not replaced. -/
theorem messageOr_of_not_blank {message default : String} (tells : ¬ Blank message) :
    messageOr (.str message) default = message :=
  if_neg tells

/-- The outcome says why it is what it is. -/
def ToolOutcome.Spoken : ToolOutcome → Prop
  | .completed _ => True
  | .skipped reason => ¬ Blank reason
  | .failed error => ¬ Blank error
  | .prepared _ => True

/-- Two ends of a handler mean the same to the engine. -/
inductive SameOutcome {ι κ : Type} :
    Except (Raised ι) (Option Dict) → Except (Raised κ) (Option Dict) → Prop where
  | completed (outputRefs : Option Dict) : SameOutcome (.ok outputRefs) (.ok outputRefs)
  | skipped (reason : String) :
      SameOutcome (.error (.stepNotApplicable reason)) (.error (.stepNotApplicable reason))
  | failed (error : String) :
      SameOutcome (.error (.stepExecutionError error)) (.error (.stepExecutionError error))
  | prepared (reason other : String) :
      SameOutcome (.error (.stepActionPrepared reason)) (.error (.stepActionPrepared other))

/-- What the envelope of an outcome is read as. -/
theorem interpretOutcome_envelope {ι : Type} {outcome : ToolOutcome} (tells : outcome.Spoken)
    (stepId : String) :
    SameOutcome (outcome.native : Except (Raised ι) _)
      (interpretOutcome stepId outcome.envelope) := by
  cases outcome with
  | completed outputRefs => cases outputRefs <;> exact .completed _
  | skipped reason =>
      change SameOutcome _ (.error (.stepNotApplicable (messageOr (.str reason) _)))
      rw [messageOr_of_not_blank tells]
      exact .skipped reason
  | failed error =>
      change SameOutcome _ (.error (.stepExecutionError (messageOr (.str error) _)))
      rw [messageOr_of_not_blank tells]
      exact .failed error
  | prepared reason => exact .prepared _ _

theorem remote_handle {run : RunView String} {step : StepView String}
    (addressed : Segmentable run.id) (segmentable : Segmentable step.id) :
    rules.remote clock profile (.handle run step) state =
      (interpretOutcome step.id (rules.invoke step.id state).1.envelope,
        (rules.invoke step.id state).2) := by
  have sent : (Target.invoke run.id step.id).path =
      .ok ("/runs/" ++ quote run.id ++ "/steps/" ++ quote step.id ++ "/invoke") := by
    rw [Target.path, addressed.segment, segmentable.segment]
    rfl
  rw [HostRules.remote, overWire_handle, eval_exchange sent]
  simp [HostRules.answer, observe, HostClient.object, expectObject, handlerEnd, bind, Except.bind,
    Except.mapError]

end Remote

end SlimxAgent
