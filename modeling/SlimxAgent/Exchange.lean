import SlimxAgent.Standalone
import SlimxAgent.Interaction.Monitor

/-!
# One callback per operation

Every operation of a standalone drive asks for at most one callback, and what the
drive makes of it is a function of the reply.  `exchange` is that shape; each
operation has a lemma that puts it there, and `runs_exchange` and `wp_exchange` are
the rules for it.
-/

namespace SlimxAgent

open Interaction

variable {α β σ : Type}

/-! ## Exchanges -/

/-- The callback an operation makes, sent or not. -/
def WireOp.target? : WireOp → Option Target
  | .request sent => some sent.target
  | .refused target _ => some target
  | _ => none

/-- The operation a request is: it is sent, or its path is refused. -/
def Request.op (request : Request) : WireOp :=
  match request.target.path with
  | .error error => .refused request.target error
  | .ok _ => .request request

theorem Request.target?_op (request : Request) : request.op.target? = some request.target := by
  rw [Request.op]
  split <;> rfl

theorem path_of_refused {request : Request} {target : Target} {error : HostError}
    (refused : request.op = .refused target error) : request.target.path = .error error := by
  rw [Request.op] at refused
  split at refused
  · rename_i path
    cases refused
    exact path
  · cases refused

/-- Send one request and finish with what came back.  A refused path comes back as the
error it raises. -/
def exchange (request : Request)
    (finish : Except (Raised String) Response → Except (Raised String) α) : Wire α :=
  match request.target.path with
  | .error error => .call (.refused request.target error) fun _ =>
      .ofExcept (finish (.error (.hostError error)))
  | .ok _ => .call (.request request) fun reply => .ofExcept (finish reply)

/-- A callback of the world: the reply it ends with, from a state, in a state. -/
def Replies (world : World wireSignature (Raised String) σ) (state : σ) (request : Request)
    (reply : Except (Raised String) Response) (after : σ) : Prop :=
  match request.target.path with
  | .error error => reply = .error (.hostError error) ∧
      ∃ answer, world.serve state (.refused request.target error) answer after
  | .ok _ => world.serve state (.request request) reply after

theorem callback_eq {target : Target} {json : Option Dict}
    {parse : Response → Except HostError α} :
    callback target json parse = exchange ⟨target, json⟩ (observe parse) := by
  rw [callback, exchange]
  cases target.path with
  | error error => rfl
  | ok path => rfl

theorem ofExcept_bind (result : Except (Raised String) α) (next : α → Except (Raised String) β) :
    ((Program.ofExcept result : Wire α) >>= fun value => .ofExcept (next value)) =
      .ofExcept (result >>= next) := by
  cases result with
  | error error => rfl
  | ok value => rfl

theorem exchange_bind {request : Request}
    {finish : Except (Raised String) Response → Except (Raised String) α}
    {next : α → Except (Raised String) β} :
    (exchange request finish >>= fun value => .ofExcept (next value)) =
      exchange request fun reply => finish reply >>= next := by
  rw [exchange, exchange]
  cases request.target.path with
  | error error =>
      simp only [Program.call_bind, ofExcept_bind]
  | ok path =>
      simp only [Program.call_bind, ofExcept_bind]

theorem ofExcept_attempt_bind (result : Except (Raised String) α)
    (next : Except (Raised String) α → Except (Raised String) β) :
    ((Program.ofExcept result : Wire α).attempt >>= fun outcome => .ofExcept (next outcome)) =
      .ofExcept (next result) := by
  cases result with
  | error error => rfl
  | ok value => rfl

theorem exchange_attempt_bind {request : Request}
    {finish : Except (Raised String) Response → Except (Raised String) α}
    {next : Except (Raised String) α → Except (Raised String) β} :
    ((exchange request finish).attempt >>= fun outcome => .ofExcept (next outcome)) =
      exchange request fun reply => next (finish reply) := by
  rw [exchange, exchange]
  cases request.target.path with
  | error error =>
      simp only [Program.attempt, Program.call_bind, ofExcept_attempt_bind]
  | ok path =>
      simp only [Program.attempt, Program.call_bind, ofExcept_attempt_bind]

section Rules

variable {world : World wireSignature (Raised String) σ} {guard : σ → WireOp → Prop}
  {onReturn : α → σ → Prop} {onRaise : Raised String → σ → Prop} {request : Request}
  {finish : Except (Raised String) Response → Except (Raised String) α} {state last : σ}

theorem runs_ofExcept {result outcome : Except (Raised String) α} :
    Runs world (.ofExcept result) state outcome last ↔ outcome = result ∧ last = state :=
  Runs.ofExcept_iff

theorem runs_exchange {outcome : Except (Raised String) α} :
    Runs world (exchange request finish) state outcome last ↔
      ∃ reply, Replies world state request reply last ∧ outcome = finish reply := by
  simp only [exchange, Replies]
  cases request.target.path with
  | error error =>
      simp only [Runs.call_iff, runs_ofExcept]
      constructor
      · intro ⟨answer, middle, served, ended, same⟩
        rw [same]
        exact ⟨_, ⟨rfl, answer, served⟩, ended⟩
      · intro ⟨reply, ⟨refused, answer, served⟩, ended⟩
        rw [refused] at ended
        exact ⟨answer, last, served, ended, rfl⟩
  | ok path =>
      simp only [Runs.call_iff, runs_ofExcept]
      constructor
      · intro ⟨reply, middle, served, ended, same⟩
        rw [same]
        exact ⟨reply, served, ended⟩
      · intro ⟨reply, served, ended⟩
        exact ⟨reply, last, served, ended, rfl⟩

theorem wp_ofExcept {result : Except (Raised String) α} :
    wp world guard (.ofExcept result) onReturn onRaise state ↔
      Ends onReturn onRaise result state := by
  cases result with
  | error error => exact Iff.rfl
  | ok value => exact Iff.rfl

theorem wp_exchange : wp world guard (exchange request finish) onReturn onRaise state ↔
    guard state request.op ∧ ∀ reply after, Replies world state request reply after →
      Ends onReturn onRaise (finish reply) after := by
  simp only [exchange, Replies, Request.op]
  cases request.target.path with
  | error error =>
      simp only [wp_call, wp_ofExcept]
      constructor
      · intro ⟨met, every⟩
        refine ⟨met, ?_⟩
        intro reply after ⟨refused, answer, served⟩
        rw [refused]
        exact every answer after served
      · intro ⟨met, every⟩
        exact ⟨met, fun answer after served => every _ after ⟨rfl, answer, served⟩⟩
  | ok path => simp only [wp_call, wp_ofExcept]

/-- An exchange makes one call. -/
theorem wp_exchange_met (met : guard state request.op) :
    wp world guard (exchange request finish) (fun _ _ => True) (fun _ _ => True) state := by
  rw [wp_exchange]
  refine ⟨met, ?_⟩
  intro reply after _
  cases finish reply <;> trivial

end Rules

/-! ## The operations as exchanges -/

/-- A run read, as the store answers it. -/
def readRun (response : Response) : Except HostError (Option (RunView String)) := do
  match ← HostClient.optionalObject "run snapshot" response with
  | none => return none
  | some data => return some (← RunSnapshot.fromWire data)

def readSteps (response : Response) : Except HostError (List (StepView String)) := do
  (← HostClient.objectList "step list" response).mapM StepSnapshot.fromWire

def readStep (response : Response) : Except HostError (Option (StepView String)) := do
  match ← HostClient.optionalObject "step snapshot" response with
  | none => return none
  | some data => return some (← StepSnapshot.fromWire data)

def readRunWrite (response : Response) : Except HostError (RunView String) := do
  RunSnapshot.fromWire (← HostClient.object "run snapshot" response)

def readStepWrite (response : Response) : Except HostError (StepView String) := do
  StepSnapshot.fromWire (← HostClient.object "step snapshot" response)

def readAppend (response : Response) : Except HostError Unit := do
  let _ ← HostClient.oneEvent response
  return ()

/-- What the remote handler makes of the callback's end. -/
def handlerEnd (stepId : String) : Except (Raised String) Dict →
    Except (Raised String) (Option Dict)
  | .error (.hostError error) => .error (.stepOutcomeUnknown ("step " ++ stepId ++
      " has no observed invocation outcome (" ++ error.message ++ ")") (some error))
  | .error error => .error error
  | .ok result => interpretOutcome stepId result

/-- What the run-end hook makes of it. -/
def hookEnd : Except (Raised String) Unit → Except (Raised String) Unit
  | .ok () => .ok ()
  | .error error => if error.isException then .ok () else .error error

/-- Parsing what a callback returned is part of what is made of its reply. -/
theorem checked_callback {target : Target} {json : Option Dict}
    {parse : Response → Except HostError α} {next : α → Except HostError β} :
    (callback target json parse >>= fun value => checked (next value)) =
      exchange ⟨target, json⟩ (observe fun response => parse response >>= next) := by
  rw [callback_eq]
  refine exchange_bind.trans ?_
  congr
  funext reply
  cases reply with
  | error error => cases error <;> rfl
  | ok response =>
      simp only [observe]
      cases parse response with
      | error error => rfl
      | ok value => rfl

section Operations

variable {profile : RunProfile} {run : RunView String} {step : StepView String}
  {runId stepId : String}

theorem overWire_getRun : overWire profile (.getRun runId) =
    exchange ⟨.run runId, none⟩ (observe readRun) := by
  refine Eq.trans ?_ checked_callback
  rw [overWire, HttpRunStore.getRun, HostClient.getRun]
  congr
  funext data
  cases data with
  | none => rfl
  | some fields =>
      simp only [checked]
      cases RunSnapshot.fromWire fields with
      | error error => rfl
      | ok run => rfl

theorem overWire_getSteps : overWire profile (.getSteps runId) =
    exchange ⟨.steps runId, none⟩ (observe readSteps) :=
  checked_callback

theorem overWire_getStep : overWire profile (.getStep stepId) =
    exchange ⟨.step stepId, none⟩ (observe readStep) := by
  refine Eq.trans ?_ checked_callback
  rw [overWire, HttpRunStore.getStep, HostClient.getStep]
  congr
  funext data
  cases data with
  | none => rfl
  | some fields =>
      simp only [checked]
      cases StepSnapshot.fromWire fields with
      | error error => rfl
      | ok step => rfl

theorem overWire_setRunStatus {status : RunStatus} :
    overWire profile (.setRunStatus run status) =
      exchange ⟨.runStatus run.id, some [("status", .str status.text)]⟩ (observe readRunWrite) :=
  checked_callback

theorem overWire_setStepState {status : StepStatus} {error : Given (Option String)}
    {outputRefs : Given (Option Dict)} :
    overWire profile (.setStepState stepId status error outputRefs) =
      exchange ⟨.stepState stepId, some (HostClient.stepStateBody status error outputRefs)⟩
        (observe readStepWrite) :=
  checked_callback

theorem overWire_appendEvent {type : EventType} {named : Option String} {payload : Option Dict}
    {commit : Bool} :
    overWire profile (.appendEvent runId type named payload commit) =
      exchange ⟨.events runId, some (HostClient.eventBody type named payload)⟩
        (observe readAppend) := by
  refine Eq.trans ?_ checked_callback
  rfl

theorem overWire_nextSequence : overWire profile (.nextSequence runId) =
    exchange ⟨.nextSequence runId, none⟩ (observe HostClient.sequenceAnswer) :=
  callback_eq

theorem overWire_drainedEvents {after : Int} :
    overWire profile (.drainedEvents runId after) =
      exchange ⟨.eventsAfter runId after, none⟩ (observe HostClient.eventList) :=
  callback_eq

theorem overWire_handle : overWire profile (.handle run step) =
    exchange ⟨.invoke run.id step.id, some [("profile", .obj (profileWire profile))]⟩
      fun reply => handlerEnd step.id (observe (HostClient.object "invocation outcome") reply) := by
  refine Eq.trans ?_ exchange_attempt_bind
  rw [overWire, remoteHandler, HostClient.invokeStep, callback_eq]
  congr
  funext outcome
  cases outcome with
  | ok result => rfl
  | error error => cases error <;> rfl

theorem overWire_onRunEnd {status : RunStatus} :
    overWire profile (.onRunEnd run status) =
      exchange ⟨.runEnd run.id,
          some [("status", .str status.text), ("profile", .obj (profileWire profile))]⟩
        fun reply => hookEnd (observe HostClient.noAnswer reply) := by
  refine Eq.trans ?_ exchange_attempt_bind
  rw [overWire, runEndHook, HostClient.runEnd, callback_eq]
  congr
  funext outcome
  cases outcome with
  | ok result => rfl
  | error error =>
      simp only [hookEnd]
      cases error.isException <;> rfl

end Operations

namespace Target

def isRunEnd : Target → Bool
  | .runEnd _ => true
  | _ => false

/-- What is made of a response to the callback, up to the value: the client checks its
shape, and the store parses its snapshots. -/
def settle : Target → Response → Except HostError Unit
  | .run _, response => (readRun response).map fun _ => ()
  | .steps _, response => (readSteps response).map fun _ => ()
  | .step _, response => (readStep response).map fun _ => ()
  | .runStatus _, response => (readRunWrite response).map fun _ => ()
  | .stepState _, response => (readStepWrite response).map fun _ => ()
  | .events _, response => (readAppend response).map fun _ => ()
  | .nextSequence _, response => (HostClient.sequenceAnswer response).map fun _ => ()
  | .eventsAfter _ _, response => (HostClient.eventList response).map fun _ => ()
  | .invoke _ _, response => (HostClient.object "invocation outcome" response).map fun _ => ()
  | .runEnd _, response => (HostClient.noAnswer response).map fun _ => ()

end Target

def WireOp.isRunEnd (op : WireOp) : Bool :=
  op.target?.any Target.isRunEnd

namespace Request

/-- A text field of the body. -/
def field (request : Request) (key : String) : Option String :=
  (Dict.get (request.json.getD []) key).asStr?

/-- The callback returned. -/
def accepted (request : Request) (reply : Except (Raised String) Response) : Bool :=
  match observe request.target.settle reply with
  | .ok () => true
  | .error _ => false

end Request

theorem accepted_eq {α : Type} {request : Request} {parse : Response → Except HostError α}
    (settles : request.target.settle = fun response => (parse response).map fun _ => ())
    (reply : Except (Raised String) Response) :
    request.accepted reply = (observe parse reply).isOk := by
  rw [Request.accepted, settles]
  cases reply with
  | error error => cases error <;> rfl
  | ok response =>
      simp only [observe]
      cases parse response <;> rfl

/-! ## Requests of the engine -/

/-- The request an operation makes, if it makes one. -/
def EngineOp.request (profile : RunProfile) : EngineOp String → Option Request
  | .getRun runId => some ⟨.run runId, none⟩
  | .getSteps runId => some ⟨.steps runId, none⟩
  | .getStep stepId => some ⟨.step stepId, none⟩
  | .setRunStatus run status => some ⟨.runStatus run.id, some [("status", .str status.text)]⟩
  | .setStepState stepId status error outputRefs =>
      some ⟨.stepState stepId, some (HostClient.stepStateBody status error outputRefs)⟩
  | .appendEvent runId type stepId payload _ =>
      some ⟨.events runId, some (HostClient.eventBody type stepId payload)⟩
  | .nextSequence runId => some ⟨.nextSequence runId, none⟩
  | .drainedEvents runId afterSequence => some ⟨.eventsAfter runId afterSequence, none⟩
  | .handle run step =>
      some ⟨.invoke run.id step.id, some [("profile", .obj (profileWire profile))]⟩
  | .onRunEnd run status => some ⟨.runEnd run.id,
      some [("status", .str status.text), ("profile", .obj (profileWire profile))]⟩
  | .rollback => none
  | .currentType _ => none
  | .currentTitle _ => none
  | .currentStatus _ => none
  | .now => none
  | .yieldEvent _ => none

theorem overWire_request {profile : RunProfile} {op : EngineOp String} {request : Request}
    (asks : op.request profile = some request) :
    ∃ finish, overWire profile op = exchange request finish := by
  cases op with
  | getRun runId => cases asks; exact ⟨_, overWire_getRun⟩
  | getSteps runId => cases asks; exact ⟨_, overWire_getSteps⟩
  | getStep stepId => cases asks; exact ⟨_, overWire_getStep⟩
  | setRunStatus run status => cases asks; exact ⟨_, overWire_setRunStatus⟩
  | setStepState stepId status error outputRefs => cases asks; exact ⟨_, overWire_setStepState⟩
  | appendEvent runId type stepId payload commit => cases asks; exact ⟨_, overWire_appendEvent⟩
  | nextSequence runId => cases asks; exact ⟨_, overWire_nextSequence⟩
  | drainedEvents runId afterSequence => cases asks; exact ⟨_, overWire_drainedEvents⟩
  | handle run step => cases asks; exact ⟨_, overWire_handle⟩
  | onRunEnd run status => cases asks; exact ⟨_, overWire_onRunEnd⟩
  | rollback => cases asks
  | currentType step => cases asks
  | currentTitle step => cases asks
  | currentStatus step => cases asks
  | now => cases asks
  | yieldEvent payload => cases asks

section Engine

variable {world : World wireSignature (Raised String) σ} {profile : RunProfile} {state after : σ}

/-- What a world of callbacks is to the engine. -/
def engineWorld (world : World wireSignature (Raised String) σ) (profile : RunProfile) :
    World (engineSignature String) (Raised String) σ :=
  @World.pull (engineSignature String) _ _ _ world (overWire profile)

/-- The calls that an operation makes meet the guard. -/
def Meets (world : World wireSignature (Raised String) σ) (profile : RunProfile)
    (guard : σ → WireOp → Prop) (state : σ) (op : EngineOp String) : Prop :=
  wp world guard (overWire profile op) (fun _ _ => True) (fun _ _ => True) state

/-- `wp` of engine code whose operations are callbacks. -/
abbrev wireWp (world : World wireSignature (Raised String) σ) (profile : RunProfile)
    (guard : σ → WireOp → Prop) (program : Engine String α) (onReturn : α → σ → Prop)
    (onRaise : Raised String → σ → Prop) : σ → Prop :=
  wp (engineWorld world profile) (Meets world profile guard) program onReturn onRaise

theorem meets_of_request {guard : σ → WireOp → Prop} {op : EngineOp String}
    (asked : ∀ request, op.request profile = some request → guard state request.op)
    (unasked : ∀ wireOp : WireOp, wireOp.target? = none → guard state wireOp) :
    Meets world profile guard state op := by
  rw [Meets]
  cases asks : op.request profile with
  | some request =>
      obtain ⟨finish, shape⟩ := overWire_request asks
      rw [shape]
      exact wp_exchange_met (asked request asks)
  | none =>
      cases op with
      | rollback => trivial
      | currentType step => trivial
      | currentTitle step => trivial
      | currentStatus step => trivial
      | now =>
          rw [overWire, wp_perform]
          exact ⟨unasked _ rfl, fun _ _ _ => trivial, fun _ _ _ => trivial⟩
      | yieldEvent payload =>
          rw [overWire, wp_perform]
          exact ⟨unasked _ rfl, fun _ _ _ => trivial, fun _ _ _ => trivial⟩
      | _ => cases asks

/-- A drive over the wire, from the engine's point of view. -/
theorem wp_overWire {guard : σ → WireOp → Prop} {program : Engine String α}
    {onReturn : α → σ → Prop} {onRaise : Raised String → σ → Prop}
    (holds : wireWp world profile guard program onReturn onRaise state) :
    wp world guard (program.translate (overWire profile)) onReturn onRaise state :=
  wp_translate (fun _ _ met => met) holds

/-- One operation that is an exchange. -/
theorem wp_engine_exchange {guard : σ → WireOp → Prop} {op : EngineOp String} {request : Request}
    {finish : Except (Raised String) Response → Except (Raised String) op.Res}
    {onReturn : op.Res → σ → Prop} {onRaise : Raised String → σ → Prop}
    (shape : overWire profile op = exchange request finish) (met : guard state request.op)
    (replied : ∀ reply after, Replies world state request reply after →
      Ends onReturn onRaise (finish reply) after) :
    wireWp world profile guard (@Program.perform (engineSignature String) _ op) onReturn onRaise
      state := by
  have served : ∀ answer after, (engineWorld world profile).serve state op answer after →
      Ends onReturn onRaise answer after := by
    intro answer after served
    have runs : Runs world (overWire profile op) state answer after := served
    rw [shape] at runs
    obtain ⟨reply, replies, ended⟩ := runs_exchange.mp runs
    rw [ended]
    exact replied reply after replies
  apply wp_perform.mpr
  refine ⟨?_, ?_, ?_⟩
  · rw [Meets, shape]
    exact wp_exchange_met met
  · intro result after servedHere
    exact served (.ok result) after servedHere
  · intro error after servedHere
    exact served (.error error) after servedHere

/-- A snapshot's type is what it was. -/
theorem wp_currentType {guard : σ → WireOp → Prop} {step : StepView String}
    {onReturn : String → σ → Prop} {onRaise : Raised String → σ → Prop}
    (returned : onReturn step.type state) :
    wireWp world profile guard (currentType step) onReturn onRaise state := by
  apply wp_perform.mpr
  refine ⟨trivial, ?_, ?_⟩
  · intro result after served
    cases served
    exact returned
  · intro error after served
    cases served

end Engine

/-- An operation is answered through the one callback it makes, or at once. -/
theorem served_request {world : World wireSignature (Raised String) σ} {profile : RunProfile}
    {op : EngineOp String} {answer : Except (Raised String) op.Res} {state after : σ}
    (served : (engineWorld world profile).serve state op answer after) :
    (∃ request reply, op.request profile = some request ∧
      Replies world state request reply after) ∨
    (op.request profile = none ∧ (after = state ∨ ∃ wireOp : WireOp, ∃ result,
      wireOp.target? = none ∧ world.serve state wireOp result after)) := by
  have runs : Runs world (overWire profile op) state answer after := served
  cases asks : op.request profile with
  | some request =>
      obtain ⟨finish, shape⟩ := overWire_request asks
      rw [shape] at runs
      obtain ⟨reply, replies, _⟩ := runs_exchange.mp runs
      exact .inl ⟨request, reply, rfl, replies⟩
  | none =>
      refine .inr ⟨rfl, ?_⟩
      cases op with
      | rollback => exact .inl (Runs.ok_iff.mp runs).2
      | currentType step => exact .inl (Runs.ok_iff.mp runs).2
      | currentTitle step => exact .inl (Runs.ok_iff.mp runs).2
      | currentStatus step => exact .inl (Runs.ok_iff.mp runs).2
      | now =>
          obtain ⟨result, middle, called, rest⟩ := Runs.call_iff.mp runs
          rw [(runs_ofExcept.mp rest).2]
          exact .inr ⟨_, result, rfl, called⟩
      | yieldEvent payload =>
          obtain ⟨result, middle, called, rest⟩ := Runs.call_iff.mp runs
          rw [(runs_ofExcept.mp rest).2]
          exact .inr ⟨_, result, rfl, called⟩
      | _ => cases asks

/-! ## Monitored callbacks -/

section Monitored

variable {world : World wireSignature (Raised String) σ} {profile : RunProfile} {μ : Type}
  {advance : μ → Served wireSignature (Raised String) σ → μ} {state after : σ × μ}

/-- A callback was sent and answered, or its path was refused. -/
theorem replies_monitored {request : Request} {reply : Except (Raised String) Response}
    (replies : Replies (world.monitored advance) state request reply after) :
    (request.op = .request request ∧ world.serve state.1 (.request request) reply after.1 ∧
      after.2 = advance state.2 ⟨state.1, .request request, reply, after.1⟩) ∨
    ∃ error answer, request.op = .refused request.target error ∧
      reply = .error (.hostError error) ∧
      world.serve state.1 (.refused request.target error) answer after.1 ∧
      after.2 = advance state.2 ⟨state.1, .refused request.target error, answer, after.1⟩ := by
  rw [Replies] at replies
  rw [Request.op]
  cases path : request.target.path with
  | ok segment =>
      rw [path] at replies
      exact .inl ⟨rfl, replies.1, replies.2⟩
  | error error =>
      rw [path] at replies
      obtain ⟨refused, answer, served⟩ := replies
      exact .inr ⟨error, answer, rfl, refused, served.1, served.2⟩

/-- An operation moves a monitor by the one callback it makes, if it makes one. -/
theorem served_monitored {op : EngineOp String} {answer : Except (Raised String) op.Res}
    (unmoved : ∀ call : Served wireSignature (Raised String) σ,
      call.op.target? = none → advance state.2 call = state.2)
    (served : (engineWorld (world.monitored advance) profile).serve state op answer after) :
    (op.request profile = none ∧ after.2 = state.2) ∨
    ∃ request, ∃ call : Served wireSignature (Raised String) σ,
      op.request profile = some request ∧ call.op = request.op ∧
      after.2 = advance state.2 call := by
  cases served_request served with
  | inl asked =>
      obtain ⟨request, reply, asks, replies⟩ := asked
      cases replies_monitored replies with
      | inl sent => exact .inr ⟨request, _, asks, sent.1.symm, sent.2.2⟩
      | inr refused =>
          obtain ⟨error, answer, path, _, _, moved⟩ := refused
          exact .inr ⟨request, _, asks, path.symm, moved⟩
  | inr unasked =>
      refine .inl ⟨unasked.1, ?_⟩
      cases unasked.2 with
      | inl same => rw [same]
      | inr called =>
          obtain ⟨wireOp, result, silent, called⟩ := called
          exact called.2.trans (unmoved _ silent)

end Monitored

end SlimxAgent
