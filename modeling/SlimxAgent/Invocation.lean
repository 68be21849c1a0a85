import SlimxAgent.HttpHost
import SlimxAgent.Outline
import Mathlib.Data.List.Induction

/-!
# The answer to an invocation

Only an authoritative answer of the host ends a step.  `verdict` reads the contract's
table off a reply; `Phase` follows a drive through a dispatch, from the running write
to the event that ends the step, and says at each point what may be asked for next.
-/

namespace SlimxAgent

open Interaction

variable {σ : Type}

/-! ## What a reply says -/

/-- How a step may end on the host. -/
inductive Ending where
  | completed
  | skipped
  | failed
  deriving DecidableEq

namespace Ending

def status : Ending → StepStatus
  | .completed => .completed
  | .skipped => .skipped
  | .failed => .failed

def event : Ending → EventType
  | .completed => .stepCompleted
  | .skipped => .stepSkipped
  | .failed => .stepFailed

end Ending

inductive Verdict where
  | ended (ending : Ending)
  | prepared
  | unknown

/-- What an outcome envelope says. -/
def envelopeVerdict (body : Dict) : Verdict :=
  match Dict.get body "outcome" with
  | .str "completed" =>
      match Dict.get body "output_refs" with
      | .null => .ended .completed
      | .obj _ => .ended .completed
      | _ => .unknown
  | .str "skipped" => .ended .skipped
  | .str "failed" => .ended .failed
  | .str "prepared" => .prepared
  | _ => .unknown

/-- What a response to an invocation says: nothing, unless it carries an envelope. -/
def responseVerdict (response : Response) : Verdict :=
  if 400 ≤ response.statusCode ∨ response.statusCode = 204 ∨ response.empty = true then .unknown
  else
    match response.json with
    | some (.obj body) => envelopeVerdict body
    | _ => .unknown

/-- What is heard of an invocation: a response, or a transport failure.  `none` is any
other exception of the transport, which is not an answer. -/
def verdict? : Except (Raised String) Response → Option Verdict
  | .ok response => some (responseVerdict response)
  | .error (.transport _ _) => some .unknown
  | .error _ => none

/-- What the engine is told for it. -/
def Verdict.Tells : Verdict → Except (Raised String) (Option Dict) → Prop
  | .ended .completed, .ok _ => True
  | .ended .skipped, .error (.stepNotApplicable _) => True
  | .ended .failed, .error (.stepExecutionError _) => True
  | .prepared, .error (.stepActionPrepared _) => True
  | .unknown, .error (.stepOutcomeUnknown _ _) => True
  | _, _ => False

theorem envelopeVerdict_tells (stepId : String) (body : Dict) :
    (envelopeVerdict body).Tells (interpretOutcome stepId body) := by
  unfold envelopeVerdict
  split
  · rename_i completed
    simp only [interpretOutcome, completed]
    cases Dict.get body "output_refs" with
    | null => trivial
    | obj refs => trivial
    | _ => trivial
  · rename_i skipped
    rw [interpretOutcome, skipped]
    trivial
  · rename_i failed
    rw [interpretOutcome, failed]
    trivial
  · rename_i prepared
    rw [interpretOutcome, prepared]
    trivial
  · rename_i notCompleted notSkipped notFailed notPrepared
    unfold interpretOutcome
    split
    · rename_i completed
      exact absurd completed notCompleted
    · rename_i skipped
      exact absurd skipped notSkipped
    · rename_i prepared
      exact absurd prepared notPrepared
    · rename_i failed
      exact absurd failed notFailed
    · trivial

/-- A response without a body carries no object. -/
theorem object_of_noBody {what : String} {response : Response}
    (noBody : 400 ≤ response.statusCode ∨ response.statusCode = 204 ∨ response.empty = true) :
    ∃ error, HostClient.object what response = .error error := by
  rw [HostClient.object, requestAnswer]
  simp only [Bool.false_eq_true, and_false, if_false]
  cases noBody with
  | inl refused =>
      rw [if_pos refused]
      exact ⟨_, rfl⟩
  | inr empty =>
      rw [if_pos empty]
      split <;> exact ⟨_, rfl⟩

/-- Any other response carries the object that its body is. -/
theorem object_of_body {what : String} {response : Response}
    (hasBody : ¬ (400 ≤ response.statusCode ∨ response.statusCode = 204 ∨
      response.empty = true)) :
    HostClient.object what response =
      match response.json with
      | some (.obj body) => .ok body
      | some _ => .error (.protocol ("the " ++ what ++ " is not a JSON object"))
      | none => .error (.protocol "the response body is not JSON") := by
  obtain ⟨accepted, notEmpty⟩ := not_or.mp hasBody
  rw [HostClient.object, requestAnswer]
  simp only [Bool.false_eq_true, and_false, if_false, if_neg accepted, if_neg notEmpty]
  cases response.json with
  | none => rfl
  | some body => cases body <;> rfl

/-- The engine is told what the reply says. -/
theorem verdict_tells {stepId : String} {reply : Except (Raised String) Response}
    {verdict : Verdict} (heard : verdict? reply = some verdict) :
    verdict.Tells (handlerEnd stepId (observe (HostClient.object "invocation outcome") reply)) := by
  cases reply with
  | error error =>
      cases error with
      | transport typeName message =>
          cases heard
          trivial
      | _ => cases heard
  | ok response =>
      cases heard
      rw [responseVerdict, observe]
      split
      · rename_i noBody
        have refused : ∃ error, HostClient.object "invocation outcome" response =
          .error error := object_of_noBody noBody
        obtain ⟨error, refused⟩ := refused
        rw [refused]
        trivial
      · rename_i hasBody
        rw [object_of_body hasBody]
        split
        · rename_i body decoded
          rw [decoded]
          exact envelopeVerdict_tells stepId body
        · rename_i notObject
          cases decoded : response.json with
          | none => trivial
          | some body =>
              cases body with
              | obj fields => exact absurd decoded (notObject fields)
              | _ => trivial

/-! ## What a request writes -/

namespace Request

def writesStep (request : Request) (stepId : String) (status : StepStatus) : Bool :=
  decide (request.target = .stepState stepId) && request.field "status" == some status.text

def logsStep (request : Request) (runId stepId : String) (type : EventType) : Bool :=
  decide (request.target = .events runId) && request.field "type" == some type.text &&
    request.field "step_id" == some stepId

/-- A terminal write or a terminal event, of any step. -/
def endsStep (request : Request) : Bool :=
  let endings : List Ending := [.completed, .skipped, .failed]
  match request.target with
  | .stepState _ => endings.any fun ending => request.field "status" == some ending.status.text
  | .events _ => endings.any fun ending => request.field "type" == some ending.event.text
  | _ => false

end Request

namespace WireOp

/-- The operation sends such a request. -/
def sends (test : Request → Bool) : WireOp → Bool
  | .request sent => test sent
  | _ => false

def invokes (op : WireOp) : Bool :=
  op.target?.any fun target =>
    match target with
    | .invoke _ _ => true
    | _ => false

def lists (op : WireOp) : Bool :=
  op.target?.any fun target =>
    match target with
    | .steps _ => true
    | _ => false

end WireOp

/-! ## A dispatch, phase by phase -/

inductive Phase where
  /-- Between dispatches. -/
  | quiet
  /-- The step was written running. -/
  | entered (stepId : String)
  /-- The start was logged. -/
  | started (stepId : String)
  /-- The host said that the step ended: the write is due. -/
  | owes (stepId : String) (ending : Ending)
  /-- The step was written: its event is due. -/
  | wrote (stepId : String) (ending : Ending)
  /-- The dispatch is over, and the steps have not been read since. -/
  | settled
  /-- The outcome is unknown. -/
  | unknown
  /-- The write or the event of an ending failed. -/
  | cut
  /-- The run-end hook was called. -/
  | ended

namespace Phase

/-- What a reply to an invocation leads to. -/
def dispatched (stepId : String) (reply : Except (Raised String) Response) : Phase :=
  match verdict? reply with
  | some (.ended ending) => .owes stepId ending
  | some .prepared => .settled
  | some .unknown => .unknown
  | none => .quiet

/-- A request sent by a drive of the run, and its reply. -/
def next (runId : String) (request : Request) (reply : Except (Raised String) Response) :
    Phase → Phase
  | .quiet =>
      match request.target with
      | .stepState stepId =>
          if request.writesStep stepId .running && request.accepted reply then .entered stepId
          else .quiet
      | _ => .quiet
  | .entered stepId =>
      if request.logsStep runId stepId .stepStarted && request.accepted reply then .started stepId
      else .quiet
  | .started stepId =>
      match request.target with
      | .invoke _ _ => dispatched stepId reply
      | _ => .quiet
  | .owes stepId ending => if request.accepted reply then .wrote stepId ending else .cut
  | .wrote _ _ => if request.accepted reply then .settled else .cut
  | .settled =>
      match request.target with
      | .steps _ => .quiet
      | _ => .settled
  | .unknown => .unknown
  | .cut => .cut
  | .ended => .ended

/-- What any other operation leaves of a phase: a dispatch that was begun is off. -/
def passed : Phase → Phase
  | .entered _ => .quiet
  | .started _ => .quiet
  | phase => phase

/-- The phase after a call that is not the hook's. -/
def heard (runId : String) (phase : Phase) (call : Served wireSignature (Raised String) σ) :
    Phase :=
  match call with
  | ⟨_, .request request, reply, _⟩ => phase.next runId request reply
  | _ => phase.passed

/-- The phase after a call. -/
def advance (runId : String) (phase : Phase) (call : Served wireSignature (Raised String) σ) :
    Phase :=
  if call.op.isRunEnd then .ended else phase.heard runId call

/-- What may be asked for in a phase. -/
def permits (runId : String) (phase : Phase) (op : WireOp) : Prop :=
  match phase with
  | .quiet => op.invokes = false
  | .entered _ => op.invokes = false
  | .started stepId => op.invokes = true → op.target? = some (.invoke runId stepId)
  | .owes stepId ending => op.sends (fun request => request.writesStep stepId ending.status) = true
  | .wrote stepId ending =>
      op.sends (fun request => request.logsStep runId stepId ending.event) = true
  | .settled => op.invokes = false ∧ op.sends Request.endsStep = false
  | .unknown => False
  | .cut => False
  | .ended => op.invokes = false ∧ op.sends Request.endsStep = false

/-- The phases a drive may return in. -/
def Over : Phase → Prop
  | .quiet => True
  | .settled => True
  | .ended => True
  | _ => False

/-- The phases a pass of the loop may begin in. -/
def Calm : Phase → Prop
  | .quiet => True
  | .settled => True
  | _ => False

/-- What an exception may end: not a due write or event, and an unknown outcome is
what it reports. -/
def EndsWith (error : Raised String) : Phase → Prop
  | .owes _ _ => False
  | .wrote _ _ => False
  | .unknown => ∃ message cause, error = .stepOutcomeUnknown message cause
  | _ => True

theorem Calm.past {phase : Phase} (calm : phase.Calm) : phase.Over := by
  cases phase <;> trivial

theorem Over.endsWith {phase : Phase} (past : phase.Over) (error : Raised String) :
    phase.EndsWith error := by
  cases phase <;> trivial

end Phase

/-! ## One call -/

theorem request_of_op {request sent : Request} (equal : request.op = .request sent) :
    request = sent := by
  rw [Request.op] at equal
  split at equal
  · cases equal
  · exact WireOp.request.inj equal

theorem advance_heard {runId : String} {phase : Phase}
    {call : Served wireSignature (Raised String) σ} (notEnd : call.op.isRunEnd = false) :
    phase.advance runId call = phase.heard runId call := by
  rw [Phase.advance, notEnd]
  rfl

/-- Apart from the hook, a call moves the phase by the request it sends, if it sends one. -/
theorem advance_made {runId : String} {phase : Phase} {request : Request}
    {call : Served wireSignature (Raised String) σ} (made : call.op = request.op)
    (alive : request.target.isRunEnd = false) :
    (∃ reply, phase.advance runId call = phase.next runId request reply) ∨
      phase.advance runId call = phase.passed := by
  have notEnd : call.op.isRunEnd = false := by
    rw [made, WireOp.isRunEnd, Request.target?_op]
    exact alive
  rw [advance_heard notEnd]
  obtain ⟨before, op, answer, after⟩ := call
  cases op with
  | request sent =>
      rw [request_of_op made.symm]
      exact .inl ⟨answer, rfl⟩
  | refused target error => exact .inr rfl
  | now => exact .inr rfl
  | yieldEvent payload => exact .inr rfl

theorem advance_unasked {runId : String} {phase : Phase} (past : phase.Over)
    (call : Served wireSignature (Raised String) σ) (unasked : call.op.target? = none) :
    phase.advance runId call = phase := by
  have kept : phase.passed = phase := by
    cases phase <;> first | rfl | exact past.elim
  have notEnd : call.op.isRunEnd = false := by
    rw [WireOp.isRunEnd, unasked]
    rfl
  rw [advance_heard notEnd]
  obtain ⟨before, op, answer, after⟩ := call
  cases op with
  | request sent => cases unasked
  | _ => exact kept

/-- The operations that begin no dispatch, and do not end the drive. -/
def QuietCall : EngineOp String → Prop
  | .handle _ _ => False
  | .onRunEnd _ _ => False
  | .setStepState _ status _ _ => (status == .running) = false
  | _ => True

/-- The operations that can follow a dispatch before the steps are read again. -/
def AftermathCall : EngineOp String → Prop
  | .getRun _ => True
  | .getSteps _ => True
  | .getStep _ => True
  | .setRunStatus _ _ => True
  | .currentStatus _ => True
  | .appendEvent _ type _ _ _ => (type == .runFailed) = true
  | .drainedEvents _ _ => True
  | .yieldEvent _ => True
  | _ => False

theorem next_quiet {runId : String} {request : Request} {reply : Except (Raised String) Response}
    (unentered : ∀ stepId, request.writesStep stepId .running = false) :
    Phase.quiet.next runId request reply = .quiet := by
  rw [Phase.next]
  split
  · rw [unentered]
    rfl
  · rfl

section Calls

variable {profile : RunProfile} {op : EngineOp String} {request : Request}

theorem writesStep_body {stepId other : String} {status wanted : StepStatus}
    {error : Given (Option String)} {outputRefs : Given (Option Dict)} :
    Request.writesStep ⟨.stepState stepId,
        some (HostClient.stepStateBody status error outputRefs)⟩ other wanted =
      (decide (stepId = other) && status.text == wanted.text) := by
  have field : Request.field ⟨.stepState stepId,
      some (HostClient.stepStateBody status error outputRefs)⟩ "status" = some status.text := rfl
  simp [Request.writesStep, field]

theorem text_running {status : StepStatus} (other : (status == .running) = false) :
    (status.text == StepStatus.running.text) = false := by
  rw [beq_eq_false_iff_ne] at other ⊢
  intro same
  apply other
  rw [← StepStatus.ofText_text status, same, StepStatus.ofText_text]

theorem quietCall_request (quiet : QuietCall op) (asks : op.request profile = some request) :
    request.target.isRunEnd = false ∧ request.op.invokes = false ∧
      ∀ stepId, request.writesStep stepId .running = false := by
  rw [WireOp.invokes, Request.target?_op]
  cases op with
  | handle run step => exact quiet.elim
  | onRunEnd run status => exact quiet.elim
  | setStepState stepId status error outputRefs =>
      cases asks
      refine ⟨rfl, rfl, ?_⟩
      intro other
      rw [writesStep_body, text_running quiet, Bool.and_false]
  | _ => cases asks <;> exact ⟨rfl, rfl, fun _ => rfl⟩

theorem aftermathCall_request (aftermath : AftermathCall op)
    (asks : op.request profile = some request) :
    request.target.isRunEnd = false ∧ request.op.invokes = false ∧
      request.op.sends Request.endsStep = false ∧
      ∀ stepId, request.writesStep stepId .running = false := by
  have sends : request.endsStep = false → request.op.sends Request.endsStep = false := by
    intro test
    rw [Request.op]
    split
    · rfl
    · exact test
  rw [WireOp.invokes, Request.target?_op]
  cases op with
  | appendEvent runId type stepId payload commit =>
      cases asks
      cases type <;> first | exact ⟨rfl, rfl, sends rfl, fun _ => rfl⟩ | cases aftermath
  | handle run step => exact aftermath.elim
  | onRunEnd run status => exact aftermath.elim
  | setStepState stepId status error outputRefs => exact aftermath.elim
  | _ => cases asks <;> exact ⟨rfl, rfl, sends rfl, fun _ => rfl⟩

end Calls

/-! ## The drive -/

section Drive

variable {world : World wireSignature (Raised String) σ} {profile : RunProfile}
  {state : σ × Phase} {registry : ToolRegistry} {run fresh : RunView String}
  {step : StepView String} {steps : List (StepView String)} {driveStarted : ℚ} {cursor : Int}

/-- A world whose callbacks are followed phase by phase. -/
abbrev phased (world : World wireSignature (Raised String) σ) (runId : String) :
    World wireSignature (Raised String) (σ × Phase) :=
  world.monitored (Phase.advance runId)

def inPhase (runId : String) (state : σ × Phase) (op : WireOp) : Prop :=
  state.2.permits runId op

def RaisedIn (error : Raised String) (state : σ × Phase) : Prop :=
  state.2.EndsWith error

def IsQuiet (state : σ × Phase) : Prop :=
  state.2 = .quiet

def IsCalm (state : σ × Phase) : Prop :=
  state.2.Calm

def IsOver (state : σ × Phase) : Prop :=
  state.2.Over

theorem IsQuiet.calm (quiet : IsQuiet state) : IsCalm state := by
  rw [IsCalm, quiet]
  trivial

theorem meets_quiet {op : EngineOp String} (asked : QuietCall op) (quiet : IsQuiet state) :
    Meets (phased world run.id) profile (inPhase run.id) state op := by
  apply meets_of_request
  · intro request asks
    rw [inPhase, quiet]
    exact (quietCall_request asked asks).2.1
  · intro wireOp unasked
    rw [inPhase, quiet, Phase.permits, WireOp.invokes, unasked]
    rfl

theorem quiet_stays {op : EngineOp String} (asked : QuietCall op) (quiet : IsQuiet state)
    {answer : Except (Raised String) op.Res} {after : σ × Phase}
    (served : (engineWorld (phased world run.id) profile).serve state op answer after) :
    IsQuiet after := by
  cases served_monitored (advance_unasked quiet.calm.past) served with
  | inl same => exact same.2.trans quiet
  | inr moved =>
      obtain ⟨request, call, asks, made, equal⟩ := moved
      obtain ⟨alive, _, unentered⟩ := quietCall_request asked asks
      rw [IsQuiet, equal, quiet]
      cases advance_made made alive with
      | inl sent =>
          obtain ⟨reply, next⟩ := sent
          rw [next]
          exact next_quiet unentered
      | inr refused => exact refused

/-- Between dispatches. -/
theorem wp_quiet {α : Type} {program : Engine String α}
    (propagates : program.Propagates QuietCall) (quiet : IsQuiet state) :
    wireWp (phased world run.id) profile (inPhase run.id) program (fun _ => IsQuiet) RaisedIn
      state := by
  have raised : ∀ error (state : σ × Phase), IsQuiet state → RaisedIn error state := by
    intro error state quiet
    exact Phase.Over.endsWith quiet.calm.past error
  apply wp_propagates IsQuiet ?_ raised propagates quiet
  intro state op asked quiet
  refine ⟨meets_quiet asked quiet, ?_, ?_⟩
  · intro result after served
    exact quiet_stays asked quiet served
  · intro error after served
    exact raised error after (quiet_stays asked quiet served)

theorem meets_aftermath {op : EngineOp String} (asked : AftermathCall op) (past : IsOver state) :
    Meets (phased world run.id) profile (inPhase run.id) state op := by
  obtain ⟨left, phase⟩ := state
  apply meets_of_request
  · intro request asks
    obtain ⟨_, uninvoked, unending, _⟩ := aftermathCall_request asked asks
    cases phase with
    | quiet => exact uninvoked
    | settled => exact ⟨uninvoked, unending⟩
    | ended => exact ⟨uninvoked, unending⟩
    | _ => exact past.elim
  · intro wireOp unasked
    have uninvoked : wireOp.invokes = false := by
      rw [WireOp.invokes, unasked]
      rfl
    have unending : wireOp.sends Request.endsStep = false := by
      cases wireOp with
      | request sent => cases unasked
      | _ => rfl
    cases phase with
    | quiet => exact uninvoked
    | settled => exact ⟨uninvoked, unending⟩
    | ended => exact ⟨uninvoked, unending⟩
    | _ => exact past.elim

theorem aftermath_stays {op : EngineOp String} (asked : AftermathCall op)
    {answer : Except (Raised String) op.Res} {after : σ × Phase} (past : IsOver state)
    (served : (engineWorld (phased world run.id) profile).serve state op answer after) :
    IsOver after ∧ (IsCalm state → IsCalm after) := by
  have unmoved : ∀ call : Served wireSignature (Raised String) σ, call.op.target? = none →
      state.2.advance run.id call = state.2 := advance_unasked past
  obtain ⟨left, phase⟩ := state
  rw [IsOver, IsCalm, IsCalm]
  cases served_monitored unmoved served with
  | inl same =>
      rw [same.2]
      exact ⟨past, id⟩
  | inr moved =>
      obtain ⟨request, call, asks, made, equal⟩ := moved
      obtain ⟨alive, _, _, unentered⟩ := aftermathCall_request asked asks
      rw [equal]
      have moves : (∃ reply, phase.advance run.id call = phase.next run.id request reply) ∨
          phase.advance run.id call = phase.passed := advance_made made alive
      cases moves with
      | inr refused =>
          rw [refused]
          cases phase <;> first | exact ⟨trivial, id⟩ | exact past.elim
      | inl sent =>
          obtain ⟨reply, next⟩ := sent
          rw [next]
          cases phase with
          | quiet =>
              rw [next_quiet unentered]
              exact ⟨trivial, id⟩
          | settled =>
              rw [Phase.next]
              split <;> exact ⟨trivial, fun _ => trivial⟩
          | ended => exact ⟨trivial, id⟩
          | _ => exact past.elim

/-- After a dispatch. -/
theorem wp_calm {α : Type} {program : Engine String α}
    (propagates : program.Propagates AftermathCall) (calm : IsCalm state) :
    wireWp (phased world run.id) profile (inPhase run.id) program (fun _ => IsCalm) RaisedIn
      state := by
  apply wp_propagates IsCalm ?_ ?_ propagates calm
  · intro state op asked calm
    refine ⟨meets_aftermath asked calm.past, ?_, ?_⟩
    · intro result after served
      exact (aftermath_stays asked calm.past served).2 calm
    · intro error after served
      exact Phase.Over.endsWith ((aftermath_stays asked calm.past served).2 calm).past error
  · intro error state calm
    exact Phase.Over.endsWith calm.past error

/-- After the run ended. -/
theorem wp_over {α : Type} {program : Engine String α}
    (propagates : program.Propagates AftermathCall) (past : IsOver state) :
    wireWp (phased world run.id) profile (inPhase run.id) program (fun _ => IsOver) RaisedIn
      state := by
  apply wp_propagates IsOver ?_ ?_ propagates past
  · intro state op asked past
    refine ⟨meets_aftermath asked past, ?_, ?_⟩
    · intro result after served
      exact (aftermath_stays asked past served).1
    · intro error after served
      exact Phase.Over.endsWith ((aftermath_stays asked past served).1) error
  · intro error state past
    exact Phase.Over.endsWith past error

/-! ### Calls that move the phase -/

/-- A callback whose return moves the drive to its next phase. -/
theorem wp_due {op : EngineOp String} {request : Request}
    {parse : Response → Except HostError op.Res} (goal : Phase)
    (shape : overWire profile op = exchange request (observe parse))
    (settles : request.target.settle = fun response => (parse response).map fun _ => ())
    (alive : request.target.isRunEnd = false) (permitted : state.2.permits run.id request.op)
    (returned : ∀ reply, request.accepted reply = true →
      state.2.next run.id request reply = goal)
    (raised : ∀ error reply, request.accepted reply = false →
      (state.2.next run.id request reply).EndsWith error)
    (refused : ∀ failure error, request.target.path = .error failure →
      state.2.passed.EndsWith error) :
    wireWp (phased world run.id) profile (inPhase run.id)
      (@Program.perform (engineSignature String) _ op) (fun _ after => after.2 = goal) RaisedIn
      state := by
  have met : inPhase run.id state request.op := permitted
  apply wp_engine_exchange shape met
  intro reply after replies
  have accepts := accepted_eq settles reply
  cases replies_monitored replies with
  | inl sent =>
      have moved : after.2 = state.2.next run.id request reply := by
        rw [sent.2.2, Phase.advance, WireOp.isRunEnd]
        simp only [WireOp.target?, Option.any_some, alive]
        rfl
      cases observed : observe parse reply with
      | ok result =>
          rw [observed] at accepts
          exact moved.trans (returned reply accepts)
      | error error =>
          rw [observed] at accepts
          have ends := raised error reply accepts
          rw [← moved] at ends
          exact ends
  | inr unsent =>
      obtain ⟨failure, answer, path, raise, _, moved⟩ := unsent
      have same : after.2 = state.2.passed := by
        rw [moved, Phase.advance, WireOp.isRunEnd]
        simp only [WireOp.target?, Option.any_some, alive]
        rfl
      have ends := refused failure (.hostError failure) (path_of_refused path)
      rw [← same] at ends
      rw [raise]
      exact ends

/-- A request that is sent passes a test that the request passes. -/
theorem sends_of_path {request : Request} {test : Request → Bool} {path : String}
    (sent : request.target.path = .ok path) (passes : test request = true) :
    request.op.sends test = true := by
  rw [Request.op, sent]
  exact passes

/-- The identities of a dispatch can be path segments. -/
structure Addressable (run : RunView String) (step : StepView String) : Prop where
  write : ∃ path, (Target.stepState step.id).path = .ok path
  event : ∃ path, (Target.events run.id).path = .ok path

theorem addressable_of_invoked {path : String}
    (sent : (Target.invoke run.id step.id).path = .ok path) : Addressable run step := by
  simp only [Target.path] at sent
  cases first : segment run.id with
  | error error =>
      rw [first] at sent
      cases sent
  | ok runSegment =>
      cases second : segment step.id with
      | error error =>
          rw [first, second] at sent
          cases sent
      | ok stepSegment =>
          constructor
          · exact ⟨_, by rw [Target.path, second]; rfl⟩
          · exact ⟨_, by rw [Target.path, first]; rfl⟩

theorem wp_enter (quiet : IsQuiet state) :
    wireWp (phased world run.id) profile (inPhase run.id)
      (setStepState step.id .running .unset .unset) (fun _ after => after.2 = .entered step.id)
      RaisedIn state := by
  apply wp_due (.entered step.id) overWire_setStepState rfl rfl
  · rw [quiet, Phase.permits, WireOp.invokes, Request.target?_op]
    rfl
  · intro reply accepted
    rw [quiet, Phase.next]
    simp only [accepted, writesStep_body, decide_true, beq_self_eq_true, Bool.and_self, if_true]
  · intro error reply rejected
    rw [quiet, Phase.next]
    simp only [rejected, Bool.and_false]
    trivial
  · intro failure error _
    rw [quiet]
    trivial

theorem wp_start (entered : state.2 = .entered step.id) {payload : Option Dict} :
    wireWp (phased world run.id) profile (inPhase run.id)
      (appendEvent run.id .stepStarted (some step.id) payload true)
      (fun _ after => after.2 = .started step.id) RaisedIn state := by
  have logs : Request.logsStep ⟨.events run.id,
      some (HostClient.eventBody .stepStarted (some step.id) payload)⟩ run.id step.id
        .stepStarted = true := by
    simp [Request.logsStep, Request.field, HostClient.eventBody, Dict.get, Dict.get?,
      Json.asStr?, Json.ofOption, List.lookup_cons]
  apply wp_due (.started step.id) overWire_appendEvent rfl rfl
  · rw [entered, Phase.permits, WireOp.invokes, Request.target?_op]
    rfl
  · intro reply accepted
    rw [entered, Phase.next, logs, accepted]
    rfl
  · intro error reply rejected
    rw [entered, Phase.next, rejected, Bool.and_false]
    trivial
  · intro failure error _
    rw [entered]
    trivial

/-- The write and the event of an ending, when they are due. -/
theorem wp_ending {ending : Ending} (addressable : Addressable run step)
    (owes : state.2 = .owes step.id ending) {error : Given (Option String)}
    {outputRefs : Given (Option Dict)} {payload : StepView String → Option Dict} :
    wireWp (phased world run.id) profile (inPhase run.id)
      (do
        let row ← setStepState step.id ending.status error outputRefs
        appendEvent run.id ending.event (some step.id) (payload row) true
        return row) (fun _ => IsCalm) RaisedIn state := by
  obtain ⟨writePath, writes⟩ := addressable.write
  obtain ⟨eventPath, logs⟩ := addressable.event
  have written : wireWp (phased world run.id) profile (inPhase run.id)
      (setStepState step.id ending.status error outputRefs)
      (fun _ after => after.2 = .wrote step.id ending) RaisedIn state := by
    apply wp_due (.wrote step.id ending) overWire_setStepState rfl rfl
    · rw [owes]
      apply sends_of_path writes
      simp only [writesStep_body, decide_true, beq_self_eq_true, Bool.and_self]
    · intro reply accepted
      rw [owes, Phase.next, accepted]
      rfl
    · intro error reply rejected
      rw [owes, Phase.next, rejected]
      trivial
    · intro failure error refused
      rw [writes] at refused
      cases refused
  apply wp_seq written
  intro row after wrote
  have logged : wireWp (phased world run.id) profile (inPhase run.id)
      (appendEvent run.id ending.event (some step.id) (payload row) true)
      (fun _ after => after.2 = .settled) RaisedIn after := by
    apply wp_due .settled overWire_appendEvent rfl rfl
    · rw [wrote]
      apply sends_of_path logs
      simp [Request.logsStep, Request.field, HostClient.eventBody, Dict.get, Dict.get?,
        Json.asStr?, Json.ofOption, List.lookup_cons]
    · intro reply accepted
      rw [wrote, Phase.next, accepted]
      rfl
    · intro error reply rejected
      rw [wrote, Phase.next, rejected]
      trivial
    · intro failure error refused
      rw [logs] at refused
      cases refused
  apply wp_seq logged
  intro _ last settled
  change IsCalm last
  rw [IsCalm, settled]
  trivial

/-- What follows a reply to an invocation.  Without one the dispatch is off. -/
theorem served_invocation (started : state.2 = .started step.id)
    {outcome : Except (Raised String) (Option Dict)} {after : σ × Phase}
    (served : (engineWorld (phased world run.id) profile).serve state (.handle run step) outcome
      after) :
    IsQuiet after ∨ ∃ verdict, Verdict.Tells verdict outcome ∧ Addressable run step ∧
      after.2 = match verdict with
        | .ended ending => .owes step.id ending
        | .prepared => .settled
        | .unknown => .unknown := by
  have runs : Runs (phased world run.id) (overWire profile (.handle run step)) state outcome
    after := served
  rw [overWire_handle] at runs
  obtain ⟨reply, replies, ended⟩ := runs_exchange.mp runs
  cases replies_monitored replies with
  | inr refused =>
      obtain ⟨failure, answer, path, raise, _, moved⟩ := refused
      rw [started] at moved
      exact .inl moved
  | inl sent =>
      obtain ⟨path, _, moved⟩ := sent
      have arrived : after.2 = Phase.dispatched step.id reply := by
        rw [moved, started]
        rfl
      rw [Phase.dispatched] at arrived
      cases heard : verdict? reply with
      | none =>
          rw [heard] at arrived
          exact .inl arrived
      | some verdict =>
          rw [heard] at arrived
          refine .inr ⟨verdict, ?_, ?_, ?_⟩
          · rw [ended]
            exact verdict_tells heard
          · cases segments : (Target.invoke run.id step.id).path with
            | ok path => exact addressable_of_invoked segments
            | error error =>
                rw [Request.op, segments] at path
                cases path
          · rw [arrived]
            cases verdict <;> rfl

theorem quietCall_transition {runId stepId : String} {status : StepStatus} {type : EventType}
    (other : (status == .running) = false) : AllowsTransition QuietCall runId stepId status type :=
  ⟨fun _ _ => other, fun _ => trivial⟩

theorem quietCall_drain {runId : String} : AllowsDrain QuietCall runId :=
  ⟨fun _ => trivial, fun _ => trivial⟩

theorem aftermath_drain {runId : String} : AllowsDrain AftermathCall runId :=
  ⟨fun _ => trivial, fun _ => trivial⟩

/-- After the handler, the engine does what the reply says. -/
theorem wp_settleStep_phased (started : state.2 = .started step.id)
    {outcome : Except (Raised String) (Option Dict)} {after : σ × Phase}
    (served : (engineWorld (phased world run.id) profile).serve state (.handle run step) outcome
      after) :
    wireWp (phased world run.id) profile (inPhase run.id) (settleStep run step outcome)
      (fun _ => IsCalm) RaisedIn after := by
  cases served_invocation started served with
  | inl quiet =>
      have settling : AllowsSettling QuietCall run.id step.id :=
        ⟨quietCall_transition rfl, quietCall_transition rfl, quietCall_transition rfl, trivial,
          trivial, fun _ => trivial⟩
      apply wp_post (wp_quiet (settleStep_propagates settling outcome) quiet)
      intro row after quiet
      exact quiet.calm
  | inr heard =>
      obtain ⟨verdict, tells, addressable, moved⟩ := heard
      cases verdict with
      | unknown =>
          cases outcome with
          | ok outputRefs => exact tells.elim
          | error error =>
              cases error with
              | stepOutcomeUnknown message cause =>
                  change RaisedIn _ after
                  rw [RaisedIn, moved]
                  exact ⟨message, cause, rfl⟩
              | _ => exact tells.elim
      | prepared =>
          cases outcome with
          | ok outputRefs => exact tells.elim
          | error error =>
              cases error with
              | stepActionPrepared message =>
                  have calm : IsCalm after := by
                    rw [IsCalm, moved]
                    trivial
                  have reread : (getStep step.id : Engine String _).Propagates
                      AftermathCall := Program.Propagates.perform trivial
                  apply wp_seq (wp_calm reread calm)
                  intro row after calm
                  exact calm
              | _ => exact tells.elim
      | ended ending =>
          cases ending with
          | completed =>
              cases outcome with
              | ok outputRefs => exact wp_ending addressable moved
              | error error => cases error <;> exact tells.elim
          | skipped =>
              cases outcome with
              | ok outputRefs => exact tells.elim
              | error error =>
                  cases error with
                  | stepNotApplicable message =>
                      apply wp_bind.mpr
                      apply wp_currentType
                      exact wp_ending addressable moved
                  | _ => exact tells.elim
          | failed =>
              cases outcome with
              | ok outputRefs => exact tells.elim
              | error error =>
                  cases error with
                  | stepExecutionError message =>
                      apply wp_bind.mpr
                      apply wp_currentType
                      exact wp_ending addressable moved
                  | _ => exact tells.elim

theorem wp_runStep_phased (quiet : IsQuiet state) :
    wireWp (phased world run.id) profile (inPhase run.id) (runStep registry run step)
      (fun _ => IsCalm) RaisedIn state := by
  have shows : ∀ state : σ × Phase, state.2 = .entered step.id →
      wireWp (phased world run.id) profile (inPhase run.id) (currentType step)
        (fun _ after => after.2 = .entered step.id) RaisedIn state :=
    fun _ entered => wp_currentType entered
  have types : ∀ state : σ × Phase, state.2 = .started step.id →
      wireWp (phased world run.id) profile (inPhase run.id) (currentType step)
        (fun stepType after => stepType = step.type ∧ after.2 = .started step.id) RaisedIn state :=
    fun _ started => wp_currentType ⟨rfl, started⟩
  apply wp_runStep_of
  · exact wp_enter quiet
  · exact shows
  · intro startedType state entered
    exact wp_start entered
  · exact types
  · rintro _ state _ ⟨rfl, started⟩
    have written : wireWp (phased world run.id) profile (inPhase run.id)
        (setStepState step.id .failed (.given (some ("Unsupported step type " ++
          reprStr step.type))) .unset) (fun _ => IsQuiet) RaisedIn state := by
      apply wp_due .quiet overWire_setStepState rfl rfl
      · rw [started]
        intro invokes
        rw [WireOp.invokes, Request.target?_op] at invokes
        cases invokes
      · intro reply _
        rw [started]
        rfl
      · intro error reply _
        rw [started]
        trivial
      · intro failure error _
        rw [started]
        trivial
    apply wp_seq written
    intro row after quiet
    apply wp_seq (wp_quiet (appendEvent_propagates trivial) quiet)
    intro _ last quiet
    exact quiet.calm
  · rintro _ state _ ⟨rfl, started⟩
    constructor
    · apply meets_of_request
      · intro request asks
        cases asks
        rw [inPhase, started]
        intro _
        rw [Request.target?_op]
      · intro wireOp unasked
        rw [inPhase, started]
        intro invokes
        rw [WireOp.invokes, unasked] at invokes
        cases invokes
    · intro outcome after served
      exact wp_settleStep_phased started served

theorem wp_notify_phased {status : RunStatus} (calm : IsCalm state) :
    wireWp (phased world run.id) profile (inPhase run.id) (notifyRunEnd true run status)
      (fun _ => IsOver) RaisedIn state := by
  have runEnd : ∀ request, EngineOp.request profile (.onRunEnd run status) = some request →
      request.op.isRunEnd = true ∧ request.op.invokes = false ∧
        request.op.sends Request.endsStep = false := by
    intro request asks
    cases asks
    rw [WireOp.isRunEnd, WireOp.invokes, Request.target?_op]
    refine ⟨rfl, rfl, ?_⟩
    rw [Request.op]
    split <;> rfl
  have met : Meets (phased world run.id) profile (inPhase run.id) state
      (.onRunEnd run status) := by
    obtain ⟨left, phase⟩ := state
    apply meets_of_request
    · intro request asks
      obtain ⟨_, uninvoked, unending⟩ := runEnd request asks
      cases phase with
      | quiet => exact uninvoked
      | settled => exact ⟨uninvoked, unending⟩
      | _ => exact calm.elim
    · intro wireOp unasked
      have uninvoked : wireOp.invokes = false := by
        rw [WireOp.invokes, unasked]
        rfl
      cases phase with
      | quiet => exact uninvoked
      | settled =>
          cases wireOp with
          | request sent => cases unasked
          | _ => exact ⟨uninvoked, rfl⟩
      | _ => exact calm.elim
  have past : ∀ answer after, (engineWorld (phased world run.id) profile).serve state
      (.onRunEnd run status) answer after → IsOver after := by
    intro answer after served
    cases served_monitored (advance_unasked calm.past) served with
    | inl unasked => cases unasked.1
    | inr moved =>
        obtain ⟨request, call, asks, made, equal⟩ := moved
        have ends : call.op.isRunEnd = true := by
          rw [made]
          exact (runEnd request asks).1
        rw [IsOver, equal, Phase.advance, ends]
        trivial
  apply wp_perform.mpr
  refine ⟨met, ?_, ?_⟩
  · intro result after served
    exact past _ after served
  · intro error after served
    exact Phase.Over.endsWith (past _ after served) error

theorem wp_failRun_phased {stepId : String} (calm : IsCalm state) :
    wireWp (phased world run.id) profile (inPhase run.id) (failRun true run stepId)
      (fun _ => IsOver) RaisedIn state := by
  have reports : AftermathCall (.appendEvent run.id .runFailed (some stepId) none false) := rfl
  apply wp_seq (wp_calm (appendEvent_propagates reports) calm)
  intro _ state calm
  apply wp_seq (wp_calm (setRunStatus_propagates trivial) calm)
  intro _ state calm
  exact wp_notify_phased calm

/-- What a visit leaves. -/
abbrev VisitPhase : Option Int → σ × Phase → Prop :=
  VisitEnd (fun _ => IsCalm) IsOver

theorem wp_returnOver (past : IsOver state) :
    wireWp (phased world run.id) profile (inPhase run.id) (drainAndReturn run cursor)
      VisitPhase RaisedIn state :=
  wp_drainAndReturn_of (wp_over (drain_propagates aftermath_drain cursor) past)

theorem wp_visitQuiet {program : Engine String (Option Int)}
    (propagates : program.Propagates QuietCall) (quiet : IsQuiet state) :
    wireWp (phased world run.id) profile (inPhase run.id) program VisitPhase RaisedIn state := by
  apply wp_post (wp_quiet propagates quiet)
  intro next state quiet
  cases next with
  | none => exact quiet.calm.past
  | some cursor => exact quiet.calm

theorem wp_dispatchStep_phased (quiet : IsQuiet state) :
    wireWp (phased world run.id) profile (inPhase run.id)
      (dispatchStep registry run true step cursor) VisitPhase RaisedIn state := by
  apply wp_dispatchStep_of
  · exact wp_runStep_phased quiet
  · intro ran state calm
    exact wp_calm (drain_propagates aftermath_drain cursor) calm
  · intro ran reached state calm
    exact wp_calm (currentStatus_propagates trivial) calm
  · intro ran reached state calm
    exact calm.past
  · intro ran reached state calm
    exact wp_failRun_phased calm
  · intro reached state past
    exact wp_returnOver past
  · intro ran reached status state _ _ calm
    exact calm

theorem wp_visitStep_phased (selected : firstUnfinished steps = some step)
    (quiet : IsQuiet state) :
    wireWp (phased world run.id) profile (inPhase run.id)
      (visitStep registry run true driveStarted fresh steps step cursor) VisitPhase RaisedIn
      state := by
  apply wp_visitStep_of selected
  · intro text unlisted _
    exact Phase.Over.endsWith quiet.calm.past _
  · intro _
    apply wp_foundFailed_of IsOver
    · exact wp_quiet (runFailureReported_propagates trivial step.id) quiet
    · intro state quiet
      apply wp_post (wp_quiet (setRunStatus_propagates trivial) quiet)
      intro _ state quiet
      exact quiet.calm.past
    · intro state quiet
      exact wp_failRun_phased quiet.calm
    · intro state past
      exact wp_returnOver past
  · intro reason _ _
    exact Phase.Over.endsWith quiet.calm.past _
  · intro reason _ _
    apply wp_seq (wp_quiet (skipStep_propagates (quietCall_transition rfl) _ _) quiet)
    intro _ state quiet
    exact wp_visitQuiet (drainAndContinue_propagates quietCall_drain cursor) quiet
  · intro _ _
    apply wp_budgetGate_of
    · exact wp_quiet (budgetExhaustedReason_propagates trivial _ _ _) quiet
    · intro reason state quiet
      have pausing : AllowsPausing QuietCall run := ⟨fun _ => trivial, trivial, fun _ => trivial⟩
      exact wp_visitQuiet (pauseForBudget_propagates pausing quietCall_drain _ _) quiet
    · intro state quiet
      apply wp_approvalGate_of
      · intro _ _
        exact wp_visitQuiet
          (stopAtGate_propagates ⟨quietCall_transition rfl, fun _ => trivial⟩ trivial
            quietCall_drain _ _) quiet
      · intro _ _
        exact wp_quiet (recordApproval_propagates (quietCall_transition rfl) _ _ _) quiet
      · intro _
        exact quiet
      · intro state quiet
        exact wp_dispatchStep_phased quiet

/-- Reading the steps again closes the dispatch before it. -/
theorem wp_relist (calm : IsCalm state) :
    wireWp (phased world run.id) profile (inPhase run.id) (getSteps run.id)
      (fun _ => IsQuiet) RaisedIn state := by
  obtain ⟨left, phase⟩ := state
  have listed : ∀ reply, phase.next run.id ⟨.steps run.id, none⟩ reply = .quiet := by
    intro reply
    cases phase with
    | quiet => rfl
    | settled => rfl
    | _ => exact calm.elim
  apply wp_due .quiet overWire_getSteps rfl rfl
  · cases phase with
    | quiet =>
        rw [Phase.permits, WireOp.invokes, Request.target?_op]
        rfl
    | settled =>
        rw [Phase.permits, WireOp.invokes, Request.target?_op]
        refine ⟨rfl, ?_⟩
        rw [Request.op]
        split <;> rfl
    | _ => exact calm.elim
  · intro reply _
    exact listed reply
  · intro error reply _
    rw [listed reply]
    trivial
  · intro failure error _
    cases phase <;> trivial

theorem wp_loopPass_phased (calm : IsCalm state) :
    wireWp (phased world run.id) profile (inPhase run.id)
      (loopPass registry run true driveStarted cursor)
      (PassEnd (fun _ => IsCalm) IsOver (fun _ => IsQuiet)) RaisedIn state := by
  apply wp_loopPass_of (fun _ _ => IsQuiet)
  · exact wp_calm (getRun_propagates trivial) calm
  · intro current state _ calm
    exact wp_returnOver calm.past
  · intro current state _ calm
    exact wp_relist calm
  · intro current steps state _ quiet
    exact quiet
  · intro current steps step state _ selected quiet
    exact wp_visitStep_phased selected quiet

theorem wp_completeRun_phased (quiet : IsQuiet state) :
    wireWp (phased world run.id) profile (inPhase run.id) (completeRun run true cursor)
      (fun _ => IsOver) RaisedIn state := by
  apply wp_completeRun_of IsQuiet IsQuiet IsOver
  · exact wp_quiet (getRun_propagates trivial) quiet
  · intro current state _ quiet
    exact wp_over (drain_propagates aftermath_drain cursor) quiet.calm.past
  · intro current state _ quiet
    exact wp_quiet (setRunStatus_propagates trivial) quiet
  · intro state quiet
    exact wp_quiet (appendEvent_propagates trivial) quiet
  · intro state quiet
    exact wp_notify_phased quiet.calm
  · intro state past
    exact wp_over (drain_propagates aftermath_drain cursor) past

theorem wp_executeRunEvents_phased (fuel : Nat) (quiet : IsQuiet state) :
    wireWp (phased world run.id) profile (inPhase run.id)
      (executeRunEvents registry run true fuel) (fun _ => IsOver) RaisedIn state := by
  apply wp_executeRunEvents_of (fun _ => IsCalm) IsOver (fun _ => IsQuiet)
  · exact wp_quiet (nextSequence_propagates trivial) quiet
  · intro next state _ quiet
    exact quiet.calm.past
  · intro next state _ quiet
    exact wp_quiet (setRunStatus_propagates trivial) quiet
  · intro next state quiet
    exact wp_quiet (drain_propagates quietCall_drain _) quiet
  · intro cursor state quiet
    apply wp_post (wp_quiet (now_propagates trivial) quiet)
    intro _ state quiet
    exact quiet.calm
  · intro driveStarted cursor state calm
    exact wp_loopPass_phased calm
  · intro cursor state calm
    exact calm.past
  · intro state past
    exact past
  · intro cursor state quiet
    exact wp_completeRun_phased quiet

theorem wp_executeRun_phased (fuel : Nat) (quiet : IsQuiet state) :
    wireWp (phased world run.id) profile (inPhase run.id) (executeRun registry run true fuel)
      (fun _ => IsOver) RaisedIn state := by
  apply wp_seq (wp_executeRunEvents_phased fuel quiet)
  intro ended state past
  cases ended with
  | none => exact past
  | some _ =>
      apply wp_seq (wp_over (getRun_propagates trivial) past)
      intro refreshed state past
      exact past

end Drive

/-! ## The record of a dispatch -/

/-- The call sent a request and returned. -/
def returned (call : Served wireSignature (Raised String) σ) : Bool :=
  match call with
  | ⟨_, .request request, reply, _⟩ => request.accepted reply
  | _ => false

/-- The step was written running and its start was logged, just now. -/
def Entered (runId stepId : String) (earlier : History wireSignature (Raised String) σ) : Prop :=
  ∃ before write start, earlier = before ++ [write, start] ∧
    write.op.sends (fun request => request.writesStep stepId .running) = true ∧
    returned write = true ∧
    start.op.sends (fun request => request.logsStep runId stepId .stepStarted) = true ∧
    returned start = true

/-- No step is ended before the steps are read again. -/
def NoEndingYet (later : History wireSignature (Raised String) σ) : Prop :=
  ∀ front next back, later = front ++ next :: back →
    (∀ call ∈ front, call.op.lists = false) → next.op.sends Request.endsStep = false

/-- The step is written to its ending, then the event of the ending is logged, once
each.  A write or an event that fails is the last call. -/
def SettledBy (runId stepId : String) (ending : Ending)
    (later : History wireSignature (Raised String) σ) : Prop :=
  ∃ write rest, later = write :: rest ∧
    write.op.sends (fun request => request.writesStep stepId ending.status) = true ∧
    (returned write = false → rest = []) ∧
    (returned write = true → ∃ event tail, rest = event :: tail ∧
      event.op.sends (fun request => request.logsStep runId stepId ending.event) = true ∧
      (returned event = false → tail = []) ∧ (returned event = true → NoEndingYet tail))

/-- What a drive does about the answer to an invocation: nothing ends the step but an
answer that says so, and an unknown outcome is the end of the drive. -/
def Heeded {α : Type} (runId stepId : String) (later : History wireSignature (Raised String) σ)
    (history : History wireSignature (Raised String) σ) (outcome : Except (Raised String) α) :
    Verdict → Prop
  | .ended ending => SettledBy runId stepId ending later
  | .prepared => NoEndingYet later
  | .unknown => later = [] ∧
      (∃ message cause, outcome = .error (.stepOutcomeUnknown message cause)) ∧
      ∀ call ∈ history, call.op.isRunEnd = false

/-- In every run of the program, every invocation that is answered, or whose transport
fails, is heeded, and leaves the step running until then. -/
def Authoritative {α : Type} (world : World wireSignature (Raised String) σ) (program : Wire α)
    (run : RunView String) (state : σ) : Prop :=
  ∀ outcome last history, Runs world.recorded program (state, []) outcome (last, history) →
    ∀ earlier before runId stepId json reply after later verdict,
      history = earlier ++ ⟨before, .request ⟨.invoke runId stepId, json⟩, reply, after⟩ :: later →
      verdict? reply = some verdict →
      runId = run.id ∧ Entered runId stepId earlier ∧
        Heeded runId stepId later history outcome verdict

/-- The phase that a record leads to. -/
def phaseOf (runId : String) (history : History wireSignature (Raised String) σ) : Phase :=
  history.foldl (Phase.advance runId) .quiet

theorem phaseOf_append (runId : String) (history : History wireSignature (Raised String) σ)
    (call : Served wireSignature (Raised String) σ) :
    phaseOf runId (history ++ [call]) = (phaseOf runId history).advance runId call := by
  rw [phaseOf, List.foldl_append]
  rfl

section Phases

variable {runId stepId : String} {phase : Phase} {call : Served wireSignature (Raised String) σ}
  {request : Request} {reply : Except (Raised String) Response}

/-- A dispatch is begun by its two calls only. -/
theorem next_eq_entered (entered : phase.next runId request reply = .entered stepId) :
    request.writesStep stepId .running = true ∧ request.accepted reply = true := by
  cases phase with
  | quiet =>
      rw [Phase.next] at entered
      split at entered
      · split at entered
        · rename_i written
          cases entered
          exact Bool.and_eq_true_iff.mp written
        · cases entered
      · cases entered
  | entered other =>
      rw [Phase.next] at entered
      split at entered <;> cases entered
  | started other =>
      rw [Phase.next] at entered
      split at entered
      · rw [Phase.dispatched] at entered
        split at entered <;> cases entered
      · cases entered
  | owes other ending =>
      rw [Phase.next] at entered
      split at entered <;> cases entered
  | wrote other ending =>
      rw [Phase.next] at entered
      split at entered <;> cases entered
  | settled =>
      rw [Phase.next] at entered
      split at entered <;> cases entered
  | _ => cases entered

theorem next_eq_started (started : phase.next runId request reply = .started stepId) :
    phase = .entered stepId ∧ request.logsStep runId stepId .stepStarted = true ∧
      request.accepted reply = true := by
  cases phase with
  | quiet =>
      rw [Phase.next] at started
      split at started
      · split at started <;> cases started
      · cases started
  | entered other =>
      rw [Phase.next] at started
      split at started
      · rename_i logged
        cases started
        exact ⟨rfl, Bool.and_eq_true_iff.mp logged⟩
      · cases started
  | started other =>
      rw [Phase.next] at started
      split at started
      · rw [Phase.dispatched] at started
        split at started <;> cases started
      · cases started
  | owes other ending =>
      rw [Phase.next] at started
      split at started <;> cases started
  | wrote other ending =>
      rw [Phase.next] at started
      split at started <;> cases started
  | settled =>
      rw [Phase.next] at started
      split at started <;> cases started
  | _ => cases started

theorem passed_idle : phase.passed ≠ .entered stepId ∧ phase.passed ≠ .started stepId := by
  cases phase <;> exact ⟨Phase.noConfusion, Phase.noConfusion⟩

/-- A call leads into a dispatch by the request it sent. -/
theorem sent_of_advance {goal : Phase} (idle : goal ≠ .ended) (notPassed : phase.passed ≠ goal)
    (moved : phase.advance runId call = goal) :
    ∃ request reply, call.op = .request request ∧ returned call = request.accepted reply ∧
      phase.next runId request reply = goal := by
  rw [Phase.advance] at moved
  split at moved
  · exact absurd moved.symm idle
  · obtain ⟨before, op, answer, after⟩ := call
    cases op with
    | request sent => exact ⟨sent, answer, rfl, rfl, moved⟩
    | _ => exact absurd moved notPassed

theorem advance_eq_entered (entered : phase.advance runId call = .entered stepId) :
    call.op.sends (fun request => request.writesStep stepId .running) = true ∧
      returned call = true := by
  obtain ⟨request, reply, sent, back, next⟩ :=
    sent_of_advance Phase.noConfusion passed_idle.1 entered
  rw [sent, back]
  exact next_eq_entered next

theorem advance_eq_started (started : phase.advance runId call = .started stepId) :
    phase = .entered stepId ∧
      call.op.sends (fun request => request.logsStep runId stepId .stepStarted) = true ∧
      returned call = true := by
  obtain ⟨request, reply, sent, back, next⟩ :=
    sent_of_advance Phase.noConfusion passed_idle.2 started
  rw [sent, back]
  exact next_eq_started next

/-- A record that leads to a started dispatch ends with its two calls. -/
theorem entered_of_started {earlier : History wireSignature (Raised String) σ}
    (started : phaseOf runId earlier = .started stepId) : Entered runId stepId earlier := by
  cases earlier using List.reverseRecOn with
  | nil => cases started
  | append_singleton init start _ =>
      rw [phaseOf_append] at started
      obtain ⟨entered, logs, logged⟩ := advance_eq_started started
      cases init using List.reverseRecOn with
      | nil => cases entered
      | append_singleton before write _ =>
          rw [phaseOf_append] at entered
          obtain ⟨writes, written⟩ := advance_eq_entered entered
          exact ⟨before, write, start, List.append_assoc _ _ _, writes, written, logs, logged⟩

/-- A call that is not the hook's moves a phase by what it sent. -/
theorem advance_sent (runId : String) (phase : Phase) {test : Request → Bool}
    (sends : call.op.sends test = true)
    (alive : ∀ request, test request = true → request.target.isRunEnd = false) :
    ∃ request reply, call.op = .request request ∧ returned call = request.accepted reply ∧
      phase.advance runId call = phase.next runId request reply := by
  obtain ⟨before, op, answer, after⟩ := call
  cases op with
  | request sent =>
      refine ⟨sent, answer, rfl, rfl, ?_⟩
      have notEnd : WireOp.isRunEnd (.request sent) = false := alive sent sends
      rw [Phase.advance, notEnd]
      rfl
  | _ => cases sends

/-- Once the hook was called the drive is over. -/
theorem ended_of_hook {history : History wireSignature (Raised String) σ}
    (member : call ∈ history) (hook : call.op.isRunEnd = true) :
    phaseOf runId history = .ended := by
  induction history using List.reverseRecOn with
  | nil => cases member
  | append_singleton init last ih =>
      rw [phaseOf_append]
      cases List.mem_append.mp member with
      | inl earlier =>
          rw [ih earlier, Phase.advance]
          split
          · rfl
          · obtain ⟨before, op, answer, after⟩ := last
            cases op <;> rfl
      | inr same =>
          rw [← List.mem_singleton.mp same, Phase.advance, if_pos hook]

end Phases

/-- The phases in which no step may be ended. -/
def Phase.Closed : Phase → Prop
  | .settled => True
  | .ended => True
  | _ => False

theorem closed_advance {runId : String} {phase : Phase}
    {call : Served wireSignature (Raised String) σ} (closed : phase.Closed)
    (unlisted : call.op.lists = false) : (phase.advance runId call).Closed := by
  rw [Phase.advance]
  split
  · trivial
  · obtain ⟨before, op, answer, after⟩ := call
    cases op with
    | request sent =>
        cases phase with
        | settled =>
            change (Phase.settled.next runId sent answer).Closed
            rw [Phase.next]
            split
            · rename_i target
              rw [WireOp.lists, WireOp.target?, target] at unlisted
              cases unlisted
            · trivial
        | ended => trivial
        | _ => exact closed.elim
    | _ => cases phase <;> trivial

/-- The calls that follow a record, each permitted where it is made. -/
def InTurn (runId : String) (earlier later : History wireSignature (Raised String) σ) : Prop :=
  ∀ front next back, later = front ++ next :: back →
    (phaseOf runId (earlier ++ front)).permits runId next.op

theorem noEndingYet_of_closed {runId : String}
    {earlier later : History wireSignature (Raised String) σ}
    (inTurn : InTurn runId earlier later) (closed : (phaseOf runId earlier).Closed) :
    NoEndingYet later := by
  intro front next back split unlisted
  have stays : (phaseOf runId (earlier ++ front)).Closed := by
    clear split
    induction front using List.reverseRecOn with
    | nil =>
        rw [List.append_nil]
        exact closed
    | append_singleton init last ih =>
        rw [← List.append_assoc, phaseOf_append]
        apply closed_advance
        · exact ih fun call member => unlisted call (List.mem_append_left _ member)
        · exact unlisted last (List.mem_append_right _ (List.mem_singleton_self last))
  have met := inTurn front next back split
  cases phase : phaseOf runId (earlier ++ front) with
  | settled =>
      rw [phase] at met
      exact met.2
  | ended =>
      rw [phase] at met
      exact met.2
  | _ =>
      rw [phase] at stays
      exact stays.elim

theorem InTurn.tail {runId : String} {earlier rest : History wireSignature (Raised String) σ}
    {call : Served wireSignature (Raised String) σ} (inTurn : InTurn runId earlier (call :: rest)) :
    InTurn runId (earlier ++ [call]) rest := by
  intro front next back split
  have met := inTurn (call :: front) next back (by rw [split, List.cons_append])
  rw [List.append_assoc]
  exact met

/-- A phase that permits nothing is the end of the record. -/
theorem InTurn.last {runId : String} {earlier later : History wireSignature (Raised String) σ}
    (inTurn : InTurn runId earlier later)
    (barred : ∀ op, ¬ (phaseOf runId earlier).permits runId op) : later = [] := by
  cases later with
  | nil => rfl
  | cons call rest =>
      have met := inTurn [] call rest rfl
      rw [List.append_nil] at met
      exact absurd met (barred call.op)

/-- A due event, when its phase is not the last. -/
theorem logged_of_wrote {runId stepId : String} {ending : Ending}
    {earlier later : History wireSignature (Raised String) σ} (inTurn : InTurn runId earlier later)
    (wrote : phaseOf runId earlier = .wrote stepId ending)
    (goesOn : ∀ stepId ending, phaseOf runId (earlier ++ later) ≠ .wrote stepId ending) :
    ∃ event tail, later = event :: tail ∧
      event.op.sends (fun request => request.logsStep runId stepId ending.event) = true ∧
      (returned event = false → tail = []) ∧ (returned event = true → NoEndingYet tail) := by
  cases later with
  | nil =>
      rw [List.append_nil] at goesOn
      exact absurd wrote (goesOn stepId ending)
  | cons event tail =>
      have met := inTurn [] event tail rfl
      rw [List.append_nil, wrote] at met
      have alive : ∀ request : Request, request.logsStep runId stepId ending.event = true →
          request.target.isRunEnd = false := by
        intro request logs
        have target := (Bool.and_eq_true_iff.mp (Bool.and_eq_true_iff.mp logs).1).1
        rw [of_decide_eq_true target]
        rfl
      obtain ⟨request, reply, sent, back, moved⟩ :=
        advance_sent runId (.wrote stepId ending) met alive
      have after : phaseOf runId (earlier ++ [event]) =
          if request.accepted reply then .settled else .cut := by
        rw [phaseOf_append, wrote, moved]
        rfl
      refine ⟨event, tail, rfl, met, ?_, ?_⟩
      · intro lost
        rw [back] at lost
        apply inTurn.tail.last
        rw [after, lost]
        exact fun _ => id
      · intro made
        rw [back] at made
        apply noEndingYet_of_closed inTurn.tail
        rw [after, made]
        trivial

/-- A due write, and the event after it. -/
theorem settledBy_of_owes {runId stepId : String} {ending : Ending}
    {earlier later : History wireSignature (Raised String) σ} (inTurn : InTurn runId earlier later)
    (owes : phaseOf runId earlier = .owes stepId ending)
    (goesOn : ∀ stepId ending, phaseOf runId (earlier ++ later) ≠ .owes stepId ending ∧
      phaseOf runId (earlier ++ later) ≠ .wrote stepId ending) :
    SettledBy runId stepId ending later := by
  cases later with
  | nil =>
      rw [List.append_nil] at goesOn
      exact absurd owes (goesOn stepId ending).1
  | cons write rest =>
      have met := inTurn [] write rest rfl
      rw [List.append_nil, owes] at met
      have alive : ∀ request : Request, request.writesStep stepId ending.status = true →
          request.target.isRunEnd = false := by
        intro request writes
        rw [of_decide_eq_true (Bool.and_eq_true_iff.mp writes).1]
        rfl
      obtain ⟨request, reply, sent, back, moved⟩ :=
        advance_sent runId (.owes stepId ending) met alive
      have after : phaseOf runId (earlier ++ [write]) =
          if request.accepted reply then .wrote stepId ending else .cut := by
        rw [phaseOf_append, owes, moved]
        rfl
      refine ⟨write, rest, rfl, met, ?_, ?_⟩
      · intro lost
        rw [back] at lost
        apply inTurn.tail.last
        rw [after, lost]
        exact fun _ => id
      · intro made
        rw [back] at made
        rw [made] at after
        apply logged_of_wrote inTurn.tail after
        intro stepId ending
        rw [List.append_assoc]
        exact (goesOn stepId ending).2

/-- The one phase in which an invocation may be asked for. -/
theorem started_of_invoked {runId asked stepId : String} {json : Option Dict} {phase : Phase}
    (met : phase.permits runId (.request ⟨.invoke asked stepId, json⟩)) :
    asked = runId ∧ phase = .started stepId := by
  cases phase with
  | started other =>
      have target := met rfl
      cases target
      exact ⟨rfl, rfl⟩
  | owes other ending => cases met
  | wrote other ending => cases met
  | quiet => cases met
  | entered other => cases met
  | settled => cases met.1
  | ended => cases met.1
  | unknown => exact met.elim
  | cut => exact met.elim

/-- What `wp` over the phased world proves of the runs. -/
theorem authoritative_of_wp {α : Type} {world : World wireSignature (Raised String) σ}
    {program : Wire α} {run : RunView String} {state : σ}
    (holds : wp (phased world run.id) (inPhase run.id) program (fun _ => IsOver) RaisedIn
      (state, .quiet)) : Authoritative world program run state := by
  intro outcome last history runs earlier before runId stepId json reply after later verdict split
    heard
  have permitted : ∀ front next back, history = front ++ next :: back →
      (phaseOf run.id front).permits run.id next.op := by
    intro front next back split
    have whole : history = [] ++ front ++ next :: back := split
    exact runs.monitor_guarded Phase.quiet holds whole
  obtain ⟨sameRun, started⟩ := started_of_invoked (permitted _ _ _ split)
  rw [sameRun] at split ⊢
  have dispatched : phaseOf run.id (earlier ++
      [⟨before, .request ⟨.invoke run.id stepId, json⟩, reply, after⟩]) =
        Phase.dispatched stepId reply := by
    rw [phaseOf_append, started]
    rfl
  rw [Phase.dispatched, heard] at dispatched
  have inTurn : InTurn run.id (earlier ++
      [⟨before, .request ⟨.invoke run.id stepId, json⟩, reply, after⟩]) later := by
    intro front next back tail
    apply permitted _ next back
    rw [split, tail]
    simp
  have whole : earlier ++ [⟨before, .request ⟨.invoke run.id stepId, json⟩, reply, after⟩] ++
      later = history := by
    rw [split]
    simp
  have ended := runs.monitor_post holds
  refine ⟨rfl, entered_of_started started, ?_⟩
  cases verdict with
  | ended ending =>
      apply settledBy_of_owes inTurn dispatched
      intro stepId ending
      rw [whole]
      have final : (phaseOf run.id history).Over ∨
          ∃ error, (phaseOf run.id history).EndsWith error := by
        cases outcome with
        | ok value => exact .inl ended
        | error error => exact .inr ⟨error, ended⟩
      constructor <;> intro same <;> rw [same] at final <;>
        rcases final with past | ⟨error, ends⟩ <;> trivial
  | prepared =>
      apply noEndingYet_of_closed inTurn
      rw [dispatched]
      trivial
  | unknown =>
      have none : later = [] := by
        apply inTurn.last
        rw [dispatched]
        exact fun _ => id
      rw [none, List.append_nil] at whole
      rw [whole] at dispatched
      refine ⟨none, ?_, ?_⟩
      · cases outcome with
        | ok value =>
            have past : (phaseOf run.id history).Over := ended
            rw [dispatched] at past
            exact past.elim
        | error error =>
            have ends : (phaseOf run.id history).EndsWith error := ended
            rw [dispatched] at ends
            obtain ⟨message, cause, equal⟩ := ends
            exact ⟨message, cause, congrArg Except.error equal⟩
      · intro call member
        cases hook : call.op.isRunEnd with
        | false => rfl
        | true =>
            rw [ended_of_hook member hook] at dispatched
            cases dispatched

/-- Only an authoritative answer ends a step: every invocation is answered for as the
contract says. -/
theorem invocation_authority (world : World wireSignature (Raised String) σ)
    (profile : RunProfile) (registry : ToolRegistry) (run : RunView String) (fuel : Nat)
    (state : σ) :
    Authoritative world (standaloneEvents profile registry run fuel) run state ∧
      Authoritative world (standaloneRun profile registry run fuel) run state := by
  constructor
  · apply authoritative_of_wp
    apply wp_overWire
    exact wp_executeRunEvents_phased fuel rfl
  · apply authoritative_of_wp
    apply wp_overWire
    exact wp_executeRun_phased fuel rfl

/-- A host whose tool completes its step: the drive writes it completed, and nothing else. -/
theorem invocation_authority_completed :
    ∃ last earlier before json reply after later,
      Runs (World.ofFn (plainRules.serve fun _ => 0)).recorded
        (standaloneEvents ⟨"ollama", "qwen3:8b", none⟩ remoteRegistry modelCallHost.run 3)
        (modelCallHost, []) (.ok (some ())) (last, earlier ++
          ⟨before, .request ⟨.invoke "run-1" "step-1", json⟩, reply, after⟩ :: later) ∧
      verdict? reply = some (.ended .completed) ∧ Entered "run-1" "step-1" earlier ∧
      SettledBy "run-1" "step-1" .completed later := by
  rcases record_ofFn (plainRules.serve fun _ => 0) (fun record call => record ++ [call])
    (standaloneEvents ⟨"ollama", "qwen3:8b", none⟩ remoteRegistry modelCallHost.run 3)
    modelCallHost [] with ⟨history, runs, recorded⟩
  rw [foldl_record, List.nil_append] at recorded
  subst recorded
  rw [← List.take_append_drop 8 (Prod.snd (Prod.snd _))] at runs
  have heeded := (invocation_authority (World.ofFn (plainRules.serve fun _ => 0))
    ⟨"ollama", "qwen3:8b", none⟩ remoteRegistry modelCallHost.run 3 modelCallHost).1 _ _ _ runs
    _ _ _ _ _ _ _ _ (.ended .completed) rfl rfl
  exact ⟨_, _, _, _, _, _, _, runs, rfl, heeded.2.1, heeded.2.2⟩

end SlimxAgent
