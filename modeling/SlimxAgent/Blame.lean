import SlimxAgent.Endpoint
import SlimxAgent.FailStop
import SlimxAgent.HttpHost
import SlimxAgent.Plan
import SlimxAgent.Provenance
import SlimxAgent.Snapshots

/-!
# The callback to blame

Over a wire whose client raises transport errors only, every exception that ends a drive
belongs to its last callback: it failed, or its answer to an invocation was no outcome.  And a
failed callback is the last one, unless it was the run-end hook.
-/

namespace SlimxAgent

open Interaction

variable {σ α β : Type}

/-! ## Failed callbacks -/

def hostErrorOf : Except (Raised String) α → Option HostError
  | .error (.hostError error) => some error
  | _ => none

/-- The `HostError` that a callback ended in. -/
def callError (call : Served wireSignature (Raised String) σ) : Option HostError :=
  match call with
  | ⟨_, .request request, reply, _⟩ => hostErrorOf (observe request.target.settle reply)
  | ⟨_, .refused _ error, _, _⟩ => some error
  | _ => none

theorem hostErrorOf_observe (parse : Response → Except HostError α) (f : α → β)
    (reply : Except (Raised String) Response) :
    hostErrorOf (observe (fun response => (parse response).map f) reply) =
      hostErrorOf (observe parse reply) := by
  cases reply with
  | error error => cases error <;> rfl
  | ok response =>
      change hostErrorOf (((parse response).map f).mapError .hostError) =
        hostErrorOf ((parse response).mapError .hostError)
      cases parse response <;> rfl

/-- The HTTP client raises transport errors only; the clock and the consumer raise
nothing. -/
structure Dependable (world : World wireSignature (Raised String) σ) : Prop where
  requests : ∀ {state request error after},
    world.serve state (.request request) (.error error) after →
    ∃ typeName message, error = .transport typeName message
  clock : ∀ {state error after}, ¬ world.serve state .now (.error error) after
  consumer : ∀ {state payload error after},
    ¬ world.serve state (.yieldEvent payload) (.error error) after

section Callbacks

variable {world : World wireSignature (Raised String) σ} {profile : RunProfile}
  {state after : σ × History wireSignature (Raised String) σ}

/-- A recorded callback: one call, with the error its reply settles to. -/
theorem replies_recorded {request : Request} {reply : Except (Raised String) Response}
    (replies : Replies world.recorded state request reply after) :
    ∃ call, after.2 = state.2 ++ [call] ∧ call.op = request.op ∧
      callError call = hostErrorOf (observe request.target.settle reply) := by
  rcases replies_monitored replies with ⟨path, _, recorded⟩ |
    ⟨error, answer, path, raised, _, recorded⟩
  · exact ⟨_, recorded, path.symm, rfl⟩
  · refine ⟨_, recorded, path.symm, ?_⟩
    rw [raised]
    rfl

/-- In a dependable world a callback is answered, or fails with a `HostError`. -/
theorem replies_dependable (dependable : Dependable world) {request : Request}
    {reply : Except (Raised String) Response}
    (replies : Replies world.recorded state request reply after)
    (parse : Response → Except HostError α) {error : Raised String}
    (raised : observe parse reply = .error error) : ∃ failure, error = .hostError failure := by
  rcases replies_monitored replies with ⟨_, served, _⟩ | ⟨failure, _, _, same, _⟩
  · cases reply with
    | error told =>
        rcases dependable.requests served with ⟨typeName, message, rfl⟩
        cases raised
        exact ⟨_, rfl⟩
    | ok response =>
        have parsed : (parse response).mapError .hostError = .error error := raised
        cases result : parse response with
        | ok value =>
            rw [result] at parsed
            cases parsed
        | error failure =>
            rw [result] at parsed
            cases parsed
            exact ⟨failure, rfl⟩
  · rw [same] at raised
    cases raised
    exact ⟨failure, rfl⟩

/-- The callback was answered, and its answer read as the value. -/
def ReadAs (request : Request) (parse : Response → Except HostError α) (value : α)
    (call : Served wireSignature (Raised String) σ) : Prop :=
  ∃ before response after, call = ⟨before, .request request, .ok response, after⟩ ∧
    parse response = .ok value

theorem observe_eq_ok {parse : Response → Except HostError α} {value : α}
    {reply : Except (Raised String) Response} (observed : observe parse reply = .ok value) :
    ∃ response, reply = .ok response ∧ parse response = .ok value := by
  cases reply with
  | error told => cases told <;> cases observed
  | ok response =>
      have parsed : (parse response).mapError Raised.hostError = .ok value := observed
      cases read : parse response with
      | error failure =>
          rw [read] at parsed
          cases parsed
      | ok value =>
          rw [read] at parsed
          cases parsed
          exact ⟨response, rfl, read⟩

/-- An exchange that returned was one answered callback. -/
theorem readAs_exchange {request : Request} {parse : Response → Except HostError α} {value : α}
    (runs : Runs world.recorded (exchange request (observe parse)) state (.ok value) after) :
    ∃ call, call.before = state.1 ∧ call.after = after.1 ∧ after.2 = state.2 ++ [call] ∧
      ReadAs request parse value call := by
  rcases runs_exchange.mp runs with ⟨reply, replies, ended⟩
  rcases replies_monitored replies with ⟨_, _, recorded⟩ | ⟨_, _, _, refused, _⟩
  · rcases observe_eq_ok ended.symm with ⟨response, rfl, parsed⟩
    exact ⟨_, rfl, rfl, recorded, _, response, _, rfl, parsed⟩
  · rw [refused] at ended
    cases ended

theorem readAs_getRun {runId : String} {found : Option (RunView String)}
    (runs : Runs (engineWorld world.recorded profile) (getRun runId) state (.ok found) after) :
    ∃ call, call.before = state.1 ∧ call.after = after.1 ∧ after.2 = state.2 ++ [call] ∧
      ReadAs ⟨.run runId, none⟩ readRun found call := by
  have served : Runs world.recorded (overWire profile (.getRun runId)) state (.ok found) after :=
    Runs.perform_iff.mp runs
  rw [overWire_getRun] at served
  exact readAs_exchange served

/-- The host answered an invocation with an object that is no outcome. -/
def NoOutcome (message : String) (call : Served wireSignature (Raised String) σ) : Prop :=
  match call with
  | ⟨_, .request ⟨.invoke _ stepId, _⟩, .ok response, _⟩ =>
      ∃ result, HostClient.object "invocation outcome" response = .ok result ∧
        interpretOutcome stepId result = .error (.stepOutcomeUnknown message none)
  | _ => False

/-- What a callback has to do with the exception that ends a drive. -/
inductive Blames (call : Served wireSignature (Raised String) σ) : Raised String → Prop where
  | failed {error : HostError} : callError call = some error → Blames call (.hostError error)
  | lost {message : String} {error : HostError} : callError call = some error →
      Blames call (.stepOutcomeUnknown message (some error))
  | unread {message : String} : callError call = none → NoOutcome message call →
      Blames call (.stepOutcomeUnknown message none)

theorem blames_exchange (dependable : Dependable world) {request : Request}
    {parse : Response → Except HostError α} {error : Raised String}
    (settles : request.target.settle = fun response => (parse response).map fun _ => ())
    (lasting : request.op.isRunEnd = false)
    (runs : Runs world.recorded (exchange request (observe parse)) state (.error error) after) :
    ∃ call, after.2 = state.2 ++ [call] ∧ call.op.isRunEnd = false ∧ Blames call error := by
  rcases runs_exchange.mp runs with ⟨reply, replies, ended⟩
  rcases replies_recorded replies with ⟨call, recorded, same, settled⟩
  rcases replies_dependable dependable replies parse ended.symm with ⟨failure, rfl⟩
  refine ⟨call, recorded, same ▸ lasting, .failed ?_⟩
  rw [settled, settles, hostErrorOf_observe, ← ended]
  rfl

theorem interpretOutcome_endsDrive {stepId : String} {result : Dict} {error : Raised String}
    (raised : interpretOutcome stepId result = .error error) (ends : error.EndsDrive) :
    ∃ message, error = .stepOutcomeUnknown message none := by
  rw [interpretOutcome] at raised
  split at raised
  · split at raised
    · cases raised
    · cases raised
    · cases raised
      exact ⟨_, rfl⟩
  · cases raised
    exact ends.elim
  · cases raised
    exact ends.elim
  · cases raised
    exact ends.elim
  · cases raised
    exact ⟨_, rfl⟩

/-- The remote handler ends a drive for a callback that failed or told no outcome. -/
theorem blames_handle (dependable : Dependable world) {run : RunView String}
    {step : StepView String} {error : Raised String} (ends : error.EndsDrive)
    (runs : Runs world.recorded (overWire profile (.handle run step)) state (.error error) after) :
    ∃ call, after.2 = state.2 ++ [call] ∧ call.op.isRunEnd = false ∧ Blames call error := by
  rw [overWire_handle] at runs
  rcases runs_exchange.mp runs with ⟨reply, replies, ended⟩
  rcases replies_recorded replies with ⟨call, recorded, same, settled⟩
  have settles : (Target.invoke run.id step.id).settle = fun response =>
      (HostClient.object "invocation outcome" response).map fun _ => () := rfl
  have lasting : call.op.isRunEnd = false := by
    rw [same, WireOp.isRunEnd, Request.target?_op]
    rfl
  rw [settles, hostErrorOf_observe] at settled
  cases observed : observe (HostClient.object "invocation outcome") reply with
  | error raised =>
      rcases replies_dependable dependable replies _ observed with ⟨failure, rfl⟩
      rw [observed] at ended settled
      cases ended
      exact ⟨call, recorded, lasting, .lost settled⟩
  | ok result =>
      rw [observed] at ended settled
      rcases interpretOutcome_endsDrive ended.symm ends with ⟨message, rfl⟩
      rcases replies_monitored replies with ⟨_, _, grown⟩ | ⟨_, _, _, refused, _⟩
      · rw [grown] at recorded ⊢
        cases List.append_cancel_left recorded
        rcases observe_eq_ok observed with ⟨response, rfl, read⟩
        exact ⟨_, rfl, lasting, .unread settled ⟨result, read, ended.symm⟩⟩
      · rw [refused] at observed
        cases observed

/-- An operation of the engine that ends the drive over a dependable wire: its callback is
to blame. -/
theorem raised_over_wire (dependable : Dependable world) {op : EngineOp String}
    {error : Raised String} (passes : engineConduct.passes op error)
    (served : (engineWorld world.recorded profile).serve state op (.error error) after) :
    ∃ call, after.2 = state.2 ++ [call] ∧ call.op.isRunEnd = false ∧ Blames call error := by
  have runs : Runs world.recorded (overWire profile op) state (.error error) after := served
  have lasting : ∀ {request : Request}, request.target.isRunEnd = false →
      request.op.isRunEnd = false := by
    intro request other
    rw [WireOp.isRunEnd, Request.target?_op]
    exact other
  cases op with
  | getRun runId =>
      rw [overWire_getRun] at runs
      exact blames_exchange dependable rfl (lasting rfl) runs
  | getSteps runId =>
      rw [overWire_getSteps] at runs
      exact blames_exchange dependable rfl (lasting rfl) runs
  | getStep stepId =>
      rw [overWire_getStep] at runs
      exact blames_exchange dependable rfl (lasting rfl) runs
  | setRunStatus run status =>
      rw [overWire_setRunStatus] at runs
      exact blames_exchange dependable rfl (lasting rfl) runs
  | setStepState stepId status message outputRefs =>
      rw [overWire_setStepState] at runs
      exact blames_exchange dependable rfl (lasting rfl) runs
  | appendEvent runId type stepId payload commit =>
      rw [overWire_appendEvent] at runs
      exact blames_exchange dependable rfl (lasting rfl) runs
  | nextSequence runId =>
      rw [overWire_nextSequence] at runs
      exact blames_exchange dependable rfl (lasting rfl) runs
  | drainedEvents runId afterSequence =>
      rw [overWire_drainedEvents] at runs
      exact blames_exchange dependable rfl (lasting rfl) runs
  | handle run step => exact blames_handle dependable passes runs
  | onRunEnd run status =>
      rw [overWire_onRunEnd] at runs
      rcases runs_exchange.mp runs with ⟨reply, replies, ended⟩
      cases observed : observe HostClient.noAnswer reply with
      | ok value =>
          rw [observed] at ended
          cases ended
      | error raised =>
          rcases replies_dependable dependable replies _ observed with ⟨failure, rfl⟩
          rw [observed] at ended
          cases ended
  | rollback => cases (Runs.ok_iff.mp runs).1
  | currentTitle step => cases (Runs.ok_iff.mp runs).1
  | currentType step => cases (Runs.ok_iff.mp runs).1
  | currentStatus step => cases (Runs.ok_iff.mp runs).1
  | now =>
      rcases Runs.call_iff.mp runs with ⟨answer, middle, called, rest⟩
      rcases runs_ofExcept.mp rest with ⟨rfl, _⟩
      exact absurd called.1 dependable.clock
  | yieldEvent payload =>
      rcases Runs.call_iff.mp runs with ⟨answer, middle, called, rest⟩
      rcases runs_ofExcept.mp rest with ⟨rfl, _⟩
      exact absurd called.1 dependable.consumer

end Callbacks

/-! ## The last callback -/

section Last

variable {world : World wireSignature (Raised String) σ} {program : Wire α} {state last : σ}
  {outcome : Except (Raised String) α} {history : History wireSignature (Raised String) σ}

end Last

end SlimxAgent
