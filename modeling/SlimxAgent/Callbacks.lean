import SlimxAgent.HostClient

/-!
# Callbacks and their answers

The client's ten methods as one family, and what the status of a response makes of each.
A redirect or an informational answer is not an error to the client: it is read as if it
were a success.
-/

namespace SlimxAgent

open Interaction

/-! ## The methods of the client -/

/-- One call of a client method, with the type of what it returns. -/
inductive HostCall : Type → Type where
  | getRun (runId : String) : HostCall (Option Dict)
  | getSteps (runId : String) : HostCall (List Dict)
  | getStep (stepId : String) : HostCall (Option Dict)
  | setRunStatus (runId : String) (status : RunStatus) : HostCall Dict
  | setStepState (stepId : String) (status : StepStatus) (error : Given (Option String))
      (outputRefs : Given (Option Dict)) : HostCall Dict
  | appendEvent (runId : String) (type : EventType) (stepId : Option String)
      (payload : Option Dict) : HostCall Event
  | nextSequence (runId : String) : HostCall Int
  | eventsAfter (runId : String) (after : Int) : HostCall (List Event)
  | invokeStep (runId stepId : String) (profile : RunProfile) : HostCall Dict
  | runEnd (runId : String) (status : RunStatus) (profile : RunProfile) : HostCall Unit

namespace HostCall

variable {α β : Type}

/-- The method's code. -/
def program : HostCall α → Wire α
  | .getRun runId => HostClient.getRun runId
  | .getSteps runId => HostClient.getSteps runId
  | .getStep stepId => HostClient.getStep stepId
  | .setRunStatus runId status => HostClient.setRunStatus runId status
  | .setStepState stepId status error outputRefs =>
      HostClient.setStepState stepId status error outputRefs
  | .appendEvent runId type stepId payload => HostClient.appendEvent runId type stepId payload
  | .nextSequence runId => HostClient.nextSequence runId
  | .eventsAfter runId after => HostClient.eventsAfter runId after
  | .invokeStep runId stepId profile => HostClient.invokeStep runId stepId profile
  | .runEnd runId status profile => HostClient.runEnd runId status profile

def target : HostCall α → Target
  | .getRun runId => .run runId
  | .getSteps runId => .steps runId
  | .getStep stepId => .step stepId
  | .setRunStatus runId _ => .runStatus runId
  | .setStepState stepId _ _ _ => .stepState stepId
  | .appendEvent runId _ _ _ => .events runId
  | .nextSequence runId => .nextSequence runId
  | .eventsAfter runId after => .eventsAfter runId after
  | .invokeStep runId stepId _ => .invoke runId stepId
  | .runEnd runId _ _ => .runEnd runId

def json : HostCall α → Option Dict
  | .setRunStatus _ status => some [("status", .str status.text)]
  | .setStepState _ status error outputRefs =>
      some (HostClient.stepStateBody status error outputRefs)
  | .appendEvent _ type stepId payload => some (HostClient.eventBody type stepId payload)
  | .invokeStep _ _ profile => some [("profile", .obj (profileWire profile))]
  | .runEnd _ status profile =>
      some [("status", .str status.text), ("profile", .obj (profileWire profile))]
  | .getRun _ | .getSteps _ | .getStep _ | .nextSequence _ | .eventsAfter _ _ => none

/-- A 404 is an answer to the call. -/
def allow404 : HostCall α → Bool
  | .getRun _ | .getStep _ => true
  | _ => false

/-- What the call makes of its response. -/
def parse : HostCall α → Response → Except HostError α
  | .getRun _ => HostClient.optionalObject "run snapshot"
  | .getSteps _ => HostClient.objectList "step list"
  | .getStep _ => HostClient.optionalObject "step snapshot"
  | .setRunStatus _ _ => HostClient.object "run snapshot"
  | .setStepState _ _ _ _ => HostClient.object "step snapshot"
  | .appendEvent _ _ _ _ => HostClient.oneEvent
  | .nextSequence _ => HostClient.sequenceAnswer
  | .eventsAfter _ _ => HostClient.eventList
  | .invokeStep _ _ _ => HostClient.object "invocation outcome"
  | .runEnd _ _ _ => HostClient.noAnswer

/-- Every method is one callback. -/
theorem program_eq (call : HostCall α) :
    call.program = callback call.target call.json call.parse := by
  cases call <;> rfl

/-- The call is sent and returns once it is answered by the response. -/
def Returns (call : HostCall α) (response : Response) : Prop :=
  ∃ resume value, call.program = .call (.request ⟨call.target, call.json⟩) resume ∧
    resume (.ok response) = .done value

/-- A call that returns was given an answer. -/
theorem answered_of_parse {call : HostCall α} {response : Response} {value : α}
    (parsed : call.parse response = .ok value) :
    ∃ answer, requestAnswer call.allow404 response = .ok answer := by
  cases answered : requestAnswer call.allow404 response with
  | ok answer => exact ⟨answer, rfl⟩
  | error error =>
      cases call <;>
        simp only [allow404] at answered <;>
        simp [parse, HostClient.optionalObject, HostClient.objectList, HostClient.object,
          HostClient.oneEvent, HostClient.sequenceAnswer, HostClient.eventList,
          HostClient.noAnswer, answered, bind, Except.bind] at parsed

theorem parse_of_returns {call : HostCall α} {response : Response}
    (returns : call.Returns response) :
    ∃ value, call.parse response = .ok value := by
  rcases returns with ⟨resume, value, sent, returned⟩
  rw [program_eq, callback] at sent
  cases routed : call.target.path with
  | error error =>
      rw [routed] at sent
      cases (Program.call.inj sent).1
  | ok path =>
      rw [routed] at sent
      have resumed := eq_of_heq (Program.call.inj sent).2
      rw [← resumed] at returned
      simp only [observe] at returned
      cases parsed : call.parse response with
      | ok value => exact ⟨value, rfl⟩
      | error error =>
          rw [parsed] at returned
          cases returned

end HostCall

/-! ## The status of an answer -/

/-- The host says that the callback succeeded. -/
def Response.Success (response : Response) : Prop :=
  200 ≤ response.statusCode ∧ response.statusCode < 300

/-- There is nothing to decode. -/
def Response.NoContent (response : Response) : Prop :=
  response.statusCode = 204 ∨ response.empty = true

/-- An answer of status 2xx is read, an allowed 404 is a marker, and every other answer is an
error with the host's status. -/
structure AnswersByStatus (allow404 : Bool) (response : Response) : Prop where
  notFound : requestAnswer allow404 response = .ok .notFound ↔
    response.statusCode = 404 ∧ allow404 = true
  body : ∀ value, requestAnswer allow404 response = .ok (.body value) → response.Success
  noContent : response.Success → response.NoContent →
    requestAnswer allow404 response = .ok (.body .null)
  decoded : response.Success → ¬ response.NoContent → ∀ value, response.json = some value →
    requestAnswer allow404 response = .ok (.body value)
  undecoded : response.Success → ¬ response.NoContent → response.json = none →
    ∃ error, requestAnswer allow404 response = .error error ∧ error.kind = .hostProtocolError
  refused : ¬ response.Success → ¬ (response.statusCode = 404 ∧ allow404 = true) →
    ∃ error, requestAnswer allow404 response = .error error ∧
      error.statusCode = response.statusCode

section Statuses

variable {allow404 : Bool} {response : Response}

theorem requestAnswer_marker (absent : response.statusCode = 404 ∧ allow404 = true) :
    requestAnswer allow404 response = .ok .notFound := by
  rw [requestAnswer, if_pos absent]

theorem requestAnswer_refused (present : ¬ (response.statusCode = 404 ∧ allow404 = true))
    (refused : 400 ≤ response.statusCode) :
    requestAnswer allow404 response =
      .error (.answered response.statusCode (errorDetail response)) := by
  rw [requestAnswer, if_neg present, if_pos refused]

theorem requestAnswer_empty (accepted : response.statusCode < 400)
    (noContent : response.NoContent) : requestAnswer allow404 response = .ok (.body .null) := by
  rw [requestAnswer, if_neg (by omega), if_neg (by omega)]
  exact if_pos noContent

theorem requestAnswer_content (accepted : response.statusCode < 400)
    (content : ¬ response.NoContent) :
    requestAnswer allow404 response =
      match response.json with
      | none => .error (.protocol "the response body is not JSON")
      | some body => .ok (.body body) := by
  rw [requestAnswer, if_neg (by omega), if_neg (by omega)]
  exact if_neg content

/-- What is accepted without an error status is a body, or is outside the wire shape. -/
theorem requestAnswer_accepted (accepted : response.statusCode < 400) :
    (∃ value, requestAnswer allow404 response = .ok (.body value)) ∨
      ∃ detail, requestAnswer allow404 response = .error (.protocol detail) := by
  by_cases noContent : response.NoContent
  · exact .inl ⟨_, requestAnswer_empty accepted noContent⟩
  · rw [requestAnswer_content accepted noContent]
    cases response.json with
    | none => exact .inr ⟨_, rfl⟩
    | some body => exact .inl ⟨body, rfl⟩

/-- The statuses that the client reads as their class says. -/
theorem answersByStatus_of (covered : response.Success ∨ 400 ≤ response.statusCode) :
    AnswersByStatus allow404 response := by
  by_cases absent : response.statusCode = 404 ∧ allow404 = true
  · have marker : requestAnswer allow404 response = .ok .notFound := requestAnswer_marker absent
    have failure : ¬ response.Success := fun success => by
      have bound := success.2
      omega
    constructor
    case notFound => exact iff_of_true marker absent
    case body =>
      intro value given
      rw [marker] at given
      cases given
    case refused => exact fun _ present => absurd absent present
    all_goals exact fun success => absurd success failure
  · rcases covered with success | refused
    · have accepted : response.statusCode < 400 := by
        have bound := success.2
        omega
      constructor
      case notFound =>
        refine iff_of_false (fun marker => ?_) absent
        rcases @requestAnswer_accepted allow404 _ accepted with ⟨_, given⟩ | ⟨_, given⟩ <;>
          (rw [given] at marker; cases marker)
      case body => exact fun _ _ => success
      case noContent => exact fun _ => requestAnswer_empty accepted
      case decoded =>
        intro _ content value given
        rw [requestAnswer_content accepted content, given]
      case undecoded =>
        intro _ content given
        rw [requestAnswer_content accepted content, given]
        exact ⟨_, rfl, rfl⟩
      case refused => exact fun failure => absurd success failure
    · have error := requestAnswer_refused absent refused
      have failure : ¬ response.Success := fun success => by
        have bound := success.2
        omega
      constructor
      case notFound =>
        rw [error]
        exact iff_of_false nofun absent
      case body =>
        intro value given
        rw [error] at given
        cases given
      case refused => exact fun _ _ => ⟨_, error, rfl⟩
      all_goals exact fun success => absurd success failure

/-- Below 400 no answer is an error with the host's status. -/
theorem success_or_refused (answers : AnswersByStatus allow404 response) :
    response.Success ∨ 400 ≤ response.statusCode := by
  by_contra outside
  have accepted : response.statusCode < 400 := by omega
  rcases answers.refused (fun success => outside (.inl success)) (by omega) with
    ⟨error, refused, sameStatus⟩
  rcases @requestAnswer_accepted allow404 _ accepted with ⟨_, given⟩ | ⟨detail, given⟩
  · rw [given] at refused
    cases refused
  · rw [given] at refused
    rw [← Except.error.inj refused] at sameStatus
    change 502 = response.statusCode at sameStatus
    omega

end Statuses

/-- A callback meets the statuses of its answers except where an answer is informational or a
redirect. -/
theorem callback_answers_by_status {α : Type} (call : HostCall α) (response : Response) :
    (AnswersByStatus call.allow404 response ∧
        (call.Returns response →
          response.Success ∨ response.statusCode = 404 ∧ call.allow404 = true)) ↔
      response.Success ∨ 400 ≤ response.statusCode := by
  constructor
  · exact fun meets => success_or_refused meets.1
  · intro covered
    have answers : AnswersByStatus call.allow404 response := answersByStatus_of covered
    refine ⟨answers, fun returns => ?_⟩
    rcases HostCall.parse_of_returns returns with ⟨value, parsed⟩
    rcases HostCall.answered_of_parse parsed with ⟨answer, answered⟩
    cases answer with
    | notFound => exact .inr (answers.notFound.mp answered)
    | body value => exact .inl (answers.body value answered)

/-- A redirect in answer to the run-end callback: the epilogue counts as done. -/
theorem redirect_returns :
    let call : HostCall Unit := .runEnd "r1" .completed ⟨"openai", "gpt", none⟩
    let moved : Response := ⟨302, true, none, ""⟩
    call.Returns moved ∧ ¬ moved.Success :=
  ⟨⟨_, (), rfl, rfl⟩, by simp [Response.Success]⟩

end SlimxAgent
