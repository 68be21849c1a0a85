import SlimxAgent.Store

/-!
# The host client

The standalone service's one path back to its host.  A callback is one request; what
its response, or the lack of one, means is decided here: an allowed 404, a refusal,
an empty body, a body outside the wire shape, a lost answer.  No callback is ever
sent twice.
-/

namespace SlimxAgent

open Interaction

/-! ## Requests and responses -/

/-- What the client reads of a response. -/
structure Response where
  statusCode : Nat
  /-- There is no body. -/
  empty : Bool
  /-- The decoded body; `none` when decoding raises `ValueError`. -/
  json : Option Json
  text : String

inductive Method where
  | get
  | post
  deriving DecidableEq

/-- The callbacks, each with the identities that go into its path. -/
inductive Target where
  | run (runId : String)
  | steps (runId : String)
  | step (stepId : String)
  | runStatus (runId : String)
  | stepState (stepId : String)
  | events (runId : String)
  | nextSequence (runId : String)
  | eventsAfter (runId : String) (after : Int)
  | invoke (runId stepId : String)
  | runEnd (runId : String)
  deriving DecidableEq

/-- The bytes that `quote` leaves as they are. -/
def alwaysSafe (byte : UInt8) : Bool :=
  let point := byte.toNat
  (48 ≤ point && point ≤ 57) || (65 ≤ point && point ≤ 90) || (97 ≤ point && point ≤ 122) ||
    point == 95 || point == 46 || point == 45 || point == 126

def quoteByte (byte : UInt8) : String :=
  if alwaysSafe byte then String.singleton (Char.ofNat byte.toNat)
  else String.ofList ['%', (Nat.digitChar (byte.toNat / 16)).toUpper,
    (Nat.digitChar (byte.toNat % 16)).toUpper]

/-- `quote(text, safe="")`. -/
def quote (text : String) : String :=
  String.join ((text.toList.flatMap String.utf8EncodeChar).map quoteByte)

/-- One URL path segment for a host identity.  Empty and dot-only identities are
refused. -/
def segment (text : String) : Except HostError String :=
  if text = "" ∨ text = "." ∨ text = ".." then
    .error (.protocol ("host identity " ++ reprStr text ++ " cannot be a URL path segment"))
  else .ok (quote text)

namespace Target

def method : Target → Method
  | .run _ => .get
  | .steps _ => .get
  | .step _ => .get
  | .runStatus _ => .post
  | .stepState _ => .post
  | .events _ => .post
  | .nextSequence _ => .get
  | .eventsAfter _ _ => .get
  | .invoke _ _ => .post
  | .runEnd _ => .post

/-- The path below `/internal/agent-host`. -/
def path : Target → Except HostError String
  | .run runId => return "/runs/" ++ (← segment runId)
  | .steps runId => return "/runs/" ++ (← segment runId) ++ "/steps"
  | .step stepId => return "/steps/" ++ (← segment stepId)
  | .runStatus runId => return "/runs/" ++ (← segment runId) ++ "/status"
  | .stepState stepId => return "/steps/" ++ (← segment stepId) ++ "/state"
  | .events runId => return "/runs/" ++ (← segment runId) ++ "/events"
  | .nextSequence runId => return "/runs/" ++ (← segment runId) ++ "/events/next-sequence"
  | .eventsAfter runId _ => return "/runs/" ++ (← segment runId) ++ "/events"
  | .invoke runId stepId =>
      return "/runs/" ++ (← segment runId) ++ "/steps/" ++ (← segment stepId) ++ "/invoke"
  | .runEnd runId => return "/runs/" ++ (← segment runId) ++ "/run-end"

/-- The query parameters. -/
def params : Target → List (String × Int)
  | .eventsAfter _ after => [("after", after)]
  | _ => []

end Target

/-- One request: its target, and its JSON body. -/
structure Request where
  target : Target
  json : Option Dict

/-- The operations of a standalone drive: callbacks, the clock, the consumer. -/
inductive WireOp where
  | request (request : Request)
  /-- A callback that ends before anything is sent, its path being refused.  Nobody is
  asked; it is an operation so that a record of the drive shows every callback. -/
  | refused (target : Target) (error : HostError)
  | now
  | yieldEvent (payload : Event)

@[reducible] def WireOp.Res : WireOp → Type
  | .request _ => Response
  | .refused _ _ => Unit
  | .now => ℚ
  | .yieldEvent _ => Unit

@[reducible] def wireSignature : Signature := ⟨WireOp, WireOp.Res⟩

/-- Code of the standalone service. -/
abbrev Wire (α : Type) := Program wireSignature (Raised String) α

/-! ## What an answer means -/

/-- `response.text or "no detail"`. -/
def textDetail (response : Response) : String :=
  if response.text = "" then "no detail" else response.text

/-- The detail of a refusal. -/
def errorDetail (response : Response) : String :=
  match response.json with
  | some (.obj body) =>
      match Dict.get body "detail" with
      | .null => textDetail response
      | .str detail => if detail = "" then (Json.str detail).dumps else detail
      | detail => detail.dumps
  | _ => textDetail response

/-- A JSON body, `None` for no body included, or the marker of an allowed 404. -/
inductive Answer where
  | notFound
  | body (value : Json)

/-- `_request`, once there is a response. -/
def requestAnswer (allow404 : Bool) (response : Response) : Except HostError Answer :=
  if response.statusCode = 404 ∧ allow404 = true then .ok .notFound
  else if 400 ≤ response.statusCode then
    .error (.answered response.statusCode (errorDetail response))
  else if response.statusCode = 204 ∨ response.empty = true then .ok (.body .null)
  else
    match response.json with
    | none => .error (.protocol "the response body is not JSON")
    | some body => .ok (.body body)

def expectObject (what : String) : Answer → Except HostError Dict
  | .body (.obj fields) => .ok fields
  | _ => .error (.protocol ("the " ++ what ++ " is not a JSON object"))

/-- The members of a list, if each of them is an object. -/
def objects? : List Json → Option (List Dict)
  | [] => some []
  | .obj fields :: items => (objects? items).map (fields :: ·)
  | _ => none

def expectObjectList (what : String) (answer : Answer) : Except HostError (List Dict) :=
  match answer with
  | .body (.arr items) =>
      match objects? items with
      | some objects => .ok objects
      | none => .error (.protocol ("the " ++ what ++ " is not a JSON array of objects"))
  | _ => .error (.protocol ("the " ++ what ++ " is not a JSON array of objects"))

/-- An event is an object with an integer sequence; booleans are not integers here. -/
def expectEvent (fields : Dict) : Except HostError Event :=
  match sequenced : Dict.get fields "sequence" with
  | .int sequence => .ok ⟨fields, sequence, sequenced⟩
  | _ => .error (.protocol "an event has no integer sequence")

/-! ## Callbacks -/

/-- What a callback makes of its response, or of the exception its request raised. -/
def observe {α : Type} (parse : Response → Except HostError α) :
    Except (Raised String) Response → Except (Raised String) α
  | .ok response => (parse response).mapError .hostError
  | .error (.transport typeName message) =>
      .error (.hostError (.unavailable (typeName ++ ": " ++ message)))
  | .error error => .error error

/-- Send one request, unless its path is refused. -/
def callback {α : Type} (target : Target) (json : Option Dict)
    (parse : Response → Except HostError α) : Wire α :=
  match target.path with
  | .error error => .call (.refused target error) fun _ => .raise (.hostError error)
  | .ok _ => .call (.request ⟨target, json⟩) fun answer => .ofExcept (observe parse answer)

/-- The provider, the model and the base URL, forwarded exactly. -/
structure RunProfile where
  provider : String
  model : String
  baseUrl : Option String

def profileWire (profile : RunProfile) : Dict :=
  [("provider", .str profile.provider), ("model", .str profile.model),
    ("base_url", .ofOption .str profile.baseUrl)]

namespace HostClient

/-- A snapshot, or `None` for an allowed 404. -/
def optionalObject (what : String) (response : Response) : Except HostError (Option Dict) := do
  match ← requestAnswer true response with
  | .notFound => return none
  | data => return some (← expectObject what data)

def object (what : String) (response : Response) : Except HostError Dict := do
  expectObject what (← requestAnswer false response)

def objectList (what : String) (response : Response) : Except HostError (List Dict) := do
  expectObjectList what (← requestAnswer false response)

def getRun (runId : String) : Wire (Option Dict) :=
  callback (.run runId) none (optionalObject "run snapshot")

def getSteps (runId : String) : Wire (List Dict) :=
  callback (.steps runId) none (objectList "step list")

def getStep (stepId : String) : Wire (Option Dict) :=
  callback (.step stepId) none (optionalObject "step snapshot")

def setRunStatus (runId : String) (status : RunStatus) : Wire Dict :=
  callback (.runStatus runId) (some [("status", .str status.text)]) (object "run snapshot")

/-- The body of a step transition: a field left untouched travels as an explicit
flag. -/
def stepStateBody (status : StepStatus) (error : Given (Option String))
    (outputRefs : Given (Option Dict)) : Dict :=
  [("status", .str status.text),
    ("error_set", .bool (match error with | .unset => false | .given _ => true)),
    ("output_refs_set", .bool (match outputRefs with | .unset => false | .given _ => true))] ++
  (match error with
    | .unset => []
    | .given value => [("error", .ofOption .str value)]) ++
  (match outputRefs with
    | .unset => []
    | .given value => [("output_refs", .ofOption .obj value)])

def setStepState (stepId : String) (status : StepStatus) (error : Given (Option String))
    (outputRefs : Given (Option Dict)) : Wire Dict :=
  callback (.stepState stepId) (some (stepStateBody status error outputRefs))
    (object "step snapshot")

def eventBody (type : EventType) (stepId : Option String) (payload : Option Dict) : Dict :=
  [("type", .str type.text), ("step_id", .ofOption .str stepId),
    ("payload", .ofOption .obj payload)]

def oneEvent (response : Response) : Except HostError Event := do
  expectEvent (← object "event" response)

def appendEvent (runId : String) (type : EventType) (stepId : Option String)
    (payload : Option Dict) : Wire Event :=
  callback (.events runId) (some (eventBody type stepId payload)) oneEvent

/-- A sequence is an integer from 0 on. -/
def sequenceAnswer (response : Response) : Except HostError Int := do
  let data ← object "next-sequence answer" response
  match Dict.get data "next_sequence" with
  | .int value =>
      if value < 0 then .error (.protocol "next_sequence is not a non-negative integer")
      else .ok value
  | _ => .error (.protocol "next_sequence is not a non-negative integer")

def nextSequence (runId : String) : Wire Int :=
  callback (.nextSequence runId) none sequenceAnswer

def eventList (response : Response) : Except HostError (List Event) := do
  (← objectList "event list" response).mapM expectEvent

def eventsAfter (runId : String) (after : Int) : Wire (List Event) :=
  callback (.eventsAfter runId after) none eventList

/-- Execute one step's tool on the host; the answer is its outcome envelope. -/
def invokeStep (runId stepId : String) (profile : RunProfile) : Wire Dict :=
  callback (.invoke runId stepId) (some [("profile", .obj (profileWire profile))])
    (object "invocation outcome")

def noAnswer (response : Response) : Except HostError Unit := do
  let _ ← requestAnswer false response
  return ()

/-- Fire the host's run-end epilogue. -/
def runEnd (runId : String) (status : RunStatus) (profile : RunProfile) : Wire Unit :=
  callback (.runEnd runId)
    (some [("status", .str status.text), ("profile", .obj (profileWire profile))]) noAnswer

end HostClient

end SlimxAgent
