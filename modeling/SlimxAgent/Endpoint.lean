import SlimxAgent.Lease
import SlimxAgent.Standalone

/-!
# The execute endpoints

A request is admitted or answered at once: the bearer token, the run id, the body, the
lease and the service's own configuration are checked in this order, before any
callback.  An admitted request drives the run over a client of its own, and the
exceptions that end the drive become answers.
-/

namespace SlimxAgent

open Interaction

/-! ## Answers -/

/-- What is wrong with a value of a request. -/
inductive BodyProblem where
  | missing
  | notObject
  | notString
  | tooShort
  | tooLong
  | notUuid
  | notInteger
  | negative
  | notPlain
  | incompleteLease
  deriving DecidableEq

/-- What the service answers: the run as it stopped, the problems of a request that is not
well formed (each with the field it is found in), or an `HTTPException`. -/
inductive ServiceAnswer where
  | stopped (runId : String) (status : RunStatus)
  | invalid (problems : List (String × BodyProblem))
  | raised (statusCode : Nat) (detail : String)
  deriving DecidableEq

namespace ServiceAnswer

def statusCode : ServiceAnswer → Nat
  | .stopped _ _ => 200
  | .invalid _ => 422
  | .raised statusCode _ => statusCode

end ServiceAnswer

/-- A host's 4xx is preserved; anything else is a bad gateway. -/
def hostHttpError (error : HostError) : ServiceAnswer :=
  .raised (if 400 ≤ error.statusCode ∧ error.statusCode < 500 then error.statusCode else 502)
    (boundedDetail error.message maxDetailChars)

/-- A drive that ended on an unobserved step outcome relays the host's refusal, if there
was one. -/
def outcomeUnknownHttpError (message : String) : Option HostError → ServiceAnswer
  | some cause => hostHttpError cause
  | none => .raised 502 (boundedDetail message maxDetailChars)

/-- A step left running lost its grant. -/
def notPermittedHttpError (error : Raised String) : ServiceAnswer :=
  .raised 409 (boundedDetail error.message maxDetailChars)

/-! ## The body -/

/-- A UUID, by the text it is written with. -/
structure Uuid where
  text : String
  filled : ¬ Blank text

/-- The host-resolved execution profile and the lease, which is there as a whole or not
at all. -/
structure ProfileBody where
  provider : String
  model : String
  baseUrl : Option String
  leaseJobId : Option Uuid
  leaseToken : Option Uuid
  leaseGeneration : Option Nat
  whole : leaseJobId.isSome = leaseToken.isSome ∧ leaseToken.isSome = leaseGeneration.isSome

/-- A text of bounded length. -/
def boundedStr (least most : Nat) : Json → Except BodyProblem String
  | .str text =>
      if text.length < least then .error .tooShort
      else if most < text.length then .error .tooLong
      else .ok text
  | _ => .error .notString

def uuidValue (readUuid : String → Option Uuid) : Json → Except BodyProblem Uuid
  | .str text =>
      match readUuid text with
      | some uuid => .ok uuid
      | none => .error .notUuid
  | _ => .error .notUuid

/-- A strict integer from 0 on; a boolean is none. -/
def countValue : Json → Except BodyProblem Nat
  | .int value => if value < 0 then .error .negative else .ok value.toNat
  | _ => .error .notInteger

/-- A field that has no default. -/
def requiredField {α : Type} (read : Json → Except BodyProblem α) (fields : Dict)
    (key : String) : Except BodyProblem α :=
  match fields.get? key with
  | none => .error .missing
  | some value => read value

/-- A field that may be absent or null. -/
def optionalField {α : Type} (read : Json → Except BodyProblem α) (fields : Dict)
    (key : String) : Except BodyProblem (Option α) :=
  match fields.get key with
  | .null => .ok none
  | value => (read value).map some

def problemOf {α : Type} (key : String) : Except BodyProblem α → List (String × BodyProblem)
  | .ok _ => []
  | .error problem => [(key, problem)]

namespace ProfileBody

section Fields

variable (readUuid : String → Option Uuid) (fields : Dict)

def provider? : Except BodyProblem String :=
  requiredField (boundedStr 1 128) fields "provider"

def model? : Except BodyProblem String :=
  requiredField (boundedStr 1 512) fields "model"

def baseUrl? : Except BodyProblem (Option String) :=
  optionalField (boundedStr 0 2048) fields "base_url"

def leaseJobId? : Except BodyProblem (Option Uuid) :=
  optionalField (uuidValue readUuid) fields "lease_job_id"

def leaseToken? : Except BodyProblem (Option Uuid) :=
  optionalField (uuidValue readUuid) fields "lease_token"

def leaseGeneration? : Except BodyProblem (Option Nat) :=
  optionalField countValue fields "lease_generation"

/-- Every field is looked at before anything is reported. -/
def problems : List (String × BodyProblem) :=
  problemOf "provider" (provider? fields) ++ problemOf "model" (model? fields) ++
    problemOf "base_url" (baseUrl? fields) ++
    problemOf "lease_job_id" (leaseJobId? readUuid fields) ++
    problemOf "lease_token" (leaseToken? readUuid fields) ++
    problemOf "lease_generation" (leaseGeneration? fields)

/-- The validated body, if its fields are well formed; the lease is checked last. -/
def ofFields : Except BodyProblem (Except BodyProblem ProfileBody) := do
  let provider ← provider? fields
  let model ← model? fields
  let baseUrl ← baseUrl? fields
  let leaseJobId ← leaseJobId? readUuid fields
  let leaseToken ← leaseToken? readUuid fields
  let leaseGeneration ← leaseGeneration? fields
  return if whole : leaseJobId.isSome = leaseToken.isSome ∧
      leaseToken.isSome = leaseGeneration.isSome then
    .ok ⟨provider, model, baseUrl, leaseJobId, leaseToken, leaseGeneration, whole⟩
  else .error .incompleteLease

end Fields

/-- Validate a request body; fields it does not know are ignored. -/
def parse (readUuid : String → Option Uuid) :
    Json → Except (List (String × BodyProblem)) ProfileBody
  | .obj fields =>
      match ofFields readUuid fields with
      | .ok (.ok body) => .ok body
      | .ok (.error problem) => .error [("", problem)]
      | .error _ => .error (problems readUuid fields)
  | .null => .error [("", .missing)]
  | _ => .error [("", .notObject)]

def toProfile (body : ProfileBody) : RunProfile :=
  ⟨body.provider, body.model, body.baseUrl⟩

/-- The required attempt fence of an execute endpoint. -/
def executionAttempt (body : ProfileBody) : Except ServiceAnswer ExecutionAttempt :=
  match body.leaseJobId, body.leaseToken, body.leaseGeneration with
  | some jobId, some token, some generation => .ok {
      jobId := jobId.text
      token := token.text
      generation := generation
      named := jobId.filled
      secret := token.filled
      counted := Int.natCast_nonneg generation }
  | _, _, _ => .error (.raised 422 "Agent execution lease is required")

end ProfileBody

/-! ## Admission -/

/-- What the application is configured with: the bearer token, empty for none, and the
client it has or can build. -/
structure Service where
  token : String
  client : Option HostClient

/-- A request to one of the two execute endpoints. -/
structure ExecuteRequest where
  authorization : Option String
  runId : String
  body : Json

def tokenMatches (authorization : Option String) (token : String) : Bool :=
  match authorization with
  | none => false
  | some supplied => supplied == "Bearer " ++ token

/-- No configured token means no authentication. -/
def requireInternalToken (service : Service) (authorization : Option String) :
    Except ServiceAnswer Unit :=
  if service.token = "" then .ok ()
  else if tokenMatches authorization service.token then .ok ()
  else .error (.raised 401 "Missing or invalid internal service token")

/-- `^[A-Za-z0-9][A-Za-z0-9_.:-]{0,127}$`. -/
def plainRunId (text : String) : Bool :=
  match text.toList with
  | [] => false
  | first :: rest => first.isAlphanum && decide (rest.length ≤ 127) &&
      rest.all fun c => c.isAlphanum || ['_', '.', ':', '-'].contains c

/-- Path and body are validated together. -/
def validated (readUuid : String → Option Uuid) (request : ExecuteRequest) :
    Except ServiceAnswer ProfileBody :=
  let path := if plainRunId request.runId then [] else [("run_id", BodyProblem.notPlain)]
  match path, ProfileBody.parse readUuid request.body with
  | [], .ok body => .ok body
  | path, .ok _ => .error (.invalid path)
  | path, .error problems => .error (.invalid (path ++ problems))

/-- What an execution goes by: its client, bound to the attempt, its profile and its
run. -/
structure Admission where
  client : HostClient
  profile : RunProfile
  runId : String

/-- Everything that is checked before the first callback. -/
def admitted (readUuid : String → Option Uuid) (service : Service) (request : ExecuteRequest) :
    Except ServiceAnswer Admission := do
  requireInternalToken service request.authorization
  let body ← validated readUuid request
  let attempt ← body.executionAttempt
  match service.client with
  | none => .error (.raised 503 "SLIMX_AGENT_HOST_URL is not configured")
  | some client => return ⟨client.forExecution attempt, body.toProfile, request.runId⟩

/-! ## Execution -/

/-- `store_and_run`, then the drive.  The run may not be there; `none` is a drive that is
still running. -/
def storeAndRun {ι : Type} [HostId ι] (registry : ToolRegistry) (runId : ι) (fuel : Nat) :
    Engine ι (Option (Option (RunView ι))) := do
  let found ← getRun runId
  match found with
  | none => return some none
  | some run => do
      let final ← executeRun registry run true fuel
      return final.map some

/-- The same over the wire. -/
def driven (admission : Admission) (fuel : Nat) : Wire (Option (Option (RunView String))) :=
  (storeAndRun remoteRegistry admission.runId fuel).translate (overWire admission.profile)

/-- The answer to what a drive returned or raised.  An exception that no answer is made of
goes on. -/
def answerOf : Except (Raised String) (Option (Option (RunView String))) →
    Except (Raised String) (Option ServiceAnswer)
  | .ok none => .ok none
  | .ok (some none) => .ok (some (.raised 404 "Agent run not found"))
  | .ok (some (some final)) => .ok (some (.stopped final.id final.status))
  | .error (.hostError error) => .ok (some (hostHttpError error))
  | .error (.stepOutcomeUnknown message cause) =>
      .ok (some (outcomeUnknownHttpError message cause))
  | .error (.runningStepNotPermitted stepId reason) =>
      .ok (some (notPermittedHttpError (.runningStepNotPermitted stepId reason)))
  | .error error => .error error

/-- An admitted execution. -/
def execution (admission : Admission) (fuel : Nat) : Wire (Option ServiceAnswer) := do
  let ended ← (driven admission fuel).attempt
  .ofExcept (answerOf ended)

/-- A streamed execution, once its run was read: its end is the end of the stream, also where
one of the three exceptions ended it. -/
def streamed (admission : Admission) (run : RunView String) (fuel : Nat) :
    Wire (Option Unit) := do
  match ← (standaloneEvents admission.profile remoteRegistry run fuel).attempt with
  | .ok ended => return ended
  | .error (.hostError _) => return some ()
  | .error (.stepOutcomeUnknown _ _) => return some ()
  | .error (.runningStepNotPermitted _ _) => return some ()
  | .error error => .raise error

/-! ## What is admitted -/

section Fields

variable {readUuid : String → Option Uuid} {fields : Dict} {key : String}

theorem boundedStr_eq_ok {least most : Nat} {value : Json} {text : String} :
    boundedStr least most value = .ok text ↔
      value = .str text ∧ least ≤ text.length ∧ text.length ≤ most := by
  cases value with
  | str held =>
      rw [boundedStr]
      split
      · simp only [reduceCtorEq, Json.str.injEq, false_iff]
        rintro ⟨rfl, long, _⟩
        omega
      · split
        · simp only [reduceCtorEq, Json.str.injEq, false_iff]
          rintro ⟨rfl, _, short⟩
          omega
        · simp only [Except.ok.injEq, Json.str.injEq]
          constructor
          · rintro rfl
            exact ⟨rfl, by omega, by omega⟩
          · exact And.left
  | _ => simp [boundedStr]

end Fields

/-- The fields of a body name the profile and the attempt. -/
structure Names (readUuid : String → Option Uuid) (fields : Dict) (profile : RunProfile)
    (attempt : ExecutionAttempt) : Prop where
  provider : fields.get? "provider" = some (.str profile.provider) ∧
    1 ≤ profile.provider.length ∧ profile.provider.length ≤ 128
  model : fields.get? "model" = some (.str profile.model) ∧
    1 ≤ profile.model.length ∧ profile.model.length ≤ 512
  baseUrl : fields.get "base_url" = .ofOption .str profile.baseUrl ∧
    ∀ url, profile.baseUrl = some url → url.length ≤ 2048
  jobId : ∃ text uuid, fields.get "lease_job_id" = .str text ∧ readUuid text = some uuid ∧
    uuid.text = attempt.jobId
  token : ∃ text uuid, fields.get "lease_token" = .str text ∧ readUuid text = some uuid ∧
    uuid.text = attempt.token
  generation : fields.get "lease_generation" = .int attempt.generation

section Body

variable {readUuid : String → Option Uuid} {fields : Dict} {body : ProfileBody}

theorem parse_eq_ok {value : Json} : ProfileBody.parse readUuid value = .ok body ↔
    ∃ fields, value = .obj fields ∧ ProfileBody.ofFields readUuid fields = .ok (.ok body) := by
  cases value with
  | obj held =>
      simp only [ProfileBody.parse, Json.obj.injEq]
      cases made : ProfileBody.ofFields readUuid held with
      | error problem => simp [made]
      | ok result =>
          cases result with
          | ok read => simp [made]
          | error problem => simp [made]
  | _ => simp [ProfileBody.parse]

end Body

section Admissions

variable {readUuid : String → Option Uuid} {service : Service} {request : ExecuteRequest}
  {answer : ServiceAnswer}

end Admissions

end SlimxAgent
