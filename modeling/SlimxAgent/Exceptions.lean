import SlimxAgent.Contracts

/-!
# Exceptions

Everything a store call, a tool handler or a host callback may raise.  The
engine tells four step outcomes apart, treats every other `Exception` as a
handler bug, and lets a `BaseException` through.
-/

namespace SlimxAgent

theorem bind_eq_ok {ε α β : Type} {first : Except ε α} {next : α → Except ε β} {value : β} :
    (first >>= next) = .ok value ↔ ∃ middle, first = .ok middle ∧ next middle = .ok value := by
  cases first with
  | ok middle => simp [bind, Except.bind]
  | error error => simp [bind, Except.bind]

/-- The three classes of host-callback failure. -/
inductive HostErrorKind where
  | hostError
  | hostUnavailable
  | hostProtocolError
  deriving DecidableEq

/-- A host callback failed: a refusal, no observed response, or an answer outside
the wire shape. -/
structure HostError where
  kind : HostErrorKind
  statusCode : Nat
  detail : String
  deriving DecidableEq

/-- Host error details are kept bounded. -/
def maxDetailChars : Nat := 500

/-- `text` clipped to `limit` characters; an ellipsis marks a cut. -/
def boundedDetail (text : String) (limit : Nat) : String :=
  if text.length ≤ limit then text else clip text (limit - 1) ++ "…"

namespace HostError

def answered (statusCode : Nat) (detail : String) : HostError :=
  ⟨.hostError, statusCode, boundedDetail detail maxDetailChars⟩

/-- No response was observed; the status code is synthetic. -/
def unavailable (detail : String) : HostError :=
  ⟨.hostUnavailable, 503, boundedDetail ("host unavailable: " ++ detail) maxDetailChars⟩

/-- The host answered outside the documented wire shape. -/
def protocol (detail : String) : HostError :=
  ⟨.hostProtocolError, 502, boundedDetail ("malformed host response: " ++ detail) maxDetailChars⟩

def typeName (error : HostError) : String :=
  match error.kind with
  | .hostError => "HostError"
  | .hostUnavailable => "HostUnavailable"
  | .hostProtocolError => "HostProtocolError"

def message (error : HostError) : String :=
  "agent host error " ++ toString error.statusCode ++ ": " ++ error.detail

end HostError

/-- Host-chosen identities: passed back to the host unchanged, rendered as text
for comparison with a wire payload. -/
class HostId (ι : Type) where
  text : ι → String
  repr : ι → String

instance : HostId String where
  text := id
  repr := reprStr

/-- A raised Python exception. -/
inductive Raised (ι : Type) where
  | stepActionPrepared (message : String)
  | stepOutcomeUnknown (message : String) (cause : Option HostError)
  | stepNotApplicable (message : String)
  | stepExecutionError (message : String)
  | unknownStepStatus (stepId : ι) (status : StepStatus)
  | runningStepNotPermitted (stepId : ι) (reason : String)
  | hostError (error : HostError)
  /-- An `httpx.HTTPError`: no response was observed. -/
  | transport (typeName message : String)
  /-- Any other `Exception`. -/
  | exception (typeName message : String)
  /-- A `BaseException` that is not an `Exception`, a closed generator included. -/
  | baseException (typeName : String)

namespace Raised

variable {ι : Type}

/-- Whether `except Exception` catches it. -/
def isException : Raised ι → Bool
  | .baseException _ => false
  | _ => true

def typeName : Raised ι → String
  | .stepActionPrepared _ => "StepActionPrepared"
  | .stepOutcomeUnknown _ _ => "StepOutcomeUnknown"
  | .stepNotApplicable _ => "StepNotApplicable"
  | .stepExecutionError _ => "StepExecutionError"
  | .unknownStepStatus _ _ => "UnknownStepStatus"
  | .runningStepNotPermitted _ _ => "RunningStepNotPermitted"
  | .hostError error => error.typeName
  | .transport typeName _ => typeName
  | .exception typeName _ => typeName
  | .baseException typeName => typeName

/-- `str(exc)`. -/
def message [HostId ι] : Raised ι → String
  | .stepActionPrepared message => message
  | .stepOutcomeUnknown message _ => message
  | .stepNotApplicable message => message
  | .stepExecutionError message => message
  | .unknownStepStatus stepId status =>
      "step " ++ HostId.repr stepId ++ " has unrecognized status " ++
        reprStr (clip status.text 64) ++ "; it was not dispatched"
  | .runningStepNotPermitted stepId reason =>
      "step " ++ HostId.repr stepId ++ " was left running and is no longer permitted; it was " ++
        "not re-entered: " ++ reason
  | .hostError error => error.message
  | .transport _ message => message
  | .exception _ message => message
  | .baseException _ => ""

/-- The message a handler bug leaves on its step. -/
def shortError [HostId ι] (error : Raised ι) : String :=
  clip (error.typeName ++ ": " ++ error.message) 500

end Raised

end SlimxAgent
