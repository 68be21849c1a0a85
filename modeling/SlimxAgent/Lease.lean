import SlimxAgent.HostClient
import SlimxAgent.Text

/-!
# Execution attempts

A host issues a lease for each attempt at driving a run, and the service sends it back
with every callback.  The headers belong to the client of one execution: another
execution over the same base client, or over a client that is bound already, sends its
own lease and nothing of anyone else's.
-/

namespace SlimxAgent

/-! ## The attempt -/

def leaseJobIdHeader : String := "X-SlimX-Agent-Lease-Job-Id"

def leaseTokenHeader : String := "X-SlimX-Agent-Lease-Token"

def leaseGenerationHeader : String := "X-SlimX-Agent-Lease-Generation"

/-- The host-issued lease identifying exactly one standalone execution attempt. -/
structure ExecutionAttempt where
  jobId : String
  token : String
  generation : Int
  named : ¬ Blank jobId
  secret : ¬ Blank token
  counted : 0 ≤ generation

namespace ExecutionAttempt

/-- The constructor, with the message of its `ValueError`. -/
def make (jobId token : String) (generation : Int) : Except String ExecutionAttempt :=
  if named : Blank jobId then .error "Execution attempt job id must not be empty"
  else if secret : Blank token then .error "Execution attempt token must not be empty"
  else if counted : generation < 0 then
    .error "Execution attempt generation must be a non-negative integer"
  else .ok ⟨jobId, token, generation, named, secret, Int.not_lt.mp counted⟩

def headers (attempt : ExecutionAttempt) : Dict :=
  [(leaseJobIdHeader, .str attempt.jobId), (leaseTokenHeader, .str attempt.token),
    (leaseGenerationHeader, .str (toString attempt.generation))]

end ExecutionAttempt

/-! ## The client of an execution -/

/-- A host client: the headers that its wrapper owns.  They go with every request. -/
structure HostClient where
  requestHeaders : Dict

namespace HostClient

/-- A client with the service's bearer token, if there is one. -/
def make (token : Option String) : HostClient where
  requestHeaders :=
    match token with
    | none => []
    | some token => if token = "" then [] else [("Authorization", .str ("Bearer " ++ token))]

/-- The attempt-bound wrapper. -/
def forExecution (client : HostClient) (attempt : ExecutionAttempt) : HostClient where
  requestHeaders := client.requestHeaders.update attempt.headers

end HostClient

/-- The lease a host reads from the headers of a callback. -/
structure Lease where
  jobId : String
  token : String
  generation : Nat
  deriving DecidableEq

/-- The three headers of a callback, as its host reads them. -/
def readLease (headers : Dict) : Option Lease := do
  let .str jobId := headers.get leaseJobIdHeader | none
  let .str token := headers.get leaseTokenHeader | none
  let .str generation := headers.get leaseGenerationHeader | none
  return ⟨jobId, token, Nat.ofDigitChars 10 generation.toList 0⟩

def ExecutionAttempt.lease (attempt : ExecutionAttempt) : Lease :=
  ⟨attempt.jobId, attempt.token, attempt.generation.toNat⟩

namespace HostClient

variable (client : HostClient) (attempt : ExecutionAttempt)

theorem distinct_headers : (attempt.headers.map Prod.fst).Nodup := by
  have names : attempt.headers.map Prod.fst =
      [leaseJobIdHeader, leaseTokenHeader, leaseGenerationHeader] := rfl
  rw [names]
  decide

theorem get?_forExecution (key : String) :
    (client.forExecution attempt).requestHeaders.get? key =
      (attempt.headers.get? key).or (client.requestHeaders.get? key) :=
  Dict.get?_update client.requestHeaders (distinct_headers attempt) key

/-- The host reads the lease of the attempt, whatever client the wrapper was made from. -/
theorem readLease_forExecution :
    readLease (client.forExecution attempt).requestHeaders = some attempt.lease := by
  have generation : Nat.ofDigitChars 10 (toString attempt.generation).toList 0 =
      attempt.generation.toNat := by
    obtain ⟨count, counted⟩ := Int.eq_ofNat_of_zero_le attempt.counted
    rw [counted, Int.toNat_natCast]
    have digits : (toString (count : Int)).toList = Nat.toDigits 10 count := Nat.toList_repr
    rw [digits, Nat.ofDigitChars_ten_toDigits]
  have job : (client.forExecution attempt).requestHeaders.get leaseJobIdHeader =
      .str attempt.jobId := by
    rw [Dict.get, get?_forExecution]
    rfl
  have token : (client.forExecution attempt).requestHeaders.get leaseTokenHeader =
      .str attempt.token := by
    rw [Dict.get, get?_forExecution]
    rfl
  have count : (client.forExecution attempt).requestHeaders.get leaseGenerationHeader =
      .str (toString attempt.generation) := by
    rw [Dict.get, get?_forExecution]
    rfl
  rw [readLease, job, token, count, ExecutionAttempt.lease, ← generation]
  rfl

end HostClient

end SlimxAgent
