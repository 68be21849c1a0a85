import SlimxAgent.Callbacks
import SlimxAgent.Edge
import SlimxAgent.Interaction.Interleaving

/-!
# The execution fence

Any number of executions share one service and one host, each with the lease it was
issued.  The host checks the lease of every callback against its own ledger.  An execution
whose lease is no longer current changes nothing there, whatever the others do meanwhile:
its next callback is refused, and that ends its drive.  The executions never send one
another's lease, so nobody else is stopped by it.
-/

namespace SlimxAgent

open Interaction

variable {σ κ : Type}

/-- The callback was refused as stale, or its answer was lost. -/
def StaleReply : Except (Raised String) Response → Prop
  | .ok response => response.statusCode = 409
  | .error (.transport _ _) => True
  | .error _ => False

/-- A host that answers requests by their headers and validates the lease of each: where
it is not current, the request changes nothing and is refused. -/
structure Fenced (host : Dict → World wireSignature (Raised String) σ)
    (current : σ → Lease → Prop) : Prop where
  stale : ∀ {headers state request reply after},
    (host headers).serve state (.request request) reply after →
    (∀ lease, readLease headers = some lease → ¬ current state lease) →
    after = state ∧ StaleReply reply

/-- The two execute endpoints. -/
inductive Surface where
  | execute
  | stream

/-- An admitted execution: its surface and its attempt, what it was asked for, and how long
it is followed. -/
structure Execution where
  surface : Surface
  attempt : ExecutionAttempt
  profile : RunProfile
  runId : String
  fuel : Nat

namespace Execution

/-- What both surfaces do: read the run and drive it. -/
def engine (execution : Execution) : Engine String Unit :=
  match execution.surface with
  | .execute => do
      let _ ← storeAndRun remoteRegistry execution.runId execution.fuel
      return ()
  | .stream => do
      let found ← getRun execution.runId
      match found with
      | none => return ()
      | some run => do
          let _ ← executeRunEvents remoteRegistry run true execution.fuel
          return ()

def program (execution : Execution) : Wire Unit :=
  execution.engine.translate (overWire execution.profile)

end Execution

/-- The host as an execution reaches it, through the client that is bound to its attempt. -/
def reachedBy (host : Dict → World wireSignature (Raised String) σ) (base : HostClient)
    (execution : Execution) : World wireSignature (Raised String) σ :=
  host (base.forExecution execution.attempt).requestHeaders

theorem wp_engine_alarmed {world : World wireSignature (Raised String) σ}
    {execution : Execution} {state : σ × List WireOp} (unalarmed : Unalarmed state) :
    wireWp (world.monitored raiseAlarm) execution.profile heeds execution.engine
      (fun _ => HookAlarmed) Reported state := by
  rw [Execution.engine]
  cases execution.surface with
  | execute =>
      apply wp_seq (wp_storeAndRun_alarmed execution.fuel unalarmed)
      intro _ state hook
      exact hook
  | stream =>
      apply wp_seq (wp_unalarmed (getRun_propagates trivial) unalarmed)
      intro found state unalarmed
      cases found with
      | none => exact unalarmed.hook
      | some run =>
          apply wp_seq (wp_executeRunEvents_alarmed execution.fuel unalarmed)
          intro _ state hook
          exact hook

theorem hostFailed_of_stale {before after : σ} {request : Request}
    {reply : Except (Raised String) Response} (stale : StaleReply reply) :
    hostFailed (σ := σ) ⟨before, .request request, reply, after⟩ = true := by
  change raisesHostError (observe request.target.settle reply) = true
  cases reply with
  | error error =>
      cases error with
      | transport typeName message => rfl
      | _ => exact stale.elim
  | ok response =>
      have conflict : response.statusCode = 409 := stale
      have refused : ∀ allow404, requestAnswer allow404 response =
          .error (.answered response.statusCode (errorDetail response)) := by
        intro allow404
        apply requestAnswer_refused <;> omega
      rcases request with ⟨target, json⟩
      cases target <;>
        simp only [observe, Target.settle, readRun, readSteps, readStep, readRunWrite,
          readStepWrite, readAppend, HostClient.optionalObject, HostClient.objectList,
          HostClient.object, HostClient.oneEvent, HostClient.sequenceAnswer,
          HostClient.eventList, HostClient.noAnswer, refused] <;>
        rfl

/-- Executions side by side.  Where the lease of a party is not current, its callback
leaves the host as it was.  Unless it is the run-end hook, it is the party's last call, and
the drive ends by reporting the failure; after a hook nothing follows that could change the
host. -/
theorem fenced [DecidableEq κ] {host : Dict → World wireSignature (Raised String) σ}
    {current : σ → Lease → Prop} (fence : Fenced host current) (base : HostClient)
    (executions : κ → Execution) {moves : σ → σ → Prop} {initial last : σ}
    {record : List (Turn κ wireSignature (Raised String) σ)} {programs : κ → Wire Unit}
    (interleaves : Interleaves (fun party => reachedBy host base (executions party)) moves
      (fun party => (executions party).program) initial record programs last)
    {earlier rest : List (Turn κ wireSignature (Raised String) σ)}
    {turn : Turn κ wireSignature (Raised String) σ} {request : Request}
    (split : record = earlier ++ turn :: rest) (sends : turn.call.op = .request request)
    (lapsed : ¬ current turn.call.before (executions turn.party).attempt.lease) :
    turn.call.after = turn.call.before ∧
    (∀ later ∈ rest, later.party = turn.party →
      request.target.isRunEnd = true ∧ later.call.op.mutates = false) ∧
    (request.target.isRunEnd = false →
      ∃ error, programs turn.party = .raise error ∧ error.ReportsHost) := by
  let advance : κ → List WireOp → Served wireSignature (Raised String) σ → List WireOp :=
    fun _ => raiseAlarm
  have compatible : Compatible (fun party => reachedBy host base (executions party)) moves
      advance (fun _ => heeds) fun _ _ _ => True := by
    constructor
    · exact fun _ _ => trivial
    · exact fun _ _ => trivial
    · exact fun _ => trivial
    · exact fun _ _ _ => trivial
    · intro party alarms call later
      rcases call with ⟨before, op, answer, after⟩
      cases op <;> rfl
  have alarmed : ∀ party later, True →
      wp (((reachedBy host base (executions party)).relying fun _ _ => True).monitored
        (advance party)) heeds (executions party).program (fun _ => HookAlarmed) Reported
        (later, []) :=
    fun party later _ => wp_overWire (wp_engine_alarmed rfl)
  have outlined := interleaves.outlined (fun _ => []) compatible alarmed
  have member : turn ∈ record := by
    rw [split]
    exact List.mem_append_right _ List.mem_cons_self
  have answered := interleaves.answered member
  rcases turn with ⟨party, before, op, reply, after⟩
  cases sends
  have stale := fence.stale answered fun lease read => by
    rw [HostClient.readLease_forExecution] at read
    cases read
    exact lapsed
  have failed : hostFailed (σ := σ) ⟨before, .request request, reply, after⟩ = true :=
    hostFailed_of_stale stale.2
  have runEnd : ∀ {alarms : σ × List WireOp}, .request request ∈ alarms.2 → HookAlarmed alarms →
      request.target.isRunEnd = true :=
    fun alarm hook => hook _ alarm
  have alarm : ∀ {past : List (Turn κ wireSignature (Raised String) σ)},
      ⟨party, ⟨before, .request request, reply, after⟩⟩ ∈ past →
      .request request ∈ (callsOf party past).foldl raiseAlarm [] :=
    fun known => alarm_of_mem (mem_callsOf known) failed
  refine ⟨stale.1, ?_, ?_⟩
  · intro later afterwards same
    rcases List.append_of_mem afterwards with ⟨between, last, rfl⟩
    have whole : record = (earlier ++ ⟨party, ⟨before, .request request, reply, after⟩⟩ ::
        between) ++ later :: last := by
      rw [split]
      simp
    have met := outlined.2 _ later last whole
    rw [same] at met
    have known : ⟨party, ⟨before, .request request, reply, after⟩⟩ ∈
        earlier ++ (⟨party, ⟨before, .request request, reply, after⟩⟩ : Turn κ wireSignature
          (Raised String) σ) :: between :=
      List.mem_append_right _ List.mem_cons_self
    rcases met with unalarmed | ⟨hook, quiet⟩
    · exact absurd unalarmed (List.ne_nil_of_mem (alarm known))
    · exact ⟨runEnd (alarm known) hook, quiet⟩
  · intro lasting
    have left := outlined.1 party last trivial
    have hooked : ¬ HookAlarmed (last, (callsOf party record).foldl raiseAlarm []) := by
      intro hook
      rw [runEnd (alarm member) hook] at lasting
      cases lasting
    cases rest : programs party with
    | done value =>
        rw [rest] at left
        exact absurd left hooked
    | raise error =>
        rw [rest] at left
        rcases left with reports | hook
        · exact ⟨error, rfl, reports⟩
        · exact absurd hook hooked
    | call op next =>
        rw [rest] at left
        rcases left.1 with unalarmed | ⟨hook, _⟩
        · exact absurd unalarmed (List.ne_nil_of_mem (alarm member))
        · exact absurd hook hooked

/-! ## A host with one current lease -/

/-- The host of a run, and the lease it goes by.  Any other lease is refused. -/
def leasedHost (headers : Dict) :
    (op : WireOp) → HostState × Lease → Except (Raised String) op.Res × (HostState × Lease)
  | .request request, (state, lease) =>
      if readLease headers = some lease then
        let answered := plainRules.serve (fun _ => 0) (.request request) state
        (answered.1, (answered.2, lease))
      else (.ok ⟨409, false, some (.obj [("detail", .str "stale execution lease")]), ""⟩,
        (state, lease))
  | op, (state, lease) =>
      let answered := plainRules.serve (fun _ => 0) op state
      (answered.1, (answered.2, lease))

theorem fenced_leasedHost : Fenced (fun headers => World.ofFn (leasedHost headers))
    fun state lease => state.2 = lease := by
  constructor
  rintro headers ⟨state, lease⟩ request reply after served lapsed
  have answered : leasedHost headers (.request request) (state, lease) = (reply, after) := served
  have other : readLease headers ≠ some lease := fun read => lapsed lease read rfl
  rw [leasedHost, if_neg other] at answered
  cases answered
  exact ⟨rfl, rfl⟩

/-- Two executions of one run, each with its own lease. -/
def issued (owner : Bool) : Execution where
  surface := .stream
  attempt :=
    ⟨if owner then "job-1" else "job-2", "token", 1, by cases owner <;> decide, by decide,
      by decide⟩
  profile := ⟨"ollama", "qwen3:8b", none⟩
  runId := "run-1"
  fuel := 3

/-- The host, as each of them reaches it. -/
def leasedTo (party : Bool) :=
  leasedHost ((HostClient.make none).forExecution (issued party).attempt).requestHeaders

/-- The run is reassigned just before the first one invokes its step: the invocation is
refused, and the drive that sent it ends there. -/
theorem fenced_reassigned :
    ∃ (earlier : List (Turn Bool wireSignature (Raised String) (HostState × Lease)))
      (turn : Turn Bool wireSignature (Raised String) (HostState × Lease)) (request : Request)
      (programs : Bool → Wire Unit) (last : HostState × Lease),
      Interleaves (fun party => reachedBy (fun headers => World.ofFn (leasedHost headers))
          (.make none) (issued party)) (fun before after => after.1 = before.1)
        (fun party => (issued party).program) (seedHost, ⟨"job-1", "token", 1⟩)
        (earlier ++ [turn]) programs last ∧
      turn.call.op = .request request ∧ request.target = .invoke "run-1" "step-1" ∧
      turn.call.after = turn.call.before ∧
      ∃ error, programs turn.party = .raise error ∧ error.ReportsHost := by
  have start : Interleaves (fun party => World.ofFn (leasedTo party))
      (fun before after => after.1 = before.1) (fun party => (issued party).program)
      (seedHost, ⟨"job-1", "token", 1⟩) [] _ _ := .nothing
  have begun := Interleaves.concert _ start (List.replicate 9 true)
  have changes : ∀ state : HostState × Lease,
      ((state.1, ⟨"job-2", "token", 1⟩) : HostState × Lease).1 = state.1 := fun _ => rfl
  have reassigned := Interleaves.move begun (changes _)
  have refused := Interleaves.concert _ reassigned [true]
  have stops := fenced fenced_leasedHost (.make none) issued refused rfl rfl (by decide)
  exact ⟨_, _, _, _, _, refused, rfl, rfl, stops.1, stops.2.2 rfl⟩

end SlimxAgent
