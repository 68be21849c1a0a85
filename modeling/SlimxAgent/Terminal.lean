import SlimxAgent.HttpHost
import SlimxAgent.Outline

/-!
# Terminal statuses and their events

Every callback commits by itself, so a drive that is cut short between two callbacks
leaves what the first of them wrote.  The failing path logs its event before it writes
the status; the completing path writes the status first.
-/

namespace SlimxAgent

open Interaction

variable {σ : Type}

/-! ## The ledger of a run -/

/-- What a host keeps of a run's end: its status, and whether its log holds the two
terminal events. -/
structure Ledger where
  status : RunStatus
  completedLogged : Bool
  failedLogged : Bool

namespace Ledger

/-- What a callback records when the host applies it. -/
def apply (ledger : Ledger) (request : Request) : Ledger :=
  let body := request.json.getD []
  match request.target with
  | .runStatus _ => { ledger with status := .ofText (Dict.get body "status").text }
  | .events _ =>
      let type := (Dict.get body "type").text
      { ledger with
        completedLogged := ledger.completedLogged || type == EventType.runCompleted.text
        failedLogged := ledger.failedLogged || type == EventType.runFailed.text }
  | _ => ledger

/-- What a host may do of its own: it writes no terminal status and no terminal event. -/
structure Moves (before after : Ledger) : Prop where
  status : after.status = before.status ∨ after.status ≠ .completed ∧ after.status ≠ .failed
  completedLogged : after.completedLogged = before.completedLogged
  failedLogged : after.failedLogged = before.failedLogged

theorem Moves.refl (ledger : Ledger) : Moves ledger ledger :=
  ⟨.inl rfl, rfl, rfl⟩

/-- Neither completed nor failed. -/
structure Open (ledger : Ledger) : Prop where
  notCompleted : ledger.status ≠ .completed
  notFailed : ledger.status ≠ .failed

/-- A terminal status has its event. -/
structure Evidenced (ledger : Ledger) : Prop where
  completed : ledger.status = .completed → ledger.completedLogged = true
  failed : ledger.status = .failed → ledger.failedLogged = true

/-- The failure has been logged. -/
structure FailureLogged (ledger : Ledger) : Prop where
  logged : ledger.failedLogged = true
  notCompleted : ledger.status ≠ .completed

/-- The completion may have been written already. -/
def Finishing (ledger : Ledger) : Prop :=
  ledger.status ≠ .failed

theorem Open.evidenced {ledger : Ledger} (alive : ledger.Open) : ledger.Evidenced :=
  ⟨fun completed => absurd completed alive.notCompleted,
    fun failed => absurd failed alive.notFailed⟩

theorem FailureLogged.evidenced {ledger : Ledger} (logged : ledger.FailureLogged) :
    ledger.Evidenced :=
  ⟨fun completed => absurd completed logged.notCompleted, fun _ => logged.logged⟩

end Ledger

/-- The request writes no terminal run status. -/
def Request.Mild (request : Request) : Prop :=
  ∀ runId, request.target = .runStatus runId →
    RunStatus.ofText (Dict.get (request.json.getD []) "status").text ≠ .completed ∧
      RunStatus.ofText (Dict.get (request.json.getD []) "status").text ≠ .failed

/-- An assertion that mild requests and the host's own doings keep. -/
structure Ledger.Stable (assertion : Ledger → Prop) : Prop where
  moves : ∀ {before after}, assertion before → Moves before after → assertion after
  applies : ∀ {ledger request}, assertion ledger → Request.Mild request →
    assertion (ledger.apply request)

/-- The events request adds to the log alone, and never takes away. -/
theorem Ledger.apply_cases (ledger : Ledger) (request : Request) :
    (∃ runId, request.target = .runStatus runId ∧ (ledger.apply request).status =
        .ofText (Dict.get (request.json.getD []) "status").text ∧
      (ledger.apply request).completedLogged = ledger.completedLogged ∧
      (ledger.apply request).failedLogged = ledger.failedLogged) ∨
    ((ledger.apply request).status = ledger.status ∧
      (ledger.completedLogged = true → (ledger.apply request).completedLogged = true) ∧
      (ledger.failedLogged = true → (ledger.apply request).failedLogged = true)) := by
  rw [Ledger.apply]
  split
  · rename_i runId target
    exact .inl ⟨runId, target, rfl, rfl, rfl⟩
  · refine .inr ⟨rfl, ?_, ?_⟩
    · intro logged
      simp [logged]
    · intro logged
      simp [logged]
  · exact .inr ⟨rfl, id, id⟩

theorem stable_open : Ledger.Stable Ledger.Open where
  moves alive moves := by
    cases moves.status with
    | inl same => exact ⟨same ▸ alive.notCompleted, same ▸ alive.notFailed⟩
    | inr other => exact ⟨other.1, other.2⟩
  applies {ledger request} alive mild := by
    cases ledger.apply_cases request with
    | inl written =>
        obtain ⟨runId, target, status, _⟩ := written
        exact ⟨status ▸ (mild runId target).1, status ▸ (mild runId target).2⟩
    | inr kept => exact ⟨kept.1 ▸ alive.notCompleted, kept.1 ▸ alive.notFailed⟩

theorem stable_evidenced : Ledger.Stable Ledger.Evidenced where
  moves {before after} evidenced moves := by
    cases moves.status with
    | inr other => exact Ledger.Open.evidenced ⟨other.1, other.2⟩
    | inl same =>
        constructor
        · intro completed
          rw [moves.completedLogged]
          exact evidenced.completed (same ▸ completed)
        · intro failed
          rw [moves.failedLogged]
          exact evidenced.failed (same ▸ failed)
  applies {ledger request} evidenced mild := by
    cases ledger.apply_cases request with
    | inl written =>
        obtain ⟨runId, target, status, _⟩ := written
        apply Ledger.Open.evidenced
        exact ⟨status ▸ (mild runId target).1, status ▸ (mild runId target).2⟩
    | inr kept =>
        obtain ⟨status, completed, failed⟩ := kept
        constructor
        · intro terminal
          exact completed (evidenced.completed (status ▸ terminal))
        · intro terminal
          exact failed (evidenced.failed (status ▸ terminal))

theorem stable_failureLogged : Ledger.Stable Ledger.FailureLogged where
  moves {before after} logged moves := by
    refine ⟨moves.failedLogged.trans logged.logged, ?_⟩
    cases moves.status with
    | inl same => exact same ▸ logged.notCompleted
    | inr other => exact other.1
  applies {ledger request} logged mild := by
    cases ledger.apply_cases request with
    | inl written =>
        obtain ⟨runId, target, status, _, failed⟩ := written
        exact ⟨failed.trans logged.logged, status ▸ (mild runId target).1⟩
    | inr kept => exact ⟨kept.2.2 logged.logged, kept.1 ▸ logged.notCompleted⟩

/-! ## Hosts and cuts -/

/-- A host that applies every callback it accepts, each at once, and any other one
perhaps; its log reads answer what is logged. -/
structure LedgerHost (world : World wireSignature (Raised String) σ) (ledger : σ → Ledger) :
    Prop where
  callback : ∀ {state request reply after}, world.serve state (.request request) reply after →
    Ledger.Moves ((ledger state).apply request) (ledger after) ∨
      request.accepted reply = false ∧ Ledger.Moves (ledger state) (ledger after)
  refused : ∀ {state target error answer after},
    world.serve state (.refused target error) answer after →
      Ledger.Moves (ledger state) (ledger after)
  silent : ∀ {state after} {op : WireOp} {answer}, op.target? = none →
    world.serve state op answer after → Ledger.Moves (ledger state) (ledger after)
  reads : ∀ {state runId cursor json response after events event},
    world.serve state (.request ⟨.eventsAfter runId cursor, json⟩) (.ok response) after →
      HostClient.eventList response = .ok events → event ∈ events →
      event.type.asStr? = some EventType.runFailed.text → (ledger after).failedLogged = true

/-- The callback did not return, and was cut the wrong way: the completed status was
applied all the same, or the completed event was not. -/
def cutsCompletion (ledger : σ → Ledger) (call : Served wireSignature (Raised String) σ) :
    Bool :=
  match call with
  | ⟨_, .request request, reply, after⟩ =>
      !request.accepted reply &&
        match request.target with
        | .runStatus _ => request.field "status" == some RunStatus.completed.text &&
            (ledger after).status == .completed
        | .events _ => request.field "type" == some EventType.runCompleted.text &&
            !(ledger after).completedLogged
        | _ => false
  | _ => false

/-- Whether a callback so far was cut the wrong way. -/
def noteCut (ledger : σ → Ledger) (cut : Bool) (call : Served wireSignature (Raised String) σ) :
    Bool :=
  cut || cutsCompletion ledger call

theorem foldl_noteCut (ledger : σ → Ledger) (history : History wireSignature (Raised String) σ)
    (cut : Bool) : history.foldl (noteCut ledger) cut =
      (cut || history.any (cutsCompletion ledger)) := by
  induction history generalizing cut with
  | nil => exact (Bool.or_false cut).symm
  | cons call history ih =>
      rw [List.foldl_cons, ih, noteCut, List.any_cons, Bool.or_assoc]

/-- The monitor is still when no callback is cut the wrong way. -/
theorem uncut_iff {ledger : σ → Ledger} {history : History wireSignature (Raised String) σ} :
    history.foldl (noteCut ledger) false = false ↔
      ∀ call ∈ history, cutsCompletion ledger call = false := by
  simp [foldl_noteCut]

/-- Every run of the program none of whose callbacks is cut the wrong way leaves a
terminal status with its event. -/
def EvidencedUnlessCut {α : Type} (world : World wireSignature (Raised String) σ)
    (ledger : σ → Ledger) (program : Wire α) (state : σ) : Prop :=
  ∀ outcome last history, Runs world.recorded program (state, []) outcome (last, history) →
    (∀ call ∈ history, cutsCompletion ledger call = false) → (ledger last).Evidenced

/-! ## The drive -/

section Drive

variable {world : World wireSignature (Raised String) σ} {ledger : σ → Ledger}
  {profile : RunProfile} {state : σ × Bool} {registry : ToolRegistry}
  {run fresh : RunView String} {step : StepView String} {steps : List (StepView String)}
  {driveStarted : ℚ} {cursor : Int}

/-- No call of a drive is barred here. -/
def anyWireCall (_ : σ × Bool) (_ : WireOp) : Prop := True

/-- An exception may end the drive here. -/
def CutShort (ledger : σ → Ledger) (_ : Raised String) (state : σ × Bool) : Prop :=
  (ledger state.1).Evidenced ∨ state.2 = true

theorem meets_any {op : EngineOp String} :
    Meets (world.monitored (noteCut ledger)) profile anyWireCall state op :=
  meets_of_request (fun _ _ => trivial) fun _ _ => trivial

/-- An operation leaves what the host did of its own, perhaps after its request was
applied. -/
theorem ledger_step (host : LedgerHost world ledger) {op : EngineOp String}
    {answer : Except (Raised String) op.Res} {after : σ × Bool}
    (served : (engineWorld (world.monitored (noteCut ledger)) profile).serve state op answer
      after) :
    Ledger.Moves (ledger state.1) (ledger after.1) ∨
      ∃ request, op.request profile = some request ∧
        Ledger.Moves ((ledger state.1).apply request) (ledger after.1) := by
  cases served_request served with
  | inl asked =>
      obtain ⟨request, reply, asks, replies⟩ := asked
      cases replies_monitored replies with
      | inl sent =>
          cases host.callback sent.2.1 with
          | inl applied => exact .inr ⟨request, asks, applied⟩
          | inr unapplied => exact .inl unapplied.2
      | inr refused =>
          obtain ⟨error, answer, _, _, called, _⟩ := refused
          exact .inl (host.refused called)
  | inr unasked =>
      cases unasked.2 with
      | inl same =>
          rw [same]
          exact .inl (Ledger.Moves.refl _)
      | inr called =>
          obtain ⟨wireOp, result, silent, called⟩ := called
          exact .inl (host.silent silent called.1)

/-- The operations that write no terminal run status. -/
def MildCall : EngineOp String → Prop
  | .setRunStatus _ status => status ≠ .completed ∧ status ≠ .failed
  | _ => True

theorem mildCall_request {op : EngineOp String} {request : Request} (mild : MildCall op)
    (asks : op.request profile = some request) : request.Mild := by
  intro runId target
  cases op with
  | setRunStatus run status =>
      cases asks
      have written : RunStatus.ofText (Dict.get [("status", Json.str status.text)]
          "status").text = status := RunStatus.ofText_text status
      change RunStatus.ofText (Dict.get [("status", Json.str status.text)] "status").text ≠ _ ∧
        RunStatus.ofText (Dict.get [("status", Json.str status.text)] "status").text ≠ _
      rw [written]
      exact mild
  | _ => cases asks <;> cases target

/-- A stable assertion holds across every part of the drive that writes no terminal
run status. -/
theorem wp_stable {α : Type} {program : Engine String α} {assertion : Ledger → Prop}
    (host : LedgerHost world ledger) (stable : Ledger.Stable assertion)
    (evidenced : ∀ {ledger}, assertion ledger → ledger.Evidenced)
    (propagates : program.Propagates MildCall) (holds : assertion (ledger state.1)) :
    wireWp (world.monitored (noteCut ledger)) profile anyWireCall program
      (fun _ after => assertion (ledger after.1)) (CutShort ledger) state := by
  have kept : ∀ (state : σ × Bool) (op : EngineOp String)
      (answer : Except (Raised String) op.Res) (after : σ × Bool), MildCall op →
      assertion (ledger state.1) →
      (engineWorld (world.monitored (noteCut ledger)) profile).serve state op answer after →
      assertion (ledger after.1) := by
    intro state op answer after mild holds served
    cases ledger_step host served with
    | inl moves => exact stable.moves holds moves
    | inr applied =>
        obtain ⟨request, asks, moves⟩ := applied
        exact stable.moves (stable.applies holds (mildCall_request mild asks)) moves
  apply wp_propagates (fun state : σ × Bool => assertion (ledger state.1)) ?_ ?_ propagates holds
  · intro state op mild holds
    refine ⟨meets_any, ?_, ?_⟩
    · intro result after served
      exact kept state op (.ok result) after mild holds served
    · intro error after served
      exact .inl (evidenced (kept state op (.error error) after mild holds served))
  · intro error state holds
    exact .inl (evidenced holds)

theorem wp_open {α : Type} {program : Engine String α} (host : LedgerHost world ledger)
    (propagates : program.Propagates MildCall) (alive : (ledger state.1).Open) :
    wireWp (world.monitored (noteCut ledger)) profile anyWireCall program
      (fun _ after => (ledger after.1).Open) (CutShort ledger) state :=
  wp_stable host stable_open Ledger.Open.evidenced propagates alive

theorem wp_evidenced {α : Type} {program : Engine String α} (host : LedgerHost world ledger)
    (propagates : program.Propagates MildCall) (evidenced : (ledger state.1).Evidenced) :
    wireWp (world.monitored (noteCut ledger)) profile anyWireCall program
      (fun _ after => (ledger after.1).Evidenced) (CutShort ledger) state :=
  wp_stable host stable_evidenced id propagates evidenced

/-- A write whose callback may be cut: it returned and was applied, or it did not return. -/
theorem wp_write {op : EngineOp String} {request : Request}
    {parse : Response → Except HostError op.Res} {written : σ × Bool → Prop}
    (host : LedgerHost world ledger)
    (shape : overWire profile op = exchange request (observe parse))
    (settles : request.target.settle = fun response => (parse response).map fun _ => ())
    (returns : ∀ after path, request.target.path = .ok path →
      Ledger.Moves ((ledger state.1).apply request) (ledger after.1) → written after)
    (cuts : ∀ error reply after, request.accepted reply = false →
      Ledger.Moves ((ledger state.1).apply request) (ledger after.1) ∨
        Ledger.Moves (ledger state.1) (ledger after.1) →
      after.2 = noteCut ledger state.2 ⟨state.1, .request request, reply, after.1⟩ →
      CutShort ledger error after)
    (refused : ∀ error after path, request.target.path = .error path →
      Ledger.Moves (ledger state.1) (ledger after.1) → CutShort ledger error after) :
    wireWp (world.monitored (noteCut ledger)) profile anyWireCall
      (@Program.perform (engineSignature String) _ op) (fun _ => written) (CutShort ledger)
      state := by
  have met : anyWireCall state request.op := trivial
  apply wp_engine_exchange shape met
  intro reply after replies
  have accepts := accepted_eq settles reply
  cases replies_monitored replies with
  | inl sent =>
      obtain ⟨path, called, moved⟩ := sent
      cases observed : observe parse reply with
      | ok result =>
          rw [observed] at accepts
          have applied : Ledger.Moves ((ledger state.1).apply request) (ledger after.1) := by
            cases host.callback called with
            | inl applied => exact applied
            | inr unapplied =>
                rw [unapplied.1] at accepts
                cases accepts
          cases segments : request.target.path with
          | ok path => exact returns after path segments applied
          | error error =>
              rw [Request.op, segments] at path
              cases path
      | error error =>
          rw [observed] at accepts
          exact cuts error reply after accepts ((host.callback called).imp_right And.right) moved
  | inr unsent =>
      obtain ⟨failure, answer, path, raise, called, _⟩ := unsent
      rw [raise]
      exact refused (.hostError failure) after failure (path_of_refused path) (host.refused called)

/-- The event of a failure. -/
theorem wp_reportFailure (host : LedgerHost world ledger) {stepId : String}
    (alive : (ledger state.1).Open) :
    wireWp (world.monitored (noteCut ledger)) profile anyWireCall
      (appendEvent run.id .runFailed (some stepId) none false)
      (fun _ after => (ledger after.1).FailureLogged) (CutShort ledger) state := by
  have applied : ((ledger state.1).apply ⟨.events run.id,
      some (HostClient.eventBody .runFailed (some stepId) none)⟩).FailureLogged :=
    ⟨Bool.or_true _, alive.notCompleted⟩
  apply wp_write host overWire_appendEvent rfl
  · intro after _ _ moves
    exact stable_failureLogged.moves applied moves
  · intro error reply after _ left _
    cases left with
    | inl moves => exact .inl (stable_failureLogged.moves applied moves).evidenced
    | inr moves => exact .inl (stable_open.moves alive moves).evidenced
  · intro error after _ _ moves
    exact .inl (stable_open.moves alive moves).evidenced

/-- The failed status, once its event is logged. -/
theorem wp_writeFailed (host : LedgerHost world ledger)
    (logged : (ledger state.1).FailureLogged) :
    wireWp (world.monitored (noteCut ledger)) profile anyWireCall (setRunStatus run .failed)
      (fun _ after => (ledger after.1).FailureLogged) (CutShort ledger) state := by
  have applied : ((ledger state.1).apply ⟨.runStatus run.id,
      some [("status", .str RunStatus.failed.text)]⟩).FailureLogged := by
    refine ⟨logged.logged, ?_⟩
    change RunStatus.ofText RunStatus.failed.text ≠ .completed
    decide
  apply wp_write host overWire_setRunStatus rfl
  · intro after _ _ moves
    exact stable_failureLogged.moves applied moves
  · intro error reply after _ left _
    cases left with
    | inl moves => exact .inl (stable_failureLogged.moves applied moves).evidenced
    | inr moves => exact .inl (stable_failureLogged.moves logged moves).evidenced
  · intro error after _ _ moves
    exact .inl (stable_failureLogged.moves logged moves).evidenced

theorem wp_notify_evidenced (host : LedgerHost world ledger) {status : RunStatus}
    (evidenced : (ledger state.1).Evidenced) :
    wireWp (world.monitored (noteCut ledger)) profile anyWireCall (notifyRunEnd true run status)
      (fun _ after => (ledger after.1).Evidenced) (CutShort ledger) state :=
  wp_evidenced host (notifyRunEnd_propagates trivial true) evidenced

theorem wp_failRun_evidenced (host : LedgerHost world ledger) {stepId : String}
    (alive : (ledger state.1).Open) :
    wireWp (world.monitored (noteCut ledger)) profile anyWireCall (failRun true run stepId)
      (fun _ after => (ledger after.1).Evidenced) (CutShort ledger) state := by
  apply wp_seq (wp_reportFailure host alive)
  intro _ state logged
  apply wp_seq (wp_writeFailed host logged)
  intro _ state logged
  exact wp_notify_evidenced host logged.evidenced

/-- The completed status, written while the run is open.  Cut after the host applied
it, it is left without its event. -/
theorem wp_writeCompleted (host : LedgerHost world ledger) (alive : (ledger state.1).Open) :
    wireWp (world.monitored (noteCut ledger)) profile anyWireCall (setRunStatus run .completed)
      (fun _ after => (ledger after.1).Finishing ∧
        ∃ path, (Target.events run.id).path = .ok path) (CutShort ledger) state := by
  have finishing : ∀ {after : Ledger}, Ledger.Moves ((ledger state.1).apply
      ⟨.runStatus run.id, some [("status", .str RunStatus.completed.text)]⟩) after ∨
      Ledger.Moves (ledger state.1) after → after.status ≠ .failed := by
    intro after left
    cases left with
    | inr moves => exact (stable_open.moves alive moves).notFailed
    | inl moves =>
        cases moves.status with
        | inr other => exact other.2
        | inl same =>
            rw [same]
            change RunStatus.ofText RunStatus.completed.text ≠ .failed
            decide
  apply wp_write host overWire_setRunStatus rfl
  · intro after path sent moves
    refine ⟨finishing (.inl moves), ?_⟩
    simp only [Target.path] at sent ⊢
    cases segments : segment run.id with
    | error error =>
        rw [segments] at sent
        cases sent
    | ok runSegment => exact ⟨_, rfl⟩
  · intro error reply after rejected left noted
    by_cases completed : (ledger after.1).status = .completed
    · refine .inr ?_
      have cut : cutsCompletion ledger ⟨state.1, .request ⟨.runStatus run.id,
          some [("status", .str RunStatus.completed.text)]⟩, reply, after.1⟩ = true := by
        simp only [cutsCompletion, rejected, completed]
        rfl
      rw [noted, noteCut, cut, Bool.or_true]
    · exact .inl (Ledger.Open.evidenced ⟨completed, finishing left⟩)
  · intro error after _ _ moves
    exact .inl (stable_open.moves alive moves).evidenced

/-- The completed event, written after the status.  Cut before the host applied it, the
status is left without it. -/
theorem wp_reportCompleted (host : LedgerHost world ledger)
    (finishing : (ledger state.1).Finishing)
    (addressable : ∃ path, (Target.events run.id).path = .ok path) :
    wireWp (world.monitored (noteCut ledger)) profile anyWireCall
      (appendEvent run.id .runCompleted none none true)
      (fun _ after => (ledger after.1).Evidenced) (CutShort ledger) state := by
  have notFailed : ∀ {after : Ledger}, Ledger.Moves (ledger state.1) after →
      after.status ≠ .failed := by
    intro after moves
    cases moves.status with
    | inl same => exact same ▸ finishing
    | inr other => exact other.2
  have applied : ∀ {after : Ledger}, Ledger.Moves ((ledger state.1).apply
      ⟨.events run.id, some (HostClient.eventBody .runCompleted none none)⟩) after →
      after.completedLogged = true ∧ after.status ≠ .failed := by
    intro after moves
    constructor
    · rw [moves.completedLogged]
      exact Bool.or_true _
    · cases moves.status with
      | inl same => exact same ▸ finishing
      | inr other => exact other.2
  apply wp_write host overWire_appendEvent rfl
  · intro after _ _ moves
    exact ⟨fun _ => (applied moves).1, fun failed => absurd failed (applied moves).2⟩
  · intro error reply after rejected left noted
    have alive : (ledger after.1).status ≠ .failed := by
      cases left with
      | inl moves => exact (applied moves).2
      | inr moves => exact notFailed moves
    cases logged : (ledger after.1).completedLogged with
    | true => exact .inl ⟨fun _ => logged, fun failed => absurd failed alive⟩
    | false =>
        refine .inr ?_
        have cut : cutsCompletion ledger ⟨state.1, .request ⟨.events run.id,
            some (HostClient.eventBody .runCompleted none none)⟩, reply, after.1⟩ = true := by
          simp only [cutsCompletion, rejected, logged]
          rfl
        rw [noted, noteCut, cut, Bool.or_true]
  · intro error after _ refused _
    obtain ⟨path, sent⟩ := addressable
    rw [sent] at refused
    cases refused

/-- The log read that asks whether a failure was reported answers what is logged. -/
theorem wp_runFailureReported (host : LedgerHost world ledger) {stepId : String}
    (alive : (ledger state.1).Open) :
    wireWp (world.monitored (noteCut ledger)) profile anyWireCall
      (runFailureReported run.id stepId)
      (fun reported after => (ledger after.1).Open ∧
        (reported = true → (ledger after.1).FailureLogged)) (CutShort ledger) state := by
  have met : anyWireCall state (Request.op ⟨.eventsAfter run.id 0, none⟩) := trivial
  have reads : wireWp (world.monitored (noteCut ledger)) profile anyWireCall
      (drainedEvents run.id 0)
      (fun events after => (ledger after.1).Open ∧ ∀ event ∈ events,
        event.type.asStr? = some EventType.runFailed.text →
          (ledger after.1).failedLogged = true) (CutShort ledger) state := by
    apply wp_engine_exchange overWire_drainedEvents met
    intro reply after replies
    cases replies_monitored replies with
    | inr unsent =>
        obtain ⟨failure, answer, path, raise, called, _⟩ := unsent
        rw [raise]
        exact .inl (stable_open.moves alive (host.refused called)).evidenced
    | inl sent =>
        have still : (ledger after.1).Open := by
          cases host.callback sent.2.1 with
          | inl moves => exact stable_open.moves alive moves
          | inr moves => exact stable_open.moves alive moves.2
        cases observed : observe HostClient.eventList reply with
        | error error => exact .inl still.evidenced
        | ok events =>
            refine ⟨still, ?_⟩
            intro event member failed
            cases reply with
            | error error => cases error <;> cases observed
            | ok response =>
                rw [observe] at observed
                cases parsed : HostClient.eventList response with
                | error error =>
                    rw [parsed] at observed
                    cases observed
                | ok read =>
                    rw [parsed] at observed
                    cases observed
                    exact host.reads sent.2.1 parsed member failed
  apply wp_seq reads
  intro events after known
  refine ⟨known.1, ?_⟩
  intro reported
  obtain ⟨event, member, reports⟩ := List.any_eq_true.mp reported
  have failed := (Bool.and_eq_true_iff.mp reports).1
  exact ⟨known.2 event member (eq_of_beq failed), known.1.notCompleted⟩

theorem mild_drain {runId : String} : AllowsDrain MildCall runId :=
  ⟨fun _ => trivial, fun _ => trivial⟩

theorem mild_transition {runId stepId : String} {status : StepStatus} {type : EventType} :
    AllowsTransition MildCall runId stepId status type :=
  ⟨fun _ _ => trivial, fun _ => trivial⟩

/-- What a visit leaves: an open run, or one whose end has its event. -/
abbrev VisitLedger (ledger : σ → Ledger) : Option Int → σ × Bool → Prop :=
  VisitEnd (fun _ after => (ledger after.1).Open) fun after => (ledger after.1).Evidenced

theorem wp_returnEvidenced (host : LedgerHost world ledger)
    (evidenced : (ledger state.1).Evidenced) :
    wireWp (world.monitored (noteCut ledger)) profile anyWireCall (drainAndReturn run cursor)
      (VisitLedger ledger) (CutShort ledger) state :=
  wp_drainAndReturn_of (wp_evidenced host (drain_propagates mild_drain cursor) evidenced)

theorem wp_visitOpen {program : Engine String (Option Int)} (host : LedgerHost world ledger)
    (propagates : program.Propagates MildCall) (alive : (ledger state.1).Open) :
    wireWp (world.monitored (noteCut ledger)) profile anyWireCall program (VisitLedger ledger)
      (CutShort ledger) state := by
  apply wp_post (wp_open host propagates alive)
  intro next state alive
  cases next with
  | none => exact alive.evidenced
  | some cursor => exact alive

theorem wp_runStep_open (host : LedgerHost world ledger) (alive : (ledger state.1).Open) :
    wireWp (world.monitored (noteCut ledger)) profile anyWireCall (runStep registry run step)
      (fun _ after => (ledger after.1).Open) (CutShort ledger) state := by
  have settles : AllowsSettling MildCall run.id step.id :=
    ⟨mild_transition, mild_transition, mild_transition, trivial, trivial, fun _ => trivial⟩
  apply wp_runStep_of
  · exact wp_open host (setStepState_propagates trivial) alive
  · intro state alive
    exact wp_open host (currentType_propagates trivial) alive
  · intro startedType state alive
    exact wp_open host (appendEvent_propagates trivial) alive
  · intro state alive
    exact wp_open host (currentType_propagates trivial) alive
  · intro stepType state _ alive
    exact wp_open host (failStep_propagates mild_transition _ _) alive
  · intro stepType state _ alive
    refine ⟨meets_any, ?_⟩
    intro outcome after served
    have mild : MildCall (.handle run { step with type := stepType }) := trivial
    have still : (ledger after.1).Open := by
      cases ledger_step host served with
      | inl moves => exact stable_open.moves alive moves
      | inr applied =>
          obtain ⟨request, asks, moves⟩ := applied
          exact stable_open.moves (stable_open.applies alive (mildCall_request mild asks)) moves
    exact wp_open host (settleStep_propagates settles outcome) still

theorem wp_dispatchStep_open (host : LedgerHost world ledger) (alive : (ledger state.1).Open) :
    wireWp (world.monitored (noteCut ledger)) profile anyWireCall
      (dispatchStep registry run true step cursor) (VisitLedger ledger) (CutShort ledger)
      state := by
  apply wp_dispatchStep_of
  · exact wp_runStep_open host alive
  · intro ran state alive
    exact wp_open host (drain_propagates mild_drain cursor) alive
  · intro ran reached state alive
    exact wp_open host (currentStatus_propagates trivial) alive
  · intro ran reached state alive
    exact alive.evidenced
  · intro ran reached state alive
    exact wp_failRun_evidenced host alive
  · intro reached state evidenced
    exact wp_returnEvidenced host evidenced
  · intro ran reached status state _ _ alive
    exact alive

theorem wp_foundFailed_evidenced (host : LedgerHost world ledger) {stepId : String}
    (alive : (ledger state.1).Open) :
    wireWp (world.monitored (noteCut ledger)) profile anyWireCall
      (foundFailed run true stepId cursor) (VisitLedger ledger) (CutShort ledger) state := by
  apply wp_foundFailed_of fun after => (ledger after.1).Evidenced
  · exact wp_runFailureReported host alive
  · intro state asked
    apply wp_post (wp_writeFailed host (asked.2 rfl))
    intro _ state logged
    exact logged.evidenced
  · intro state asked
    exact wp_failRun_evidenced host asked.1
  · intro state evidenced
    exact wp_returnEvidenced host evidenced

theorem wp_visitStep_open (host : LedgerHost world ledger)
    (selected : firstUnfinished steps = some step) (alive : (ledger state.1).Open) :
    wireWp (world.monitored (noteCut ledger)) profile anyWireCall
      (visitStep registry run true driveStarted fresh steps step cursor) (VisitLedger ledger)
      (CutShort ledger) state := by
  apply wp_visitStep_of selected
  · intro text unlisted _
    exact .inl alive.evidenced
  · intro _
    exact wp_foundFailed_evidenced host alive
  · intro reason _ _
    exact .inl alive.evidenced
  · intro reason _ _
    apply wp_seq (wp_open host (skipStep_propagates mild_transition _ _) alive)
    intro _ state alive
    exact wp_visitOpen host (drainAndContinue_propagates mild_drain cursor) alive
  · intro _ _
    apply wp_budgetGate_of
    · exact wp_open host (budgetExhaustedReason_propagates trivial _ _ _) alive
    · intro reason state alive
      have pausing : AllowsPausing MildCall run :=
        ⟨fun _ => trivial, ⟨RunStatus.noConfusion, RunStatus.noConfusion⟩, fun _ => trivial⟩
      exact wp_visitOpen host (pauseForBudget_propagates pausing mild_drain _ _) alive
    · intro state alive
      apply wp_approvalGate_of
      · intro _ _
        have awaits : MildCall (.setRunStatus run .awaitingApproval) :=
          ⟨RunStatus.noConfusion, RunStatus.noConfusion⟩
        exact wp_visitOpen host
          (stopAtGate_propagates ⟨mild_transition, fun _ => trivial⟩ awaits mild_drain _ _) alive
      · intro _ _
        exact wp_open host (recordApproval_propagates mild_transition _ _ _) alive
      · intro _
        exact alive
      · intro state alive
        exact wp_dispatchStep_open host alive

theorem wp_loopPass_open (host : LedgerHost world ledger) (alive : (ledger state.1).Open) :
    wireWp (world.monitored (noteCut ledger)) profile anyWireCall
      (loopPass registry run true driveStarted cursor)
      (PassEnd (fun _ after => (ledger after.1).Open) (fun after => (ledger after.1).Evidenced)
        fun _ after => (ledger after.1).Open) (CutShort ledger) state := by
  apply wp_loopPass_of fun _ _ after => (ledger after.1).Open
  · exact wp_open host (getRun_propagates trivial) alive
  · intro current state _ alive
    exact wp_returnEvidenced host alive.evidenced
  · intro current state _ alive
    exact wp_open host (getSteps_propagates trivial) alive
  · intro current steps state _ alive
    exact alive
  · intro current steps step state _ selected alive
    exact wp_visitStep_open host selected alive

theorem wp_completeRun_evidenced (host : LedgerHost world ledger)
    (alive : (ledger state.1).Open) :
    wireWp (world.monitored (noteCut ledger)) profile anyWireCall (completeRun run true cursor)
      (fun _ after => (ledger after.1).Evidenced) (CutShort ledger) state := by
  apply wp_completeRun_of
    (fun after => (ledger after.1).Finishing ∧ ∃ path, (Target.events run.id).path = .ok path)
    (fun after => (ledger after.1).Evidenced) fun after => (ledger after.1).Evidenced
  · exact wp_open host (getRun_propagates trivial) alive
  · intro current state _ alive
    exact wp_evidenced host (drain_propagates mild_drain cursor) alive.evidenced
  · intro current state _ alive
    exact wp_writeCompleted host alive
  · intro state written
    exact wp_reportCompleted host written.1 written.2
  · intro state evidenced
    exact wp_notify_evidenced host evidenced
  · intro state evidenced
    exact wp_evidenced host (drain_propagates mild_drain cursor) evidenced

theorem wp_executeRunEvents_evidenced (host : LedgerHost world ledger) (fuel : Nat)
    (alive : (ledger state.1).Open) :
    wireWp (world.monitored (noteCut ledger)) profile anyWireCall
      (executeRunEvents registry run true fuel) (fun _ after => (ledger after.1).Evidenced)
      (CutShort ledger) state := by
  have begins : MildCall (.setRunStatus run .running) :=
    ⟨RunStatus.noConfusion, RunStatus.noConfusion⟩
  apply wp_executeRunEvents_of (fun _ after => (ledger after.1).Open)
    (fun after => (ledger after.1).Evidenced) fun _ after => (ledger after.1).Open
  · exact wp_open host (nextSequence_propagates trivial) alive
  · intro next state _ alive
    exact alive.evidenced
  · intro next state _ alive
    exact wp_open host (setRunStatus_propagates begins) alive
  · intro next state alive
    exact wp_open host (drain_propagates mild_drain _) alive
  · intro cursor state alive
    exact wp_open host (now_propagates trivial) alive
  · intro driveStarted cursor state alive
    exact wp_loopPass_open host alive
  · intro cursor state alive
    exact alive.evidenced
  · intro state evidenced
    exact evidenced
  · intro cursor state alive
    exact wp_completeRun_evidenced host alive

theorem wp_executeRun_evidenced (host : LedgerHost world ledger) (fuel : Nat)
    (alive : (ledger state.1).Open) :
    wireWp (world.monitored (noteCut ledger)) profile anyWireCall
      (executeRun registry run true fuel) (fun _ after => (ledger after.1).Evidenced)
      (CutShort ledger) state := by
  apply wp_seq (wp_executeRunEvents_evidenced host fuel alive)
  intro ended state evidenced
  cases ended with
  | none => exact evidenced
  | some _ =>
      apply wp_seq (wp_evidenced host (getRun_propagates trivial) evidenced)
      intro refreshed state evidenced
      exact evidenced

end Drive

theorem evidenced_of_wp {α : Type} {world : World wireSignature (Raised String) σ}
    {ledger : σ → Ledger} {program : Wire α} {state : σ}
    (holds : wp (world.monitored (noteCut ledger)) anyWireCall program
      (fun _ after => (ledger after.1).Evidenced) (CutShort ledger) (state, false)) :
    EvidencedUnlessCut world ledger program state := by
  intro outcome last history runs uncut
  have ended := runs.monitor_post holds
  rw [uncut_iff.mpr uncut] at ended
  cases outcome with
  | ok value => exact ended
  | error error =>
      cases ended with
      | inl evidenced => exact evidenced
      | inr impossible => cases impossible

/-! ## A host that loses answers -/

/-- The ledger of the rows. -/
def HostState.ledger (state : HostState) : Ledger where
  status := state.run.status
  completedLogged := state.entries.any fun entry => entry.type == EventType.runCompleted.text
  failedLogged := state.entries.any fun entry => entry.type == EventType.runFailed.text

/-- A host that can be lost: `loses` says which callbacks end without an answer, and
whether they were applied all the same. -/
def HostRules.lossy (rules : HostRules) (clock : HostState → ℚ) (loses : Request → Option Bool) :
    (op : WireOp) → HostState → Except (Raised String) op.Res × HostState
  | .request request, state =>
      match loses request with
      | none => rules.serve clock (.request request) state
      | some true => (.error (.transport "ReadTimeout" "timed out"),
          (rules.serve clock (.request request) state).2)
      | some false => (.error (.transport "ConnectError" "connection refused"), state)
  | op, state => rules.serve clock op state

/-- The host's own code leaves terminal statuses and terminal events alone. -/
structure HostRules.LedgerKeeping (rules : HostRules) : Prop where
  invoke : ∀ stepId (state : HostState),
    Ledger.Moves state.ledger (rules.invoke stepId state).2.ledger
  epilogue : ∀ status (state : HostState),
    Ledger.Moves state.ledger (rules.epilogue status state).ledger

theorem HostRules.LedgerKeeping.answer {rules : HostRules} (keeping : rules.LedgerKeeping)
    (request : Request) (state : HostState) :
    Ledger.Moves (state.ledger.apply request)
      (rules.answer request.target (request.json.getD []) state).2.ledger := by
  obtain ⟨target, json⟩ := request
  cases target with
  | invoke runId stepId => exact keeping.invoke stepId state
  | runEnd runId =>
      exact keeping.epilogue _ { state with runEnds := state.runEnds ++ [_] }
  | events runId =>
      constructor
      · exact .inl rfl
      · change (state.entries ++ [entryOf (json.getD [])]).any _ = _
        rw [List.any_append, List.any_cons, List.any_nil, Bool.or_false]
        rfl
      · change (state.entries ++ [entryOf (json.getD [])]).any _ = _
        rw [List.any_append, List.any_cons, List.any_nil, Bool.or_false]
        rfl
  | _ => exact Ledger.Moves.refl _

/-- An event of the log is an entry. -/
theorem HostState.type_of_mem_log {state : HostState} {event : Event} (member : event ∈ state.log) :
    ∃ entry ∈ state.entries, event.type.asStr? = some entry.type := by
  obtain ⟨index, bound, equal⟩ := List.mem_mapIdx.mp member
  exact ⟨_, List.getElem_mem bound, equal ▸ rfl⟩

theorem HostRules.ledgerHost {rules : HostRules} (keeping : rules.LedgerKeeping)
    (clock : HostState → ℚ) (loses : Request → Option Bool) :
    LedgerHost (World.ofFn (rules.lossy clock loses)) HostState.ledger where
  callback {state request reply after} served := by
    change rules.lossy clock loses (.request request) state = (reply, after) at served
    rw [HostRules.lossy] at served
    split at served
    · cases served
      exact .inl (keeping.answer request state)
    · cases served
      exact .inl (keeping.answer request state)
    · cases served
      exact .inr ⟨rfl, Ledger.Moves.refl _⟩
  refused served := by
    cases served
    exact Ledger.Moves.refl _
  silent {state after op answer} untargeted served := by
    cases op with
    | request request => cases untargeted
    | refused target error => cases untargeted
    | now =>
        cases served
        exact Ledger.Moves.refl _
    | yieldEvent payload =>
        cases served
        exact Ledger.Moves.refl _
  reads {state runId cursor json response after events event} served parsed member failed := by
    change rules.lossy clock loses (.request ⟨.eventsAfter runId cursor, json⟩) state =
      (.ok response, after) at served
    rw [HostRules.lossy] at served
    split at served
    · cases served
      have read : Except.ok _ = Except.ok events := (eventList_json _).symm.trans parsed
      cases read
      obtain ⟨entry, logged, type⟩ := HostState.type_of_mem_log (List.mem_of_mem_filter member)
      have equal : entry.type = EventType.runFailed.text :=
        Option.some.inj (type.symm.trans failed)
      exact List.any_eq_true.mpr ⟨entry, logged, beq_iff_eq.mpr equal⟩
    · cases served
    · cases served

/-- Wherever a drive is cut short, a terminal status has its event, unless the cut is at
one of the two writes of a completion. -/
theorem terminal_status_evidenced {world : World wireSignature (Raised String) σ}
    {ledger : σ → Ledger} (host : LedgerHost world ledger) (profile : RunProfile)
    (registry : ToolRegistry) (run : RunView String) (fuel : Nat) (state : σ)
    (alive : (ledger state).Open) :
    EvidencedUnlessCut world ledger (standaloneEvents profile registry run fuel) state ∧
      EvidencedUnlessCut world ledger (standaloneRun profile registry run fuel) state := by
  constructor
  · apply evidenced_of_wp
    apply wp_overWire
    exact wp_executeRunEvents_evidenced host fuel alive
  · apply evidenced_of_wp
    apply wp_overWire
    exact wp_executeRun_evidenced host fuel alive

theorem plainRules_ledgerKeeping : plainRules.LedgerKeeping :=
  ⟨fun _ _ => Ledger.Moves.refl _, fun _ _ => Ledger.Moves.refl _⟩

/-- A run that has nothing left to do. -/
def finishedHost : HostState :=
  .holding ⟨"run-1", .running, some .autoComplete, false, .json .null, .null, .null, .json .null⟩
    [("step-1", ⟨"model_call", "Ask", .completed, false, none, none⟩)]

theorem finishedHost_open : finishedHost.ledger.Open :=
  ⟨by decide, by decide⟩

/-- The event that completes a run cannot be delivered. -/
def losesCompletedEvent (request : Request) : Option Bool :=
  match request.target with
  | .events _ => some false
  | _ => none

/-- Nothing lost, it ends completed, with its event. -/
theorem terminal_status_evidenced_unlost :
    ∃ last history,
      Runs (World.ofFn (plainRules.lossy (fun _ => 0) fun _ => none)).recorded
        (standaloneEvents ⟨"openai", "gpt", none⟩ remoteRegistry finishedHost.run 1)
        (finishedHost, []) (.ok (some ())) (last, history) ∧
      last.run.status = .completed ∧ last.ledger.Evidenced := by
  obtain ⟨history, runs, view⟩ := record_ofFn (plainRules.lossy (fun _ => 0) fun _ => none)
    (noteCut HostState.ledger)
    (standaloneEvents ⟨"openai", "gpt", none⟩ remoteRegistry finishedHost.run 1) finishedHost
    false
  have uncut : history.foldl (noteCut HostState.ledger) false = false := by
    rw [view]
    decide
  have host := HostRules.ledgerHost plainRules_ledgerKeeping (fun _ => 0) fun _ => none
  refine ⟨_, history, runs, rfl, ?_⟩
  exact (terminal_status_evidenced host _ _ _ _ _ finishedHost_open).1 _ _ _ runs
    (uncut_iff.mp uncut)

/-- Its event lost, it ends completed without one, and no failure in sight. -/
theorem terminal_status_evidenced_torn :
    LedgerHost (World.ofFn (plainRules.lossy (fun _ => 0) losesCompletedEvent))
      HostState.ledger ∧
    finishedHost.ledger.Open ∧ finishedHost.log = [] ∧
    ∃ last history,
      Runs (World.ofFn (plainRules.lossy (fun _ => 0) losesCompletedEvent)).recorded
        (standaloneEvents ⟨"openai", "gpt", none⟩ remoteRegistry finishedHost.run 1)
        (finishedHost, []) (.error (.hostError (.unavailable "ConnectError: connection refused")))
        (last, history) ∧
      last.run.status = .completed ∧ ¬ last.ledger.Evidenced := by
  obtain ⟨history, runs, view⟩ := record_ofFn
    (plainRules.lossy (fun _ => 0) losesCompletedEvent) (noteCut HostState.ledger)
    (standaloneEvents ⟨"openai", "gpt", none⟩ remoteRegistry finishedHost.run 1) finishedHost
    false
  refine ⟨HostRules.ledgerHost plainRules_ledgerKeeping _ _, finishedHost_open, rfl, _, history,
    runs, rfl, ?_⟩
  intro evidenced
  have logged := evidenced.completed rfl
  revert logged
  decide

end SlimxAgent
