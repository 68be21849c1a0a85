import SlimxAgent.Host

/-!
# A host in process

The rows of `SlimxAgent.Host` behind a database session.  Identities are the host's own
values, whose texts are the identities of the rows.  Reads see what the session wrote;
a write is durable from its commit on.  Step objects are live: what they say is what
their rows say.
-/

namespace SlimxAgent

open Interaction

variable {ι κ : Type}

/-! ## Identities -/

/-- The view under another form of its identity. -/
def RunView.mapId (form : ι → κ) (run : RunView ι) : RunView κ :=
  { run with id := form run.id }

def StepView.mapId (form : ι → κ) (step : StepView ι) : StepView κ :=
  { step with id := form step.id }

def Raised.mapId (form : ι → κ) : Raised ι → Raised κ
  | .stepActionPrepared message => .stepActionPrepared message
  | .stepOutcomeUnknown message cause => .stepOutcomeUnknown message cause
  | .stepNotApplicable message => .stepNotApplicable message
  | .stepExecutionError message => .stepExecutionError message
  | .unknownStepStatus stepId status => .unknownStepStatus (form stepId) status
  | .runningStepNotPermitted stepId reason => .runningStepNotPermitted (form stepId) reason
  | .hostError error => .hostError error
  | .transport typeName message => .transport typeName message
  | .exception typeName message => .exception typeName message
  | .baseException typeName => .baseException typeName

/-! ## Sessions -/

/-- What is committed, and what the session sees. -/
structure Session where
  committed : HostState
  working : HostState

namespace Session

/-- Nothing is pending. -/
def settled (state : HostState) : Session := ⟨state, state⟩

/-- An event handed to the consumer is out of any transaction. -/
def handOver (session : Session) (payload : Event) : Session where
  committed := { session.committed with yielded := session.committed.yielded ++ [payload] }
  working := { session.working with yielded := session.working.yielded ++ [payload] }

end Session

namespace HostRules

/-- Serve a drive in-process.  `ident` is the identity of a row. -/
def inProcess [HostId ι] (rules : HostRules) (ident : String → ι) (clock : HostState → ℚ) :
    (op : EngineOp ι) → Session → Except (Raised ι) op.Res × Session
  | .getRun runId, session =>
      let run := session.working.run
      (.ok (if HostId.text runId = run.id then some (run.mapId ident) else none), session)
  | .getSteps _, session => (.ok (session.working.steps.map (StepView.mapId ident)), session)
  | .getStep stepId, session =>
      let key := HostId.text stepId
      (.ok (if key ∈ session.working.order then
        some (((session.working.rows key).view key).mapId ident) else none), session)
  | .setRunStatus _ status, session =>
      let after := session.working.setStatus status
      (.ok (after.run.mapId ident), .settled after)
  | .setStepState stepId status error outputRefs, session =>
      let key := HostId.text stepId
      let row := (session.working.rows key).transition status error outputRefs
      (.ok ((row.view key).mapId ident), .settled (session.working.setRow key row))
  | .rollback, session => (.ok (), .settled session.committed)
  | .currentType step, session => (.ok (session.working.rows (HostId.text step.id)).type, session)
  | .currentTitle step, session =>
      (.ok (session.working.rows (HostId.text step.id)).title, session)
  | .currentStatus step, session =>
      (.ok (session.working.rows (HostId.text step.id)).status, session)
  | .appendEvent _ type stepId payload commit, session =>
      let after := session.working.append ⟨type.text, stepId.map HostId.text, payload⟩
      (.ok (), if commit then .settled after else { session with working := after })
  | .nextSequence _, session => (.ok session.working.nextSequence, session)
  | .drainedEvents _ afterSequence, session =>
      (.ok (session.working.log.filter fun event => decide (afterSequence < event.sequence)),
        session)
  | .handle _ step, session =>
      let invoked := rules.invoke (HostId.text step.id) session.working
      (invoked.1.native, .settled invoked.2)
  | .onRunEnd _ status, session =>
      let reported := { session.working with runEnds := session.working.runEnds ++ [status] }
      (.ok (), .settled (rules.epilogue status reported))
  | .now, session => (.ok (clock session.working), session)
  | .yieldEvent payload, session => (.ok (), session.handOver payload)

end HostRules

end SlimxAgent
