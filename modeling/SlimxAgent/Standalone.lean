import SlimxAgent.HttpStore
import SlimxAgent.Engine
import SlimxAgent.Text

/-!
# The standalone service

The engine's operations over the wire: the store, the remote handler that stands for
every registered tool, and the run-end hook.
-/

namespace SlimxAgent

open Interaction

/-! ## The remote handler -/

/-- `value if isinstance(value, str) and value.strip() else default`. -/
def messageOr (value : Json) (default : String) : String :=
  match value with
  | .str text => if Blank text then default else text
  | _ => default

/-- What the host's outcome envelope means to the engine. -/
def interpretOutcome (stepId : String) (result : Dict) : Except (Raised String) (Option Dict) :=
  match Dict.get result "outcome" with
  | .str "completed" =>
      match Dict.get result "output_refs" with
      | .null => .ok none
      | .obj refs => .ok (some refs)
      | _ => .error (.stepOutcomeUnknown
          ("step " ++ stepId ++ " completion carried malformed output references") none)
  | .str "skipped" =>
      .error (.stepNotApplicable (messageOr (Dict.get result "reason") "step not applicable"))
  | .str "prepared" =>
      .error (.stepActionPrepared (messageOr (Dict.get result "reason")
        "a new action generation was prepared"))
  | .str "failed" =>
      .error (.stepExecutionError (messageOr (Dict.get result "error")
        "step failed on the host"))
  | _ => .error (.stepOutcomeUnknown
      ("step " ++ stepId ++ " returned an unrecognized invocation outcome") none)

/-- One handler for every step type: the host invokes the tool. -/
def remoteHandler (run : RunView String) (step : StepView String) (profile : RunProfile) :
    Wire (Option Dict) := do
  match ← (HostClient.invokeStep run.id step.id profile).attempt with
  | .error (.hostError error) =>
      .raise (.stepOutcomeUnknown ("step " ++ step.id ++ " has no observed invocation outcome (" ++
        error.message ++ ")") (some error))
  | .error error => .raise error
  | .ok result => .ofExcept (interpretOutcome step.id result)

/-- The registry of the standalone service: the full contract vocabulary. -/
def remoteRegistry : ToolRegistry :=
  ⟨allowedStepTypes, by decide⟩

/-! ## The run-end hook -/

/-- A failing epilogue callback is logged and swallowed. -/
def runEndHook (run : RunView String) (status : RunStatus) (profile : RunProfile) :
    Wire Unit := do
  match ← (HostClient.runEnd run.id status profile).attempt with
  | .ok () => return ()
  | .error error => if error.isException then return () else .raise error

/-! ## A standalone drive -/

/-- The engine's operations over the wire. -/
def overWire (profile : RunProfile) : (op : EngineOp String) → Wire op.Res
  | .getRun runId => HttpRunStore.getRun runId
  | .getSteps runId => HttpRunStore.getSteps runId
  | .getStep stepId => HttpRunStore.getStep stepId
  | .setRunStatus run status => HttpRunStore.setRunStatus run status
  | .setStepState stepId status error outputRefs =>
      HttpRunStore.setStepState stepId status error outputRefs
  | .rollback => HttpRunStore.rollback
  | .currentType step => return step.type
  | .currentTitle step => return step.title
  | .currentStatus step => return step.status
  | .appendEvent runId type stepId payload _ =>
      HttpRunStore.appendEvent runId type stepId payload
  | .nextSequence runId => HttpRunStore.nextSequence runId
  | .drainedEvents runId afterSequence => HttpRunStore.drainedEvents runId afterSequence
  | .handle run step => remoteHandler run step profile
  | .onRunEnd run status => runEndHook run status profile
  | .now => @Program.perform wireSignature _ .now
  | .yieldEvent payload => @Program.perform wireSignature _ (.yieldEvent payload)

/-- A streamed drive of the standalone service, with its run-end hook. -/
def standaloneEvents (profile : RunProfile) (registry : ToolRegistry) (run : RunView String)
    (fuel : Nat) : Wire (Option Unit) :=
  (executeRunEvents registry run true fuel).translate (overWire profile)

/-- A drive that answers with the run. -/
def standaloneRun (profile : RunProfile) (registry : ToolRegistry) (run : RunView String)
    (fuel : Nat) : Wire (Option (RunView String)) :=
  (executeRun registry run true fuel).translate (overWire profile)

end SlimxAgent
