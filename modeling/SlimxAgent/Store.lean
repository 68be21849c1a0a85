import SlimxAgent.Exceptions
import SlimxAgent.Interaction.Program
import Mathlib.Data.Rat.Defs

/-!
# The store boundary

What the engine reads of a run and of a step, and every operation through which
it reaches its host: the store's reads and writes, the tool handlers, the run-end
hook, the clock, and the events it hands to the consumer of a live drive.

A view holds what the host answered.  The object behind a step may be a live row,
so what the engine reads of it after a further store call is a read of its own
(`currentType`, `currentTitle`, `currentStatus`); what it reads before is in the
answer that brought the step.  A run is taken as it was read.
-/

namespace SlimxAgent

open Interaction

/-- The run fields the engine and the policies read.  Attributes a host does not
declare read as `None`. -/
structure RunView (ι : Type) where
  id : ι
  status : RunStatus
  approvalPolicy : Option ApprovalPolicy
  autoApprove : Bool
  allowedToolsJson : Stored
  budgetMaxSteps : Json
  budgetMaxWallSeconds : Json
  preapprovedTools : Stored

/-- The step fields the engine and the policies read. -/
structure StepView (ι : Type) where
  id : ι
  type : String
  title : String
  status : StepStatus
  requiresApproval : Bool

/-- A field of a step update: left untouched, or replaced. -/
inductive Given (α : Type) where
  | unset
  | given (value : α)

/-- One durable event in its JSON-ready wire shape: an object with an integer
sequence. -/
structure Event where
  fields : Dict
  sequence : Int
  sequenced : fields.get "sequence" = .int sequence

namespace Event

/-- `event.get("type")`. -/
def type (event : Event) : Json :=
  event.fields.get "type"

/-- `event.get("agent_step_id")`. -/
def agentStepId (event : Event) : Json :=
  event.fields.get "agent_step_id"

end Event

/-- The operations of one drive. -/
inductive EngineOp (ι : Type) where
  | getRun (runId : ι)
  | getSteps (runId : ι)
  | getStep (stepId : ι)
  | setRunStatus (run : RunView ι) (status : RunStatus)
  | setStepState (stepId : ι) (status : StepStatus) (error : Given (Option String))
      (outputRefs : Given (Option Dict))
  | rollback
  /-- `step.type`, read of the object in hand after a further store call: a live row
  says what the host has by now, a snapshot what it said before. -/
  | currentType (step : StepView ι)
  /-- `step.title`, read likewise. -/
  | currentTitle (step : StepView ι)
  /-- `step.status`, read likewise. -/
  | currentStatus (step : StepView ι)
  | appendEvent (runId : ι) (type : EventType) (stepId : Option ι) (payload : Option Dict)
      (commit : Bool)
  | nextSequence (runId : ι)
  | drainedEvents (runId : ι) (afterSequence : Int)
  /-- Call the registered handler of the step's type. -/
  | handle (run : RunView ι) (step : StepView ι)
  | onRunEnd (run : RunView ι) (status : RunStatus)
  | now
  /-- Yield `("event", payload)` to the consumer. -/
  | yieldEvent (payload : Event)

/-- What each operation answers. -/
@[reducible] def EngineOp.Res {ι : Type} : EngineOp ι → Type
  | .getRun _ => Option (RunView ι)
  | .getSteps _ => List (StepView ι)
  | .getStep _ => Option (StepView ι)
  | .setRunStatus _ _ => RunView ι
  | .setStepState _ _ _ _ => StepView ι
  | .rollback => Unit
  | .currentType _ => String
  | .currentTitle _ => String
  | .currentStatus _ => StepStatus
  | .appendEvent _ _ _ _ _ => Unit
  | .nextSequence _ => Int
  | .drainedEvents _ _ => List Event
  | .handle _ _ => Option Dict
  | .onRunEnd _ _ => Unit
  | .now => ℚ
  | .yieldEvent _ => Unit

/-- The calls that leave the store: handlers, the hook, the consumer of the stream. -/
def EngineOp.LeavesStore {ι : Type} : EngineOp ι → Prop
  | .handle _ _ => True
  | .onRunEnd _ _ => True
  | .yieldEvent _ => True
  | _ => False

@[reducible] def engineSignature (ι : Type) : Signature := ⟨EngineOp ι, EngineOp.Res⟩

/-- Engine code: store calls whose exceptions propagate unless caught. -/
abbrev Engine (ι α : Type) := Program (engineSignature ι) (Raised ι) α

section Operations

variable {ι : Type}

def getRun (runId : ι) : Engine ι (Option (RunView ι)) :=
  @Program.perform (engineSignature ι) _ (.getRun runId)

def getSteps (runId : ι) : Engine ι (List (StepView ι)) :=
  @Program.perform (engineSignature ι) _ (.getSteps runId)

def getStep (stepId : ι) : Engine ι (Option (StepView ι)) :=
  @Program.perform (engineSignature ι) _ (.getStep stepId)

def setRunStatus (run : RunView ι) (status : RunStatus) : Engine ι (RunView ι) :=
  @Program.perform (engineSignature ι) _ (.setRunStatus run status)

def setStepState (stepId : ι) (status : StepStatus) (error : Given (Option String))
    (outputRefs : Given (Option Dict)) : Engine ι (StepView ι) :=
  @Program.perform (engineSignature ι) _ (.setStepState stepId status error outputRefs)

def rollback : Engine ι Unit :=
  @Program.perform (engineSignature ι) _ .rollback

def currentType (step : StepView ι) : Engine ι String :=
  @Program.perform (engineSignature ι) _ (.currentType step)

def currentTitle (step : StepView ι) : Engine ι String :=
  @Program.perform (engineSignature ι) _ (.currentTitle step)

def currentStatus (step : StepView ι) : Engine ι StepStatus :=
  @Program.perform (engineSignature ι) _ (.currentStatus step)

def appendEvent (runId : ι) (type : EventType) (stepId : Option ι) (payload : Option Dict)
    (commit : Bool) : Engine ι Unit :=
  @Program.perform (engineSignature ι) _ (.appendEvent runId type stepId payload commit)

def nextSequence (runId : ι) : Engine ι Int :=
  @Program.perform (engineSignature ι) _ (.nextSequence runId)

def drainedEvents (runId : ι) (afterSequence : Int) : Engine ι (List Event) :=
  @Program.perform (engineSignature ι) _ (.drainedEvents runId afterSequence)

def handle (run : RunView ι) (step : StepView ι) : Engine ι (Option Dict) :=
  @Program.perform (engineSignature ι) _ (.handle run step)

def onRunEnd (run : RunView ι) (status : RunStatus) : Engine ι Unit :=
  @Program.perform (engineSignature ι) _ (.onRunEnd run status)

def now : Engine ι ℚ :=
  @Program.perform (engineSignature ι) _ .now

def yieldEvent (payload : Event) : Engine ι Unit :=
  @Program.perform (engineSignature ι) _ (.yieldEvent payload)

end Operations

end SlimxAgent
