import SlimxAgent.Store

/-!
# The tool registry

The only path from the dispatcher to a tool.  Calling a handler is an operation
of the host (`EngineOp.handle`); the registry decides whether there is one.
-/

namespace SlimxAgent

/-- The step types a host registered a handler for; one handler a type. -/
structure ToolRegistry where
  stepTypes : List String
  distinct : stepTypes.Nodup

namespace ToolRegistry

def empty : ToolRegistry := ⟨[], List.nodup_nil⟩

/-- A second handler for a type is refused. -/
def register (registry : ToolRegistry) (stepType : String) : Except String ToolRegistry :=
  if registered : stepType ∈ registry.stepTypes then
    .error ("Tool handler for " ++ reprStr stepType ++ " is already registered")
  else
    .ok ⟨stepType :: registry.stepTypes, List.nodup_cons.mpr ⟨registered, registry.distinct⟩⟩

/-- Whether a handler is registered for the type. -/
def resolve (registry : ToolRegistry) (stepType : String) : Bool :=
  registry.stepTypes.contains stepType

@[simp] theorem resolve_empty (stepType : String) : empty.resolve stepType = false := rfl

end ToolRegistry

end SlimxAgent
