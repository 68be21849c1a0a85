import SlimxAgent.Course
import SlimxAgent.Interaction.Relaying

/-!
# Where the exception of a drive comes from

On steps of known status the engine invents one exception: it refuses a step left running
whose grant is gone.  Any other one that ends a drive is the one its last call raised.
-/

namespace SlimxAgent

open Interaction Program

variable {ι : Type}

/-- The engine counts on steps of known status.  It ends with what a handler raised only
if that says so, and refuses a step left running whose grant is gone. -/
def engineConduct : Conduct (engineSignature ι) (Raised ι) where
  results
    | .getSteps _, steps => ∀ step ∈ steps, step.status.recognized = true
    | _, _ => True
  passes
    | .handle _ _, error => error.EndsDrive
    | _, _ => True
  refuses error := ∃ stepId reason, error = .runningStepNotPermitted stepId reason

end SlimxAgent
