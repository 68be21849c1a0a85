import SlimxAgent.Policies
import SlimxAgent.Text

/-!
# Plans

A planner's output is untrusted data.  `repairPlanData` salvages what a small model
commonly gets wrong, and `validatePlan` is the gate behind it: a plan is a value of
`AgentPlan`, built from data that passed every check.

The model classes are pydantic's.  What its lax mode takes for a boolean is a parameter.
-/

namespace SlimxAgent

/-- The portable default ceiling. -/
def maxSteps : Nat := 12

/-- The types the portable prompt never advertises, even when granted. -/
def neverAdvertisedStepTypes : List String :=
  ["mcp_call", "plugin_tool", "netops_apply", "netops_auto_apply", "research_iterate"]

/-! ## Repair -/

/-- The keys a step's text is often put under instead. -/
def instructionAliases : List String := ["description", "prompt", "task", "details"]

/-- The first text that is not blank, as the loop finds it. -/
def firstText (values : List Json) : Option String :=
  (values.map strippedText).find? (· != "")

/-- Adopt the first alias that is not blank. -/
def adoptInstruction (raw : Dict) : Dict :=
  if strippedText (raw.get "instruction") = "" then
    match firstText (instructionAliases.map raw.get) with
    | some text => raw.set "instruction" (.str text)
    | none => raw
  else raw

/-- The title of a step without one of its own. -/
def derivedTitle (position : Nat) (raw : Dict) : String :=
  let instruction := clip (strippedText (raw.get "instruction")) 60
  if instruction = "" then "Step " ++ toString position else instruction

/-- Fill an obviously missing title. -/
def fillTitle (position : Nat) (raw : Dict) : Dict :=
  let title := strip ((raw.get "title").orElse ((raw.get "name").orElse (.str ""))).text
  if title = "" then raw.set "title" (.str (derivedTitle position raw))
  else if (raw.get "title").truthy then raw
  else raw.set "title" (.str title)

/-- An object of an allowed type. -/
def kept? : Json → Option Dict
  | .obj fields =>
      match Dict.get fields "type" with
      | .str type => if type ∈ allowedStepTypes then some fields else none
      | _ => none
  | _ => none

/-- Fill what the entry leaves out. -/
def repairStep (position : Nat) (raw : Dict) : Dict :=
  fillTitle position (adoptInstruction raw)

/-- The entries that are kept, repaired, after those that have been. -/
def repairSteps (repaired : List Dict) : List Json → List Dict
  | [] => repaired
  | raw :: rest =>
      match kept? raw with
      | none => repairSteps repaired rest
      | some raw => repairSteps (repaired ++ [repairStep (repaired.length + 1) raw]) rest

/-- The assumptions that are strings. -/
def stringAssumptions : Json → List Json
  | .arr items => items.filter fun item => item.asStr?.isSome
  | _ => []

/-- Best-effort salvage of a plan before it is validated. -/
def repairPlanData : Json → Json
  | .obj data =>
      let data := Dict.set data "assumptions"
        (.arr (stringAssumptions (Dict.get data "assumptions")))
      match Dict.get data "steps" with
      | .arr steps => .obj (Dict.set data "steps" (.arr ((repairSteps [] steps).map .obj)))
      | _ => .obj (Dict.set data "steps" (.arr []))
  | data => data

/-! ## Validation -/

/-- What is wrong with a field. -/
inductive Problem where
  | missing
  | notString
  | notBool
  | notDict
  | notList
  /-- A validator of the model class raised `ValueError`. -/
  | value (message : String)
  deriving DecidableEq

/-- A problem, and the path of the field that has it. -/
structure FieldProblem where
  path : List String
  problem : Problem
  deriving DecidableEq

/-- The value of a field, or everything that is wrong with it. -/
abbrev Checked (α : Type) := Except (List FieldProblem) α

def Checked.problems {α : Type} : Checked α → List FieldProblem
  | .ok _ => []
  | .error problems => problems

/-- Two fields; the problems of both are reported. -/
def Checked.both {α β : Type} (first : Checked α) (second : Checked β) : Checked (α × β) :=
  match first, second with
  | .ok value, .ok other => .ok (value, other)
  | first, second => .error (first.problems ++ second.problems)

/-- `str`. -/
def asString (path : List String) : Json → Checked String
  | .str value => .ok value
  | _ => .error [⟨path, .notString⟩]

/-- Check every item of a list, in order. -/
def eachItem {α : Type} (check : Nat → Json → Checked α) : Nat → List Json → Checked (List α)
  | _, [] => .ok []
  | index, item :: items =>
      ((check index item).both (eachItem check (index + 1) items)).map fun both =>
        both.1 :: both.2

/-- `list[...]`. -/
def asList {α : Type} (check : List String → Json → Checked α) (path : List String) :
    Json → Checked (List α)
  | .arr items => eachItem (fun index => check (path ++ [toString index])) 0 items
  | _ => .error [⟨path, .notList⟩]

/-- Check the value of every key, in order. -/
def eachField {α : Type} (check : String → Json → Checked α) :
    Dict → Checked (List (String × α))
  | [] => .ok []
  | (key, value) :: rest =>
      ((check key value).both (eachField check rest)).map fun both => (key, both.1) :: both.2

/-- `dict[str, list[str]]`. -/
def asReferences (path : List String) : Json → Checked (List (String × List String))
  | .obj fields => eachField (fun key => asList asString (path ++ [key])) fields
  | _ => .error [⟨path, .notDict⟩]

/-- `dict[str, Any]`. -/
def asDict (path : List String) : Json → Checked Dict
  | .obj fields => .ok fields
  | _ => .error [⟨path, .notDict⟩]

/-- `bool`, as pydantic reads one. -/
def asBool (laxBool : Json → Option Bool) (path : List String) (value : Json) : Checked Bool :=
  match laxBool value with
  | some value => .ok value
  | none => .error [⟨path, .notBool⟩]

/-- `... | None`. -/
def optional {α : Type} (check : List String → Json → Checked α) (path : List String) :
    Json → Checked (Option α)
  | .null => .ok none
  | value => (check path value).map some

/-- A field that must be given. -/
def required {α : Type} (check : List String → Json → Checked α) (path : List String)
    (fields : Dict) (key : String) : Checked α :=
  match fields.get? key with
  | none => .error [⟨path ++ [key], .missing⟩]
  | some value => check (path ++ [key]) value

/-- A field with a default. -/
def defaulted {α : Type} (default : α) (check : List String → Json → Checked α)
    (path : List String) (fields : Dict) (key : String) : Checked α :=
  match fields.get? key with
  | none => .ok default
  | some value => check (path ++ [key]) value

/-- A step type of the allowlist. -/
abbrev AllowedType := { type : String // type ∈ allowedStepTypes }

/-- `_type_in_allowlist`, of a string. -/
def typeInAllowlist (path : List String) (value : Json) : Checked AllowedType :=
  match asString path value with
  | .error problems => .error problems
  | .ok type =>
      if allowed : type ∈ allowedStepTypes then .ok ⟨type, allowed⟩
      else .error [⟨path, .value ("Unsupported step type " ++ reprStr type ++ "; allowed: " ++
        String.intercalate ", " allowedStepTypes)⟩]

/-- The types that execute the instruction as the prompt. -/
def promptStepTypes : List String := ["model_call", "compare_models"]

/-- The fields of a step, each of its type. -/
structure PlanStepFields where
  title : String
  type : AllowedType
  instruction : String
  expectedOutput : String
  requiresApproval : Bool
  inputRefs : Option (List (String × List String))
  params : Option Dict

/-- A validated step. -/
structure AgentPlanStep extends PlanStepFields where
  instructed : type.val ∈ promptStepTypes → ¬ Blank instruction

/-- The fields of a step, each checked by itself. -/
def PlanStepFields.validate (laxBool : Json → Option Bool) (path : List String) (entry : Dict) :
    Checked PlanStepFields :=
  ((required asString path entry "title").both
    ((required typeInAllowlist path entry "type").both
    ((defaulted "" asString path entry "instruction").both
    ((defaulted "" asString path entry "expected_output").both
    ((defaulted false (asBool laxBool) path entry "requires_approval").both
    ((defaulted none (optional asReferences) path entry "input_refs").both
    (defaulted none (optional asDict) path entry "params"))))))).map
      fun ⟨title, type, instruction, expectedOutput, requiresApproval, inputRefs, params⟩ =>
        ⟨title, type, instruction, expectedOutput, requiresApproval, inputRefs, params⟩

/-- `_model_steps_need_an_instruction`. -/
def modelStepsNeedAnInstruction (path : List String) (fields : PlanStepFields) :
    Checked AgentPlanStep :=
  if instructed : fields.type.val ∈ promptStepTypes → ¬ Blank fields.instruction then
    .ok ⟨fields, instructed⟩
  else .error [⟨path, .value (fields.type.val ++ " steps must include a non-empty " ++
    "'instruction' — the exact prompt/task text the model should run")⟩]

/-- `AgentPlanStep`, of an object. -/
def AgentPlanStep.validate (laxBool : Json → Option Bool) (path : List String) :
    Json → Checked AgentPlanStep
  | .obj entry =>
      match PlanStepFields.validate laxBool path entry with
      | .error problems => .error problems
      | .ok fields => modelStepsNeedAnInstruction path fields
  | _ => .error [⟨path, .notDict⟩]

/-- As many steps as a plan may have. -/
abbrev BoundedSteps := { steps : List AgentPlanStep // steps ≠ [] ∧ steps.length ≤ maxSteps }

/-- `_steps_bounded`, of validated steps. -/
def stepsBounded (laxBool : Json → Option Bool) (path : List String) (value : Json) :
    Checked BoundedSteps :=
  match asList (AgentPlanStep.validate laxBool) path value with
  | .error problems => .error problems
  | .ok steps =>
      if planned : steps = [] then
        .error [⟨path, .value "Plan must contain at least one step"⟩]
      else if bounded : steps.length ≤ maxSteps then .ok ⟨steps, planned, bounded⟩
      else .error [⟨path, .value ("Plan has too many steps (" ++ toString steps.length ++ " > " ++
        toString maxSteps ++ ")")⟩]

/-- A validated plan. -/
structure AgentPlan where
  assumptions : List String
  steps : BoundedSteps

/-- The model returned a plan that fails validation. -/
inductive PlanValidationError where
  /-- "Planner output was not a JSON object". -/
  | notAnObject
  | problems (problems : List FieldProblem)

/-- The strict gate behind the repair. -/
def validatePlan (laxBool : Json → Option Bool) : Json → Except PlanValidationError AgentPlan
  | .obj data =>
      (((defaulted [] (asList asString) [] data "assumptions").both
        (required (stepsBounded laxBool) [] data "steps")).map fun ⟨assumptions, steps⟩ =>
          ⟨assumptions, steps⟩).mapError .problems
  | _ => .error .notAnObject

/-! ## The portable prompt -/

/-- The items of `value or ()`; `none` where Python raises `TypeError`. -/
def iterated (value : Json) : Option (List Json) :=
  if value.truthy then
    match value with
    | .str text => some (text.toList.map fun c => .str (String.singleton c))
    | .arr items => some items
    | .obj fields => some (fields.map fun field => .str field.1)
    | _ => none
  else some []

/-- The step types the portable prompt offers for the granted tools, in the allowlist's
order. -/
def advertisedStepTypes (allowedTools : Json) : Option (List String) :=
  (iterated allowedTools).map fun items =>
    let grants := items.filterMap Json.asStr?
    allowedStepTypes.filter fun stepType =>
      !neverAdvertisedStepTypes.contains stepType &&
        match requiredGrant stepType with
        | none => true
        | some grant => grants.contains grant

end SlimxAgent
