import SlimxAgent.Repair
import Mathlib.Data.List.Forall2

/-!
# Which plans are accepted

What the validation accepts, told as a relation between data and values: no check looks
at the path it reports.  From it follow which data is accepted once it is repaired, and
that the repair loses no plan.
-/

namespace SlimxAgent

variable {α β : Type}

/-- The check accepts what the relation relates, wherever the value stands. -/
def Reads (check : List String → Json → Checked α) (reads : Json → α → Prop) : Prop :=
  ∀ path json value, check path json = .ok value ↔ reads json value

/-- A field that may be absent. -/
def Defaulted (default : α) (reads : Json → α → Prop) (json : Option Json) (value : α) : Prop :=
  (json = none ∧ value = default) ∨ ∃ given, json = some given ∧ reads given value

/-- A field that may be null. -/
def Nullable (reads : Json → α → Prop) (json : Json) (value : Option α) : Prop :=
  (json = .null ∧ value = none) ∨ json ≠ .null ∧ ∃ held, value = some held ∧ reads json held

/-- A list, item by item. -/
def ListOf (reads : Json → α → Prop) (json : Json) (values : List α) : Prop :=
  ∃ items, json = .arr items ∧ List.Forall₂ reads items values

/-- An object, value by value. -/
def DictOf (reads : Json → α → Prop) (json : Json) (values : List (String × α)) : Prop :=
  ∃ fields, json = .obj fields ∧
    List.Forall₂ (fun field value => field.1 = value.1 ∧ reads field.2 value.2) fields values

section Checks

theorem map_eq_ok {ε : Type} {result : Except ε α} {f : α → β} {value : β} :
    result.map f = .ok value ↔ ∃ given, result = .ok given ∧ f given = value := by
  cases result with
  | ok given => simp [Except.map]
  | error error => simp [Except.map]

theorem both_eq_ok {first : Checked α} {second : Checked β} {value : α} {other : β} :
    first.both second = .ok (value, other) ↔ first = .ok value ∧ second = .ok other := by
  cases first with
  | ok given => cases second <;> simp [Checked.both]
  | error problems => simp [Checked.both]

variable {check : List String → Json → Checked α} {reads : Json → α → Prop} {default : α}

theorem asString_reads : Reads asString fun json text => json = .str text := by
  intro path json text
  cases json <;> simp [asString]

theorem asBool_reads (laxBool : Json → Option Bool) :
    Reads (asBool laxBool) fun json value => laxBool json = some value := by
  intro path json value
  simp only [asBool]
  cases laxBool json <;> simp

theorem asDict_reads : Reads asDict fun json fields => json = .obj fields := by
  intro path json fields
  cases json <;> simp [asDict]

theorem optional_reads (each : Reads check reads) : Reads (optional check) (Nullable reads) := by
  intro path json value
  by_cases null : json = .null
  · subst null
    simp [optional, Nullable, eq_comm]
  · have checked : optional check path json = (check path json).map some := by
      cases json <;> first | rfl | exact absurd rfl null
    rw [checked, map_eq_ok, Nullable]
    simp only [null, false_and, false_or, not_false_eq_true, true_and, ne_eq]
    constructor
    · rintro ⟨held, here, rfl⟩
      exact ⟨held, rfl, (each path json held).mp here⟩
    · rintro ⟨held, rfl, here⟩
      exact ⟨held, (each path json held).mpr here, rfl⟩

theorem eachItem_reads {check : Nat → Json → Checked α}
    (each : ∀ index json value, check index json = .ok value ↔ reads json value) (index : Nat)
    (items : List Json) (values : List α) :
    eachItem check index items = .ok values ↔ List.Forall₂ reads items values := by
  induction items generalizing index values with
  | nil => cases values <;> simp [eachItem]
  | cons item items ih =>
      rw [eachItem, map_eq_ok]
      constructor
      · rintro ⟨⟨value, rest⟩, both, rfl⟩
        rw [both_eq_ok] at both
        exact .cons ((each index item value).mp both.1) ((ih _ rest).mp both.2)
      · intro related
        cases related with
        | cons here rest =>
            exact ⟨(_, _), both_eq_ok.mpr ⟨(each ..).mpr here, (ih ..).mpr rest⟩, rfl⟩

theorem asList_reads (each : Reads check reads) : Reads (asList check) (ListOf reads) := by
  intro path json values
  cases json with
  | arr items =>
      rw [asList, eachItem_reads fun index => each (path ++ [toString index])]
      simp [ListOf]
  | _ => simp [asList, ListOf]

theorem eachField_reads {check : String → Json → Checked α}
    (each : ∀ key json value, check key json = .ok value ↔ reads json value) (fields : Dict)
    (values : List (String × α)) :
    eachField check fields = .ok values ↔
      List.Forall₂ (fun field value => field.1 = value.1 ∧ reads field.2 value.2) fields
        values := by
  induction fields generalizing values with
  | nil => cases values <;> simp [eachField]
  | cons field fields ih =>
      rcases field with ⟨key, json⟩
      rw [eachField, map_eq_ok]
      constructor
      · rintro ⟨⟨value, rest⟩, both, rfl⟩
        rw [both_eq_ok] at both
        exact .cons ⟨rfl, (each key json value).mp both.1⟩ ((ih rest).mp both.2)
      · intro related
        cases related with
        | @cons _ held _ _ here rest =>
            rcases held with ⟨other, value⟩
            rcases here with ⟨rfl, here⟩
            exact ⟨(_, _), both_eq_ok.mpr ⟨(each ..).mpr here, (ih ..).mpr rest⟩, rfl⟩

theorem asReferences_reads :
    Reads asReferences (DictOf (ListOf fun json text => json = .str text)) := by
  intro path json values
  cases json with
  | obj fields =>
      rw [asReferences, eachField_reads fun key => asList_reads asString_reads (path ++ [key])]
      simp [DictOf]
  | _ => simp [asReferences, DictOf]

theorem required_eq_ok (each : Reads check reads) {path : List String} {fields : Dict}
    {key : String} {value : α} :
    required check path fields key = .ok value ↔
      ∃ json, fields.get? key = some json ∧ reads json value := by
  rw [required]
  cases fields.get? key with
  | none => simp
  | some json => simp [each (path ++ [key]) json value]

theorem defaulted_eq_ok (each : Reads check reads) {path : List String} {fields : Dict}
    {key : String} {value : α} :
    defaulted default check path fields key = .ok value ↔
      Defaulted default reads (fields.get? key) value := by
  rw [defaulted, Defaulted]
  cases fields.get? key with
  | none => simp [eq_comm]
  | some json => simp [each (path ++ [key]) json value]

theorem typeInAllowlist_reads :
    Reads typeInAllowlist fun json type => json = .str type.val := by
  intro path json type
  rw [typeInAllowlist]
  cases json with
  | str text =>
      simp only [asString]
      split
      · simp [Subtype.ext_iff]
      · rename_i refused
        constructor
        · exact nofun
        · intro same
          cases same
          exact absurd type.property refused
  | _ => simp [asString]

end Checks

/-! ## Steps and plans -/

/-- The fields of a step say what the entry says. -/
structure PlanStepFields.ReadFrom (laxBool : Json → Option Bool) (entry : Dict)
    (fields : PlanStepFields) : Prop where
  title : entry.get? "title" = some (.str fields.title)
  type : entry.get? "type" = some (.str fields.type.val)
  instruction :
    Defaulted "" (fun json text => json = .str text) (entry.get? "instruction") fields.instruction
  expectedOutput : Defaulted "" (fun json text => json = .str text) (entry.get? "expected_output")
    fields.expectedOutput
  requiresApproval : Defaulted false (fun json value => laxBool json = some value)
    (entry.get? "requires_approval") fields.requiresApproval
  inputRefs : Defaulted none (Nullable (DictOf (ListOf fun json text => json = .str text)))
    (entry.get? "input_refs") fields.inputRefs
  params : Defaulted none (Nullable fun json held => json = .obj held) (entry.get? "params")
    fields.params

/-- The step says what the object says. -/
def AgentPlanStep.ReadFrom (laxBool : Json → Option Bool) (json : Json) (step : AgentPlanStep) :
    Prop :=
  ∃ entry, json = .obj entry ∧ step.toPlanStepFields.ReadFrom laxBool entry

variable {laxBool : Json → Option Bool}

theorem fields_validate_eq_ok {path : List String} {entry : Dict} {fields : PlanStepFields} :
    PlanStepFields.validate laxBool path entry = .ok fields ↔ fields.ReadFrom laxBool entry := by
  rw [PlanStepFields.validate, map_eq_ok]
  constructor
  · rintro ⟨⟨title, type, instruction, expectedOutput, requiresApproval, inputRefs, params⟩, all,
      rfl⟩
    simp only [both_eq_ok] at all
    rcases all with ⟨title, type, instruction, expectedOutput, requiresApproval, inputRefs, params⟩
    rw [required_eq_ok asString_reads] at title
    rw [required_eq_ok typeInAllowlist_reads] at type
    rcases title with ⟨_, title, rfl⟩
    rcases type with ⟨_, type, rfl⟩
    exact ⟨title, type, (defaulted_eq_ok asString_reads).mp instruction,
      (defaulted_eq_ok asString_reads).mp expectedOutput,
      (defaulted_eq_ok (asBool_reads laxBool)).mp requiresApproval,
      (defaulted_eq_ok (optional_reads asReferences_reads)).mp inputRefs,
      (defaulted_eq_ok (optional_reads asDict_reads)).mp params⟩
  · intro read
    refine ⟨⟨fields.title, fields.type, fields.instruction, fields.expectedOutput,
      fields.requiresApproval, fields.inputRefs, fields.params⟩, ?_, rfl⟩
    simp only [both_eq_ok]
    exact ⟨(required_eq_ok asString_reads).mpr ⟨_, read.title, rfl⟩,
      (required_eq_ok typeInAllowlist_reads).mpr ⟨_, read.type, rfl⟩,
      (defaulted_eq_ok asString_reads).mpr read.instruction,
      (defaulted_eq_ok asString_reads).mpr read.expectedOutput,
      (defaulted_eq_ok (asBool_reads laxBool)).mpr read.requiresApproval,
      (defaulted_eq_ok (optional_reads asReferences_reads)).mpr read.inputRefs,
      (defaulted_eq_ok (optional_reads asDict_reads)).mpr read.params⟩

theorem modelStepsNeedAnInstruction_eq_ok {path : List String} {fields : PlanStepFields}
    {step : AgentPlanStep} :
    modelStepsNeedAnInstruction path fields = .ok step ↔ step.toPlanStepFields = fields := by
  rw [modelStepsNeedAnInstruction]
  split
  · constructor
    · intro same
      cases same
      rfl
    · rintro rfl
      rfl
  · rename_i refused
    constructor
    · exact nofun
    · rintro rfl
      exact absurd step.instructed refused

theorem step_reads : Reads (AgentPlanStep.validate laxBool) (AgentPlanStep.ReadFrom laxBool) := by
  intro path json step
  cases json with
  | obj entry =>
      simp only [AgentPlanStep.validate, AgentPlanStep.ReadFrom, Json.obj.injEq, exists_eq_left']
      cases checked : PlanStepFields.validate laxBool path entry with
      | error problems =>
          constructor
          · exact nofun
          · intro read
            rw [fields_validate_eq_ok.mpr read] at checked
            cases checked
      | ok fields =>
          dsimp only
          rw [modelStepsNeedAnInstruction_eq_ok, ← @fields_validate_eq_ok laxBool path, checked,
            Except.ok.injEq, eq_comm]
  | _ => simp [AgentPlanStep.validate, AgentPlanStep.ReadFrom]

theorem stepsBounded_reads : Reads (stepsBounded laxBool) fun json steps =>
    ListOf (AgentPlanStep.ReadFrom laxBool) json steps.val := by
  intro path json steps
  change stepsBounded laxBool path json = .ok steps ↔
    ListOf (AgentPlanStep.ReadFrom laxBool) json steps.val
  rw [← asList_reads step_reads path json steps.val, stepsBounded]
  cases asList (AgentPlanStep.validate laxBool) path json with
  | error problems => simp
  | ok values =>
      rcases steps with ⟨steps, planned, bounded⟩
      dsimp only
      split
      · rename_i none
        simp only [reduceCtorEq, Except.ok.injEq, false_iff]
        rintro rfl
        exact planned none
      · split
        · simp
        · rename_i tooMany
          simp only [reduceCtorEq, Except.ok.injEq, false_iff]
          rintro rfl
          exact tooMany bounded

/-- The plan says what the data says. -/
structure AgentPlan.ReadFrom (laxBool : Json → Option Bool) (data : Dict) (plan : AgentPlan) :
    Prop where
  assumptions : Defaulted [] (ListOf fun json text => json = .str text) (data.get? "assumptions")
    plan.assumptions
  steps : ∃ items, data.get? "steps" = some (.arr items) ∧
    List.Forall₂ (AgentPlanStep.ReadFrom laxBool) items plan.steps.val

theorem validatePlan_eq_ok {json : Json} {plan : AgentPlan} :
    validatePlan laxBool json = .ok plan ↔
      ∃ data, json = .obj data ∧ plan.ReadFrom laxBool data := by
  cases json with
  | obj data =>
      have accepts : validatePlan laxBool (.obj data) = .ok plan ↔
          defaulted [] (asList asString) [] data "assumptions" = .ok plan.assumptions ∧
            required (stepsBounded laxBool) [] data "steps" = .ok plan.steps := by
        rw [validatePlan]
        cases assumed : defaulted [] (asList asString) [] data "assumptions" with
        | error problems => simp [Checked.both, Except.map, Except.mapError]
        | ok assumptions =>
            cases planned : required (stepsBounded laxBool) [] data "steps" with
            | error problems => simp [Checked.both, Except.map, Except.mapError]
            | ok steps =>
                rcases plan with ⟨_, _⟩
                simp [Checked.both, Except.map, Except.mapError]
      rw [accepts, defaulted_eq_ok (asList_reads asString_reads), required_eq_ok stepsBounded_reads]
      constructor
      · rintro ⟨assumptions, _, given, items, rfl, steps⟩
        exact ⟨data, rfl, assumptions, items, given, steps⟩
      · rintro ⟨_, same, assumptions, items, given, steps⟩
        cases same
        exact ⟨assumptions, _, given, items, rfl, steps⟩
  | _ => simp [validatePlan]

/-! ## What is readable -/

section Readable

variable {reads : Json → α → Prop} {default : α}

theorem exists_forall₂ {relates : α → β → Prop} {items : List α} :
    (∃ values, List.Forall₂ relates items values) ↔
      ∀ item ∈ items, ∃ value, relates item value := by
  constructor
  · rintro ⟨values, related⟩ item member
    induction related with
    | nil => cases member
    | cons here _ ih =>
        cases member with
        | head => exact ⟨_, here⟩
        | tail _ member => exact ih member
  · intro each
    induction items with
    | nil => exact ⟨[], .nil⟩
    | cons item items ih =>
        rcases each item (.head _) with ⟨value, here⟩
        rcases ih fun other member => each other (.tail _ member) with ⟨values, rest⟩
        exact ⟨value :: values, .cons here rest⟩

theorem exists_defaulted {json : Option Json} :
    (∃ value, Defaulted default reads json value) ↔
      ∀ given, json = some given → ∃ value, reads given value := by
  cases json with
  | none => simp [Defaulted]
  | some given => simp [Defaulted]

theorem exists_nullable {json : Json} :
    (∃ value, Nullable reads json value) ↔ json = .null ∨ ∃ value, reads json value := by
  by_cases null : json = .null
  · simp [Nullable, null]
  · simp [Nullable, null]

theorem exists_listOf {json : Json} :
    (∃ values, ListOf reads json values) ↔
      ∃ items, json = .arr items ∧ ∀ item ∈ items, ∃ value, reads item value := by
  constructor
  · rintro ⟨values, items, rfl, related⟩
    exact ⟨items, rfl, exists_forall₂.mp ⟨values, related⟩⟩
  · rintro ⟨items, rfl, each⟩
    rcases exists_forall₂.mpr each with ⟨values, related⟩
    exact ⟨values, items, rfl, related⟩

theorem exists_dictOf {json : Json} :
    (∃ values, DictOf reads json values) ↔
      ∃ fields : Dict, json = .obj fields ∧ ∀ field ∈ fields, ∃ value, reads field.2 value := by
  constructor
  · rintro ⟨values, fields, rfl, related⟩
    refine ⟨fields, rfl, fun field member => ?_⟩
    rcases exists_forall₂.mp ⟨values, related⟩ field member with ⟨value, _, here⟩
    exact ⟨value.2, here⟩
  · rintro ⟨fields, rfl, each⟩
    have keyed : ∀ field ∈ fields, ∃ value : String × α,
        field.1 = value.1 ∧ reads field.2 value.2 := by
      intro field member
      rcases each field member with ⟨value, here⟩
      exact ⟨(field.1, value), rfl, here⟩
    rcases exists_forall₂.mpr keyed with ⟨values, related⟩
    exact ⟨values, fields, rfl, related⟩

end Readable

/-- What an entry has to say to be accepted once it is repaired. -/
structure Acceptable (laxBool : Json → Option Bool) (raw : Dict) : Prop where
  title : (raw.get "title").truthy = false ∨ ∃ text, raw.get "title" = .str text
  instruction : (∃ text, raw.get "instruction" = .str text ∧ ¬ Blank text) ∨
    (strippedText (raw.get "instruction") = "" ∧
      ((∃ key ∈ instructionAliases, strippedText (raw.get key) ≠ "") ∨
        (raw.get? "instruction" = none ∨ ∃ text, raw.get? "instruction" = some (.str text)) ∧
          ∀ type ∈ promptStepTypes, raw.get "type" ≠ .str type))
  expectedOutput : raw.get? "expected_output" = none ∨
    ∃ text, raw.get? "expected_output" = some (.str text)
  requiresApproval : ∀ value, raw.get? "requires_approval" = some value →
    ∃ approval, laxBool value = some approval
  params : ∀ value, raw.get? "params" = some value →
    value = .null ∨ ∃ fields, value = .obj fields
  inputRefs : ∀ value, raw.get? "input_refs" = some value →
    value = .null ∨ ∃ fields : Dict, value = .obj fields ∧
      ∀ field ∈ fields, ∃ items, field.2 = .arr items ∧ ∀ item ∈ items, ∃ text, item = .str text

theorem firstText_eq_none {raw : Dict} :
    firstText (aliased raw) = none ↔
      ∀ key ∈ instructionAliases, strippedText (raw.get key) = "" := by
  simp [firstText, aliased]

section Entries

variable {position : Nat} {raw : Dict}

theorem get_of_get? {key : String} {value : Json} (held : raw.get? key = some value) :
    raw.get key = value := by
  rw [Dict.get, held, Option.getD_some]

theorem get?_of_get {key : String} {value : Json} (held : raw.get key = value)
    (given : value ≠ .null) : raw.get? key = some value := by
  rw [Dict.get] at held
  cases found : raw.get? key with
  | none =>
      rw [found] at held
      exact absurd held.symm given
  | some other =>
      rw [found] at held
      exact congrArg some held

/-- What the repaired entry says as its instruction. -/
theorem exists_instruction {type : String} (typed : raw.get "type" = .str type) :
    (∃ text, Defaulted "" (fun json text => json = .str text)
        ((repairStep position raw).get? "instruction") text ∧
        (type ∈ promptStepTypes → ¬ Blank text)) ↔
      (∃ text, raw.get "instruction" = .str text ∧ ¬ Blank text) ∨
        (strippedText (raw.get "instruction") = "" ∧
          ((∃ key ∈ instructionAliases, strippedText (raw.get key) ≠ "") ∨
            (raw.get? "instruction" = none ∨ ∃ text, raw.get? "instruction" = some (.str text)) ∧
              ∀ type ∈ promptStepTypes, raw.get "type" ≠ .str type)) := by
  have prompts : (∀ type ∈ promptStepTypes, raw.get "type" ≠ .str type) ↔
      type ∉ promptStepTypes := by
    rw [typed]
    constructor
    · exact fun none member => none type member rfl
    · rintro outside _ member same
      cases same
      exact outside member
  rw [prompts]
  rcases repairStep_adopts position raw with ⟨stays, same⟩ | ⟨blank, text, first, same⟩
  · rw [same]
    have noAlias : strippedText (raw.get "instruction") = "" →
        ¬ ∃ key ∈ instructionAliases, strippedText (raw.get key) ≠ "" := by
      rintro blank ⟨key, member, shown⟩
      exact shown (firstText_eq_none.mp (stays.resolve_left (not_not.mpr blank)) key member)
    constructor
    · rintro ⟨text, (⟨absent, rfl⟩ | ⟨_, given, rfl⟩), instructed⟩
      · have blank : strippedText (raw.get "instruction") = "" := by
          rw [Dict.get, absent]
          decide
        exact .inr ⟨blank, .inr ⟨.inl absent, fun member => instructed member (by decide)⟩⟩
      · by_cases blank : Blank text
        · have stripped : strippedText (raw.get "instruction") = "" := by
            rw [get_of_get? given, strippedText_str_eq_empty]
            exact blank
          exact .inr ⟨stripped, .inr ⟨.inr ⟨text, given⟩, fun member => instructed member blank⟩⟩
        · exact .inl ⟨text, get_of_get? given, blank⟩
    · rintro (⟨text, held, shown⟩ | ⟨blank, adopted | ⟨absent | ⟨text, given⟩, outside⟩⟩)
      · exact ⟨text, .inr ⟨_, get?_of_get held nofun, rfl⟩, fun _ => shown⟩
      · exact absurd adopted (noAlias blank)
      · exact ⟨"", .inl ⟨absent, rfl⟩, fun member => absurd member outside⟩
      · exact ⟨text, .inr ⟨_, given, rfl⟩, fun member => absurd member outside⟩
  · rw [same]
    constructor
    · intro _
      refine .inr ⟨blank, .inl ?_⟩
      by_contra none
      have unaliased : firstText (aliased raw) = Option.none := by
        refine firstText_eq_none.mpr fun key member => ?_
        by_contra shown
        exact none ⟨key, member, shown⟩
      rw [unaliased] at first
      cases first
    · intro _
      exact ⟨text, .inr ⟨_, rfl, rfl⟩, fun _ => firstText_notBlank first⟩

/-- What the repaired entry says as its title. -/
theorem exists_title :
    (∃ text, (repairStep position raw).get? "title" = some (.str text)) ↔
      (raw.get "title").truthy = false ∨ ∃ text, raw.get "title" = .str text := by
  rcases repairStep_title position raw with ⟨shown, same⟩ | ⟨blank, text, _, filled⟩
  · rw [same]
    constructor
    · rintro ⟨text, given⟩
      exact .inr ⟨text, get_of_get? given⟩
    · rintro (falsy | ⟨text, held⟩)
      · exact absurd (strippedText_of_falsy falsy) shown
      · exact ⟨text, get?_of_get held nofun⟩
  · rw [filled]
    constructor
    · intro _
      rcases strippedText_eq_empty.mp blank with falsy | ⟨text, held, _⟩
      · exact .inl falsy
      · exact .inr ⟨text, held⟩
    · intro _
      exact ⟨text, rfl⟩

/-- A repaired entry is a step exactly if the entry was acceptable. -/
theorem exists_step {type : String} (allowed : type ∈ allowedStepTypes)
    (typed : raw.get "type" = .str type) :
    (∃ step : AgentPlanStep, step.ReadFrom laxBool (.obj (repairStep position raw))) ↔
      Acceptable laxBool raw := by
  have others {key : String} (title : key ≠ "title") (instruction : key ≠ "instruction") :
      (repairStep position raw).get? key = raw.get? key :=
    repairStep_other position raw title instruction
  have typed' := get?_of_get typed nofun
  constructor
  · rintro ⟨step, entry, same, read⟩
    rw [← Json.obj.inj same] at read
    have sameType : type = step.type.val := by
      have given := read.type
      rw [others (by decide) (by decide), typed'] at given
      exact Json.str.inj (Option.some.inj given)
    constructor
    case title => exact exists_title.mp ⟨_, read.title⟩
    case instruction =>
      refine (exists_instruction typed).mp ⟨_, read.instruction, ?_⟩
      rw [sameType]
      exact step.instructed
    case expectedOutput =>
      have given := read.expectedOutput
      rw [others (by decide) (by decide)] at given
      rcases given with ⟨absent, _⟩ | ⟨_, given, rfl⟩
      · exact .inl absent
      · exact .inr ⟨_, given⟩
    case requiresApproval =>
      have given := read.requiresApproval
      rw [others (by decide) (by decide)] at given
      exact exists_defaulted.mp ⟨_, given⟩
    case params =>
      have given := exists_defaulted.mp ⟨_, read.params⟩
      rw [others (by decide) (by decide)] at given
      simpa only [exists_nullable] using given
    case inputRefs =>
      have given := exists_defaulted.mp ⟨_, read.inputRefs⟩
      rw [others (by decide) (by decide)] at given
      simpa only [exists_nullable, exists_dictOf, exists_listOf] using given
  · intro acceptable
    rcases exists_title.mpr acceptable.title with ⟨title, titled⟩
    rcases (exists_instruction typed).mpr acceptable.instruction with ⟨text, adopts, instructed⟩
    have output : ∃ value, Defaulted "" (fun json text => json = .str text)
        ((repairStep position raw).get? "expected_output") value := by
      rw [others (by decide) (by decide)]
      rcases acceptable.expectedOutput with absent | ⟨text, given⟩
      · exact ⟨"", .inl ⟨absent, rfl⟩⟩
      · exact ⟨text, .inr ⟨_, given, rfl⟩⟩
    have approval : ∃ value, Defaulted false (fun json value => laxBool json = some value)
        ((repairStep position raw).get? "requires_approval") value := by
      rw [others (by decide) (by decide)]
      exact exists_defaulted.mpr acceptable.requiresApproval
    have params : ∃ value, Defaulted none (Nullable fun json held => json = .obj held)
        ((repairStep position raw).get? "params") value := by
      rw [others (by decide) (by decide)]
      simpa only [exists_defaulted, exists_nullable] using acceptable.params
    have refs : ∃ value, Defaulted none
        (Nullable (DictOf (ListOf fun json text => json = .str text)))
        ((repairStep position raw).get? "input_refs") value := by
      rw [others (by decide) (by decide)]
      simpa only [exists_defaulted, exists_nullable, exists_dictOf, exists_listOf] using
        acceptable.inputRefs
    rcases output with ⟨output, outputs⟩
    rcases approval with ⟨approval, approves⟩
    rcases params with ⟨params, parameters⟩
    rcases refs with ⟨refs, refers⟩
    refine ⟨⟨⟨title, ⟨type, allowed⟩, text, output, approval, refs, params⟩, instructed⟩, _, rfl,
      ?_⟩
    constructor
    case title => exact titled
    case type =>
      rw [others (by decide) (by decide)]
      exact typed'
    case instruction => exact adopts
    case expectedOutput => exact outputs
    case requiresApproval => exact approves
    case inputRefs => exact refers
    case params => exact parameters

end Entries

/-! ## Repaired plans -/

/-- The step carries what the entry supplies. -/
structure AgentPlanStep.Carries (laxBool : Json → Option Bool) (raw : Dict) (step : AgentPlanStep) :
    Prop where
  type : raw.get? "type" = some (.str step.type.val)
  allowed : step.type.val ∈ allowedStepTypes
  title : ¬ Blank step.title
  instruction : step.type.val ∈ promptStepTypes → ¬ Blank step.instruction
  params : Defaulted none (Nullable fun json held => json = .obj held)
    (raw.get? "params") step.params
  inputRefs : Defaulted none (Nullable (DictOf (ListOf fun json text => json = .str text)))
    (raw.get? "input_refs") step.inputRefs

theorem carries_of_readFrom {position : Nat} {raw : Dict} {step : AgentPlanStep}
    (reads : step.ReadFrom laxBool (.obj (repairStep position raw))) :
    step.Carries laxBool raw := by
  rcases reads with ⟨entry, same, read⟩
  rw [← Json.obj.inj same] at read
  have type := read.type
  have params := read.params
  have refs := read.inputRefs
  rw [repairStep_other _ _ (by decide) (by decide)] at type params refs
  refine ⟨type, step.type.property, ?_, step.instructed, params, refs⟩
  rcases repairStep_title position raw with ⟨shown, stays⟩ | ⟨_, text, shown, filled⟩
  · have given := read.title
    rw [stays] at given
    rw [get_of_get? given] at shown
    exact fun blank => shown (strippedText_str_eq_empty.mpr blank)
  · have given := read.title
    rw [filled] at given
    rw [← Json.str.inj (Option.some.inj given)]
    exact shown

theorem forall₂_mapIdx {γ : Type} {relates : β → γ → Prop} {carries : α → γ → Prop}
    {items : List α} {values : List γ} (f : Nat → α → β)
    (each : ∀ index item value, relates (f index item) value → carries item value)
    (related : List.Forall₂ relates (items.mapIdx f) values) :
    List.Forall₂ carries items values := by
  induction items generalizing f values with
  | nil =>
      cases related
      exact .nil
  | cons item items ih =>
      rw [List.mapIdx_cons] at related
      cases related with
      | cons here rest =>
          exact .cons (each 0 item _ here)
            (ih (fun index => f (index + 1)) (fun index => each (index + 1)) rest)

theorem exists_stringAssumptions (value : Json) :
    ∃ texts, List.Forall₂ (fun (json : Json) (text : String) => json = .str text)
      (stringAssumptions value) texts := by
  refine exists_forall₂.mpr fun item member => ?_
  cases value with
  | arr items =>
      have shown := (List.mem_filter.mp member).2
      cases item <;> first | exact ⟨_, rfl⟩ | cases shown
  | _ => cases member

/-- Reading a repaired plan is reading its repaired entries. -/
theorem readFrom_repaired {data : Dict} (entries : List Dict) (value : Json) {plan : AgentPlan} :
    plan.ReadFrom laxBool ((data.set "assumptions" (.arr (stringAssumptions value))).set "steps"
        (.arr (entries.map .obj))) ↔
      List.Forall₂ (fun (json : Json) (text : String) => json = .str text) (stringAssumptions value)
          plan.assumptions ∧
        List.Forall₂ (fun entry step => AgentPlanStep.ReadFrom laxBool (.obj entry) step) entries
          plan.steps.val := by
  have assumed : ((data.set "assumptions" (.arr (stringAssumptions value))).set "steps"
      (.arr (entries.map .obj))).get? "assumptions" = some (.arr (stringAssumptions value)) := by
    rw [Dict.get?_set_of_ne _ (by decide), Dict.get?_set_self]
  constructor
  · rintro ⟨assumptions, items, given, steps⟩
    rw [assumed] at assumptions
    rw [Dict.get?_set_self] at given
    rw [← Json.arr.inj (Option.some.inj given)] at steps
    refine ⟨?_, List.forall₂_map_left_iff.mp steps⟩
    rcases assumptions with ⟨absent, _⟩ | ⟨held, same, listed, isList, texts⟩
    · cases absent
    · rw [← Option.some.inj same] at isList
      rw [Json.arr.inj isList]
      exact texts
  · rintro ⟨texts, steps⟩
    constructor
    · rw [assumed]
      exact .inr ⟨_, rfl, _, rfl, texts⟩
    · exact ⟨_, Dict.get?_set_self .., List.forall₂_map_left_iff.mpr steps⟩

/-- A repaired list of steps is accepted if it is short enough and every entry is. -/
theorem accepted_iff {data : Dict} {steps : List Json} (listed : data.get "steps" = .arr steps) :
    (∃ plan, validatePlan laxBool (repairPlanData (.obj data)) = .ok plan) ↔
      1 ≤ (keptEntries steps).length ∧ (keptEntries steps).length ≤ maxSteps ∧
        ∀ raw ∈ keptEntries steps, Acceptable laxBool raw := by
  have count : (repairedEntries steps).length = (keptEntries steps).length := by
    rw [repairedEntries, List.length_mapIdx]
  have each : (∀ entry ∈ repairedEntries steps, ∃ step : AgentPlanStep,
      step.ReadFrom laxBool (.obj entry)) ↔ ∀ raw ∈ keptEntries steps, Acceptable laxBool raw := by
    constructor
    · intro readable raw member
      rcases kept_of_mem member with ⟨type, allowed, typed⟩
      rcases List.mem_iff_getElem?.mp member with ⟨index, kept⟩
      exact (exists_step allowed typed).mp
        (readable _ (List.mem_of_getElem? (getElem?_repairedEntries kept)))
    · intro acceptable entry member
      rcases List.mem_mapIdx.mp member with ⟨index, bound, rfl⟩
      have held := List.getElem_mem bound
      rcases kept_of_mem held with ⟨type, allowed, typed⟩
      exact (exists_step allowed typed).mpr (acceptable _ held)
  rw [repairPlanData_list listed, ← each, ← exists_forall₂, ← count]
  constructor
  · rintro ⟨plan, valid⟩
    rcases validatePlan_eq_ok.mp valid with ⟨repaired, same, read⟩
    rw [← Json.obj.inj same, readFrom_repaired] at read
    have length := read.2.length_eq
    have planned := List.length_pos_iff.mpr plan.steps.property.1
    have bounded := plan.steps.property.2
    exact ⟨by omega, by omega, _, read.2⟩
  · rintro ⟨planned, bounded, values, related⟩
    rcases exists_stringAssumptions (data.get "assumptions") with ⟨texts, assumed⟩
    have length := related.length_eq
    have nonempty : values ≠ [] := by
      rw [← List.length_pos_iff]
      omega
    refine ⟨⟨texts, values, nonempty, by omega⟩, validatePlan_eq_ok.mpr ⟨_, rfl, ?_⟩⟩
    rw [readFrom_repaired]
    exact ⟨assumed, related⟩

/-- Which data is accepted once it is repaired, and what the plan then carries. -/
theorem repaired_plan_accepted (laxBool : Json → Option Bool) (json : Json) :
    ((∃ plan, validatePlan laxBool (repairPlanData json) = .ok plan) ↔
      ∃ (data : Dict) (steps : List Json), json = .obj data ∧ data.get "steps" = .arr steps ∧
        1 ≤ (keptEntries steps).length ∧ (keptEntries steps).length ≤ maxSteps ∧
        ∀ raw ∈ keptEntries steps, Acceptable laxBool raw) ∧
    ∀ (plan : AgentPlan) (data : Dict) (steps : List Json), json = .obj data →
      data.get "steps" = .arr steps → validatePlan laxBool (repairPlanData json) = .ok plan →
      List.Forall₂ (fun raw step => AgentPlanStep.Carries laxBool raw step) (keptEntries steps)
        plan.steps.val := by
  constructor
  · constructor
    · rintro ⟨plan, valid⟩
      cases json with
      | obj data =>
          by_cases listed : ∃ steps, Dict.get data "steps" = .arr steps
          · rcases listed with ⟨steps, listed⟩
            exact ⟨data, steps, rfl, listed, (accepted_iff listed).mp ⟨plan, valid⟩⟩
          · rw [repairPlanData_unlisted fun steps here => listed ⟨steps, here⟩] at valid
            rcases validatePlan_eq_ok.mp valid with ⟨repaired, same, read⟩
            have none : ([] : List Dict).map Json.obj = [] := rfl
            rw [← Json.obj.inj same, ← none, readFrom_repaired] at read
            have empty := read.2.length_eq
            exact absurd (List.length_eq_zero_iff.mp empty.symm) plan.steps.property.1
      | _ => cases valid
    · rintro ⟨data, steps, rfl, listed, acceptable⟩
      exact (accepted_iff listed).mpr acceptable
  · intro plan data steps isObject listed valid
    rw [isObject, repairPlanData_list listed] at valid
    rcases validatePlan_eq_ok.mp valid with ⟨repaired, same, read⟩
    rw [← Json.obj.inj same, readFrom_repaired, repairedEntries] at read
    refine forall₂_mapIdx _ ?_ read.2
    exact fun index raw step reads => carries_of_readFrom reads

/-! ## Accepted plans -/

/-- The steps are the same, but for a title or an instruction that was blank. -/
structure AgentPlanStep.Widens (step wider : AgentPlanStep) : Prop where
  type : wider.type = step.type
  expectedOutput : wider.expectedOutput = step.expectedOutput
  requiresApproval : wider.requiresApproval = step.requiresApproval
  params : wider.params = step.params
  inputRefs : wider.inputRefs = step.inputRefs
  title : ¬ Blank step.title → wider.title = step.title
  instruction : ¬ Blank step.instruction → wider.instruction = step.instruction

section Widening

variable {raw : Dict} {step : AgentPlanStep}

/-- A valid entry has its title repaired only if it is blank. -/
theorem widens_title (position : Nat) (read : step.ReadFrom laxBool (.obj raw)) :
    ∃ title, (repairStep position raw).get? "title" = some (.str title) ∧
      (¬ Blank step.title → title = step.title) := by
  rcases read with ⟨entry, same, read⟩
  rw [← Json.obj.inj same] at read
  rcases repairStep_title position raw with ⟨_, stays⟩ | ⟨blank, text, _, filled⟩
  · exact ⟨step.title, stays.trans read.title, fun _ => rfl⟩
  · rw [get_of_get? read.title, strippedText_str_eq_empty] at blank
    exact ⟨text, filled, fun shown => absurd blank shown⟩

/-- A valid entry has its instruction repaired only if it is blank. -/
theorem widens_instruction (position : Nat) (read : step.ReadFrom laxBool (.obj raw)) :
    ∃ text, Defaulted "" (fun json text => json = .str text)
        ((repairStep position raw).get? "instruction") text ∧
      (¬ Blank step.instruction → text = step.instruction) ∧
      (step.type.val ∈ promptStepTypes → ¬ Blank text) := by
  rcases read with ⟨entry, same, read⟩
  rw [← Json.obj.inj same] at read
  have given := read.instruction
  rcases repairStep_adopts position raw with ⟨_, stays⟩ | ⟨blank, text, first, adopted⟩
  · rw [← stays] at given
    exact ⟨step.instruction, given, fun _ => rfl, step.instructed⟩
  · have unsaid : Blank step.instruction := by
      rcases given with ⟨_, none⟩ | ⟨_, held, text⟩
      · rw [none]
        decide
      · rw [get_of_get? held, text, strippedText_str_eq_empty] at blank
        exact blank
    refine ⟨text, .inr ⟨_, adopted, rfl⟩, fun shown => absurd unsaid shown, fun _ => ?_⟩
    exact firstText_notBlank first

/-- A valid entry is valid once it is repaired. -/
theorem exists_widens (position : Nat) (read : step.ReadFrom laxBool (.obj raw)) :
    ∃ wider : AgentPlanStep, wider.ReadFrom laxBool (.obj (repairStep position raw)) ∧
      step.Widens wider := by
  rcases widens_title position read with ⟨title, titled, sameTitle⟩
  rcases widens_instruction position read with ⟨text, instructs, sameText, instructed⟩
  rcases read with ⟨entry, same, read⟩
  rw [← Json.obj.inj same] at read
  let fields : PlanStepFields := { step.toPlanStepFields with title := title, instruction := text }
  refine ⟨⟨fields, instructed⟩, ⟨_, rfl, ?_⟩, ⟨rfl, rfl, rfl, rfl, rfl, sameTitle, sameText⟩⟩
  constructor
  case title => exact titled
  case instruction => exact instructs
  all_goals rw [repairStep_other _ _ (by decide) (by decide)]
  case type => exact read.type
  case expectedOutput => exact read.expectedOutput
  case requiresApproval => exact read.requiresApproval
  case inputRefs => exact read.inputRefs
  case params => exact read.params

end Widening

/-- What a valid plan assumes is kept. -/
theorem stringAssumptions_of_read {data : Dict} {texts : List String}
    (assumed : Defaulted [] (ListOf fun json text => json = .str text) (data.get? "assumptions")
      texts) :
    stringAssumptions (data.get "assumptions") = texts.map .str := by
  rcases assumed with ⟨absent, rfl⟩ | ⟨_, given, items, rfl, related⟩
  · rw [Dict.get, absent]
    rfl
  · rw [get_of_get? given, stringAssumptions]
    clear given
    induction related with
    | nil => rfl
    | cons here _ ih =>
        subst here
        rw [List.map_cons, ← ih]
        rfl

/-- The entries of a valid plan are all kept. -/
theorem keptEntries_of_read {items : List Json} {steps : List AgentPlanStep}
    (read : List.Forall₂ (AgentPlanStep.ReadFrom laxBool) items steps) :
    List.Forall₂ (fun raw step => AgentPlanStep.ReadFrom laxBool (.obj raw) step)
      (keptEntries items) steps := by
  induction read with
  | nil => exact .nil
  | @cons item step items steps here _ ih =>
      rcases here with ⟨entry, isObject, read⟩
      have kept : kept? item = some entry :=
        kept?_iff.mpr ⟨isObject, step.type.val, step.type.property, get_of_get? read.type⟩
      rw [keptEntries, List.filterMap_cons_some kept, ← keptEntries]
      exact .cons ⟨entry, rfl, read⟩ ih

theorem exists_mapIdx {γ δ : Type} {relates : α → β → Prop} {becomes : γ → δ → Prop}
    {widens : β → δ → Prop} {items : List α} {values : List β} (f : Nat → α → γ)
    (each : ∀ index item value, relates item value →
      ∃ wider, becomes (f index item) wider ∧ widens value wider)
    (related : List.Forall₂ relates items values) :
    ∃ widers, List.Forall₂ becomes (items.mapIdx f) widers ∧ List.Forall₂ widens values widers := by
  induction related generalizing f with
  | nil => exact ⟨[], .nil, .nil⟩
  | @cons item value _ _ here _ ih =>
      rcases each 0 item value here with ⟨wider, becomes, widens⟩
      rcases ih (fun index => f (index + 1)) fun index => each (index + 1) with
        ⟨widers, become, widen⟩
      rw [List.mapIdx_cons]
      exact ⟨wider :: widers, .cons becomes become, .cons widens widen⟩

/-- A plan that is accepted is accepted once it is repaired, and the repair changes a title or
an instruction only where it was blank. -/
theorem repair_widens {json : Json} {plan : AgentPlan}
    (valid : validatePlan laxBool json = .ok plan) :
    ∃ wider, validatePlan laxBool (repairPlanData json) = .ok wider ∧
      wider.assumptions = plan.assumptions ∧
      List.Forall₂ (fun step wider => AgentPlanStep.Widens step wider) plan.steps.val
        wider.steps.val := by
  rcases validatePlan_eq_ok.mp valid with ⟨data, isObject, read⟩
  rcases read.steps with ⟨items, given, entries⟩
  have repaired : ∃ steps : List AgentPlanStep,
      List.Forall₂ (fun entry step => AgentPlanStep.ReadFrom laxBool (.obj entry) step)
        (repairedEntries items) steps ∧
      List.Forall₂ (fun step wider => AgentPlanStep.Widens step wider) plan.steps.val steps := by
    refine exists_mapIdx _ ?_ (keptEntries_of_read entries)
    exact fun index raw step reads => exists_widens (index + 1) reads
  rcases repaired with ⟨steps, reads, widens⟩
  have length := widens.length_eq
  have planned := List.length_pos_iff.mpr plan.steps.property.1
  have bounded := plan.steps.property.2
  have nonempty : steps ≠ [] := by
    rw [← List.length_pos_iff]
    omega
  let wider : AgentPlan := ⟨plan.assumptions, ⟨steps, nonempty, by omega⟩⟩
  refine ⟨wider, ?_, rfl, widens⟩
  rw [isObject, repairPlanData_list (get_of_get? given), validatePlan_eq_ok]
  refine ⟨_, rfl, ?_⟩
  rw [readFrom_repaired]
  refine ⟨?_, reads⟩
  rw [stringAssumptions_of_read read.assumptions, List.forall₂_map_left_iff]
  exact List.forall₂_same.mpr fun text _ => rfl

/-- Two steps: the first one's blank title is filled from its instruction, the second one is
left as it is. -/
theorem repair_widens_untitled :
    let asks := [("title", .str " "), ("type", .str "model_call"), ("instruction", .str "Go")]
    let searches := [("title", .str "Look"), ("type", .str "web_search"),
      ("instruction", .str "Find it"), ("params", .obj [("query", .str "it")])]
    let asking : AgentPlanStep :=
      ⟨⟨" ", ⟨"model_call", by decide⟩, "Go", "", false, none, none⟩, fun _ => by decide⟩
    let searching : AgentPlanStep :=
      ⟨⟨"Look", ⟨"web_search", by decide⟩, "Find it", "", false, none,
        some [("query", .str "it")]⟩, fun _ => by decide⟩
    let plan : AgentPlan := ⟨[], ⟨[asking, searching], List.cons_ne_nil _ _, by decide⟩⟩
    ∃ wider, validatePlan (fun _ => none)
        (repairPlanData (.obj [("steps", .arr [.obj asks, .obj searches])])) = .ok wider ∧
      wider.assumptions = plan.assumptions ∧
      List.Forall₂ (fun step wider => AgentPlanStep.Widens step wider) plan.steps.val
        wider.steps.val :=
  repair_widens (by rfl)

end SlimxAgent
