import SlimxAgent.Planning

/-!
# Advertised step types

The prompt iterates the stored grants, the permission gate reads them as a list.  The two
agree on everything but a mapping, whose keys the prompt takes for grants.
-/

namespace SlimxAgent

/-- The types the prompt may offer at all. -/
def offerableStepTypes : List String :=
  allowedStepTypes.filter fun stepType => !neverAdvertisedStepTypes.contains stepType

theorem mem_offerable {stepType : String} :
    stepType ∈ offerableStepTypes ↔
      stepType ∈ allowedStepTypes ∧ stepType ∉ neverAdvertisedStepTypes := by
  simp [offerableStepTypes]

/-- The grants cover what the step type needs. -/
def Covers (grants : List String) (stepType : String) : Prop :=
  ∀ grant, requiredGrant stepType = some grant → grant ∈ grants

theorem covers_some {grants : List String} {stepType grant : String}
    (required : requiredGrant stepType = some grant) : Covers grants stepType ↔ grant ∈ grants := by
  simp [Covers, required]

/-- The strings among the items are what the prompt takes for grants. -/
theorem mem_advertised {value : Json} {items : List Json} {types : List String}
    (iterates : iterated value = some items) (advertised : advertisedStepTypes value = some types)
    (stepType : String) :
    stepType ∈ types ↔
      stepType ∈ offerableStepTypes ∧ Covers (items.filterMap Json.asStr?) stepType := by
  simp only [advertisedStepTypes, iterates, Option.map_some, Option.some.injEq] at advertised
  subst advertised
  rw [List.mem_filter, mem_offerable, Covers]
  cases required : requiredGrant stepType with
  | none => simp
  | some grant => simp [and_assoc]

section Iteration

theorem iterated_null : iterated .null = some [] := rfl

theorem iterated_arr (items : List Json) : iterated (.arr items) = some items := by
  cases items <;> rfl

theorem iterated_obj (fields : Dict) :
    iterated (.obj fields) = some (fields.map fun field => .str field.1) := by
  cases fields <;> rfl

theorem iterated_str (text : String) :
    iterated (.str text) = some (text.toList.map fun c => .str (String.singleton c)) := by
  by_cases empty : text = ""
  · subst empty
    rfl
  · simp [iterated, Json.truthy, empty]

end Iteration

/-- No grant is a single character. -/
theorem requiredGrant_ne_singleton (stepType : String) (c : Char) :
    requiredGrant stepType ≠ some (String.singleton c) := by
  have longer : ∀ entry ∈ grantByType, entry.2.toList.length ≠ 1 := by decide
  intro required
  exact longer _ (mem_grantByType required) (by simp)

/-- The prompt offers for the stored grants exactly the types that the gate then permits. -/
def OffersPermitted {ι : Type} (step : StepView ι) (run : RunView ι) (value : Json) : Prop :=
  ∃ types, advertisedStepTypes value = some types ∧
    ∀ stepType, stepType ∈ types ↔
      stepType ∈ allowedStepTypes ∧ stepType ∉ neverAdvertisedStepTypes ∧
        permissionBlockReason { step with type := stepType }
          { run with allowedToolsJson := .json value } = none

variable {ι : Type} {step : StepView ι} {run : RunView ι}

theorem offersPermitted_iff {value : Json} {items : List Json}
    (iterates : iterated value = some items) :
    OffersPermitted step run value ↔
      ∀ stepType ∈ offerableStepTypes, Covers (items.filterMap Json.asStr?) stepType ↔
        Covers (stringMembers (.json value)) stepType := by
  have permits (stepType : String) :
      permissionBlockReason { step with type := stepType }
          { run with allowedToolsJson := .json value } = none ↔
        Covers (stringMembers (.json value)) stepType := permissionBlockReason_eq_none
  simp only [OffersPermitted, permits, ← and_assoc, ← mem_offerable]
  constructor
  · intro ⟨types, advertised, agree⟩ stepType offerable
    rw [← and_congr_right_iff.mp ((mem_advertised iterates advertised stepType).symm.trans
      (agree stepType)) offerable]
  · intro agree
    cases advertised : advertisedStepTypes value with
    | none => simp [advertisedStepTypes, iterates] at advertised
    | some types =>
        refine ⟨types, rfl, fun stepType => ?_⟩
        rw [mem_advertised iterates advertised, and_congr_right_iff]
        exact agree stepType

/-- What a run's grants column can hold: null, a text, an array or an object. -/
def Json.Storable : Json → Prop
  | .null | .str _ | .arr _ | .obj _ => True
  | .bool _ | .int _ | .real _ => False

theorem covers_nil {grants : List String} (stepType : String)
    (none : ∀ grant ∈ grants, requiredGrant stepType ≠ some grant) :
    Covers grants stepType ↔ Covers [] stepType := by
  constructor
  · exact fun covers grant required => absurd required (none grant (covers grant required))
  · intro covers grant required
    cases covers grant required

/-- The keys of a mapping are grants to the prompt and nothing to the gate. -/
theorem covers_keys_iff (fields : Dict) (stepType : String) :
    (Covers (fields.map Prod.fst) stepType ↔ Covers [] stepType) ↔
      ∀ field ∈ fields, requiredGrant stepType ≠ some field.1 := by
  constructor
  · intro same field member required
    have covered : Covers (fields.map Prod.fst) stepType :=
      (covers_some required).mpr (List.mem_map_of_mem member)
    cases same.mp covered field.1 required
  · intro none
    refine covers_nil stepType fun grant member => ?_
    rcases List.mem_map.mp member with ⟨field, held, rfl⟩
    exact none field held

/-- The prompt and the gate agree on the stored grants unless they are a mapping with a grant
among its keys. -/
theorem offers_permitted_unless_mapping (step : StepView ι) (run : RunView ι) {value : Json}
    (storable : value.Storable) :
    OffersPermitted step run value ↔
      ∀ fields, value = .obj fields → ∀ field ∈ fields, ∀ stepType ∈ offerableStepTypes,
        requiredGrant stepType ≠ some field.1 := by
  cases value with
  | null => simp [offersPermitted_iff iterated_null, stringMembers]
  | str text =>
      simp only [offersPermitted_iff (iterated_str text), reduceCtorEq, false_implies, implies_true,
        iff_true]
      intro stepType _
      refine covers_nil stepType fun grant member => ?_
      rcases List.mem_filterMap.mp member with ⟨item, held, isText⟩
      rcases List.mem_map.mp held with ⟨c, _, rfl⟩
      cases isText
      exact requiredGrant_ne_singleton stepType c
  | arr items => simp [offersPermitted_iff (iterated_arr items), stringMembers]
  | obj fields =>
      have keys : (fields.map fun field => Json.str field.1).filterMap Json.asStr? =
          fields.map Prod.fst := by
        rw [List.filterMap_map]
        exact congrFun List.filterMap_eq_map fields
      have none : stringMembers (.json (.obj fields)) = [] := rfl
      simp only [offersPermitted_iff (iterated_obj fields), keys, none, covers_keys_iff,
        Json.obj.injEq, forall_eq']
      exact ⟨fun agree field member stepType offerable => agree stepType offerable field member,
        fun agree stepType offerable field member => agree field member stepType offerable⟩
  | bool _ => cases storable
  | int _ => cases storable
  | real _ => cases storable

/-- A clean list of grants. -/
theorem offers_permitted_list :
    let step : StepView String := ⟨"s1", "model_call", "Draft", .pending, false⟩
    let run : RunView String :=
      ⟨"r1", .running, none, false, .json .null, .null, .null, .json .null⟩
    OffersPermitted step run (.arr [.str "web_search"]) ↔
      ∀ fields, Json.arr [.str "web_search"] = .obj fields → ∀ field ∈ fields,
        ∀ stepType ∈ offerableStepTypes, requiredGrant stepType ≠ some field.1 :=
  offers_permitted_unless_mapping _ _ trivial

/-- A mapping that is stored as grants: the prompt offers what the gate then skips. -/
theorem mapping_offered :
    let step : StepView String := ⟨"s1", "model_call", "Draft", .pending, false⟩
    let run : RunView String :=
      ⟨"r1", .running, none, false, .json .null, .null, .null, .json .null⟩
    ¬ OffersPermitted step run (.obj [("web_search", .bool true)]) := by
  intro step run offers
  have agree := (offersPermitted_iff (iterated_obj _)).mp offers "web_search" (by decide)
  have covered : Covers (stringMembers (.json (.obj [("web_search", .bool true)]))) "web_search" :=
    agree.mp ((covers_some rfl).mpr (by decide))
  cases covered "web_search" rfl

end SlimxAgent
