import SlimxAgent.Interaction.FirstSeen
import SlimxAgent.Policies
import SlimxAgent.Text

/-!
# Normalised grants

A client sends the grants of a run as a list of anything.  What is stored of it are the
known keys, each once, in the order in which they first occur; the permission gate then
finds every grant that it would have found in the list as it was sent.
-/

namespace SlimxAgent

open FirstSeen

/-- `str(item).strip()`. -/
def grantKey (item : Json) : String :=
  strip item.text

/-- The loop of `normalize_grants`, with the keys seen so far and those to return. -/
def collectGrants (seen out : List String) : List Json → List String
  | [] => out
  | item :: items =>
      let key := grantKey item
      if key ≠ "" ∧ key ∈ grantableTools ∧ key ∉ seen then
        collectGrants (key :: seen) (out ++ [key]) items
      else collectGrants seen out items

/-- The grants to store; no list at all stays none. -/
def normalizeGrants (raw : Option (List Json)) : Option (List String) :=
  raw.map (collectGrants [] [])

theorem grantable_not_empty : "" ∉ grantableTools := by decide

/-- The known keys have no white space at their ends. -/
theorem strip_grantable {key : String} (grantable : key ∈ grantableTools) : strip key = key := by
  have stripped : ∀ key ∈ grantableTools, strip key = key := by decide
  exact stripped key grantable

/-- Every grant that a step type can need is a known key. -/
theorem requiredGrant_grantable {stepType grant : String}
    (required : requiredGrant stepType = some grant) : grant ∈ grantableTools := by
  have known : ∀ entry ∈ grantByType, entry.2 ∈ grantableTools := by decide
  exact known _ (mem_grantByType required)

/-! ## The loop -/

/-- What the loop returns are the known keys of what it has passed and of what is left. -/
theorem collectGrants_selects {seen out past : List String} (same : ∀ key, key ∈ seen ↔ key ∈ out)
    (selects : Selects (· ∈ grantableTools) past out) (items : List Json) :
    Selects (· ∈ grantableTools) (past ++ items.map grantKey) (collectGrants seen out items) := by
  induction items generalizing seen out past with
  | nil =>
      rw [List.map_nil, List.append_nil]
      exact selects
  | cons item items ih =>
      rw [List.map_cons, ← List.singleton_append, ← List.append_assoc, collectGrants]
      split
      · rename_i accepted
        rcases accepted with ⟨_, grantable, unseen⟩
        rw [same] at unseen
        refine ih ?_ (selects.adds grantable unseen)
        intro key
        rw [List.mem_cons, List.mem_append, List.mem_singleton, same, or_comm]
      · rename_i refused
        refine ih same (selects.passes ?_)
        intro grantable
        by_contra unlisted
        refine refused ⟨?_, grantable, (same _).not.mpr unlisted⟩
        intro empty
        exact grantable_not_empty (empty ▸ grantable)

theorem normalizeGrants_selects (raw : List Json) :
    ∃ keys, normalizeGrants (some raw) = some keys ∧
      Selects (· ∈ grantableTools) (raw.map grantKey) keys := by
  refine ⟨_, rfl, ?_⟩
  exact collectGrants_selects (fun _ => Iff.rfl) .nil raw

/-- Known keys are their own stripped texts. -/
theorem map_grantKey {keys : List String} (grantable : ∀ key ∈ keys, key ∈ grantableTools) :
    (keys.map Json.str).map grantKey = keys := by
  rw [List.map_map]
  calc keys.map (grantKey ∘ Json.str) = keys.map id :=
        List.map_congr_left fun key member => strip_grantable (grantable key member)
    _ = keys := List.map_id keys

/-- What was selected from anything is selected from itself. -/
theorem normalizeGrants_of_selects {texts keys : List String}
    (selects : Selects (· ∈ grantableTools) texts keys) :
    normalizeGrants (some (keys.map Json.str)) = some keys := by
  rcases normalizeGrants_selects (keys.map Json.str) with ⟨again, normalized, reselects⟩
  rw [map_grantKey fun key member => ((selects.mem_iff key).mp member).1] at reselects
  rw [normalized, reselects.unique selects.self]

/-! ## The gate -/

section Gate

variable {ι : Type} {step : StepView ι} {run : RunView ι} {raw : List Json} {keys : List String}

/-- The run with these grants stored. -/
def RunView.granting (run : RunView ι) (grants : List Json) : RunView ι :=
  { run with allowedToolsJson := .json (.arr grants) }

theorem stringMembers_texts (keys : List String) :
    stringMembers (.json (.arr (keys.map Json.str))) = keys := by
  have text : Json.asStr? ∘ Json.str = some := rfl
  rw [stringMembers, List.filterMap_map, text, List.filterMap_some]

/-- A stored text is among the stripped ones if it is a known key. -/
theorem mem_map_grantKey {grant : String} (grantable : grant ∈ grantableTools)
    (stored : grant ∈ stringMembers (.json (.arr raw))) : grant ∈ raw.map grantKey := by
  rcases List.mem_filterMap.mp stored with ⟨item, member, isText⟩
  cases item with
  | str text =>
      cases isText
      refine List.mem_map.mpr ⟨.str grant, member, ?_⟩
      exact strip_grantable grantable
  | _ => cases isText

/-- With the normalised grants the gate asks whether the needed grant is in the list as it
was sent, up to white space. -/
theorem permitted_normalized (selects : Selects (· ∈ grantableTools) (raw.map grantKey) keys) :
    Permitted step.type (run.granting (keys.map Json.str)) ↔
      ∀ grant, requiredGrant step.type = some grant → grant ∈ raw.map grantKey := by
  have members : stringMembers (run.granting (keys.map Json.str)).allowedToolsJson = keys :=
    stringMembers_texts keys
  rw [Permitted, members]
  constructor
  · exact fun granted grant required => ((selects.mem_iff grant).mp (granted grant required)).2
  · intro sent grant required
    exact (selects.mem_iff grant).mpr ⟨requiredGrant_grantable required, sent grant required⟩

/-- No grant is lost. -/
theorem permitted_of_raw (selects : Selects (· ∈ grantableTools) (raw.map grantKey) keys)
    (granted : Permitted step.type (run.granting raw)) :
    Permitted step.type (run.granting (keys.map Json.str)) := by
  rw [permitted_normalized selects]
  intro grant required
  exact mem_map_grantKey (requiredGrant_grantable required) (granted grant required)

end Gate

/-- The grants that are stored for a list are the known keys among its stripped texts, each
once and in the order of first occurrence.  Storing them again changes nothing, and the
gate permits with them exactly the step types whose grant is among those texts, so at least
what it permits with the list itself. -/
theorem grants_canonical {ι : Type} (raw : List Json) :
    ∃ keys, normalizeGrants (some raw) = some keys ∧ keys.Nodup ∧
      (∀ key, key ∈ keys ↔ key ∈ grantableTools ∧ ∃ item ∈ raw, strip item.text = key) ∧
      (keys.Pairwise fun earlier later =>
        (raw.map fun item => strip item.text).idxOf earlier <
          (raw.map fun item => strip item.text).idxOf later) ∧
      normalizeGrants (some (keys.map Json.str)) = some keys ∧
      ∀ (step : StepView ι) (run : RunView ι),
        (permissionBlockReason step (run.granting (keys.map Json.str)) = none ↔
          requiredGrant step.type = none ∨
            ∃ grant, requiredGrant step.type = some grant ∧
              ∃ item ∈ raw, strip item.text = grant) ∧
        (permissionBlockReason step (run.granting raw) = none →
          permissionBlockReason step (run.granting (keys.map Json.str)) = none) := by
  rcases normalizeGrants_selects raw with ⟨keys, normalized, selects⟩
  have sent (key : String) : key ∈ raw.map grantKey ↔ ∃ item ∈ raw, strip item.text = key :=
    List.mem_map
  refine ⟨keys, normalized, selects.distinct, ?_, selects.ordered,
    normalizeGrants_of_selects selects, fun step run => ⟨?_, ?_⟩⟩
  · intro key
    rw [selects.mem_iff, sent]
  · rw [permissionBlockReason_eq_none, permitted_normalized selects]
    simp only [sent]
    cases required : requiredGrant step.type with
    | none => simp
    | some grant => simp only [Option.some.injEq, forall_eq', reduceCtorEq, false_or,
        exists_eq_left']
  · rw [permissionBlockReason_eq_none, permissionBlockReason_eq_none]
    exact permitted_of_raw selects

/-- White space, an unknown key, a repeated key and a number. -/
example : normalizeGrants (some [.str "web_search", .str " code_read ", .str "nope", .int 3,
    .str "web_search\n"]) = some ["web_search", "code_read"] := by decide

end SlimxAgent
