import SlimxAgent.Planning
import Mathlib.Data.List.Basic

/-!
# Repaired plans

What the repair of a plan keeps, what it fills in and from where.  A second repair finds
nothing left to do.
-/

namespace SlimxAgent

/-- The entries that are kept. -/
def keptEntries (steps : List Json) : List Dict :=
  steps.filterMap kept?

/-- The entries are repaired one by one, each with its position among those that are kept. -/
theorem repairSteps_eq (repaired : List Dict) (steps : List Json) :
    repairSteps repaired steps =
      repaired ++ (keptEntries steps).mapIdx fun index raw =>
        repairStep (repaired.length + index + 1) raw := by
  induction steps generalizing repaired with
  | nil => simp [repairSteps, keptEntries]
  | cons raw steps ih =>
      cases kept : kept? raw with
      | none => simp [repairSteps, keptEntries, kept, ih]
      | some entry =>
          have positions : (fun index raw => repairStep (repaired.length + 1 + index + 1) raw) =
              fun index raw => repairStep (repaired.length + (index + 1) + 1) raw := by
            funext index raw
            rw [Nat.add_assoc _ 1 index, Nat.add_comm 1 index]
          have entries : keptEntries (raw :: steps) = entry :: keptEntries steps :=
            List.filterMap_cons_some kept
          rw [repairSteps, kept, entries, List.mapIdx_cons]
          dsimp only
          rw [ih, List.length_append, List.length_singleton, positions, List.append_assoc]
          rfl

/-- The repaired entries of a list of steps. -/
def repairedEntries (steps : List Json) : List Dict :=
  (keptEntries steps).mapIdx fun index raw => repairStep (index + 1) raw

theorem repairSteps_nil (steps : List Json) : repairSteps [] steps = repairedEntries steps := by
  rw [repairSteps_eq]
  simp [repairedEntries]

/-! ## One entry -/

section Entry

variable (position : Nat) (raw : Dict)

theorem adoptInstruction_other {key : String} (other : key ≠ "instruction") :
    (adoptInstruction raw).get? key = raw.get? key := by
  rw [adoptInstruction]
  split
  · split
    · exact raw.get?_set_of_ne other _
    · rfl
  · rfl

theorem fillTitle_other {key : String} (other : key ≠ "title") :
    (fillTitle position raw).get? key = raw.get? key := by
  simp only [fillTitle]
  split
  · exact raw.get?_set_of_ne other _
  · split
    · rfl
    · exact raw.get?_set_of_ne other _

/-- Every key but the two is kept. -/
theorem repairStep_other {key : String} (title : key ≠ "title")
    (instruction : key ≠ "instruction") :
    (repairStep position raw).get? key = raw.get? key := by
  rw [repairStep, fillTitle_other position _ title, adoptInstruction_other raw instruction]

theorem repairStep_instruction :
    (repairStep position raw).get? "instruction" = (adoptInstruction raw).get? "instruction" :=
  fillTitle_other position _ (by decide)

theorem firstText_notBlank {values : List Json} {text : String}
    (first : firstText values = some text) : ¬ Blank text := by
  have shown := List.find?_some first
  rcases List.mem_map.mp (List.mem_of_find?_eq_some first) with ⟨value, _, rfl⟩
  rw [strippedText, blank_strip, Blank, ← strippedText]
  simpa using shown

/-- What the entry has under the aliases. -/
def aliased (raw : Dict) : List Json :=
  instructionAliases.map raw.get

theorem adoptInstruction_kept {raw : Dict} (given : strippedText (raw.get "instruction") ≠ "") :
    adoptInstruction raw = raw := by
  rw [adoptInstruction, if_neg given]

theorem adoptInstruction_adopts {raw : Dict} {text : String}
    (blank : strippedText (raw.get "instruction") = "")
    (first : firstText (aliased raw) = some text) :
    adoptInstruction raw = raw.set "instruction" (.str text) := by
  rw [aliased] at first
  rw [adoptInstruction, if_pos blank, first]

theorem adoptInstruction_unaliased {raw : Dict} (unaliased : firstText (aliased raw) = none) :
    adoptInstruction raw = raw := by
  rw [aliased] at unaliased
  rw [adoptInstruction, unaliased]
  split <;> rfl

theorem fillTitle_kept {raw : Dict} (given : strippedText (raw.get "title") ≠ "") :
    fillTitle position raw = raw := by
  have holds : (raw.get "title").truthy = true := by
    by_contra fails
    exact given (strippedText_of_falsy (by simpa using fails))
  rw [strippedText_of_truthy holds] at given
  simp only [fillTitle, Json.orElse, holds, if_true, given, if_false]

/-- The name is looked at when there is no title at all. -/
theorem fillTitle_named {raw : Dict} (untitled : (raw.get "title").truthy = false)
    (named : strippedText (raw.get "name") ≠ "") :
    fillTitle position raw = raw.set "title" (.str (strippedText (raw.get "name"))) := by
  rw [strippedText] at named
  rw [Json.orElse] at named
  simp only [fillTitle, strippedText, Json.orElse, untitled, named, if_false, Bool.false_eq_true]

theorem fillTitle_derived {raw : Dict} (blank : strippedText (raw.get "title") = "")
    (unnamed : (raw.get "title").truthy = true ∨ strippedText (raw.get "name") = "") :
    fillTitle position raw = raw.set "title" (.str (derivedTitle position raw)) := by
  have left : strip ((raw.get "title").orElse ((raw.get "name").orElse (.str ""))).text = "" := by
    rw [Json.orElse]
    split
    · rename_i holds
      rw [← strippedText_of_truthy holds]
      exact blank
    · rename_i fails
      exact unnamed.resolve_left fails
  simp only [fillTitle, left, if_true]

theorem derivedTitle_notBlank (raw : Dict) : ¬ Blank (derivedTitle position raw) := by
  simp only [derivedTitle]
  split
  · refine @notBlank_of_mem _ 'S' ?_ (by decide)
    rw [String.toList_append]
    exact List.mem_append_left _ (by decide)
  · rename_i some
    intro blank
    rw [strippedText, blank_clip_strip (by decide)] at blank
    rw [strippedText, blank] at some
    exact some (by decide)

theorem fillTitle_notBlank (raw : Dict) :
    strippedText ((fillTitle position raw).get "title") ≠ "" := by
  by_cases given : strippedText (raw.get "title") = ""
  · by_cases unnamed : (raw.get "title").truthy = true ∨ strippedText (raw.get "name") = ""
    · rw [fillTitle_derived position given unnamed, Dict.get_set_self, Ne,
        strippedText_str_eq_empty]
      exact derivedTitle_notBlank position raw
    · rw [not_or, Bool.not_eq_true] at unnamed
      rw [fillTitle_named position unnamed.1 unnamed.2, Dict.get_set_self, Ne,
        strippedText_str_eq_empty]
      intro blank
      rw [strippedText, blank_strip] at blank
      exact unnamed.2 blank
  · rw [fillTitle_kept position given]
    exact given

theorem aliased_repairStep : aliased (repairStep position raw) = aliased raw := by
  have others (key : String) (member : key ∈ instructionAliases) :
      (repairStep position raw).get key = raw.get key := by
    have listed : key ≠ "title" ∧ key ≠ "instruction" := by
      revert member key
      decide
    rw [Dict.get, repairStep_other position raw listed.1 listed.2, Dict.get]
  exact List.map_congr_left others

/-- A blank instruction is left when there is no alias to adopt. -/
theorem unaliased_of_blank {raw : Dict}
    (blank : strippedText ((adoptInstruction raw).get "instruction") = "") :
    firstText (aliased raw) = none := by
  cases first : firstText (aliased raw) with
  | none => rfl
  | some text =>
      by_cases given : strippedText (raw.get "instruction") = ""
      · rw [adoptInstruction_adopts given first, Dict.get_set_self,
          strippedText_str_eq_empty] at blank
        exact absurd blank (firstText_notBlank first)
      · rw [adoptInstruction_kept given] at blank
        exact absurd blank given

/-- A repaired entry needs no repair. -/
theorem repairStep_again :
    repairStep position (repairStep position raw) = repairStep position raw := by
  have adopted : adoptInstruction (repairStep position raw) = repairStep position raw := by
    by_cases blank : strippedText ((repairStep position raw).get "instruction") = ""
    · apply adoptInstruction_unaliased
      rw [aliased_repairStep]
      rw [Dict.get, repairStep_instruction, ← Dict.get] at blank
      exact unaliased_of_blank blank
    · exact adoptInstruction_kept blank
  calc repairStep position (repairStep position raw)
      = fillTitle position (repairStep position raw) := by rw [repairStep, adopted]
    _ = repairStep position raw := fillTitle_kept position (fillTitle_notBlank position _)

end Entry

/-! ## Whole plans -/

/-- The kept entries are the objects of an allowed type. -/
theorem kept?_iff {item : Json} {raw : Dict} :
    kept? item = some raw ↔
      item = .obj raw ∧ ∃ type ∈ allowedStepTypes, raw.get "type" = .str type := by
  cases item with
  | obj fields =>
      simp only [kept?, Json.obj.injEq]
      constructor
      · intro kept
        split at kept
        · rename_i type typed
          split at kept
          · rename_i allowed
            cases kept
            exact ⟨rfl, type, allowed, typed⟩
          · cases kept
        · cases kept
      · rintro ⟨rfl, type, allowed, typed⟩
        rw [typed]
        exact if_pos allowed
  | _ => simp [kept?]

theorem kept_of_mem {steps : List Json} {raw : Dict} (member : raw ∈ keptEntries steps) :
    ∃ type ∈ allowedStepTypes, raw.get "type" = .str type := by
  rcases List.mem_filterMap.mp member with ⟨item, _, kept⟩
  exact (kept?_iff.mp kept).2

theorem keptEntries_objects {entries : List Dict}
    (typed : ∀ raw ∈ entries, ∃ type ∈ allowedStepTypes, raw.get "type" = .str type) :
    keptEntries (entries.map .obj) = entries := by
  rw [keptEntries, List.filterMap_map]
  calc entries.filterMap (kept? ∘ .obj)
      = entries.filterMap some :=
        List.filterMap_congr fun raw member => kept?_iff.mpr ⟨rfl, typed raw member⟩
    _ = entries := List.filterMap_some

theorem mem_repairedEntries {steps : List Json} {raw : Dict}
    (member : raw ∈ repairedEntries steps) :
    ∃ type ∈ allowedStepTypes, raw.get "type" = .str type := by
  rcases List.mem_mapIdx.mp member with ⟨index, bound, rfl⟩
  rcases kept_of_mem (List.getElem_mem bound) with ⟨type, allowed, typed⟩
  refine ⟨type, allowed, ?_⟩
  rw [Dict.get, repairStep_other _ _ (by decide) (by decide), ← Dict.get]
  exact typed

/-- The repaired entries are kept, in their places. -/
theorem repairedEntries_again (steps : List Json) :
    repairedEntries ((repairedEntries steps).map .obj) = repairedEntries steps := by
  rw [repairedEntries, keptEntries_objects fun raw => mem_repairedEntries, repairedEntries,
    List.mapIdx_mapIdx]
  have again : (fun index => repairStep (index + 1) ∘ repairStep (index + 1)) =
      fun index raw => repairStep (index + 1) raw := by
    funext index raw
    rw [Function.comp_apply, repairStep_again]
  rw [again]

theorem stringAssumptions_again (value : Json) :
    stringAssumptions (.arr (stringAssumptions value)) = stringAssumptions value := by
  cases value <;> simp [stringAssumptions]

/-- The repair of an object with a list of steps. -/
theorem repairPlanData_list {data : Dict} {steps : List Json}
    (listed : data.get "steps" = .arr steps) :
    repairPlanData (.obj data) =
      .obj ((data.set "assumptions" (.arr (stringAssumptions (data.get "assumptions")))).set "steps"
        (.arr ((repairedEntries steps).map .obj))) := by
  have still : (data.set "assumptions" (.arr (stringAssumptions (data.get "assumptions")))).get
      "steps" = .arr steps := by
    rw [Dict.get, Dict.get?_set_of_ne _ (by decide), ← Dict.get, listed]
  simp only [repairPlanData, still, repairSteps_nil]

/-- The repair of an object without one. -/
theorem repairPlanData_unlisted {data : Dict} (unlisted : ∀ steps, data.get "steps" ≠ .arr steps) :
    repairPlanData (.obj data) =
      .obj ((data.set "assumptions" (.arr (stringAssumptions (data.get "assumptions")))).set "steps"
        (.arr [])) := by
  have still : (data.set "assumptions" (.arr (stringAssumptions (data.get "assumptions")))).get
      "steps" = data.get "steps" := by
    rw [Dict.get, Dict.get?_set_of_ne _ (by decide), ← Dict.get]
  simp only [repairPlanData, still]

/-- An object that holds what its repair would give it stays as it is. -/
theorem repairPlanData_of_held {data : Dict} {steps : List Json} (value : Json)
    (assumptions : data.get? "assumptions" = some (.arr (stringAssumptions value)))
    (entries : data.get? "steps" = some (.arr ((repairedEntries steps).map .obj))) :
    repairPlanData (.obj data) = .obj data := by
  have held : data.get "assumptions" = .arr (stringAssumptions value) := by
    rw [Dict.get, assumptions, Option.getD_some]
  have listed : data.get "steps" = .arr ((repairedEntries steps).map .obj) := by
    rw [Dict.get, entries, Option.getD_some]
  rw [repairPlanData_list listed, held, stringAssumptions_again, repairedEntries_again,
    Dict.set_of_get? assumptions, Dict.set_of_get? entries]

/-- A second repair changes nothing. -/
theorem repair_idempotent (data : Json) :
    repairPlanData (repairPlanData data) = repairPlanData data := by
  have none : (repairedEntries []).map Json.obj = [] := rfl
  cases data with
  | obj data =>
      by_cases listed : ∃ steps, Dict.get data "steps" = .arr steps
      · rcases listed with ⟨steps, listed⟩
        rw [repairPlanData_list listed]
        apply repairPlanData_of_held (Dict.get data "assumptions")
        · rw [Dict.get?_set_of_ne _ (by decide), Dict.get?_set_self]
        · rw [Dict.get?_set_self]
      · rw [repairPlanData_unlisted fun steps here => listed ⟨steps, here⟩]
        apply repairPlanData_of_held (Dict.get data "assumptions")
        · rw [Dict.get?_set_of_ne _ (by decide), Dict.get?_set_self]
        · rw [Dict.get?_set_self, ← none]
  | _ => rfl

/-! ## Where the fields come from -/

/-- The title of an entry that has neither a title nor a name. -/
def fallbackTitle (position : Nat) (raw : Dict) : String :=
  match firstText (raw.get "instruction" :: aliased raw) with
  | some text => clip text 60
  | none => "Step " ++ toString position

/-- A repaired entry takes its instruction and its title from the first source that is not
blank, and keeps every other key. -/
structure Filled (position : Nat) (raw repaired : Dict) : Prop where
  others : ∀ key, key ≠ "title" → key ≠ "instruction" → repaired.get? key = raw.get? key
  given : strippedText (raw.get "instruction") ≠ "" →
    repaired.get? "instruction" = raw.get? "instruction"
  adopted : strippedText (raw.get "instruction") = "" → ∀ text,
    firstText (aliased raw) = some text → repaired.get? "instruction" = some (.str text)
  titled : strippedText (raw.get "title") ≠ "" → repaired.get? "title" = raw.get? "title"
  named : strippedText (raw.get "title") = "" → strippedText (raw.get "name") ≠ "" →
    repaired.get? "title" = some (.str (strippedText (raw.get "name")))
  derived : strippedText (raw.get "title") = "" → strippedText (raw.get "name") = "" →
    strippedText (repaired.get "instruction") ≠ "" →
    repaired.get? "title" = some (.str (clip (strippedText (repaired.get "instruction")) 60))
  numbered : strippedText (raw.get "title") = "" → strippedText (raw.get "name") = "" →
    strippedText (repaired.get "instruction") = "" →
    repaired.get? "title" = some (.str ("Step " ++ toString position))

/-- The name is not hidden by a title of white space, or it says what is filled in anyway. -/
def NameInSight (position : Nat) (raw : Dict) : Prop :=
  (raw.get "title").truthy = false ∨ strippedText (raw.get "title") ≠ "" ∨
    strippedText (raw.get "name") = "" ∨
    strippedText (raw.get "name") = fallbackTitle position raw

section Sources

variable (position : Nat) (raw : Dict)

theorem clip_ne_empty {value : Json} (shown : strippedText value ≠ "") :
    clip (strippedText value) 60 ≠ "" := by
  intro empty
  have blank : Blank (clip (strippedText value) 60) := by
    rw [empty]
    decide
  rw [strippedText, blank_clip_strip (by decide)] at blank
  exact shown blank

theorem derivedTitle_shown (shown : strippedText (raw.get "instruction") ≠ "") :
    derivedTitle position raw = clip (strippedText (raw.get "instruction")) 60 := by
  simp only [derivedTitle, clip_ne_empty shown, if_false]

theorem derivedTitle_blank (blank : strippedText (raw.get "instruction") = "") :
    derivedTitle position raw = "Step " ++ toString position := by
  have empty : clip "" 60 = "" := by decide
  simp only [derivedTitle, blank, empty, if_true]

/-- What is derived after an alias was adopted comes from the first source. -/
theorem derivedTitle_adoptInstruction :
    derivedTitle position (adoptInstruction raw) = fallbackTitle position raw := by
  by_cases given : strippedText (raw.get "instruction") = ""
  · have skips : firstText (raw.get "instruction" :: aliased raw) = firstText (aliased raw) := by
      rw [firstText, List.map_cons, given, List.find?_cons_of_neg (by decide), firstText]
    rw [fallbackTitle, skips]
    cases first : firstText (aliased raw) with
    | none =>
        rw [adoptInstruction_unaliased first, derivedTitle_blank position raw given]
    | some text =>
        have stripped : strippedText (.str text) = text := by
          rcases List.mem_map.mp (List.mem_of_find?_eq_some first) with ⟨value, _, rfl⟩
          exact strippedText_str_stripped value
        have shown : text ≠ "" := by
          intro empty
          rw [empty] at first
          exact firstText_notBlank first (by decide)
        rw [adoptInstruction_adopts given first, derivedTitle_shown, Dict.get_set_self, stripped]
        rw [Dict.get_set_self, stripped]
        exact shown
  · have first : firstText (raw.get "instruction" :: aliased raw) =
        some (strippedText (raw.get "instruction")) := by
      rw [firstText, List.map_cons, List.find?_cons_of_pos (by simpa using given)]
    rw [fallbackTitle, first, adoptInstruction_kept given, derivedTitle_shown position raw given]

theorem adoptInstruction_get {key : String} (other : key ≠ "instruction") :
    (adoptInstruction raw).get key = raw.get key := by
  rw [Dict.get, adoptInstruction_other raw other, Dict.get]

/-- The title that is filled in where the name is not looked at, or is blank. -/
theorem repairStep_derived (blank : strippedText (raw.get "title") = "")
    (unnamed : (raw.get "title").truthy = true ∨ strippedText (raw.get "name") = "") :
    (repairStep position raw).get? "title" =
      some (.str (derivedTitle position (adoptInstruction raw))) := by
  rw [repairStep, fillTitle_derived, Dict.get?_set_self]
  · rw [adoptInstruction_get raw (by decide)]
    exact blank
  · rw [adoptInstruction_get raw (by decide), adoptInstruction_get raw (by decide)]
    exact unnamed

theorem repairStep_named (untitled : (raw.get "title").truthy = false)
    (named : strippedText (raw.get "name") ≠ "") :
    (repairStep position raw).get? "title" = some (.str (strippedText (raw.get "name"))) := by
  have title := adoptInstruction_get raw (show "title" ≠ "instruction" by decide)
  have name := adoptInstruction_get raw (show "name" ≠ "instruction" by decide)
  rw [repairStep, fillTitle_named, Dict.get?_set_self, name]
  · rw [title]
    exact untitled
  · rw [name]
    exact named

theorem repairStep_titled (titled : strippedText (raw.get "title") ≠ "") :
    (repairStep position raw).get? "title" = raw.get? "title" := by
  rw [repairStep, fillTitle_kept, adoptInstruction_other raw (by decide)]
  rw [adoptInstruction_get raw (by decide)]
  exact titled

/-- A title that is not blank stays; any other becomes a text that is not blank. -/
theorem repairStep_title :
    (strippedText (raw.get "title") ≠ "" ∧
      (repairStep position raw).get? "title" = raw.get? "title") ∨
    (strippedText (raw.get "title") = "" ∧
      ∃ text, ¬ Blank text ∧ (repairStep position raw).get? "title" = some (.str text)) := by
  by_cases blank : strippedText (raw.get "title") = ""
  · right
    refine ⟨blank, ?_⟩
    by_cases unnamed : (raw.get "title").truthy = true ∨ strippedText (raw.get "name") = ""
    · exact ⟨_, derivedTitle_notBlank position _, repairStep_derived position raw blank unnamed⟩
    · rw [not_or, Bool.not_eq_true] at unnamed
      refine ⟨_, ?_, repairStep_named position raw unnamed.1 unnamed.2⟩
      rw [strippedText, blank_strip]
      exact unnamed.2
  · exact .inl ⟨blank, repairStep_titled position raw blank⟩

/-- An instruction that is not blank stays; a blank one gives way to an alias, if there is
one. -/
theorem repairStep_adopts :
    ((strippedText (raw.get "instruction") ≠ "" ∨ firstText (aliased raw) = none) ∧
      (repairStep position raw).get? "instruction" = raw.get? "instruction") ∨
    (strippedText (raw.get "instruction") = "" ∧
      ∃ text, firstText (aliased raw) = some text ∧
        (repairStep position raw).get? "instruction" = some (.str text)) := by
  rw [repairStep_instruction]
  by_cases given : strippedText (raw.get "instruction") = ""
  · cases first : firstText (aliased raw) with
    | none => exact .inl ⟨.inr rfl, by rw [adoptInstruction_unaliased first]⟩
    | some text =>
        refine .inr ⟨given, text, rfl, ?_⟩
        rw [adoptInstruction_adopts given first, Dict.get?_set_self]
  · exact .inl ⟨.inl given, by rw [adoptInstruction_kept given]⟩

/-- A repaired entry is filled from the first sources exactly where its name is in sight. -/
theorem filled_repairStep :
    Filled position raw (repairStep position raw) ↔ NameInSight position raw := by
  have instruction : (repairStep position raw).get "instruction" =
      (adoptInstruction raw).get "instruction" := by
    rw [Dict.get, repairStep_instruction, Dict.get]
  constructor
  · intro filled
    by_contra hidden
    simp only [NameInSight, not_or, Bool.not_eq_false, ne_eq, not_not] at hidden
    rcases hidden with ⟨titled, blank, named, differs⟩
    have filledIn := filled.named blank named
    rw [repairStep_derived position raw blank (.inl titled),
      derivedTitle_adoptInstruction] at filledIn
    exact differs (Json.str.inj (Option.some.inj filledIn)).symm
  · intro sight
    constructor
    case others => exact fun key title instruction =>
      repairStep_other position raw title instruction
    case given =>
      intro given
      rw [repairStep_instruction, adoptInstruction_kept given]
    case adopted =>
      intro blank text first
      rw [repairStep_instruction, adoptInstruction_adopts blank first, Dict.get?_set_self]
    case titled => exact repairStep_titled position raw
    case named =>
      intro blank named
      cases titled : (raw.get "title").truthy with
      | false => exact repairStep_named position raw titled named
      | true =>
          have same : strippedText (raw.get "name") = fallbackTitle position raw := by
            simpa [NameInSight, titled, blank, named] using sight
          rw [repairStep_derived position raw blank (.inl titled), derivedTitle_adoptInstruction,
            same]
    case derived =>
      intro blank unnamed shown
      rw [instruction] at shown ⊢
      rw [repairStep_derived position raw blank (.inr unnamed), derivedTitle_shown _ _ shown]
    case numbered =>
      intro blank unnamed none
      rw [instruction] at none
      rw [repairStep_derived position raw blank (.inr unnamed), derivedTitle_blank _ _ none]

end Sources

theorem getElem?_repairedEntries {steps : List Json} {index : Nat} {raw : Dict}
    (kept : (keptEntries steps)[index]? = some raw) :
    (repairedEntries steps)[index]? = some (repairStep (index + 1) raw) := by
  rw [repairedEntries, List.getElem?_mapIdx, kept]
  rfl

/-- The fields of every kept entry come from the first source that is not blank, exactly
where no title of white space hides a name. -/
theorem entries_filled {data : Dict} {steps : List Json} (listed : data.get "steps" = .arr steps) :
    ∃ (repaired : Dict) (entries : List Dict), repairPlanData (.obj data) = .obj repaired ∧
      repaired.get "steps" = .arr (entries.map .obj) ∧
      entries.length = (keptEntries steps).length ∧
      ∀ (index : Nat) (raw : Dict), (keptEntries steps)[index]? = some raw →
        ∃ entry, entries[index]? = some entry ∧
          (Filled (index + 1) raw entry ↔ NameInSight (index + 1) raw) := by
  refine ⟨_, repairedEntries steps, repairPlanData_list listed, Dict.get_set_self .., ?_, ?_⟩
  · rw [repairedEntries, List.length_mapIdx]
  · intro index raw kept
    exact ⟨_, getElem?_repairedEntries kept, filled_repairStep (index + 1) raw⟩

/-- A step with its text under an alias. -/
def promptStep : Dict :=
  [("type", .str "model_call"), ("prompt", .str " Compare the two drafts ")]

theorem entries_filled_prompt :
    ∃ (repaired : Dict) (entries : List Dict),
      repairPlanData (.obj [("steps", .arr [.str "first", .obj promptStep])]) = .obj repaired ∧
      repaired.get "steps" = .arr (entries.map .obj) ∧ entries.length = 1 ∧
      ∃ entry, entries[0]? = some entry ∧ Filled 1 promptStep entry ∧
        entry.get? "instruction" = some (.str "Compare the two drafts") := by
  have listed : Dict.get [("steps", .arr [.str "first", .obj promptStep])] "steps" =
      .arr [.str "first", .obj promptStep] := rfl
  rcases entries_filled listed with ⟨repaired, entries, repairs, steps, count, fills⟩
  rcases fills 0 promptStep rfl with ⟨entry, placed, filled⟩
  have sources := filled.mpr (.inl rfl)
  exact ⟨repaired, entries, repairs, steps, count, entry, placed, sources,
    sources.adopted (by decide) _ (by decide)⟩

/-- A step with a title of white space, and with a name. -/
def hiddenNameStep : Dict :=
  [("type", .str "attach_context"), ("title", .str " "), ("name", .str "Collect")]

/-- The step with the hidden name is titled by its position. -/
theorem name_hidden :
    ¬ ∀ (data repaired : Dict) (steps : List Json) (entries : List Dict) (index : Nat)
        (raw entry : Dict),
      data.get "steps" = .arr steps → repairPlanData (.obj data) = .obj repaired →
      repaired.get "steps" = .arr (entries.map .obj) → (keptEntries steps)[index]? = some raw →
      entries[index]? = some entry → Filled (index + 1) raw entry := by
  intro always
  have kept : (keptEntries [.obj hiddenNameStep])[0]? = some hiddenNameStep := rfl
  have filled := always [("steps", .arr [.obj hiddenNameStep])] _ _ _ 0 hiddenNameStep _ rfl
    (repairPlanData_list rfl) (Dict.get_set_self ..) kept (getElem?_repairedEntries kept)
  have sight := (filled_repairStep 1 hiddenNameStep).mp filled
  revert sight
  rw [NameInSight]
  decide

end SlimxAgent
