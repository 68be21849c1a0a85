import SlimxAgent.Json
import Mathlib.Data.List.DropRight

/-!
# Truth values and stripped text

How Python takes a value for true, and what is left of a text without the white space at
its ends.  A value is blank when nothing is left of its text.
-/

namespace SlimxAgent

/-- `char.isspace()`. -/
def isSpace (c : Char) : Bool :=
  let point := c.toNat
  (9 ≤ point && point ≤ 13) || (28 ≤ point && point ≤ 32) || point == 133 || point == 160 ||
    point == 5760 || (8192 ≤ point && point ≤ 8202) || point == 8232 || point == 8233 ||
    point == 8239 || point == 8287 || point == 12288

/-! ## Stripping -/

section Trim

variable {α : Type} {p : α → Bool} {items : List α}

/-- The items without the ones at either end that `p` holds of. -/
def trim (p : α → Bool) (items : List α) : List α :=
  (items.dropWhile p).rdropWhile p

theorem head_dropWhile {first : α} {rest : List α} (left : items.dropWhile p = first :: rest) :
    p first = false := by
  induction items with
  | nil => simp at left
  | cons item items ih =>
      rw [List.dropWhile_cons] at left
      split at left
      · exact ih left
      · rename_i stops
        rw [List.cons.inj left |>.1] at stops
        simpa using stops

theorem trim_eq_nil : trim p items = [] ↔ ∀ item ∈ items, p item = true := by
  rw [trim, List.rdropWhile_eq_nil_iff, ← List.dropWhile_eq_nil_iff, List.dropWhile_idempotent,
    List.dropWhile_eq_nil_iff]

/-- What is left begins with an item that `p` does not hold of. -/
theorem head_trim {first : α} {rest : List α} (left : trim p items = first :: rest) :
    p first = false := by
  have kept : trim p items <+: items.dropWhile p := List.rdropWhile_prefix ..
  rw [left] at kept
  rcases kept with ⟨dropped, whole⟩
  exact head_dropWhile whole.symm

theorem trim_trim : trim p (trim p items) = trim p items := by
  have left : (trim p items).dropWhile p = trim p items := by
    cases here : trim p items with
    | nil => rfl
    | cons first rest => rw [List.dropWhile_cons, head_trim here, if_neg Bool.false_ne_true]
  rw [trim, left, trim, List.rdropWhile_idempotent]

end Trim

/-- `text.strip()`. -/
def strip (text : String) : String :=
  String.ofList (trim isSpace text.toList)

/-- Nothing but white space. -/
def Blank (text : String) : Prop :=
  strip text = ""

instance (text : String) : Decidable (Blank text) :=
  inferInstanceAs (Decidable (strip text = ""))

theorem blank_iff {text : String} : Blank text ↔ ∀ c ∈ text.toList, isSpace c = true := by
  rw [← trim_eq_nil, Blank, strip, ← String.toList_inj, String.toList_ofList, String.toList_empty]

/-- The beginning of a stripped text is blank only if there is nothing to it. -/
theorem blank_clip_strip {text : String} {n : Nat} (positive : 0 < n) :
    Blank (clip (strip text) n) ↔ Blank text := by
  have shown : (clip (strip text) n).toList = (trim isSpace text.toList).take n := by
    simp [clip, strip]
  have blank : Blank text ↔ trim isSpace text.toList = [] := by
    rw [blank_iff, trim_eq_nil]
  rw [blank_iff, shown, blank]
  cases left : trim isSpace text.toList with
  | nil => simp
  | cons first rest =>
      have stops := head_trim left
      obtain ⟨n, rfl⟩ : ∃ m, n = m + 1 := ⟨n - 1, by omega⟩
      simp [stops]

@[simp] theorem strip_strip (text : String) : strip (strip text) = strip text := by
  rw [strip, strip, String.toList_ofList, trim_trim]

theorem blank_strip {text : String} : Blank (strip text) ↔ Blank text := by
  have blank : Blank text ↔ trim isSpace text.toList = [] := by
    rw [blank_iff, trim_eq_nil]
  rw [blank_iff, strip, String.toList_ofList, blank]
  cases left : trim isSpace text.toList with
  | nil => simp
  | cons first rest =>
      have stops := head_trim left
      simp [stops]

/-! ## Truth values -/

/-- `bool(value)`.  A number with a fraction is zero if it shows no digit but 0. -/
def Json.truthy : Json → Bool
  | .null => false
  | .bool value => value
  | .int value => value != 0
  | .real rendering => rendering.toList.any fun c => c.isAlphanum && c != '0'
  | .str value => value != ""
  | .arr items => !items.isEmpty
  | .obj fields => !fields.isEmpty

/-- `value or other`. -/
def Json.orElse (value other : Json) : Json :=
  if value.truthy then value else other

/-- `str(value or "").strip()`. -/
def strippedText (value : Json) : String :=
  strip (value.orElse (.str "")).text

theorem notBlank_of_mem {text : String} {c : Char} (member : c ∈ text.toList)
    (visible : isSpace c = false) : ¬ Blank text := by
  intro blank
  rw [blank_iff.mp blank c member] at visible
  cases visible

theorem isSpace_of_isAlphanum {c : Char} (shown : c.isAlphanum = true) : isSpace c = false := by
  have point : c.val.toNat = c.toNat := rfl
  change ((decide ('A'.val ≤ c.val ∧ c.val ≤ 'Z'.val) || (decide ('a'.val ≤ c.val) &&
    decide (c.val ≤ 'z'.val))) || (decide ('0'.val ≤ c.val) && decide (c.val ≤ '9'.val))) = true
    at shown
  simp only [Bool.or_eq_true, Bool.and_eq_true, decide_eq_true_eq, UInt32.le_iff_toNat_le,
    point] at shown
  simp [isSpace]
  simp at shown
  omega

/-- A digit is never white space. -/
theorem notBlank_toString (value : Int) : ¬ Blank (toString value) := by
  cases value with
  | ofNat n =>
      obtain ⟨digit, rest, digits⟩ := List.exists_cons_of_ne_nil (@Nat.toDigits_ne_nil n 10)
      have shown : (toString (Int.ofNat n)).toList = Nat.toDigits 10 n := Nat.toList_repr
      have member : digit ∈ Nat.toDigits 10 n := by simp [digits]
      have isDigit := Nat.isDigit_of_mem_toDigits (by decide) (by decide) member
      refine notBlank_of_mem (by rw [shown]; exact member) (isSpace_of_isAlphanum ?_)
      simp [Char.isAlphanum, isDigit]
  | negSucc n =>
      have shown : '-' ∈ (toString (Int.negSucc n)).toList := by
        have minus : toString (Int.negSucc n) = "-" ++ (n + 1).repr := rfl
        rw [minus, String.toList_append]
        exact List.mem_append_left _ (by decide)
      exact notBlank_of_mem shown (by decide)

/-- A true value that is no string has a text. -/
theorem notBlank_text {value : Json} (holds : value.truthy = true)
    (other : ∀ text, value ≠ .str text) : ¬ Blank value.text := by
  cases value with
  | null => cases holds
  | bool value =>
      cases value with
      | false => cases holds
      | true => decide
  | int value => exact notBlank_toString value
  | real rendering =>
      simp only [Json.truthy, List.any_eq_true, Bool.and_eq_true] at holds
      rcases holds with ⟨c, member, shown, _⟩
      exact notBlank_of_mem member (isSpace_of_isAlphanum shown)
  | str text => exact absurd rfl (other text)
  | arr items =>
      refine @notBlank_of_mem _ '[' ?_ (by decide)
      simp [Json.text, Json.repr]
  | obj fields =>
      refine @notBlank_of_mem _ (Char.ofNat 123) ?_ (by decide)
      simp [Json.text, Json.repr]

/-- A value is blank if it is false, or white space. -/
theorem strippedText_eq_empty {value : Json} :
    strippedText value = "" ↔ value.truthy = false ∨ ∃ text, value = .str text ∧ Blank text := by
  rw [strippedText, Json.orElse]
  cases holds : value.truthy with
  | false => simp [Json.text]; decide
  | true =>
      simp only [↓reduceIte, Bool.true_eq_false, false_or]
      constructor
      · intro blank
        by_contra none
        exact notBlank_text holds (fun text same => none ⟨text, same, by rwa [same] at blank⟩) blank
      · rintro ⟨text, rfl, blank⟩
        exact blank

theorem strippedText_of_truthy {value : Json} (holds : value.truthy = true) :
    strippedText value = strip value.text := by
  rw [strippedText, Json.orElse, if_pos holds]

theorem strippedText_of_falsy {value : Json} (fails : value.truthy = false) :
    strippedText value = "" :=
  strippedText_eq_empty.mpr (.inl fails)

/-- A stripped text is its own. -/
theorem strippedText_str_eq_empty {text : String} : strippedText (.str text) = "" ↔ Blank text := by
  rw [strippedText_eq_empty]
  constructor
  · rintro (empty | ⟨other, same, blank⟩)
    · have none : text = "" := by simpa [Json.truthy] using empty
      rw [none]
      decide
    · cases same
      exact blank
  · intro blank
    exact .inr ⟨text, rfl, blank⟩

/-- A text that was stripped before. -/
theorem strippedText_str_stripped (value : Json) :
    strippedText (.str (strippedText value)) = strippedText value := by
  by_cases empty : strippedText value = ""
  · rw [empty]
    decide
  · have holds : (Json.str (strippedText value)).truthy = true := by simp [Json.truthy, empty]
    rw [strippedText_of_truthy holds]
    exact strip_strip _

end SlimxAgent
