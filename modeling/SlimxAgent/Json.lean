import Mathlib.Data.List.Basic

/-!
# JSON values and stored host values

The engine carries JSON-ready payloads without looking into them, compares a few
fields, and renders some values as text.  Objects are association lists in
insertion order, as Python keeps its dictionaries.
-/

namespace SlimxAgent

/-- A decoded JSON value.  A number with a fraction or an exponent keeps its
rendering; the model never computes with one. -/
inductive Json where
  | null
  | bool (value : Bool)
  | int (value : Int)
  | real (rendering : String)
  | str (value : String)
  | arr (items : List Json)
  | obj (fields : List (String × Json))

/-- A dictionary with text keys. -/
abbrev Dict := List (String × Json)

namespace Dict

/-- `d.get(key)`, with `None` told apart from an absent key. -/
def get? (fields : Dict) (key : String) : Option Json :=
  fields.lookup key

/-- `d.get(key)`: an absent key reads as `None`. -/
def get (fields : Dict) (key : String) : Json :=
  (fields.get? key).getD .null

/-- `d[key] = value`: an existing key keeps its place. -/
def set : Dict → String → Json → Dict
  | [], key, value => [(key, value)]
  | (other, old) :: rest, key, value =>
      if other = key then (key, value) :: rest else (other, old) :: set rest key value

/-- `{**fields, **extra}`. -/
def update (fields extra : Dict) : Dict :=
  extra.foldl (fun merged entry => merged.set entry.1 entry.2) fields

@[simp] theorem get?_set_self (fields : Dict) (key : String) (value : Json) :
    (fields.set key value).get? key = some value := by
  simp only [get?]
  induction fields with
  | nil => simp [set]
  | cons entry fields ih =>
      rcases entry with ⟨other, old⟩
      rw [set]
      split
      · simp
      · rename_i differs
        rw [List.lookup_cons, beq_eq_false_iff_ne.mpr (Ne.symm differs)]
        exact ih

theorem get?_set_of_ne (fields : Dict) {key other : String} (differs : other ≠ key) (value : Json) :
    (fields.set key value).get? other = fields.get? other := by
  simp only [get?]
  induction fields with
  | nil => simp [set, List.lookup_cons, beq_eq_false_iff_ne.mpr differs]
  | cons entry fields ih =>
      rcases entry with ⟨held, old⟩
      rw [set]
      split
      · rename_i same
        subst same
        simp [List.lookup_cons, beq_eq_false_iff_ne.mpr differs]
      · rw [List.lookup_cons, List.lookup_cons, ih]

@[simp] theorem get_set_self (fields : Dict) (key : String) (value : Json) :
    (fields.set key value).get key = value := by
  rw [get, get?_set_self, Option.getD_some]

/-- Replacing a value by itself changes nothing. -/
theorem set_of_get? {fields : Dict} {key : String} {value : Json}
    (held : fields.get? key = some value) : fields.set key value = fields := by
  simp only [get?] at held
  induction fields with
  | nil => simp at held
  | cons entry fields ih =>
      rcases entry with ⟨other, old⟩
      rw [set]
      split
      · rename_i same
        subst same
        rw [List.lookup_cons, beq_self_eq_true] at held
        cases held
        rfl
      · rename_i differs
        rw [List.lookup_cons, beq_eq_false_iff_ne.mpr (Ne.symm differs)] at held
        rw [ih held]

theorem get?_cons (key other : String) (value : Json) (fields : Dict) :
    get? ((other, value) :: fields) key = if key = other then some value else get? fields key := by
  rw [get?, List.lookup_cons, get?]
  by_cases same : key = other
  · simp [same]
  · simp [same, beq_eq_false_iff_ne.mpr same]

theorem get?_eq_none {fields : Dict} {key : String} (absent : key ∉ fields.map Prod.fst) :
    fields.get? key = none := by
  induction fields with
  | nil => rfl
  | cons entry fields ih =>
      simp only [List.map_cons, List.mem_cons, not_or] at absent
      rw [get?_cons, if_neg absent.1, ih absent.2]

/-- In a merge the extra entries win. -/
theorem get?_update (fields : Dict) {extra : Dict} (distinct : (extra.map Prod.fst).Nodup)
    (key : String) : (fields.update extra).get? key = (extra.get? key).or (fields.get? key) := by
  induction extra generalizing fields with
  | nil => rfl
  | cons entry extra ih =>
      rcases entry with ⟨other, value⟩
      simp only [List.map_cons, List.nodup_cons] at distinct
      rw [update, List.foldl_cons, ← update, ih _ distinct.2, get?_cons]
      by_cases same : key = other
      · subst same
        rw [get?_eq_none distinct.1, if_pos rfl, get?_set_self]
        rfl
      · rw [if_neg same, get?_set_of_ne _ same]

theorem set_of_absent {fields : Dict} {key : String} (absent : key ∉ fields.map Prod.fst)
    (value : Json) : fields.set key value = fields ++ [(key, value)] := by
  induction fields with
  | nil => rfl
  | cons entry fields ih =>
      rcases entry with ⟨other, old⟩
      simp only [List.map_cons, List.mem_cons, not_or] at absent
      rw [set, if_neg (Ne.symm absent.1), ih absent.2]
      rfl

theorem update_of_distinct {fields extra : Dict}
    (distinct : ((fields ++ extra).map Prod.fst).Nodup) :
    fields.update extra = fields ++ extra := by
  induction extra generalizing fields with
  | nil => exact (List.append_nil fields).symm
  | cons entry extra ih =>
      rcases entry with ⟨key, value⟩
      have absent : key ∉ fields.map Prod.fst := by
        rw [List.map_append, List.map_cons] at distinct
        intro held
        exact (List.nodup_append.mp distinct).2.2 key held key List.mem_cons_self rfl
      rw [update, List.foldl_cons, set_of_absent absent, ← update, ih]
      · rw [List.append_assoc]
        rfl
      · rw [List.append_assoc]
        exact distinct

/-- Setting a key keeps the keys distinct. -/
theorem set_keys {fields : Dict} (distinct : (fields.map Prod.fst).Nodup) (key : String)
    (value : Json) : ((fields.set key value).map Prod.fst).Nodup ∧
      ∀ other ∈ (fields.set key value).map Prod.fst, other = key ∨ other ∈ fields.map Prod.fst := by
  induction fields with
  | nil =>
      refine ⟨List.nodup_cons.mpr ⟨List.not_mem_nil, List.nodup_nil⟩, fun other held => ?_⟩
      exact .inl (List.mem_singleton.mp held)
  | cons entry fields ih =>
      rcases entry with ⟨held, old⟩
      rw [List.map_cons, List.nodup_cons] at distinct
      rw [set]
      split
      · rename_i same
        subst same
        exact ⟨List.nodup_cons.mpr distinct, fun other member => .inr member⟩
      · rename_i differs
        have rest := ih distinct.2
        rw [List.map_cons, List.nodup_cons]
        refine ⟨⟨fun again => ?_, rest.1⟩, fun other member => ?_⟩
        · rcases rest.2 _ again with same | member
          · exact differs same
          · exact distinct.1 member
        · rcases List.mem_cons.mp member with rfl | later
          · exact .inr List.mem_cons_self
          · exact (rest.2 other later).imp id (List.mem_cons_of_mem _)

theorem mem_set {fields : Dict} {key : String} {value : Json} {entry : String × Json}
    (member : entry ∈ fields.set key value) : entry = (key, value) ∨ entry ∈ fields := by
  induction fields with
  | nil => exact .inl (List.mem_singleton.mp member)
  | cons first fields ih =>
      rcases first with ⟨held, old⟩
      rw [set] at member
      split at member
      · exact (List.mem_cons.mp member).imp id (List.mem_cons_of_mem _)
      · rcases List.mem_cons.mp member with rfl | later
        · exact .inr List.mem_cons_self
        · exact (ih later).imp id (List.mem_cons_of_mem _)

end Dict

/-! ## Python's text renderings -/

/-- Code point of the apostrophe, Python's preferred quote. -/
def apostrophe : Char := Char.ofNat 39

/-- `\xNN` for a code point below 256. -/
def hexEscape (point : Nat) : String :=
  String.ofList ['\\', 'x', Nat.digitChar (point / 16), Nat.digitChar (point % 16)]

/-- `\uNNNN` for one UTF-16 code unit. -/
def unitEscape (unit : Nat) : String :=
  String.ofList ['\\', 'u', Nat.digitChar (unit / 4096), Nat.digitChar (unit / 256 % 16),
    Nat.digitChar (unit / 16 % 16), Nat.digitChar (unit % 16)]

/-- `\UNNNNNNNN` for any code point. -/
def wideEscape (point : Nat) : String :=
  String.ofList ('\\' :: 'U' ::
    [268435456, 16777216, 1048576, 65536, 4096, 256, 16, 1].map fun place =>
      Nat.digitChar (point / place % 16))

/-- The control, format, private-use and separator characters of Unicode, the space
apart, as ranges of code points. -/
def hiddenRanges : List (Nat × Nat) :=
  [(0x0, 0x1f), (0x7f, 0xa0), (0xad, 0xad), (0x600, 0x605), (0x61c, 0x61c), (0x6dd, 0x6dd),
    (0x70f, 0x70f), (0x890, 0x891), (0x8e2, 0x8e2), (0x1680, 0x1680), (0x180e, 0x180e),
    (0x2000, 0x200f), (0x2028, 0x202f), (0x205f, 0x2064), (0x2066, 0x206f), (0x3000, 0x3000),
    (0xe000, 0xf8ff), (0xfeff, 0xfeff), (0xfff9, 0xfffb), (0x110bd, 0x110bd), (0x110cd, 0x110cd),
    (0x13430, 0x1343f), (0x1bca0, 0x1bca3), (0x1d173, 0x1d17a), (0xe0001, 0xe0001),
    (0xe0020, 0xe007f), (0xf0000, 0xffffd), (0x100000, 0x10fffd)]

/-- `str.isprintable` of one character.  A code point that Unicode has not assigned
counts as printable here. -/
def isPrintable (c : Char) : Bool :=
  !hiddenRanges.any fun range => range.1 ≤ c.toNat && c.toNat ≤ range.2

/-- One character of a Python string literal between the given quotes. -/
def escapeChar (quote c : Char) : String :=
  if c = '\\' then "\\\\"
  else if c = quote then String.ofList ['\\', quote]
  else if c = '\n' then "\\n"
  else if c = '\r' then "\\r"
  else if c = '\t' then "\\t"
  else if isPrintable c then String.singleton c
  else if c.toNat < 256 then hexEscape c.toNat
  else if c.toNat < 65536 then unitEscape c.toNat
  else wideEscape c.toNat

/-- `repr` of a string: single quotes unless only those would need escaping. -/
def reprStr (text : String) : String :=
  let quote := if text.toList.contains apostrophe && !text.toList.contains '"' then '"'
    else apostrophe
  String.singleton quote ++ String.join (text.toList.map (escapeChar quote)) ++
    String.singleton quote

/-- `text[:n]`, by characters. -/
def clip (text : String) (n : Nat) : String :=
  String.ofList (text.toList.take n)

namespace Json

mutual

/-- `repr` of a decoded JSON value. -/
def repr : Json → String
  | .null => "None"
  | .bool true => "True"
  | .bool false => "False"
  | .int value => toString value
  | .real rendering => rendering
  | .str value => reprStr value
  | .arr items => "[" ++ String.intercalate ", " (reprItems items) ++ "]"
  | .obj fields => "\x7b" ++ String.intercalate ", " (reprFields fields) ++ "\x7d"

def reprItems : List Json → List String
  | [] => []
  | item :: items => item.repr :: reprItems items

def reprFields : List (String × Json) → List String
  | [] => []
  | (key, value) :: fields => (reprStr key ++ ": " ++ value.repr) :: reprFields fields

end

/-- `str(value)`: a string is its own text. -/
def text : Json → String
  | .str value => value
  | value => value.repr

/-- One character of a JSON string that is kept to ASCII. -/
def dumpsChar (c : Char) : String :=
  if c = '\\' then "\\\\"
  else if c = '"' then "\\\""
  else if c = '\n' then "\\n"
  else if c = '\r' then "\\r"
  else if c = '\t' then "\\t"
  else if c.toNat = 8 then "\\b"
  else if c.toNat = 12 then "\\f"
  else if 32 ≤ c.toNat ∧ c.toNat ≤ 126 then String.singleton c
  else if c.toNat < 65536 then unitEscape c.toNat
  else
    let rest := c.toNat - 65536
    unitEscape (55296 + rest / 1024) ++ unitEscape (56320 + rest % 1024)

def dumpsStr (text : String) : String :=
  "\"" ++ String.join (text.toList.map dumpsChar) ++ "\""

mutual

/-- `json.dumps`. -/
def dumps : Json → String
  | .null => "null"
  | .bool true => "true"
  | .bool false => "false"
  | .int value => toString value
  | .real rendering => rendering
  | .str value => dumpsStr value
  | .arr items => "[" ++ String.intercalate ", " (dumpsItems items) ++ "]"
  | .obj fields => "\x7b" ++ String.intercalate ", " (dumpsFields fields) ++ "\x7d"

def dumpsItems : List Json → List String
  | [] => []
  | item :: items => item.dumps :: dumpsItems items

def dumpsFields : List (String × Json) → List String
  | [] => []
  | (key, value) :: fields => (dumpsStr key ++ ": " ++ value.dumps) :: dumpsFields fields

end

/-- The value as a Python `int`; booleans are integers there. -/
def asInt? : Json → Option Int
  | .int value => some value
  | .bool value => some (if value then 1 else 0)
  | _ => none

/-- The value as a Python `str`. -/
def asStr? : Json → Option String
  | .str value => some value
  | _ => none

/-- `None` for an absent optional value. -/
def ofOption {α : Type} (encode : α → Json) : Option α → Json
  | none => .null
  | some value => encode value

end Json

/-- A value stored on a host object: JSON, or one of the Python collections that
have no JSON form.  A frozen set reads as a set. -/
inductive Stored where
  | json (value : Json)
  | tuple (items : List Json)
  | set (items : List Json)

end SlimxAgent
