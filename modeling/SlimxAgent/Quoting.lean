import SlimxAgent.HostClient

/-!
# Quoted identities

Quoting is read back byte by byte, so it tells any two texts apart, and what it writes
cannot end a path segment, a path or a query.
-/

namespace SlimxAgent

/-! ## Reading back -/

/-- The value of a hexadecimal digit in upper case. -/
def hexValue (digit : Char) : Nat :=
  if digit.toNat < 65 then digit.toNat - 48 else digit.toNat - 55

/-- The bytes of a quoted text. -/
def unquoteBytes : List Char → List UInt8
  | '%' :: high :: low :: rest => .ofNat (hexValue high * 16 + hexValue low) :: unquoteBytes rest
  | c :: rest => .ofNat c.toNat :: unquoteBytes rest
  | [] => []

/-- The digit that `quote` writes. -/
def upperDigit (value : Nat) : Char :=
  (Nat.digitChar value).toUpper

theorem hexValue_upperDigit {value : Nat} (bound : value < 16) :
    hexValue (upperDigit value) = value := by
  revert value
  decide

theorem upperDigit_plain {value : Nat} (bound : value < 16) :
    upperDigit value ∉ ['/', '?', '#'] := by
  revert value
  decide

theorem quoteByte_safe {byte : UInt8} (safe : alwaysSafe byte = true) :
    (quoteByte byte).toList = [Char.ofNat byte.toNat] := by
  rw [quoteByte, if_pos safe, String.toList_singleton]

theorem quoteByte_escaped {byte : UInt8} (notSafe : ¬ alwaysSafe byte = true) :
    (quoteByte byte).toList =
      ['%', upperDigit (byte.toNat / 16), upperDigit (byte.toNat % 16)] := by
  rw [quoteByte, if_neg notSafe, String.toList_ofList]
  rfl

theorem toNat_ofNat_byte (byte : UInt8) : (Char.ofNat byte.toNat).toNat = byte.toNat := by
  have bound := byte.toNat_lt
  have valid : byte.toNat.isValidChar := .inl (by omega)
  rw [Char.ofNat, dif_pos valid]
  rfl

/-- A safe byte is none of the characters that mean something in a target. -/
theorem safe_plain {byte : UInt8} (safe : alwaysSafe byte = true) :
    Char.ofNat byte.toNat ∉ ['%', '/', '?', '#'] := by
  have apart (c : Char) (reserved : c ∈ ['%', '/', '?', '#']) :
      Char.ofNat byte.toNat ≠ c := by
    rintro rfl
    simp only [alwaysSafe, Bool.or_eq_true, Bool.and_eq_true, decide_eq_true_eq, beq_iff_eq] at safe
    have points : (Char.ofNat byte.toNat).toNat ∈ [37, 47, 63, 35] :=
      List.mem_map_of_mem (f := Char.toNat) reserved
    rw [toNat_ofNat_byte] at points
    simp only [List.mem_cons, List.not_mem_nil, or_false] at points
    omega
  exact fun member => apart _ member rfl

theorem unquoteBytes_plain {c : Char} (plain : c ≠ '%') (rest : List Char) :
    unquoteBytes (c :: rest) = .ofNat c.toNat :: unquoteBytes rest := by
  match rest with
  | [] => simp [unquoteBytes]
  | [_] => simp [unquoteBytes]
  | _ :: _ :: _ => simp [unquoteBytes, plain]

theorem unquoteBytes_quoteByte (byte : UInt8) (rest : List Char) :
    unquoteBytes ((quoteByte byte).toList ++ rest) = byte :: unquoteBytes rest := by
  by_cases safe : alwaysSafe byte = true
  · have notEscape : Char.ofNat byte.toNat ≠ '%' := fun same => safe_plain safe (by simp [same])
    rw [quoteByte_safe safe, List.singleton_append, unquoteBytes_plain notEscape,
      toNat_ofNat_byte, UInt8.ofNat_toNat]
  · have bound := byte.toNat_lt
    rw [quoteByte_escaped safe, List.cons_append, List.cons_append, List.singleton_append]
    rw [unquoteBytes, hexValue_upperDigit (by omega), hexValue_upperDigit (by omega)]
    rw [Nat.div_add_mod', UInt8.ofNat_toNat]

/-! ## Whole texts -/

/-- The bytes that are quoted. -/
def utf8Bytes (text : String) : List UInt8 :=
  text.toList.flatMap String.utf8EncodeChar

theorem utf8Bytes_injective {left right : String} (same : utf8Bytes left = utf8Bytes right) :
    left = right := by
  have encoded : left.toList.utf8Encode = right.toList.utf8Encode :=
    congrArg List.toByteArray same
  have decoded := congrArg ByteArray.utf8Decode? encoded
  rw [List.utf8Decode?_utf8Encode, List.utf8Decode?_utf8Encode] at decoded
  have characters : left.toList = right.toList := by simpa using decoded
  exact String.toList_inj.mp characters

theorem toList_quote (text : String) :
    (quote text).toList = (utf8Bytes text).flatMap fun byte => (quoteByte byte).toList := by
  rw [quote, String.toList_join, List.flatMap_map, utf8Bytes]

/-- What was quoted is read back. -/
theorem unquoteBytes_quote (text : String) : unquoteBytes (quote text).toList = utf8Bytes text := by
  rw [toList_quote]
  induction utf8Bytes text with
  | nil => rfl
  | cons byte bytes ih => rw [List.flatMap_cons, unquoteBytes_quoteByte, ih]

theorem quote_injective {left right : String} (same : quote left = quote right) : left = right := by
  apply utf8Bytes_injective
  rw [← unquoteBytes_quote, same, unquoteBytes_quote]

theorem quote_eq_iff {left right : String} : quote left = quote right ↔ left = right :=
  ⟨quote_injective, congrArg quote⟩

theorem quoteByte_plain (byte : UInt8) : ∀ c ∈ (quoteByte byte).toList, c ∉ ['/', '?', '#'] := by
  intro c member
  by_cases safe : alwaysSafe byte = true
  · rw [quoteByte_safe safe, List.mem_singleton] at member
    rw [member]
    exact fun reserved => safe_plain safe (.tail _ reserved)
  · have bound := byte.toNat_lt
    rw [quoteByte_escaped safe] at member
    simp only [List.mem_cons, List.not_mem_nil, or_false] at member
    rcases member with rfl | rfl | rfl
    · decide
    · exact upperDigit_plain (by omega)
    · exact upperDigit_plain (by omega)

/-- A quoted text holds no character that ends a segment or a path. -/
theorem quote_plain (text : String) : ∀ c ∈ (quote text).toList, c ∉ ['/', '?', '#'] := by
  intro c member
  rw [toList_quote] at member
  rcases List.mem_flatMap.mp member with ⟨byte, _, here⟩
  exact quoteByte_plain byte c here

theorem quote_dots : quote "" = "" ∧ quote "." = "." ∧ quote ".." = ".." := by
  decide

/-- Only the refused identities would be quoted to an empty segment or a dot segment. -/
theorem quote_refused (text : String) :
    (quote text = "" ∨ quote text = "." ∨ quote text = "..") ↔
      text = "" ∨ text = "." ∨ text = ".." := by
  rcases quote_dots with ⟨empty, dot, dots⟩
  rw [← @quote_eq_iff text "", ← @quote_eq_iff text ".", ← @quote_eq_iff text "..",
    empty, dot, dots]

end SlimxAgent
