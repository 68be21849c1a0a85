import Mathlib.Data.List.Basic
import Mathlib.Data.Nat.Basic

/-!
# UTF-8 with replacement

A decoder that never fails: where no character can be read, the bytes that still could begin
one are dropped together, and the replacement character stands for them.  A text comes back
from its encoding, and from the first bytes of its encoding come the characters that are
whole, with one replacement character where the cut is within a character (`decode_take`).
-/

namespace Reading

namespace Utf8

/-- What a first byte says: its own bits, the number of bytes that follow it, and the range
of the next. -/
structure Lead where
  bits : Nat
  more : Nat
  least : Nat
  most : Nat

/-- The first bytes that no shorter encoding and no surrogate has. -/
def lead (byte : Nat) : Option Lead :=
  if byte ≤ 0x7F then some ⟨byte, 0, 0x80, 0xBF⟩
  else if 0xC2 ≤ byte ∧ byte ≤ 0xDF then some ⟨byte - 0xC0, 1, 0x80, 0xBF⟩
  else if 0xE0 ≤ byte ∧ byte ≤ 0xEF then
    some ⟨byte - 0xE0, 2, if byte = 0xE0 then 0xA0 else 0x80,
      if byte = 0xED then 0x9F else 0xBF⟩
  else if 0xF0 ≤ byte ∧ byte ≤ 0xF4 then
    some ⟨byte - 0xF0, 3, if byte = 0xF0 then 0x90 else 0x80,
      if byte = 0xF4 then 0x8F else 0xBF⟩
  else none

/-- The bytes that follow, as far as they are what they have to be. -/
def follow : Nat → Nat → Nat → Nat → List UInt8 → Option Nat × List UInt8
  | 0, _, _, point, bytes => (some point, bytes)
  | _ + 1, _, _, _, [] => (none, [])
  | more + 1, least, most, point, byte :: rest =>
      if least ≤ byte.toNat ∧ byte.toNat ≤ most then
        follow more 0x80 0xBF (point * 64 + (byte.toNat - 0x80)) rest
      else (none, byte :: rest)

def replacement : Char := Char.ofNat 0xFFFD

def charOf : Option Nat → Char
  | some point => Char.ofNat point
  | none => replacement

/-- The next character, and the bytes after it. -/
def decodeNext (byte : UInt8) (rest : List UInt8) : Char × List UInt8 :=
  match lead byte.toNat with
  | none => (replacement, rest)
  | some ⟨bits, more, least, most⟩ => (follow more least most bits rest).map charOf id

/-- `fuel` bounds the number of characters. -/
def decodeFrom : Nat → List UInt8 → List Char
  | 0, _ => []
  | _ + 1, [] => []
  | fuel + 1, byte :: rest =>
      let next := decodeNext byte rest
      next.1 :: decodeFrom fuel next.2

/-- `bytes.decode("utf-8", "replace")`. -/
def decode (bytes : List UInt8) : List Char :=
  decodeFrom bytes.length bytes

/-- The bytes of a text. -/
def encode (text : List Char) : List UInt8 :=
  text.flatMap String.utf8EncodeChar

/-- The characters of a text whose bytes are all among the first `cap`. -/
def whole : Nat → List Char → List Char
  | _, [] => []
  | cap, c :: text =>
      if (String.utf8EncodeChar c).length ≤ cap then
        c :: whole (cap - (String.utf8EncodeChar c).length) text
      else []

/-- The first `cap` bytes of a text end within a character. -/
def CutWithin (cap : Nat) (text : List Char) : Prop :=
  (encode (whole cap text)).length < min cap (encode text).length

instance (cap : Nat) (text : List Char) : Decidable (CutWithin cap text) :=
  inferInstanceAs (Decidable (_ < _))

/-! ## Bytes that follow -/

variable {byte : UInt8} {rest bytes : List UInt8} {fuel : Nat} {c : Char} {text : List Char}
  {more least most point cap : Nat}

theorem length_follow : (follow more least most point bytes).2.length ≤ bytes.length := by
  induction more generalizing least most point bytes with
  | zero => exact le_refl _
  | succ more ih =>
      cases bytes with
      | nil => exact le_refl _
      | cons byte rest =>
          rw [follow]
          split
          · exact Nat.le_trans ih (Nat.le_succ _)
          · exact le_refl _

theorem length_decodeNext : (decodeNext byte rest).2.length ≤ rest.length := by
  rw [decodeNext]
  split
  · exact le_refl _
  · exact length_follow

/-- More fuel than bytes changes nothing. -/
theorem decodeFrom_enough {other : Nat} (enough : bytes.length ≤ fuel)
    (others : bytes.length ≤ other) : decodeFrom fuel bytes = decodeFrom other bytes := by
  induction fuel generalizing other bytes with
  | zero =>
      cases List.eq_nil_of_length_eq_zero (Nat.le_zero.mp enough)
      cases other <;> rfl
  | succ fuel ih =>
      cases bytes with
      | nil => cases other <;> rfl
      | cons byte rest =>
          cases other with
          | zero => exact absurd others (Nat.not_succ_le_zero _)
          | succ other =>
              have shorter : (decodeNext byte rest).2.length ≤ rest.length := length_decodeNext
              rw [decodeFrom, decodeFrom, ih (Nat.le_trans shorter (Nat.le_of_succ_le_succ enough))
                (Nat.le_trans shorter (Nat.le_of_succ_le_succ others))]

theorem decode_nil : decode [] = [] := rfl

theorem decode_cons : decode (byte :: rest) =
    (decodeNext byte rest).1 :: decode (decodeNext byte rest).2 := by
  rw [decode, List.length_cons, decodeFrom, decode,
    decodeFrom_enough length_decodeNext (le_refl _)]

/-! ## A text comes back -/

/-- The bytes that follow a first byte, up to the point that they spell. -/
inductive Follows : Nat → Nat → Nat → List UInt8 → Nat → Prop where
  | done {least most point : Nat} : Follows least most point [] point
  | next {least most point value : Nat} {byte : UInt8} {tail : List UInt8} :
      least ≤ byte.toNat → byte.toNat ≤ most →
      Follows 0x80 0xBF (point * 64 + (byte.toNat - 0x80)) tail value →
      Follows least most point (byte :: tail) value

namespace Follows

variable {tail : List UInt8} {value : Nat}

theorem reads (follows : Follows least most point tail value) :
    follow tail.length least most point (tail ++ rest) = (some value, rest) := by
  induction follows with
  | done => rfl
  | next low high _ ih =>
      rw [List.length_cons, List.cons_append, follow, if_pos ⟨low, high⟩]
      exact ih

/-- Without the last of them there is no point, and no byte is left. -/
theorem cut (follows : Follows least most point tail value) {n : Nat} (short : n < tail.length) :
    follow tail.length least most point (tail.take n) = (none, []) := by
  induction follows generalizing n with
  | done => exact absurd short (Nat.not_lt_zero n)
  | next low high _ ih =>
      cases n with
      | zero => rfl
      | succ n =>
          rw [List.length_cons, List.take_succ_cons, follow, if_pos ⟨low, high⟩]
          exact ih (Nat.lt_of_succ_lt_succ short)

end Follows

theorem toNat_ofNat_of_lt {n : Nat} (small : n < 256) : (UInt8.ofNat n).toNat = n := by
  rw [UInt8.toNat_ofNat', Nat.mod_eq_of_lt small]

/-- The bytes after the first hold six bits each. -/
theorem Follows.six {value : Nat} {tail : List UInt8} (low : least ≤ value % 64 + 0x80)
    (high : value % 64 + 0x80 ≤ most) {all : Nat}
    (follows : Follows 0x80 0xBF (point * 64 + value % 64) tail all) :
    Follows least most point (UInt8.ofNat (value % 64 + 0x80) :: tail) all := by
  have byte : (UInt8.ofNat (value % 64 + 0x80)).toNat = value % 64 + 0x80 :=
    toNat_ofNat_of_lt (by omega)
  refine .next (byte.symm ▸ low) (byte.symm ▸ high) ?_
  rw [byte, Nat.add_sub_cancel]
  exact follows

/-- The last of them. -/
theorem Follows.last {value : Nat} (low : least ≤ value % 64 + 0x80)
    (high : value % 64 + 0x80 ≤ most) (spelled : value = point * 64 + value % 64) :
    Follows least most point [UInt8.ofNat (value % 64 + 0x80)] value := by
  refine .six low high ?_
  rw [← spelled]
  exact .done

/-- A character, spelled by a first byte and those that follow it. -/
def Spells (bytes : List UInt8) (value : Nat) : Prop :=
  ∃ first tail bits least most, bytes = first :: tail ∧
    lead first.toNat = some ⟨bits, tail.length, least, most⟩ ∧
    Follows least most bits tail value

theorem spells_one {value : Nat} (small : value ≤ 0x7F) : Spells [UInt8.ofNat value] value := by
  refine ⟨_, _, value, 0x80, 0xBF, rfl, ?_, .done⟩
  rw [toNat_ofNat_of_lt (by omega), lead, if_pos small]
  rfl

theorem spells_two {value : Nat} (large : 0x7F < value) (small : value ≤ 0x7FF) :
    Spells [UInt8.ofNat (value / 64 % 0x20 + 0xC0), UInt8.ofNat (value % 64 + 0x80)] value := by
  have bits : value / 64 % 0x20 + 0xC0 - 0xC0 = value / 64 := by omega
  refine ⟨_, _, value / 64, 0x80, 0xBF, rfl, ?_, .last ?_ ?_ ?_⟩
  · rw [toNat_ofNat_of_lt (by omega), lead, if_neg (by omega), if_pos (by omega), bits]
    rfl
  all_goals omega

theorem spells_three {value : Nat} (large : 0x7FF < value) (small : value ≤ 0xFFFF)
    (scalar : value < 0xD800 ∨ 0xDFFF < value) :
    Spells [UInt8.ofNat (value / 4096 % 0x10 + 0xE0), UInt8.ofNat (value / 64 % 64 + 0x80),
      UInt8.ofNat (value % 64 + 0x80)] value := by
  have bits : value / 4096 % 0x10 + 0xE0 - 0xE0 = value / 4096 := by omega
  refine ⟨_, _, value / 4096, if value / 4096 % 0x10 + 0xE0 = 0xE0 then 0xA0 else 0x80,
    if value / 4096 % 0x10 + 0xE0 = 0xED then 0x9F else 0xBF, rfl, ?_,
    .six ?_ ?_ (.last ?_ ?_ ?_)⟩
  · rw [toNat_ofNat_of_lt (by omega), lead, if_neg (by omega), if_neg (by omega),
      if_pos (by omega), bits]
    rfl
  · split <;> omega
  · split <;> omega
  all_goals omega

theorem spells_four {value : Nat} (large : 0xFFFF < value) (small : value < 0x110000) :
    Spells [UInt8.ofNat (value / 262144 % 0x08 + 0xF0), UInt8.ofNat (value / 4096 % 64 + 0x80),
      UInt8.ofNat (value / 64 % 64 + 0x80), UInt8.ofNat (value % 64 + 0x80)] value := by
  have bits : value / 262144 % 0x08 + 0xF0 - 0xF0 = value / 262144 := by omega
  refine ⟨_, _, value / 262144, if value / 262144 % 0x08 + 0xF0 = 0xF0 then 0x90 else 0x80,
    if value / 262144 % 0x08 + 0xF0 = 0xF4 then 0x8F else 0xBF, rfl, ?_,
    .six ?_ ?_ (.six ?_ ?_ (.last ?_ ?_ ?_))⟩
  · rw [toNat_ofNat_of_lt (by omega), lead, if_neg (by omega), if_neg (by omega),
      if_neg (by omega), if_pos (by omega), bits]
    rfl
  · split <;> omega
  · split <;> omega
  all_goals omega

theorem encodeChar_spells (c : Char) : Spells (String.utf8EncodeChar c) c.toNat := by
  have scalar : c.toNat < 0xD800 ∨ 0xDFFF < c.toNat ∧ c.toNat < 0x110000 := c.valid
  rw [String.utf8EncodeChar]
  change Spells (ite (c.toNat ≤ 0x7f) _ _) _
  split
  · rename_i small
    exact spells_one small
  · rename_i above
    change Spells (ite (c.toNat ≤ 0x7ff) _ _) _
    split
    · rename_i small
      exact spells_two (not_le.mp above) small
    · rename_i above
      change Spells (ite (c.toNat ≤ 0xffff) _ _) _
      split
      · rename_i small
        exact spells_three (not_le.mp above) small (scalar.imp_right And.left)
      · rename_i above
        refine spells_four (not_le.mp above) (scalar.elim (fun low => ?_) And.right)
        exact Nat.lt_trans low (by decide)

/-! ## Characters -/

/-- A whole character is read. -/
theorem decode_encodeChar (c : Char) (rest : List UInt8) :
    decode (String.utf8EncodeChar c ++ rest) = c :: decode rest := by
  rcases encodeChar_spells c with ⟨first, tail, bits, least, most, spelled, leads, follows⟩
  rw [spelled, List.cons_append, decode_cons, decodeNext, leads]
  dsimp only
  rw [follows.reads]
  exact congrArg (· :: decode rest) (Char.ofNat_toNat c)

/-- A character without its last bytes is replaced. -/
theorem decode_encodeChar_cut (c : Char) {n : Nat} (some : 0 < n)
    (short : n < (String.utf8EncodeChar c).length) :
    decode ((String.utf8EncodeChar c).take n) = [replacement] := by
  rcases encodeChar_spells c with ⟨first, tail, bits, least, most, spelled, leads, follows⟩
  rw [spelled] at short ⊢
  cases n with
  | zero => exact absurd some (Nat.lt_irrefl 0)
  | succ n =>
      rw [List.take_succ_cons, decode_cons, decodeNext, leads]
      dsimp only
      rw [follows.cut (Nat.lt_of_succ_lt_succ short)]
      rfl

/-! ## Texts -/

theorem encode_cons (c : Char) (text : List Char) :
    encode (c :: text) = String.utf8EncodeChar c ++ encode text :=
  List.flatMap_cons

theorem length_whole (cap : Nat) (text : List Char) : (encode (whole cap text)).length ≤ cap := by
  induction text generalizing cap with
  | nil => exact Nat.zero_le cap
  | cons c text ih =>
      rw [whole]
      split
      · rename_i fits
        rw [encode_cons, List.length_append]
        exact Nat.add_le_of_le_sub' fits (ih _)
      · exact Nat.zero_le cap

theorem whole_eq_self {cap : Nat} {text : List Char} :
    whole cap text = text ↔ (encode text).length ≤ cap := by
  constructor
  · intro same
    rw [← same]
    exact length_whole cap text
  · intro fits
    induction text generalizing cap with
    | nil => rfl
    | cons c text ih =>
        rw [encode_cons, List.length_append] at fits
        rw [whole, if_pos (Nat.le_of_add_right_le fits), ih (Nat.le_sub_of_add_le' fits)]

/-- From the first bytes of a text come its whole characters, and one replacement character
where they end within a character. -/
theorem decode_take (cap : Nat) (text : List Char) :
    decode ((encode text).take cap) =
      whole cap text ++ if CutWithin cap text then [replacement] else [] := by
  induction text generalizing cap with
  | nil =>
      have uncut : ¬ CutWithin cap [] := fun cut =>
        Nat.not_lt_zero _ (Nat.lt_of_lt_of_le cut (Nat.min_le_right _ _))
      rw [encode, List.flatMap_nil, List.take_nil, whole, if_neg uncut]
      rfl
  | cons c text ih =>
      rw [encode_cons, List.take_append, whole]
      split
      · rename_i fits
        have cut : CutWithin (cap - (String.utf8EncodeChar c).length) text ↔
            CutWithin cap (c :: text) := by
          rw [CutWithin, CutWithin, whole, if_pos fits, encode_cons, encode_cons,
            List.length_append, List.length_append]
          omega
        rw [List.take_of_length_le fits, decode_encodeChar, ih, List.cons_append,
          if_congr cut rfl rfl]
      · rename_i short
        have within : CutWithin cap (c :: text) ↔ 0 < cap := by
          rw [CutWithin, whole, if_neg short, encode_cons, List.length_append, encode,
            List.flatMap_nil, List.length_nil]
          omega
        rw [Nat.sub_eq_zero_of_le (Nat.le_of_lt (not_le.mp short)), List.take_zero,
          List.append_nil, List.nil_append, if_congr within rfl rfl]
        split
        · rename_i positive
          exact decode_encodeChar_cut c positive (not_le.mp short)
        · rename_i none
          rw [Nat.eq_zero_of_not_pos none, List.take_zero, decode_nil]

end Utf8

end Reading
