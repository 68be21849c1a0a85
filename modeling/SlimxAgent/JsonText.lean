import SlimxAgent.Json
import SlimxAgent.Reading.Reader

/-!
# JSON text

`json.loads` against `json.dumps`.  The reader takes every JSON text, with the white space
and the escapes that the renderer never uses.  The values it returns are exactly the
canonical ones, and rendering one of these and reading it again gives it back.
-/

namespace SlimxAgent

open Reading Reader

namespace Json

/-! ## Numbers -/

def nonempty (run : List Char) : Reader (List Char) :=
  if run = [] then refuse else return run

def someDigits : Reader (List Char) := do
  nonempty (← span Char.isDigit)

def naturalFrom (c : Char) : Reader (List Char) :=
  if c = '0' then return ['0']
  else if c.isDigit then do return c :: (← span Char.isDigit)
  else refuse

/-- `0|[1-9][0-9]*`. -/
def natural : Reader (List Char) := do
  naturalFrom (← char)

def negative : Reader (List Char) := do
  expect '-'
  return '-' :: (← natural)

def fraction : Reader (List Char) := do
  expect '.'
  return '.' :: (← someDigits)

def signFrom (c : Char) : Reader (List Char) :=
  if c = '+' ∨ c = '-' then return [c] else refuse

def sign : Reader (List Char) := do
  signFrom (← char)

def scaled (e : Char) (signed : List Char) : Reader (List Char) := do
  return e :: (signed ++ (← someDigits))

def exponentFrom (e : Char) : Reader (List Char) :=
  if e = 'e' ∨ e = 'E' then do scaled e (← optionally sign) else refuse

def exponent : Reader (List Char) := do
  exponentFrom (← char)

def integerOf : List Char → Int
  | '-' :: digits => -(Nat.ofDigitChars 10 digits 0 : Nat)
  | digits => (Nat.ofDigitChars 10 digits 0 : Nat)

section Floats

-- The text that `json.dumps` writes for the float that a text denotes.
variable (floatText : String → String)

/-- A number without a fraction and an exponent is an integer. -/
def numberOf (whole part scale : List Char) : Json :=
  if part = [] ∧ scale = [] then .int (integerOf whole)
  else .real (floatText (String.ofList (whole ++ (part ++ scale))))

def withScale (whole part : List Char) : Reader Json := do
  return numberOf floatText whole part (← optionally exponent)

def withFraction (whole : List Char) : Reader Json := do
  withScale floatText whole (← optionally fraction)

/-- `-?(0|[1-9][0-9]*)(\.[0-9]+)?([eE][-+]?[0-9]+)?`. -/
def number : Reader Json := do
  withFraction floatText (← negative.either natural)

def constant (name : String) : Reader Json := do
  literal name.toList
  return .real name

/-- A number, or one of the constants that `json` reads beside the numbers of JSON. -/
def scanNumber : Reader Json :=
  (number floatText).either
    ((constant "NaN").either ((constant "Infinity").either (constant "-Infinity")))

end Floats

/-! ## Strings -/

def hexValue (c : Char) : Option Nat :=
  if '0' ≤ c ∧ c ≤ '9' then some (c.toNat - 48)
  else if 'a' ≤ c ∧ c ≤ 'f' then some (c.toNat - 87)
  else if 'A' ≤ c ∧ c ≤ 'F' then some (c.toNat - 55)
  else none

def hexDigit : Reader Nat := do
  let c ← char
  fun text => (hexValue c).map fun value => (value, text)

/-- Four hexadecimal digits: one UTF-16 code unit. -/
def hexUnit : Reader Nat := do
  let first ← hexDigit
  let second ← hexDigit
  let third ← hexDigit
  let fourth ← hexDigit
  return 4096 * first + 256 * second + 16 * third + fourth

/-- The character of a scalar value.  A lone surrogate is none. -/
def scalar (point : Nat) : Reader Char :=
  if point.isValidChar then return Char.ofNat point else refuse

def lowSurrogate (high low : Nat) : Reader Char :=
  if 56320 ≤ low ∧ low ≤ 57343 then scalar (65536 + 1024 * (high - 55296) + (low - 56320))
  else refuse

/-- A high surrogate makes a character with the low surrogate after it. -/
def unitChar (unit : Nat) : Reader Char :=
  if 55296 ≤ unit ∧ unit ≤ 56319 then do
    expect '\\'
    expect 'u'
    lowSurrogate unit (← hexUnit)
  else scalar unit

def escapeFrom (c : Char) : Reader Char :=
  if c = '"' ∨ c = '\\' ∨ c = '/' then return c
  else if c = 'b' then return Char.ofNat 8
  else if c = 'f' then return Char.ofNat 12
  else if c = 'n' then return '\n'
  else if c = 'r' then return '\r'
  else if c = 't' then return '\t'
  else if c = 'u' then do unitChar (← hexUnit)
  else refuse

/-- The next character of a string, or its end. -/
def stringFrom (c : Char) : Reader (Option Char) :=
  if c = '"' then return none
  else if c = '\\' then do return some (← (do escapeFrom (← char)))
  else if c.toNat < 32 then refuse
  else return some c

def stringItem : Reader (Option Char) := do
  stringFrom (← char)

def chars : Reader (List Char) := fun text => many (text.length + 1) stringItem text

def scanString : Reader String := do
  expect '"'
  return String.ofList (← chars)

/-! ## Values -/

def keyed (value : Reader Json) (key : String) : Reader (String × Json) := do
  blanks
  expect ':'
  blanks
  return (key, ← value)

/-- A member of an object. -/
def member (value : Reader Json) : Reader (String × Json) := do
  keyed value (← scanString)

section Floats

variable (floatText : String → String)

/-- The value that starts with the given character. -/
def scanFrom (fuel : Nat) (value : Reader Json) : Option Char → Reader Json
  | some '"' => do return .str (← scanString)
  | some '[' => do return .arr (← enclosed '[' ']' fuel value)
  | some '\x7b' => do return .obj (Dict.update [] (← enclosed '\x7b' '\x7d' fuel (member value)))
  | some 'n' => do
      literal "null".toList
      return .null
  | some 't' => do
      literal "true".toList
      return .bool true
  | some 'f' => do
      literal "false".toList
      return .bool false
  | _ => scanNumber floatText

/-- A value.  The fuel bounds its depth and the length of its lists. -/
def scanOnce : Nat → Reader Json
  | 0 => refuse
  | fuel + 1 => do
      scanFrom floatText fuel (scanOnce fuel) (← peek)

def ended (value : Json) : List Char → Option Json
  | [] => some value
  | _ => none

/-- `json.loads`.  Two kinds of text that it reads or refuses otherwise are outside the
model: an escape of a lone surrogate, which no text of the model holds, and an integer of
more than 4300 digits, which the interpreter refuses by default. -/
def loads (text : String) : Option Json :=
  let visible := text.toList.dropWhile blank
  (scanOnce floatText (visible.length + 1) visible).bind fun read =>
    ended read.1 (read.2.dropWhile blank)

end Floats

/-! ## Numbers, read back -/

variable {floatText : String → String}

def IsDigits (run : List Char) : Prop := run ≠ [] ∧ ∀ c ∈ run, c.isDigit = true

inductive IsNatural : List Char → Prop where
  | zero : IsNatural ['0']
  | digits {c : Char} {run : List Char} : c ≠ '0' → c.isDigit = true →
      (∀ d ∈ run, d.isDigit = true) → IsNatural (c :: run)

inductive IsInteger : List Char → Prop where
  | natural {run : List Char} : IsNatural run → IsInteger run
  | negative {run : List Char} : IsNatural run → IsInteger ('-' :: run)

inductive IsFraction : List Char → Prop where
  | none : IsFraction []
  | digits {run : List Char} : IsDigits run → IsFraction ('.' :: run)

inductive IsExponent : List Char → Prop where
  | none : IsExponent []
  | unsigned {e : Char} {run : List Char} : (e = 'e' ∨ e = 'E') → IsDigits run →
      IsExponent (e :: run)
  | signed {e sign : Char} {run : List Char} : (e = 'e' ∨ e = 'E') → (sign = '+' ∨ sign = '-') →
      IsDigits run → IsExponent (e :: sign :: run)

def notDigit (c : Char) : Bool := !c.isDigit

/-- What may follow an exponent, or the lack of one. -/
def afterExponent (c : Char) : Bool := notDigit c && c != 'e' && c != 'E'

/-- What may follow a fraction, or the lack of one. -/
def afterFraction (c : Char) : Bool := notDigit c && c != '.'

/-- What comes after a value in a text that was rendered. -/
def delimits (c : Char) : Bool := c == ',' || c == ']' || c == '\x7d'

theorem someDigits_reads {run : List Char} (digits : IsDigits run) :
    someDigits.Reads notDigit run run := by
  have taken : (nonempty run).Reads notDigit [] run := by
    rw [nonempty, if_neg digits.1]
    exact reads_return
  have spanned : (span Char.isDigit).Reads notDigit run run := reads_span digits.2
  have chained := spanned.bind taken fun _ next => next
  rw [List.append_nil] at chained
  exact chained

theorem natural_reads {run : List Char} (spelled : IsNatural run) :
    natural.Reads notDigit run run := by
  cases spelled with
  | zero => exact Reads.after_char reads_return
  | @digits c run leading digit digits =>
      have spanned : (span Char.isDigit).Reads notDigit run run := reads_span digits
      have taken : (naturalFrom c).Reads notDigit run (c :: run) := by
        rw [naturalFrom, if_neg leading, if_pos digit]
        exact spanned.map (c :: ·)
      exact Reads.after_char taken

theorem integer_reads {run : List Char} (spelled : IsInteger run) :
    (negative.either natural).Reads notDigit run run := by
  cases spelled with
  | natural spelled =>
      apply (natural_reads spelled).either_second
      intro rest
      apply expect_refuses
      cases spelled with
      | zero => rfl
      | @digits c run _ digit _ =>
          have differs : c ≠ '-' := by
            rintro rfl
            cases digit
          exact bne_iff_ne.mpr differs
  | @negative run spelled =>
      have minus : (expect '-').Reads (fun _ => true) ['-'] () := reads_expect
      have taken : negative.Reads notDigit ('-' :: run) ('-' :: run) :=
        minus.bind ((natural_reads spelled).map ('-' :: ·)) fun _ _ => next_any
      exact taken.either natural

theorem fraction_reads {run : List Char} (spelled : IsFraction run) :
    (optionally fraction).Reads afterFraction run run := by
  cases spelled with
  | none =>
      apply reads_optionally_none
      intro rest next
      apply expect_refuses
      cases rest with
      | nil => exact next_nil
      | cons c rest =>
          rw [next_cons, afterFraction, Bool.and_eq_true] at next
          exact next.2
  | @digits run digits =>
      have point : (expect '.').Reads (fun _ => true) ['.'] () := reads_expect
      have taken : fraction.Reads notDigit ('.' :: run) ('.' :: run) :=
        point.bind ((someDigits_reads digits).map ('.' :: ·)) fun _ _ => next_any
      apply taken.optionally.narrow
      intro c next
      rw [afterFraction, Bool.and_eq_true] at next
      exact next.1

theorem scaled_reads {e : Char} (exponential : e = 'e' ∨ e = 'E') {signed run : List Char}
    (opens : ∀ rest, (optionally sign) (signed ++ (run ++ rest)) = some (signed, run ++ rest))
    (digits : IsDigits run) :
    exponent.Reads notDigit (e :: (signed ++ run)) (e :: (signed ++ run)) := by
  have taken : (exponentFrom e).Reads notDigit (signed ++ run) (e :: (signed ++ run)) := by
    rw [exponentFrom, if_pos exponential]
    intro rest next
    have scale := (someDigits_reads digits).map (fun run => e :: (signed ++ run)) rest next
    change ((optionally sign) ((signed ++ run) ++ rest)).bind (fun read =>
      scaled e read.1 read.2) = _
    rw [List.append_assoc, opens rest]
    exact scale
  exact Reads.after_char taken

theorem sign_refuses {c : Char} (digit : c.isDigit = true) (rest : List Char) :
    sign (c :: rest) = none := by
  have differs : ¬ (c = '+' ∨ c = '-') := by
    rintro (rfl | rfl) <;> cases digit
  change signFrom c rest = none
  rw [signFrom, if_neg differs]
  rfl

theorem exponent_reads {run : List Char} (spelled : IsExponent run) :
    (optionally exponent).Reads afterExponent run run := by
  have digitless : ∀ c, afterExponent c = true → notDigit c = true := by
    intro c next
    simp only [afterExponent, Bool.and_eq_true] at next
    exact next.1.1
  cases spelled with
  | none =>
      apply reads_optionally_none
      intro rest next
      cases rest with
      | nil => rfl
      | cons c rest =>
          simp only [next_cons, afterExponent, Bool.and_eq_true, bne_iff_ne] at next
          have differs : ¬ (c = 'e' ∨ c = 'E') := fun same => same.elim next.1.2 next.2
          change exponentFrom c rest = none
          rw [exponentFrom, if_neg differs]
          rfl
  | @unsigned e run exponential digits =>
      have unsigned : ∀ rest, (optionally sign) ([] ++ (run ++ rest)) = some ([], run ++ rest) := by
        intro rest
        cases run with
        | nil => exact absurd rfl digits.1
        | cons c run =>
            change ((sign (c :: (run ++ rest))).or _) = _
            rw [sign_refuses (digits.2 c List.mem_cons_self)]
            rfl
      exact (scaled_reads exponential unsigned digits).optionally.narrow digitless
  | @signed e mark run exponential signs digits =>
      have signed : ∀ rest,
          (optionally sign) ([mark] ++ (run ++ rest)) = some ([mark], run ++ rest) := by
        intro rest
        have taken : signFrom mark (run ++ rest) = some ([mark], run ++ rest) := by
          rw [signFrom, if_pos signs]
          rfl
        change (signFrom mark (run ++ rest)).or _ = _
        rw [taken]
        rfl
      exact (scaled_reads exponential signed digits).optionally.narrow digitless

/-- What may follow a number, as its parts see it. -/
theorem delimits_ends {c : Char} (next : delimits c = true) :
    afterExponent c = true ∧ afterFraction c = true ∧ notDigit c = true := by
  simp only [delimits, Bool.or_eq_true, beq_iff_eq] at next
  rcases next with (rfl | rfl) | rfl <;> exact ⟨rfl, rfl, rfl⟩

theorem exponent_head {run : List Char} (spelled : IsExponent run) {rest : List Char}
    (next : Next delimits rest) : Next afterFraction (run ++ rest) := by
  cases spelled with
  | none =>
      cases rest with
      | nil => exact next_nil
      | cons c rest => exact (delimits_ends next).2.1
  | unsigned exponential _ => rcases exponential with rfl | rfl <;> rfl
  | signed exponential _ _ => rcases exponential with rfl | rfl <;> rfl

theorem fraction_head {part scale : List Char} (fractional : IsFraction part)
    (exponential : IsExponent scale) {rest : List Char} (next : Next delimits rest) :
    Next notDigit (part ++ (scale ++ rest)) := by
  cases fractional with
  | digits _ => rfl
  | none =>
      have head := exponent_head exponential next
      rw [List.nil_append]
      generalize scale ++ rest = after at head ⊢
      cases after with
      | nil => exact next_nil
      | cons c after =>
          rw [next_cons, afterFraction, Bool.and_eq_true] at head
          exact head.1

theorem number_reads {whole part scale : List Char} (integral : IsInteger whole)
    (fractional : IsFraction part) (exponential : IsExponent scale) :
    (number floatText).Reads delimits (whole ++ (part ++ scale))
      (numberOf floatText whole part scale) := by
  have scaled : (withScale floatText whole part).Reads delimits scale
      (numberOf floatText whole part scale) := by
    apply Reads.map
    exact (exponent_reads exponential).narrow fun c next => (delimits_ends next).1
  have parted : (withFraction floatText whole).Reads delimits (part ++ scale)
      (numberOf floatText whole part scale) :=
    (fraction_reads fractional).bind scaled fun _ next => exponent_head exponential next
  apply (integer_reads integral).bind parted
  intro rest next
  rw [List.append_assoc]
  exact fraction_head fractional exponential next

/-! ## Integers -/

theorem digitChar_digit {digit : Nat} (small : digit < 10) :
    (Nat.digitChar digit).isDigit = true ∧ (digit ≠ 0 → Nat.digitChar digit ≠ '0') := by
  have each : ∀ digit < 10,
      (Nat.digitChar digit).isDigit = true ∧ (digit ≠ 0 → Nat.digitChar digit ≠ '0') := by
    decide
  exact each digit small

theorem toDigits_leading {value : Nat} (positive : value ≠ 0) :
    ∃ c run, Nat.toDigits 10 value = c :: run ∧ c ≠ '0' := by
  induction value using Nat.strongRecOn with
  | ind value ih =>
      by_cases small : value < 10
      · rw [Nat.toDigits_of_lt_base small]
        exact ⟨_, _, rfl, (digitChar_digit small).2 positive⟩
      · rcases ih (value / 10) (by omega) (by omega) with ⟨c, run, spelled, leading⟩
        rw [Nat.toDigits_of_base_le (by decide) (by omega), spelled]
        exact ⟨c, _, rfl, leading⟩

theorem natural_toDigits (value : Nat) : IsNatural (Nat.toDigits 10 value) := by
  have digit : ∀ c ∈ Nat.toDigits 10 value, c.isDigit = true := fun c member =>
    Nat.isDigit_of_mem_toDigits (by decide) (by decide) member
  by_cases zero : value = 0
  · rw [zero, Nat.toDigits_zero]
    exact .zero
  · rcases toDigits_leading zero with ⟨c, run, spelled, leading⟩
    rw [spelled] at digit ⊢
    exact .digits leading (digit c List.mem_cons_self) fun d member =>
      digit d (List.mem_cons_of_mem _ member)

theorem integerOf_natural {run : List Char} (spelled : IsNatural run) :
    integerOf run = (Nat.ofDigitChars 10 run 0 : Nat) := by
  cases spelled with
  | zero => rfl
  | @digits c run _ digit _ =>
      rw [integerOf]
      intro rest same
      cases same
      cases digit

theorem integer_toString (value : Int) :
    IsInteger (toString value).toList ∧ integerOf (toString value).toList = value := by
  cases value with
  | ofNat value =>
      have spelled : (toString (Int.ofNat value)).toList = Nat.toDigits 10 value :=
        Nat.toList_repr
      rw [spelled, integerOf_natural (natural_toDigits value), Nat.ofDigitChars_ten_toDigits]
      exact ⟨.natural (natural_toDigits value), rfl⟩
  | negSucc value =>
      have spelled : (toString (Int.negSucc value)).toList =
          '-' :: Nat.toDigits 10 (value + 1) := by
        change ("-" ++ (value + 1).repr).toList = _
        rw [String.toList_append, Nat.toList_repr]
        rfl
      rw [spelled]
      refine ⟨.negative (natural_toDigits _), ?_⟩
      rw [integerOf, Nat.ofDigitChars_ten_toDigits]
      rfl

theorem scanNumber_int (value : Int) :
    (scanNumber floatText).Reads delimits (toString value).toList (.int value) := by
  have spelled := integer_toString value
  have whole : (number floatText).Reads delimits _ _ := number_reads spelled.1 .none .none
  rw [numberOf, if_pos ⟨rfl, rfl⟩, spelled.2, List.append_nil, List.append_nil] at whole
  exact whole.either _

/-- A rendering of a number with a fraction or an exponent, or of one of the constants. -/
inductive IsReal : String → Prop where
  | number {whole part scale : List Char} : IsInteger whole → IsFraction part →
      IsExponent scale → ¬ (part = [] ∧ scale = []) →
      IsReal (String.ofList (whole ++ (part ++ scale)))
  | constant {name : String} : name ∈ ["NaN", "Infinity", "-Infinity"] → IsReal name

/-- Writing a float keeps the float, so writing it again writes the same. -/
structure WritesFloats (floatText : String → String) : Prop where
  real : ∀ {text}, IsReal text → IsReal (floatText text)
  stable : ∀ {text}, IsReal text → floatText (floatText text) = floatText text
  constant : ∀ {name}, name ∈ ["NaN", "Infinity", "-Infinity"] → floatText name = name

theorem constant_reads (name : String) :
    (constant name).Reads delimits name.toList (.real name) := by
  have taken : (literal name.toList).Reads delimits name.toList () := reads_literal _
  exact taken.map fun _ => Json.real name

theorem scanNumber_real {rendering : String} (real : IsReal rendering)
    (written : floatText rendering = rendering) :
    (scanNumber floatText).Reads delimits rendering.toList (.real rendering) := by
  cases real with
  | number integral fractional exponential broken =>
      have whole : (number floatText).Reads delimits _ _ :=
        number_reads integral fractional exponential
      rw [numberOf, if_neg broken, written] at whole
      rw [String.toList_ofList]
      exact whole.either _
  | constant listed =>
      rw [List.mem_cons, List.mem_cons, List.mem_singleton] at listed
      rcases listed with rfl | rfl | rfl
      · apply ((constant_reads "NaN").either _).either_second
        intro rest
        rfl
      · apply Reads.either_second
        · apply ((constant_reads "Infinity").either _).either_second
          intro rest
          rfl
        · intro rest
          rfl
      · apply Reads.either_second
        · apply Reads.either_second
          · apply (constant_reads "-Infinity").either_second
            intro rest
            rfl
          · intro rest
            rfl
        · intro rest
          rfl

/-! ## Strings, read back -/

theorem hexValue_digitChar {digit : Nat} (small : digit < 16) :
    hexValue (Nat.digitChar digit) = some digit := by
  have each : ∀ digit < 16, hexValue (Nat.digitChar digit) = some digit := by decide
  exact each digit small

section Strings

variable {follow : Char → Bool}

theorem hexDigit_reads {digit : Nat} (small : digit < 16) :
    hexDigit.Reads follow [Nat.digitChar digit] digit := by
  intro rest _
  change (hexValue (Nat.digitChar digit)).map _ = _
  rw [hexValue_digitChar small]
  rfl

/-- The four digits of a code unit. -/
def unitDigits (unit : Nat) : List Char :=
  [Nat.digitChar (unit / 4096), Nat.digitChar (unit / 256 % 16), Nat.digitChar (unit / 16 % 16),
    Nat.digitChar (unit % 16)]

theorem unitEscape_toList (unit : Nat) :
    (unitEscape unit).toList = '\\' :: 'u' :: unitDigits unit := by
  rw [unitEscape, String.toList_ofList]
  rfl

theorem hexUnit_reads {unit : Nat} (small : unit < 65536) :
    hexUnit.Reads follow (unitDigits unit) unit := by
  have digit : ∀ {digit : Nat}, digit < 16 →
      hexDigit.Reads (fun _ => true) [Nat.digitChar digit] digit := hexDigit_reads
  have last : hexDigit.Reads follow [Nat.digitChar (unit % 16)] (unit % 16) :=
    hexDigit_reads (by omega)
  have taken := last.map fun fourth =>
    4096 * (unit / 4096) + 256 * (unit / 256 % 16) + 16 * (unit / 16 % 16) + fourth
  have value : 4096 * (unit / 4096) + 256 * (unit / 256 % 16) + 16 * (unit / 16 % 16) +
      unit % 16 = unit := by omega
  rw [value] at taken
  have third : unit / 16 % 16 < 16 := by omega
  have second : unit / 256 % 16 < 16 := by omega
  have first : unit / 4096 < 16 := by omega
  apply (digit first).bind ?_ fun _ _ => next_any
  apply (digit second).bind ?_ fun _ _ => next_any
  exact (digit third).bind taken fun _ _ => next_any

theorem scalar_reads (c : Char) : (scalar c.toNat).Reads follow [] c := by
  have valid : c.toNat.isValidChar := c.valid
  rw [scalar, if_pos valid, Char.ofNat_toNat]
  exact reads_return

/-- A code unit that is a character. -/
theorem escape_unit {c : Char} (small : c.toNat < 65536) :
    (escapeFrom 'u').Reads follow (unitDigits c.toNat) c := by
  have valid : c.toNat.isValidChar := c.valid
  have single : ¬ (55296 ≤ c.toNat ∧ c.toNat ≤ 56319) := by
    rw [Nat.isValidChar] at valid
    omega
  have taken : (unitChar c.toNat).Reads follow [] c := by
    rw [unitChar, if_neg single]
    exact scalar_reads c
  have unit : hexUnit.Reads follow (unitDigits c.toNat) c.toNat := hexUnit_reads small
  have chained := unit.bind taken fun _ next => next
  rw [List.append_nil] at chained
  exact chained

/-- A surrogate pair. -/
theorem escape_pair {c : Char} (large : ¬ c.toNat < 65536) :
    (escapeFrom 'u').Reads follow
      (unitDigits (55296 + (c.toNat - 65536) / 1024) ++
        '\\' :: 'u' :: unitDigits (56320 + (c.toNat - 65536) % 1024)) c := by
  have valid : c.toNat.isValidChar := c.valid
  have bounded : c.toNat < 1114112 := by
    rw [Nat.isValidChar] at valid
    omega
  have high : 55296 ≤ 55296 + (c.toNat - 65536) / 1024 ∧
      55296 + (c.toNat - 65536) / 1024 ≤ 56319 := by omega
  have low : 56320 ≤ 56320 + (c.toNat - 65536) % 1024 ∧
      56320 + (c.toNat - 65536) % 1024 ≤ 57343 := by omega
  have point : 65536 + 1024 * (55296 + (c.toNat - 65536) / 1024 - 55296) +
      (56320 + (c.toNat - 65536) % 1024 - 56320) = c.toNat := by omega
  have joined : (lowSurrogate (55296 + (c.toNat - 65536) / 1024)
      (56320 + (c.toNat - 65536) % 1024)).Reads follow [] c := by
    rw [lowSurrogate, if_pos low, point]
    exact scalar_reads c
  have units : ∀ {follow : Char → Bool} {unit : Nat}, unit < 65536 →
      hexUnit.Reads follow (unitDigits unit) unit := hexUnit_reads
  have lowUnit : 56320 + (c.toNat - 65536) % 1024 < 65536 := by omega
  have highUnit : 55296 + (c.toNat - 65536) / 1024 < 65536 := by omega
  have second := (units lowUnit).bind joined fun _ next => next
  rw [List.append_nil] at second
  have slash : (expect '\\').Reads (fun _ => true) ['\\'] () := reads_expect
  have u : (expect 'u').Reads (fun _ => true) ['u'] () := reads_expect
  have taken : (unitChar (55296 + (c.toNat - 65536) / 1024)).Reads follow
      ('\\' :: 'u' :: unitDigits (56320 + (c.toNat - 65536) % 1024)) c := by
    rw [unitChar, if_pos high]
    exact slash.bind (u.bind second fun _ _ => next_any) fun _ _ => next_any
  exact (units highUnit).bind taken fun _ _ => next_any

theorem escape_reads {c d : Char} {text : List Char}
    (reads : (escapeFrom d).Reads follow text c) :
    stringItem.Reads follow ('\\' :: d :: text) (some c) := by
  have escaped : (do escapeFrom (← char)).Reads follow (d :: text) c := reads.after_char
  have taken : (stringFrom '\\').Reads follow (d :: text) (some c) := escaped.map some
  exact taken.after_char

/-- Every rendered character is read back. -/
theorem stringItem_reads (c : Char) :
    stringItem.Reads follow (dumpsChar c).toList (some c) := by
  have named : ∀ {d e : Char}, escapeFrom d = pure e →
      stringItem.Reads follow ['\\', d] (some e) := by
    intro d e escapes
    apply escape_reads
    rw [escapes]
    exact reads_return
  have control : ∀ {point : Nat}, c.toNat = point → c = Char.ofNat point := by
    intro point same
    rw [← same, Char.ofNat_toNat]
  rw [dumpsChar]
  split
  · rename_i same
    exact same ▸ named rfl
  split
  · rename_i same
    exact same ▸ named rfl
  split
  · rename_i same
    exact same ▸ named rfl
  split
  · rename_i same
    exact same ▸ named rfl
  split
  · rename_i same
    exact same ▸ named rfl
  split
  · rename_i same
    exact control same ▸ named rfl
  split
  · rename_i same
    exact control same ▸ named rfl
  split
  · rename_i notSlash notQuote _ _ _ _ _ printable
    have taken : (stringFrom c).Reads follow [] (some c) := by
      rw [stringFrom, if_neg notQuote, if_neg notSlash, if_neg (Nat.not_lt.mpr printable.1)]
      exact reads_return
    rw [String.toList_singleton]
    exact taken.after_char
  split
  · rename_i small
    rw [unitEscape_toList]
    exact escape_reads (escape_unit small)
  · rename_i large
    rw [String.toList_append, unitEscape_toList, unitEscape_toList]
    exact escape_reads (escape_pair large)

theorem dumpsChar_length (c : Char) : 0 < (dumpsChar c).toList.length := by
  have reads : stringItem.Reads (fun _ => true) (dumpsChar c).toList (some c) :=
    stringItem_reads c
  have read := reads.all
  cases spelled : (dumpsChar c).toList with
  | nil =>
      rw [spelled] at read
      cases read
  | cons d rest => exact Nat.succ_pos _

theorem dumpsStr_toList (text : String) :
    (dumpsStr text).toList =
      '"' :: (text.toList.flatMap (fun c => (dumpsChar c).toList) ++ ['"']) := by
  rw [dumpsStr, String.toList_append, String.toList_append, String.toList_join, List.flatMap_map]
  rfl

theorem scanString_reads (text : String) :
    scanString.Reads follow (dumpsStr text).toList text := by
  have characters : chars.Reads follow
      (text.toList.flatMap (fun c => (dumpsChar c).toList) ++ ['"']) text.toList := by
    intro rest next
    have each : ∀ entry ∈ text.toList.map fun c => ((dumpsChar c).toList, c),
        stringItem.Reads (fun _ => true) entry.1 (some entry.2) := by
      intro entry member
      rcases List.mem_map.mp member with ⟨c, _, rfl⟩
      exact stringItem_reads c
    have closes : stringItem.Reads follow ['"'] none := by
      have quote : (stringFrom '"').Reads follow [] none := reads_return
      exact quote.after_char
    have enough : (text.toList.map fun c => ((dumpsChar c).toList, c)).length <
        (text.toList.flatMap (fun c => (dumpsChar c).toList) ++ ['"'] ++ rest).length + 1 := by
      have bounded : text.toList.length ≤
          (text.toList.flatMap fun c => (dumpsChar c).toList).length :=
        length_le_flatMap fun c _ => dumpsChar_length c
      rw [List.length_map, List.length_append, List.length_append]
      omega
    have read := reads_many each closes (fun _ _ _ => next_any) (fun _ => next_any) enough rest
      next
    rw [List.flatMap_map, List.map_map] at read
    have same : text.toList.map (Prod.snd ∘ fun c => ((dumpsChar c).toList, c)) = text.toList :=
      List.map_id _
    rw [same] at read
    exact read
  have quote : (expect '"').Reads (fun _ => true) ['"'] () := reads_expect
  rw [dumpsStr_toList]
  have content := characters.map String.ofList
  rw [String.ofList_toList] at content
  exact quote.bind content fun _ _ => next_any

end Strings

/-! ## Values, read back -/

/-- The values that a JSON text can have: floats are as they are written, and no object has
a key twice. -/
inductive Canonical (floatText : String → String) : Json → Prop where
  | null : Canonical floatText .null
  | bool (value : Bool) : Canonical floatText (.bool value)
  | int (value : Int) : Canonical floatText (.int value)
  | real {rendering : String} : IsReal rendering → floatText rendering = rendering →
      Canonical floatText (.real rendering)
  | str (value : String) : Canonical floatText (.str value)
  | arr {items : List Json} : (∀ item ∈ items, Canonical floatText item) →
      Canonical floatText (.arr items)
  | obj {fields : Dict} : (fields.map Prod.fst).Nodup →
      (∀ entry ∈ fields, Canonical floatText entry.2) → Canonical floatText (.obj fields)

/-- A character that a rendered value starts with. -/
def begins (c : Char) : Bool := !blank c && !delimits c

theorem dumpsItems_eq (items : List Json) : dumpsItems items = items.map dumps := by
  induction items with
  | nil => rfl
  | cons item items ih => rw [dumpsItems, ih, List.map_cons]

theorem dumpsFields_eq (fields : Dict) :
    dumpsFields fields = fields.map fun entry => dumpsStr entry.1 ++ ": " ++ entry.2.dumps := by
  induction fields with
  | nil => rfl
  | cons entry fields ih => rw [dumpsFields, ih, List.map_cons]

theorem dumps_arr (items : List Json) : (dumps (.arr items)).toList =
    '[' :: ([',', ' '].intercalate (items.map fun item => item.dumps.toList) ++ [']']) := by
  rw [dumps, String.toList_append, String.toList_append, String.toList_intercalate,
    dumpsItems_eq, List.map_map]
  rfl

/-- A member of an object, rendered. -/
def dumpsMember (entry : String × Json) : List Char :=
  (dumpsStr entry.1).toList ++ ':' :: ' ' :: entry.2.dumps.toList

theorem dumps_obj (fields : Dict) : (dumps (.obj fields)).toList =
    '\x7b' :: ([',', ' '].intercalate (fields.map dumpsMember) ++ ['\x7d']) := by
  rw [dumps, String.toList_append, String.toList_append, String.toList_intercalate,
    dumpsFields_eq, List.map_map]
  have members : (String.toList ∘ fun entry : String × Json =>
      dumpsStr entry.1 ++ ": " ++ entry.2.dumps) = dumpsMember := by
    funext entry
    simp [dumpsMember]
  rw [members]
  rfl

/-- A character that a number or a constant starts with. -/
def numeric (c : Char) : Bool := c.isDigit || c == '-' || c == 'N' || c == 'I'

theorem numeric_begins {c : Char} (number : numeric c = true) : begins c = true := by
  cases starts : begins c with
  | true => rfl
  | false =>
      simp only [begins, blank, delimits, Bool.and_eq_false_iff, Bool.not_eq_false',
        Bool.or_eq_true, beq_iff_eq] at starts
      rcases starts with (((rfl | rfl) | rfl) | rfl) | (rfl | rfl) | rfl <;> cases number

theorem natural_head {run : List Char} (spelled : IsNatural run) :
    ∃ c rest, run = c :: rest ∧ numeric c = true := by
  cases spelled with
  | zero => exact ⟨_, _, rfl, rfl⟩
  | @digits c run _ digit _ =>
      refine ⟨c, run, rfl, ?_⟩
      rw [numeric, digit]
      rfl

theorem integer_head {run : List Char} (spelled : IsInteger run) :
    ∃ c rest, run = c :: rest ∧ numeric c = true := by
  cases spelled with
  | natural spelled => exact natural_head spelled
  | negative spelled => exact ⟨_, _, rfl, rfl⟩

theorem real_head {rendering : String} (real : IsReal rendering) :
    ∃ c rest, rendering.toList = c :: rest ∧ numeric c = true := by
  cases real with
  | number integral _ _ _ =>
      rcases integer_head integral with ⟨c, rest, rfl, number⟩
      rw [String.toList_ofList]
      exact ⟨c, _, rfl, number⟩
  | constant listed =>
      rw [List.mem_cons, List.mem_cons, List.mem_singleton] at listed
      rcases listed with rfl | rfl | rfl <;> exact ⟨_, _, rfl, rfl⟩

/-- A rendered value starts with a character that is no white space and no delimiter. -/
theorem dumps_head {value : Json} (canonical : value.Canonical floatText) :
    ∃ c rest, value.dumps.toList = c :: rest ∧ begins c = true := by
  cases canonical with
  | null => exact ⟨_, _, rfl, rfl⟩
  | bool value => cases value <;> exact ⟨_, _, rfl, rfl⟩
  | int value =>
      rcases integer_head (integer_toString value).1 with ⟨c, rest, spelled, number⟩
      exact ⟨c, rest, spelled, numeric_begins number⟩
  | real real _ =>
      rcases real_head real with ⟨c, rest, spelled, number⟩
      exact ⟨c, rest, spelled, numeric_begins number⟩
  | str value => exact ⟨_, _, dumpsStr_toList value, rfl⟩
  | arr _ => exact ⟨_, _, dumps_arr _, rfl⟩
  | obj _ _ => exact ⟨_, _, dumps_obj _, rfl⟩

theorem scanFrom_numeric {fuel : Nat} {value : Reader Json} {c : Char}
    (number : numeric c = true) :
    scanFrom floatText fuel value (some c) = scanNumber floatText := by
  rw [scanFrom]
  all_goals
    intro same
    cases same
    cases number

theorem scan_number {fuel : Nat} {text : List Char} {value : Json}
    (reads : (scanNumber floatText).Reads delimits text value)
    (starts : ∃ c rest, text = c :: rest ∧ numeric c = true) :
    (scanOnce floatText (fuel + 1)).Reads delimits text value := by
  rcases starts with ⟨c, rest, rfl, number⟩
  rw [← scanFrom_numeric number] at reads
  exact reads.after_peek

theorem scan_word {fuel : Nat} {c : Char} {word : List Char} {value : Json}
    (scans : scanFrom floatText fuel (scanOnce floatText fuel) (some c) =
      (do
        literal (c :: word)
        return value)) :
    (scanOnce floatText (fuel + 1)).Reads delimits (c :: word) value := by
  have taken : (literal (c :: word)).Reads delimits (c :: word) () := reads_literal _
  have reads := taken.map fun _ => value
  change (do
    literal (c :: word)
    return value).Reads delimits (c :: word) value at reads
  rw [← scans] at reads
  exact reads.after_peek

theorem scan_string (fuel : Nat) (text : String) :
    (scanOnce floatText (fuel + 1)).Reads delimits (dumpsStr text).toList (.str text) := by
  have reads : scanString.Reads delimits (dumpsStr text).toList text := scanString_reads text
  have taken := reads.map Json.str
  rw [dumpsStr_toList] at taken ⊢
  exact taken.after_peek

theorem separates_delimits {closing c : Char} (bracket : delimits closing = true)
    (next : separates closing c = true) : delimits c = true := by
  rw [separates, Bool.or_eq_true, beq_iff_eq, beq_iff_eq] at next
  rcases next with rfl | rfl
  · rfl
  · exact bracket

theorem begins_opens {closing c : Char} {rest : List Char} (bracket : delimits closing = true)
    (starts : begins c = true) : Opens closing (c :: rest) := by
  rw [begins, Bool.and_eq_true, Bool.not_eq_true', Bool.not_eq_true'] at starts
  refine ⟨c, rest, rfl, starts.1, ?_⟩
  rintro rfl
  rw [bracket] at starts
  cases starts.2

theorem member_reads {value : Reader Json} {key : String} {text : List Char} {result : Json}
    (reads : value.Reads delimits text result)
    (starts : ∃ c rest, text = c :: rest ∧ begins c = true) :
    (member value).Reads delimits ((dumpsStr key).toList ++ ':' :: ' ' :: text)
      (key, result) := by
  have space : blanks.Reads (fun c => !blank c) [' '] () :=
    reads_blanks fun c listed => by
      cases List.mem_singleton.mp listed
      rfl
  have colon : (expect ':').Reads (fun _ => true) [':'] () := reads_expect
  have valued : (do
      blanks
      return (key, ← value)).Reads delimits (' ' :: text) (key, result) := by
    apply space.bind (reads.map fun value => (key, value))
    intro rest _
    rcases starts with ⟨c, tail, rfl, begins⟩
    rw [Json.begins, Bool.and_eq_true] at begins
    exact begins.1
  have pointed : (do
      expect ':'
      blanks
      return (key, ← value)).Reads delimits (':' :: ' ' :: text) (key, result) :=
    colon.bind valued fun _ _ => next_any
  have taken : (keyed value key).Reads delimits (':' :: ' ' :: text) (key, result) := by
    apply reads_no_blanks.bind pointed
    intro rest _
    rfl
  have name : scanString.Reads (fun _ => true) (dumpsStr key).toList key := scanString_reads key
  exact name.bind taken fun _ _ => next_any

theorem arr_reads {items : List Json} {fuel : Nat}
    (each : ∀ item ∈ items, item.Canonical floatText ∧
      (scanOnce floatText fuel).Reads delimits item.dumps.toList item)
    (enough : items.length ≤ fuel) :
    (scanOnce floatText (fuel + 1)).Reads delimits (dumps (.arr items)).toList
      (.arr items) := by
  have values : ∀ item ∈ items,
      (scanOnce floatText fuel).Reads (separates ']') item.dumps.toList item := fun item held =>
    (each item held).2.narrow fun _ => separates_delimits rfl
  have opens : ∀ item ∈ items, Opens ']' item.dumps.toList := by
    intro item held
    rcases dumps_head (each item held).1 with ⟨c, rest, spelled, begins⟩
    rw [spelled]
    exact begins_opens rfl begins
  have list : (enclosed '[' ']' fuel (scanOnce floatText fuel)).Reads delimits _ items :=
    reads_printed rfl (by decide) values opens enough
  have taken := list.map Json.arr
  rw [dumps_arr]
  exact taken.after_peek

theorem obj_reads {fields : Dict} (distinct : (fields.map Prod.fst).Nodup) {fuel : Nat}
    (each : ∀ entry ∈ fields, entry.2.Canonical floatText ∧
      (scanOnce floatText fuel).Reads delimits entry.2.dumps.toList entry.2)
    (enough : fields.length ≤ fuel) :
    (scanOnce floatText (fuel + 1)).Reads delimits (dumps (.obj fields)).toList
      (.obj fields) := by
  have members : ∀ entry ∈ fields,
      (member (scanOnce floatText fuel)).Reads (separates '\x7d') (dumpsMember entry) entry := by
    intro entry held
    have starts : ∃ c rest, entry.2.dumps.toList = c :: rest ∧ begins c = true :=
      dumps_head (each entry held).1
    exact (member_reads (each entry held).2 starts).narrow fun _ => separates_delimits rfl
  have opens : ∀ entry ∈ fields, Opens '\x7d' (dumpsMember entry) := by
    intro entry _
    rw [dumpsMember, dumpsStr_toList]
    exact begins_opens rfl rfl
  have list : (enclosed '\x7b' '\x7d' fuel (member (scanOnce floatText fuel))).Reads delimits _
      fields :=
    reads_printed rfl (by decide) members opens enough
  have taken := list.map fun members => Json.obj (Dict.update [] members)
  have whole : Dict.update [] fields = fields := Dict.update_of_distinct distinct
  rw [whole] at taken
  rw [dumps_obj]
  exact taken.after_peek

/-- A rendered value is read back, whatever follows it in a rendered text. -/
theorem scanOnce_reads {value : Json} (canonical : value.Canonical floatText) :
    ∀ {fuel : Nat}, value.dumps.toList.length ≤ fuel →
      (scanOnce floatText (fuel + 1)).Reads delimits value.dumps.toList value := by
  induction canonical with
  | null => exact fun _ => scan_word rfl
  | bool value => cases value <;> exact fun _ => scan_word rfl
  | int value =>
      exact fun _ => scan_number (scanNumber_int value) (integer_head (integer_toString value).1)
  | real real written =>
      exact fun _ => scan_number (scanNumber_real real written) (real_head real)
  | str value => exact fun _ => scan_string _ value
  | @arr items all ih =>
      intro fuel enough
      cases fuel with
      | zero =>
          rw [dumps_arr, List.length_cons] at enough
          cases enough
      | succ fuel =>
          rw [dumps_arr, List.length_cons, List.length_append] at enough
          have bounds := length_intercalate [',', ' '] (items.map fun item => item.dumps.toList)
          apply arr_reads
          · intro item held
            have short := bounds.1 _ (List.mem_map_of_mem held)
            exact ⟨all item held, ih item held (by omega)⟩
          · have printed := bounds.2 fun text listed => by
              rcases List.mem_map.mp listed with ⟨item, held, rfl⟩
              rcases dumps_head (all item held) with ⟨c, rest, spelled, _⟩
              rw [spelled]
              exact Nat.succ_pos _
            rw [List.length_map] at printed
            omega
  | @obj fields distinct all ih =>
      intro fuel enough
      cases fuel with
      | zero =>
          rw [dumps_obj, List.length_cons] at enough
          cases enough
      | succ fuel =>
          rw [dumps_obj, List.length_cons, List.length_append] at enough
          have bounds := length_intercalate [',', ' '] (fields.map dumpsMember)
          have longer : ∀ entry : String × Json,
              entry.2.dumps.toList.length < (dumpsMember entry).length := by
            intro entry
            rw [dumpsMember, List.length_append, List.length_cons, List.length_cons]
            omega
          apply obj_reads distinct
          · intro entry held
            have short := bounds.1 _ (List.mem_map_of_mem held)
            have shorter := longer entry
            exact ⟨all entry held, ih entry held (by omega)⟩
          · have printed := bounds.2 fun text listed => by
              rcases List.mem_map.mp listed with ⟨entry, _, rfl⟩
              exact Nat.zero_lt_of_lt (longer entry)
            rw [List.length_map] at printed
            omega

/-- Reading what was rendered gives it back. -/
theorem loads_dumps {value : Json} (canonical : value.Canonical floatText) :
    loads floatText value.dumps = some value := by
  have visible : value.dumps.toList.dropWhile blank = value.dumps.toList := by
    rcases dumps_head canonical with ⟨c, rest, spelled, starts⟩
    rw [begins, Bool.and_eq_true, Bool.not_eq_true'] at starts
    rw [spelled, List.dropWhile_cons_of_neg]
    rw [starts.1]
    exact Bool.false_ne_true
  have read := (scanOnce_reads canonical (Nat.le_refl _)).all
  rw [loads, visible, read]
  rfl

/-! ## Every value that is read is canonical -/

theorem someDigits_returns : someDigits.Returns IsDigits := by
  refine (returns_span Char.isDigit).bind fun run digits => ?_
  rw [nonempty]
  split
  · exact returns_refuse
  · rename_i some
    exact returns_return ⟨some, digits⟩

theorem natural_returns : natural.Returns IsNatural := by
  refine returns_any.bind fun c _ => ?_
  rw [naturalFrom]
  split
  · exact returns_return .zero
  split
  · rename_i leading digit
    refine (returns_span Char.isDigit).bind fun run digits => ?_
    exact returns_return (.digits leading digit digits)
  · exact returns_refuse

theorem integer_returns : (negative.either natural).Returns IsInteger := by
  apply Returns.either
  · refine returns_any.bind fun _ _ => natural_returns.bind fun run spelled => ?_
    exact returns_return (.negative spelled)
  · intro text run rest taken
    exact .natural (natural_returns text run rest taken)

theorem fraction_returns : (optionally fraction).Returns IsFraction := by
  refine Returns.optionally ?_ .none
  refine returns_any.bind fun _ _ => someDigits_returns.bind fun run digits => ?_
  exact returns_return (.digits digits)

theorem exponent_returns : (optionally exponent).Returns IsExponent := by
  refine Returns.optionally ?_ .none
  refine returns_any.bind fun e _ => ?_
  rw [exponentFrom]
  split
  · rename_i exponential
    have signs : (optionally sign).Returns fun signed =>
        signed = [] ∨ ∃ mark, signed = [mark] ∧ (mark = '+' ∨ mark = '-') := by
      refine Returns.optionally ?_ (.inl rfl)
      refine returns_any.bind fun mark _ => ?_
      rw [signFrom]
      split
      · rename_i signs
        exact returns_return (.inr ⟨mark, rfl, signs⟩)
      · exact returns_refuse
    refine signs.bind fun signed spelled => someDigits_returns.bind fun run digits => ?_
    rcases spelled with rfl | ⟨mark, rfl, signs⟩
    · exact returns_return (.unsigned exponential digits)
    · exact returns_return (.signed exponential signs digits)
  · exact returns_refuse

variable (writes : WritesFloats floatText)

include writes

theorem number_returns : (number floatText).Returns (Canonical floatText) := by
  refine integer_returns.bind fun whole integral => ?_
  refine fraction_returns.bind fun part fractional => ?_
  refine exponent_returns.bind fun scale exponential => returns_return ?_
  rw [numberOf]
  split
  · exact .int _
  · rename_i broken
    have real := IsReal.number integral fractional exponential broken
    exact .real (writes.real real) (writes.stable real)

theorem scanNumber_returns : (scanNumber floatText).Returns (Canonical floatText) := by
  have constants : ∀ {name : String}, name ∈ ["NaN", "Infinity", "-Infinity"] →
      (constant name).Returns (Canonical floatText) := fun listed =>
    returns_any.bind fun _ _ => returns_return (.real (.constant listed) (writes.constant listed))
  refine (number_returns writes).either
    ((constants ?_).either ((constants ?_).either (constants ?_)))
  all_goals decide

omit writes in
/-- A dictionary made of canonical members, with repeated keys, is canonical. -/
theorem update_canonical {members fields : Dict} (distinct : (fields.map Prod.fst).Nodup)
    (each : ∀ entry ∈ fields, entry.2.Canonical floatText)
    (added : ∀ entry ∈ members, entry.2.Canonical floatText) :
    Canonical floatText (.obj (fields.update members)) := by
  induction members generalizing fields with
  | nil => exact .obj distinct each
  | cons entry members ih =>
      apply ih (Dict.set_keys distinct entry.1 entry.2).1
      · intro held member
        rcases Dict.mem_set member with rfl | before
        · exact added entry List.mem_cons_self
        · exact each held before
      · exact fun held member => added held (List.mem_cons_of_mem _ member)

omit writes in
theorem member_returns {value : Reader Json} (returns : value.Returns (Canonical floatText)) :
    (member value).Returns fun entry => entry.2.Canonical floatText := by
  refine returns_any.bind fun key _ => returns_any.bind fun _ _ => ?_
  refine returns_any.bind fun _ _ => returns_any.bind fun _ _ => ?_
  exact returns.bind fun _ canonical => returns_return canonical

theorem scanOnce_returns (fuel : Nat) :
    (scanOnce floatText fuel).Returns (Canonical floatText) := by
  induction fuel with
  | zero => exact returns_refuse
  | succ fuel ih =>
      refine returns_any.bind fun next _ => ?_
      rw [scanFrom.eq_def]
      split
      · exact returns_any.bind fun text _ => returns_return (.str text)
      · exact (ih.enclosed '[' fuel).bind fun items all => returns_return (.arr all)
      · refine ((member_returns ih).enclosed '\x7b' fuel).bind fun members all => ?_
        apply returns_return
        exact update_canonical List.nodup_nil (fun _ absent => absurd absent List.not_mem_nil) all
      · exact returns_any.bind fun _ _ => returns_return .null
      · exact returns_any.bind fun _ _ => returns_return (.bool true)
      · exact returns_any.bind fun _ _ => returns_return (.bool false)
      · exact scanNumber_returns writes

theorem loads_canonical {text : String} {value : Json}
    (read : loads floatText text = some value) : value.Canonical floatText := by
  rcases Option.bind_eq_some_iff.mp read with ⟨⟨result, rest⟩, taken, whole⟩
  have same : result = value := by
    cases left : rest.dropWhile blank with
    | nil =>
        rw [left] at whole
        exact Option.some.inj whole
    | cons c rest =>
        rw [left] at whole
        cases whole
  exact same ▸ scanOnce_returns writes _ _ _ _ taken

end Json

end SlimxAgent
