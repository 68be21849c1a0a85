import SlimxAgent.Bridge
import SlimxAgent.Exchange
import SlimxAgent.JsonText
import SlimxAgent.Shown

/-!
# The event stream

The streamed endpoint writes one `data:` line for each event and a comment where nothing
came in time.  A client splits the text into lines, takes the `data:` lines and decodes
them.  It reads the events that the drive had from its host, unchanged and in order.
-/

namespace SlimxAgent

open Interaction

/-! ## What is sent -/

def keepaliveComment : String := ": keepalive\n\n"

/-- What is sent for an item of the bridge. -/
def sse : Option Event → String
  | none => keepaliveComment
  | some payload => "data: " ++ (Json.obj payload.fields).dumps ++ "\n\n"

/-- The body of the response so far. -/
def sent (items : List (Option Event)) : String :=
  String.join (items.map sse)

/-! ## What a client reads -/

/-- The line boundaries of `str.splitlines`. -/
def breaksLine (c : Char) : Bool :=
  (10 ≤ c.toNat && c.toNat ≤ 13) || (28 ≤ c.toNat && c.toNat ≤ 30) || c.toNat == 133 ||
    c.toNat == 8232 || c.toNat == 8233

/-- The lines of a text, after the given start of the first one. -/
def splitlines (line : List Char) : List Char → List (List Char)
  | [] => if line = [] then [] else [line]
  | '\r' :: '\n' :: rest => line :: splitlines [] rest
  | c :: rest =>
      if breaksLine c then line :: splitlines [] rest else splitlines (line ++ [c]) rest

/-- `"data: "`. -/
def dataPrefix : List Char := ['d', 'a', 't', 'a', ':', ' ']

/-- `[json.loads(line[len("data: "):]) for line in lines if line.startswith("data: ")]`. -/
def payloads (floatText : String → String) (text : String) : Option (List Json) :=
  ((splitlines [] text.toList).filter dataPrefix.isPrefixOf).mapM fun line =>
    Json.loads floatText (String.ofList (line.drop dataPrefix.length))

/-! ## Rendered values have no line boundary -/

namespace Json

/-- A character of the printable ASCII range. -/
def printable (c : Char) : Bool := 32 ≤ c.toNat && c.toNat ≤ 126

/-- All characters of the text are printable. -/
def Plain (text : List Char) : Prop := ∀ c ∈ text, printable c = true

section Plain

variable {text other run : List Char} {c : Char}

theorem plain_of_all (all : text.all printable = true) : Plain text :=
  List.all_eq_true.mp all

theorem plain_nil : Plain [] := fun _ absent => absurd absent List.not_mem_nil

theorem Plain.cons (first : printable c = true) (rest : Plain text) : Plain (c :: text) := by
  intro d member
  rcases List.mem_cons.mp member with rfl | later
  · exact first
  · exact rest d later

theorem Plain.append (front : Plain text) (back : Plain other) : Plain (text ++ other) := by
  intro c member
  rcases List.mem_append.mp member with before | after
  · exact front c before
  · exact back c after

theorem plain_intercalate {texts : List (List Char)} (plain : ∀ text ∈ texts, Plain text) :
    Plain ([',', ' '].intercalate texts) := by
  cases texts with
  | nil => exact plain_nil
  | cons text texts =>
      rw [Reading.Reader.intercalate_flatMap]
      apply (plain text List.mem_cons_self).append
      intro c member
      rcases List.mem_flatMap.mp member with ⟨other, held, here⟩
      have separator : Plain [',', ' '] := (plain_nil.cons rfl).cons rfl
      exact (separator.append (plain other (List.mem_cons_of_mem _ held))) c here

theorem printable_digit (digit : c.isDigit = true) : printable c = true := by
  have range : 48 ≤ c.toNat ∧ c.toNat ≤ 57 := Char.isDigit_iff_toNat.mp digit
  rw [printable, Bool.and_eq_true, decide_eq_true_eq, decide_eq_true_eq]
  omega

theorem plain_natural (spelled : IsNatural run) : Plain run := by
  cases spelled with
  | zero => exact plain_nil.cons rfl
  | digits _ digit digits =>
      have others : Plain _ := fun d member => printable_digit (digits d member)
      exact others.cons (printable_digit digit)

theorem plain_integer (spelled : IsInteger run) : Plain run := by
  cases spelled with
  | natural spelled => exact plain_natural spelled
  | negative spelled => exact (plain_natural spelled).cons rfl

theorem plain_digits (digits : IsDigits run) : Plain run :=
  fun d member => printable_digit (digits.2 d member)

theorem plain_fraction (spelled : IsFraction run) : Plain run := by
  cases spelled with
  | none => exact plain_nil
  | digits digits => exact (plain_digits digits).cons rfl

theorem plain_exponent (spelled : IsExponent run) : Plain run := by
  cases spelled with
  | none => exact plain_nil
  | unsigned exponential digits =>
      rcases exponential with rfl | rfl <;> exact (plain_digits digits).cons rfl
  | signed exponential signs digits =>
      rcases exponential with rfl | rfl <;> rcases signs with rfl | rfl <;>
        exact ((plain_digits digits).cons rfl).cons rfl

theorem plain_real {rendering : String} (real : IsReal rendering) : Plain rendering.toList := by
  cases real with
  | number integral fractional exponential _ =>
      rw [String.toList_ofList]
      exact (plain_integer integral).append
        ((plain_fraction fractional).append (plain_exponent exponential))
  | constant listed =>
      rw [List.mem_cons, List.mem_cons, List.mem_singleton] at listed
      rcases listed with rfl | rfl | rfl <;> exact plain_of_all (by decide +kernel)

theorem plain_unit {unit : Nat} (small : unit < 65536) : Plain (unitEscape unit).toList := by
  have digit : ∀ digit < 16, printable (Nat.digitChar digit) = true := by decide
  have first : unit / 4096 < 16 := by omega
  have second : unit / 256 % 16 < 16 := by omega
  have third : unit / 16 % 16 < 16 := by omega
  have fourth : unit % 16 < 16 := by omega
  rw [unitEscape_toList, unitDigits]
  have digits := (((plain_nil.cons (digit _ fourth)).cons (digit _ third)).cons
    (digit _ second)).cons (digit _ first)
  exact (digits.cons rfl).cons rfl

theorem plain_dumpsChar (c : Char) : Plain (dumpsChar c).toList := by
  have bounded : c.toNat < 1114112 := by
    have valid : c.toNat.isValidChar := c.valid
    rw [Nat.isValidChar] at valid
    omega
  have pair : ∀ {d : Char}, printable d = true → Plain ['\\', d] :=
    fun shown => (plain_nil.cons shown).cons rfl
  rw [dumpsChar]
  split
  · exact pair rfl
  split
  · exact pair rfl
  split
  · exact pair rfl
  split
  · exact pair rfl
  split
  · exact pair rfl
  split
  · exact pair rfl
  split
  · exact pair rfl
  split
  · rename_i shown
    rw [String.toList_singleton]
    apply plain_nil.cons
    rw [printable, Bool.and_eq_true, decide_eq_true_eq, decide_eq_true_eq]
    exact shown
  split
  · rename_i small
    exact plain_unit small
  · have high : 55296 + (c.toNat - 65536) / 1024 < 65536 := by omega
    have low : 56320 + (c.toNat - 65536) % 1024 < 65536 := by omega
    rw [String.toList_append]
    exact (plain_unit high).append (plain_unit low)

theorem plain_dumpsStr (text : String) : Plain (dumpsStr text).toList := by
  have content : Plain (text.toList.flatMap fun c => (dumpsChar c).toList) := by
    intro d member
    rcases List.mem_flatMap.mp member with ⟨c, _, here⟩
    exact plain_dumpsChar c d here
  rw [dumpsStr_toList]
  exact (content.append (plain_nil.cons rfl)).cons rfl

/-- A rendered value is printable ASCII. -/
theorem plain_dumps {floatText : String → String} {value : Json}
    (canonical : value.Canonical floatText) : Plain value.dumps.toList := by
  induction canonical with
  | null => exact plain_of_all (by decide +kernel)
  | bool value => cases value <;> exact plain_of_all (by decide +kernel)
  | int value => exact plain_integer (integer_toString value).1
  | real real _ => exact plain_real real
  | str value => exact plain_dumpsStr value
  | @arr items all ih =>
      rw [dumps_arr]
      have inner : Plain ([',', ' '].intercalate (items.map fun item => item.dumps.toList)) :=
        plain_intercalate fun text listed => by
          rcases List.mem_map.mp listed with ⟨item, held, rfl⟩
          exact ih item held
      exact (inner.append (plain_nil.cons rfl)).cons rfl
  | @obj fields distinct all ih =>
      rw [dumps_obj]
      have inner : Plain ([',', ' '].intercalate (fields.map dumpsMember)) :=
        plain_intercalate fun text listed => by
          rcases List.mem_map.mp listed with ⟨entry, held, rfl⟩
          exact (plain_dumpsStr entry.1).append (((ih entry held).cons rfl).cons rfl)
      exact (inner.append (plain_nil.cons rfl)).cons rfl

end Plain

end Json

/-! ## A client reads what was sent -/

section Client

open Json

variable {floatText : String → String} {line text rest : List Char}

theorem printable_stays {c : Char} (shown : printable c = true) :
    breaksLine c = false ∧ c ≠ '\r' := by
  rw [printable, Bool.and_eq_true, decide_eq_true_eq, decide_eq_true_eq] at shown
  constructor
  · simp only [breaksLine, Bool.or_eq_false_iff, Bool.and_eq_false_iff, decide_eq_false_iff_not,
      beq_eq_false_iff_ne]
    omega
  · rintro rfl
    exact absurd shown.1 (by decide)

/-- A line ends where it was ended. -/
theorem splitlines_line (plain : Plain text) :
    splitlines line (text ++ '\n' :: rest) = (line ++ text) :: splitlines [] rest := by
  induction text generalizing line with
  | nil =>
      rw [List.nil_append, List.append_nil, splitlines]
      · exact if_pos rfl
      · intro _ same
        cases same
  | cons c text ih =>
      have stays := printable_stays (plain c List.mem_cons_self)
      rw [List.cons_append, splitlines, if_neg (Bool.eq_false_iff.mp stays.1)]
      · rw [ih fun d member => plain d (List.mem_cons_of_mem _ member), List.append_assoc]
        rfl
      · intro _ same
        exact absurd same stays.2

/-- The line of an item. -/
def itemLine : Option Event → List Char
  | none => ": keepalive".toList
  | some payload => dataPrefix ++ (Json.obj payload.fields).dumps.toList

theorem itemLine_some (payload : Event) :
    itemLine (some payload) = dataPrefix ++ (Json.obj payload.fields).dumps.toList :=
  rfl

theorem sse_toList (item : Option Event) :
    (sse item).toList = itemLine item ++ '\n' :: '\n' :: [] := by
  cases item with
  | none => rfl
  | some payload =>
      rw [sse, String.toList_append, String.toList_append]
      rfl

theorem sent_cons (item : Option Event) (items : List (Option Event)) :
    (sent (item :: items)).toList =
      itemLine item ++ '\n' :: ([] ++ '\n' :: (sent items).toList) := by
  rw [sent, sent, List.map_cons, String.toList_join, String.toList_join, List.flatMap_cons,
    sse_toList, List.append_assoc]
  rfl

theorem plain_itemLine {item : Option Event}
    (canonical : ∀ payload, item = some payload → Canonical floatText (.obj payload.fields)) :
    Plain (itemLine item) := by
  cases item with
  | none =>
      have comment : ": keepalive".toList.all printable = true := by decide +kernel
      exact plain_of_all comment
  | some payload =>
      have words : dataPrefix.all printable = true := rfl
      rw [itemLine_some]
      exact (plain_of_all words).append (plain_dumps (canonical payload rfl))

theorem dataLine_read {payload : Event} (canonical : Canonical floatText (.obj payload.fields)) :
    loads floatText (String.ofList ((itemLine (some payload)).drop dataPrefix.length)) =
      some (.obj payload.fields) := by
  rw [itemLine_some, List.drop_left, String.ofList_toList, Json.loads_dumps canonical]

/-- A client decodes the events that were sent, in order, and nothing else. -/
theorem payloads_sent {items : List (Option Event)}
    (canonical : ∀ payload ∈ items.reduceOption, Canonical floatText (.obj payload.fields)) :
    payloads floatText (sent items) =
      some (items.reduceOption.map fun payload => .obj payload.fields) := by
  induction items with
  | nil => rfl
  | cons item items ih =>
      have first : ∀ payload, item = some payload → Canonical floatText (.obj payload.fields) := by
        intro payload same
        subst same
        exact canonical payload (by rw [List.reduceOption_cons_of_some]; exact List.mem_cons_self)
      have others := ih fun payload member => by
        apply canonical payload
        cases item with
        | none => rwa [List.reduceOption_cons_of_none]
        | some first =>
            rw [List.reduceOption_cons_of_some]
            exact List.mem_cons_of_mem _ member
      rw [payloads] at others ⊢
      rw [sent_cons, splitlines_line (plain_itemLine first), splitlines_line plain_nil]
      cases item with
      | none =>
          rw [List.reduceOption_cons_of_none, ← others]
          rfl
      | some payload =>
          have starts : dataPrefix.isPrefixOf (itemLine (some payload)) = true := by
            rw [List.isPrefixOf_iff_prefix]
            exact List.prefix_append _ _
          have blank : dataPrefix.isPrefixOf ([] : List Char) = false := rfl
          rw [List.nil_append, List.nil_append, List.filter_cons_of_pos starts,
            List.filter_cons_of_neg (by rw [blank]; exact Bool.false_ne_true), List.mapM_cons,
            dataLine_read (first payload rfl), others, List.reduceOption_cons_of_some,
            List.map_cons]
          rfl

end Client

end SlimxAgent
