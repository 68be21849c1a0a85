import Mathlib.Data.List.Basic

/-!
# Readers

A reader takes a value from the front of a text, or refuses it.  What a printer wrote is
read back by rules: `Reads` says that a reader takes exactly the given text and returns the
value, where the next character, if there is one, is of a known kind.
-/

namespace Reading

variable {α β : Type}

abbrev Reader := StateT (List Char) Option

namespace Reader

def refuse : Reader α := fun _ => none

/-- The next character, taken. -/
def char : Reader Char
  | [] => none
  | c :: rest => some (c, rest)

/-- The next character, left where it is. -/
def peek : Reader (Option Char) := fun text => some (text.head?, text)

def expect (expected : Char) : Reader Unit := do
  let c ← char
  if c = expected then return () else refuse

def literal : List Char → Reader Unit
  | [] => return ()
  | c :: rest => do
      expect c
      literal rest

/-- The longest run of characters of one kind. -/
def span (kind : Char → Bool) : Reader (List Char) := fun text =>
  some (text.takeWhile kind, text.dropWhile kind)

/-- An optional group: where it does not match, nothing is taken. -/
def optionally (group : Reader (List Char)) : Reader (List Char) := fun text =>
  (group text).or (some ([], text))

/-- The first of two readers that does not refuse. -/
def either (first second : Reader α) : Reader α := fun text => (first text).or (second text)

/-- An item, before those that another reader takes; none ends them. -/
def gather (others : Reader (List α)) : Option α → Reader (List α)
  | none => return []
  | some value => do return value :: (← others)

/-- Items up to the one that ends them; `fuel` bounds their number. -/
def many : Nat → Reader (Option α) → Reader (List α)
  | 0, _ => refuse
  | fuel + 1, item => item >>= gather (many fuel item)

/-! ## Lists between brackets -/

def blank (c : Char) : Bool := c == ' ' || c == '\t' || c == '\n' || c == '\r'

def blanks : Reader Unit := fun text => some ((), text.dropWhile blank)

/-- The character after an item: the list ends, or there is another item. -/
def continued (closing : Char) (item : Reader α) (c : Char) : Reader (Option α) :=
  if c = closing then return none
  else if c = ',' then do
    blanks
    return some (← item)
  else refuse

def further (closing : Char) (item : Reader α) : Reader (Option α) := do
  blanks
  continued closing item (← char)

/-- The items of a list, told by the character that comes first. -/
def listed (closing : Char) (fuel : Nat) (item : Reader α) (next : Option Char) :
    Reader (List α) :=
  if next = some closing then do
    expect closing
    return []
  else do
    let first ← item
    return first :: (← many fuel (further closing item))

/-- A list between brackets, with commas between its items. -/
def enclosed (opening closing : Char) (fuel : Nat) (item : Reader α) : Reader (List α) := do
  expect opening
  blanks
  listed closing fuel item (← peek)

/-! ## Reading back -/

/-- The next character, if there is one, is of the given kind. -/
def Next (kind : Char → Bool) (text : List Char) : Prop := text.head?.all kind = true

/-- The reader takes exactly the text, where a character of the given kind follows, or
nothing. -/
def Reads (reader : Reader α) (follow : Char → Bool) (text : List Char) (value : α) : Prop :=
  ∀ rest, Next follow rest → reader (text ++ rest) = some (value, rest)

section Rules

variable {follow kind : Char → Bool} {text : List Char} {value : α}

@[simp] theorem next_nil : Next kind [] := rfl

@[simp] theorem next_cons {c : Char} : Next kind (c :: text) ↔ kind c = true := Iff.rfl

theorem Reads.all {reader : Reader α} (reads : reader.Reads follow text value) :
    reader text = some (value, []) := by
  have whole := reads [] next_nil
  rw [List.append_nil] at whole
  exact whole

theorem Reads.narrow {narrower : Char → Bool} {reader : Reader α}
    (reads : reader.Reads follow text value) (fewer : ∀ c, narrower c = true → follow c = true) :
    reader.Reads narrower text value := by
  intro rest next
  apply reads
  cases rest with
  | nil => exact next_nil
  | cons c rest => exact fewer c next

theorem reads_return : (return value : Reader α).Reads follow [] value :=
  fun _ _ => rfl

/-- Two readers one after the other read two texts one after the other. -/
theorem Reads.bind {before : Char → Bool} {first : Reader α} {second : α → Reader β}
    {later : List Char} {result : β} (reads : first.Reads before text value)
    (next : (second value).Reads follow later result)
    (starts : ∀ rest, Next follow rest → Next before (later ++ rest)) :
    (first >>= second).Reads follow (text ++ later) result := by
  intro rest follows
  have taken := reads (later ++ rest) (starts rest follows)
  change (first ((text ++ later) ++ rest)).bind (fun taken => second taken.1 taken.2) = _
  rw [List.append_assoc, taken]
  exact next rest follows

/-- The last reader of a chain takes nothing. -/
theorem Reads.map {first : Reader α} (reads : first.Reads follow text value) (result : α → β) :
    (do return result (← first)).Reads follow text (result value) := by
  have last : (return result value : Reader β).Reads follow [] (result value) := reads_return
  have chained : (do return result (← first)).Reads follow (text ++ []) (result value) :=
    reads.bind last fun _ next => next
  rw [List.append_nil] at chained
  exact chained

theorem reads_char {c : Char} : char.Reads follow [c] c :=
  fun _ _ => rfl

theorem reads_expect {c : Char} : (expect c).Reads follow [c] () := by
  intro rest _
  change (if c = c then _ else _ : Reader Unit) rest = _
  rw [if_pos rfl]
  rfl

theorem reads_literal (text : List Char) : (literal text).Reads follow text () := by
  induction text with
  | nil => exact reads_return
  | cons c text ih =>
      have one : (expect c).Reads (fun _ => true) [c] () := reads_expect
      apply one.bind ih
      intro rest _
      cases text ++ rest with
      | nil => exact next_nil
      | cons d rest => rfl

/-- A run is read up to the first character of another kind. -/
theorem reads_span (all : ∀ c ∈ text, kind c = true) :
    (span kind).Reads (fun c => !kind c) text text := by
  intro rest next
  have stops : rest.takeWhile kind = [] ∧ rest.dropWhile kind = rest := by
    cases rest with
    | nil => exact ⟨rfl, rfl⟩
    | cons c rest =>
        rw [next_cons, Bool.not_eq_true'] at next
        simp [next]
  rw [span, List.takeWhile_append_of_pos all, List.dropWhile_append_of_pos all, stops.1,
    stops.2, List.append_nil]

theorem Reads.optionally {group : Reader (List Char)} {value : List Char}
    (reads : group.Reads follow text value) :
    (optionally group).Reads follow text value := by
  intro rest next
  rw [Reader.optionally, reads rest next]
  rfl

theorem Reads.either {first : Reader α} (reads : first.Reads follow text value)
    (second : Reader α) : (first.either second).Reads follow text value := by
  intro rest next
  rw [Reader.either, reads rest next]
  rfl

/-- No more items than characters. -/
theorem length_le_flatMap {items : List β} {print : β → List Char}
    (printed : ∀ item ∈ items, 0 < (print item).length) :
    items.length ≤ (items.flatMap print).length := by
  induction items with
  | nil => exact Nat.le_refl 0
  | cons item items ih =>
      have first := printed item List.mem_cons_self
      have others := ih fun other member => printed other (List.mem_cons_of_mem _ member)
      rw [List.flatMap_cons, List.length_append, List.length_cons]
      omega

/-- A group that does not match is passed over. -/
theorem reads_optionally_none {group : Reader (List Char)}
    (refuses : ∀ rest, Next follow rest → group rest = none) :
    (Reader.optionally group).Reads follow [] [] := by
  intro rest next
  rw [List.nil_append, Reader.optionally, refuses rest next]
  rfl

theorem Reads.either_second {second : Reader α} (reads : second.Reads follow text value)
    {first : Reader α} (refuses : ∀ rest, first (text ++ rest) = none) :
    (first.either second).Reads follow text value := by
  intro rest next
  rw [Reader.either, refuses rest, reads rest next]
  rfl

theorem expect_refuses {c : Char} {second : Unit → Reader α}
    (other : Next (fun d => d != c) text) : (expect c >>= second) text = none := by
  cases text with
  | nil => rfl
  | cons d text =>
      have differs : d ≠ c := bne_iff_ne.mp other
      change ((if d = c then return () else refuse : Reader Unit) text).bind _ = none
      rw [if_neg differs]
      rfl

/-- Items are read one by one, until the last text ends them. -/
theorem reads_many {item : Reader (Option α)} {between : Char → Bool} {stop : List Char}
    {items : List (List Char × α)}
    (each : ∀ entry ∈ items, item.Reads between entry.1 (some entry.2))
    (ends : item.Reads follow stop none)
    (opens : ∀ entry ∈ items, ∀ rest, Next between (entry.1 ++ rest))
    (closes : ∀ rest, Next between (stop ++ rest)) {fuel : Nat} (enough : items.length < fuel) :
    (many fuel item).Reads follow (items.flatMap Prod.fst ++ stop) (items.map Prod.snd) := by
  induction items generalizing fuel with
  | nil =>
      cases fuel with
      | zero => cases enough
      | succ fuel =>
          have last : (gather (many fuel item) none).Reads follow [] [] := reads_return
          have ended := ends.bind last fun _ next => next
          rw [List.append_nil] at ended
          exact ended
  | cons entry items ih =>
      cases fuel with
      | zero => cases enough
      | succ fuel =>
          have others := ih (fun other member => each other (List.mem_cons_of_mem _ member))
            (fun other member => opens other (List.mem_cons_of_mem _ member))
            (Nat.lt_of_succ_lt_succ enough)
          have gathered : (gather (many fuel item) (some entry.2)).Reads follow
              (items.flatMap Prod.fst ++ stop) (entry.2 :: items.map Prod.snd) :=
            others.map (entry.2 :: ·)
          have first := each entry List.mem_cons_self
          rw [List.flatMap_cons, List.append_assoc]
          apply first.bind gathered
          intro after _
          cases items with
          | nil => exact closes after
          | cons next items =>
              rw [List.flatMap_cons, List.append_assoc, List.append_assoc]
              exact opens next (List.mem_cons_of_mem _ List.mem_cons_self) _

theorem reads_blanks (all : ∀ c ∈ text, blank c = true) :
    blanks.Reads (fun c => !blank c) text () := by
  intro rest next
  have run := reads_span all rest next
  rw [span, Option.some.injEq, Prod.mk.injEq] at run
  rw [blanks, run.2]

theorem reads_no_blanks : blanks.Reads (fun c => !blank c) [] () :=
  reads_blanks fun _ absent => absurd absent List.not_mem_nil

theorem next_any {rest : List Char} : Next (fun _ => true) rest := by
  cases rest with
  | nil => exact next_nil
  | cons c rest => rfl

/-- The next character is taken, where it is the one that decides the rest. -/
theorem Reads.after_char {c : Char} {second : Char → Reader β} {result : β}
    (reads : (second c).Reads follow text result) :
    (char >>= second).Reads follow (c :: text) result := by
  have one : char.Reads (fun _ => true) [c] c := reads_char
  exact one.bind reads fun _ _ => next_any

theorem Reads.after_peek {c : Char} {second : Option Char → Reader β} {result : β}
    (reads : (second (some c)).Reads follow (c :: text) result) :
    (peek >>= second).Reads follow (c :: text) result :=
  fun rest next => reads rest next

/-- What a list item may be followed by. -/
def separates (closing c : Char) : Bool := c == ',' || c == closing

/-- The text starts with a character that is neither blank nor the closing one. -/
def Opens (closing : Char) (text : List Char) : Prop :=
  ∃ c rest, text = c :: rest ∧ blank c = false ∧ c ≠ closing

theorem intercalate_flatMap (separator text : List Char) (texts : List (List Char)) :
    separator.intercalate (text :: texts) = text ++ texts.flatMap (separator ++ ·) := by
  induction texts generalizing text with
  | nil => simp
  | cons other texts ih =>
      rw [List.intercalate_cons_cons, ih, List.flatMap_cons]
      simp

/-- A joined text is as long as each of its parts, and has as many characters as parts. -/
theorem length_intercalate (separator : List Char) (texts : List (List Char)) :
    (∀ text ∈ texts, text.length ≤ (separator.intercalate texts).length) ∧
      ((∀ text ∈ texts, 0 < text.length) →
        texts.length ≤ (separator.intercalate texts).length) := by
  induction texts with
  | nil => exact ⟨fun _ absent => absurd absent List.not_mem_nil, fun _ => Nat.zero_le _⟩
  | cons text texts ih =>
      cases texts with
      | nil =>
          rw [List.intercalate_singleton]
          refine ⟨fun other member => ?_, fun printed => printed text List.mem_cons_self⟩
          exact Nat.le_of_eq (congrArg List.length (List.mem_singleton.mp member))
      | cons next texts =>
          have whole : (separator.intercalate (text :: next :: texts)).length =
              text.length + separator.length + (separator.intercalate (next :: texts)).length := by
            rw [List.intercalate_cons_cons, List.length_append, List.length_append]
          constructor
          · intro other member
            rcases List.mem_cons.mp member with rfl | later
            · omega
            · have bounded := ih.1 other later
              omega
          · intro printed
            have first := printed text List.mem_cons_self
            have others := ih.2 fun other member => printed other (List.mem_cons_of_mem _ member)
            rw [List.length_cons]
            omega

section Enclosed

variable {closing : Char} {item : Reader α} {items : List (List Char × α)} {fuel : Nat}

theorem reads_further_none (visible : blank closing = false) :
    (further closing item).Reads follow [closing] none := by
  have ended : (continued closing item closing).Reads follow [] none := by
    rw [continued, if_pos rfl]
    exact reads_return
  apply reads_no_blanks.bind ended.after_char
  intro rest _
  simp [visible]

theorem reads_further_some (other : closing ≠ ',')
    (reads : item.Reads (separates closing) text value) (opens : Opens closing text) :
    (further closing item).Reads (separates closing) (',' :: ' ' :: text) (some value) := by
  have space : blanks.Reads (fun c => !blank c) [' '] () :=
    reads_blanks fun c member => by
      cases List.mem_singleton.mp member
      rfl
  have taken : (continued closing item ',').Reads (separates closing) (' ' :: text)
      (some value) := by
    rw [continued, if_neg (Ne.symm other), if_pos rfl]
    apply space.bind (reads.map some)
    intro rest _
    rcases opens with ⟨c, tail, rfl, seen, _⟩
    simp [seen]
  apply reads_no_blanks.bind taken.after_char
  intro rest _
  rfl

theorem reads_listed (visible : blank closing = false) (other : closing ≠ ',')
    (each : ∀ entry ∈ items, item.Reads (separates closing) entry.1 entry.2)
    (opens : ∀ entry ∈ items, Opens closing entry.1) (enough : items.length ≤ fuel) :
    (do
      blanks
      listed closing fuel item (← peek)).Reads follow
      ([',', ' '].intercalate (items.map Prod.fst) ++ [closing]) (items.map Prod.snd) := by
  cases items with
  | nil =>
      have closes : (expect closing).Reads follow [closing] () := reads_expect
      have ended : (listed closing fuel item (some closing)).Reads follow [closing] [] := by
        rw [listed, if_pos rfl]
        exact closes.map fun _ => []
      apply reads_no_blanks.bind ended.after_peek
      intro rest _
      simp [visible]
  | cons entry items =>
      rcases entry with ⟨text, value⟩
      have later : ∀ printed ∈ items.map fun entry => (',' :: ' ' :: entry.1, entry.2),
          (further closing item).Reads (separates closing) printed.1 (some printed.2) := by
        intro printed member
        rcases List.mem_map.mp member with ⟨entry, held, rfl⟩
        exact reads_further_some other (each entry (List.mem_cons_of_mem _ held))
          (opens entry (List.mem_cons_of_mem _ held))
      have others : (many fuel (further closing item)).Reads follow
          ((items.map fun entry => (',' :: ' ' :: entry.1, entry.2)).flatMap Prod.fst ++ [closing])
          ((items.map fun entry => (',' :: ' ' :: entry.1, entry.2)).map Prod.snd) := by
        apply reads_many later (reads_further_none visible)
        · intro printed member rest
          rcases List.mem_map.mp member with ⟨entry, held, rfl⟩
          rfl
        · intro rest
          simp [separates]
        · rw [List.length_map]
          exact enough
      rw [List.map_map, List.flatMap_map] at others
      rcases opens (text, value) List.mem_cons_self with ⟨c, tail, spelled, seen, differs⟩
      have listing : (listed closing fuel item (some c)).Reads follow
          (text ++ (items.flatMap (fun entry => ',' :: ' ' :: entry.1) ++ [closing]))
          (value :: items.map Prod.snd) := by
        have distinct : some c ≠ some closing := fun same => differs (Option.some.inj same)
        rw [listed, if_neg distinct]
        apply (each (text, value) List.mem_cons_self).bind (others.map (value :: ·))
        intro rest _
        cases items with
        | nil => simp [separates]
        | cons next items => rfl
      rw [List.map_cons, intercalate_flatMap, List.flatMap_map, List.append_assoc]
      change text = c :: tail at spelled
      subst spelled
      apply reads_no_blanks.bind listing.after_peek
      intro rest _
      simp [seen]

/-- A printed list is read back. -/
theorem reads_enclosed {opening : Char} (visible : blank closing = false) (other : closing ≠ ',')
    (each : ∀ entry ∈ items, item.Reads (separates closing) entry.1 entry.2)
    (opens : ∀ entry ∈ items, Opens closing entry.1) (enough : items.length ≤ fuel) :
    (enclosed opening closing fuel item).Reads follow
      (opening :: ([',', ' '].intercalate (items.map Prod.fst) ++ [closing]))
      (items.map Prod.snd) := by
  have bracket : (expect opening).Reads (fun _ => true) [opening] () := reads_expect
  exact bracket.bind (reads_listed visible other each opens enough) fun _ _ => next_any

/-- The same for the elements that a function printed. -/
theorem reads_printed {opening : Char} {print : α → List Char} {elements : List α}
    (visible : blank closing = false) (other : closing ≠ ',')
    (each : ∀ element ∈ elements, item.Reads (separates closing) (print element) element)
    (opens : ∀ element ∈ elements, Opens closing (print element))
    (enough : elements.length ≤ fuel) :
    (enclosed opening closing fuel item).Reads follow
      (opening :: ([',', ' '].intercalate (elements.map print) ++ [closing])) elements := by
  have eachEntry : ∀ entry ∈ elements.map fun element => (print element, element),
      item.Reads (separates closing) entry.1 entry.2 := by
    intro entry member
    rcases List.mem_map.mp member with ⟨element, held, rfl⟩
    exact each element held
  have opensEntry : ∀ entry ∈ elements.map fun element => (print element, element),
      Opens closing entry.1 := by
    intro entry member
    rcases List.mem_map.mp member with ⟨element, held, rfl⟩
    exact opens element held
  have enoughEntries : (elements.map fun element => (print element, element)).length ≤ fuel := by
    rw [List.length_map]
    exact enough
  have read : (enclosed opening closing fuel item).Reads follow _ _ :=
    reads_enclosed visible other eachEntry opensEntry enoughEntries
  rw [List.map_map, List.map_map] at read
  have same : elements.map (Prod.snd ∘ fun element => (print element, element)) = elements :=
    List.map_id _
  rw [same] at read
  exact read

end Enclosed

end Rules

/-! ## What a reader returns -/

/-- Whatever the reader returns satisfies the predicate. -/
def Returns (reader : Reader α) (holds : α → Prop) : Prop :=
  ∀ text value rest, reader text = some (value, rest) → holds value

section Returning

variable {holds : α → Prop} {other : β → Prop} {closing : Char}

theorem returns_any {reader : Reader α} : reader.Returns fun _ => True :=
  fun _ _ _ _ => trivial

theorem returns_return {value : α} (here : holds value) :
    (return value : Reader α).Returns holds := by
  intro text result rest taken
  cases taken
  exact here

theorem returns_refuse : (refuse : Reader α).Returns holds := by
  intro text value rest taken
  cases taken

theorem Returns.bind {first : Reader α} {second : α → Reader β} (returns : first.Returns holds)
    (next : ∀ value, holds value → (second value).Returns other) :
    (first >>= second).Returns other := by
  intro text result rest taken
  change (first text).bind (fun read => second read.1 read.2) = _ at taken
  rcases Option.bind_eq_some_iff.mp taken with ⟨read, before, after⟩
  exact next read.1 (returns _ _ _ before) _ _ _ after

theorem Returns.either {first second : Reader α} (one : first.Returns holds)
    (two : second.Returns holds) : (first.either second).Returns holds := by
  intro text value rest taken
  rcases Option.or_eq_some_iff.mp taken with taken | ⟨_, taken⟩
  · exact one _ _ _ taken
  · exact two _ _ _ taken

theorem Returns.optionally {holds : List Char → Prop} {group : Reader (List Char)}
    (returns : group.Returns holds) (empty : holds []) :
    (Reader.optionally group).Returns holds := by
  intro text value rest taken
  rcases Option.or_eq_some_iff.mp taken with taken | ⟨_, taken⟩
  · exact returns _ _ _ taken
  · cases taken
    exact empty

theorem returns_span (kind : Char → Bool) :
    (span kind).Returns fun run => ∀ c ∈ run, kind c = true := by
  intro text run rest taken c member
  cases taken
  exact List.all_eq_true.mp List.all_takeWhile c member

theorem Returns.many {item : Reader (Option α)}
    (returns : item.Returns fun last => ∀ value, last = some value → holds value) (fuel : Nat) :
    (Reader.many fuel item).Returns fun values => ∀ value ∈ values, holds value := by
  induction fuel with
  | zero => exact returns_refuse
  | succ fuel ih =>
      refine returns.bind fun last here => ?_
      cases last with
      | none => exact returns_return fun _ absent => absurd absent List.not_mem_nil
      | some first =>
          refine ih.bind fun values all => returns_return fun value member => ?_
          rcases List.mem_cons.mp member with rfl | later
          · exact here value rfl
          · exact all value later

theorem Returns.further {item : Reader α} (returns : item.Returns holds) :
    (Reader.further closing item).Returns fun last => ∀ value, last = some value → holds value := by
  refine returns_any.bind fun _ _ => returns_any.bind fun c _ => ?_
  rw [continued]
  split
  · exact returns_return fun _ absent => by cases absent
  split
  · refine returns_any.bind fun _ _ => returns.bind fun value here => ?_
    refine returns_return fun other same => ?_
    cases same
    exact here
  · exact returns_refuse

theorem Returns.enclosed {item : Reader α} (returns : item.Returns holds) (opening : Char)
    (fuel : Nat) :
    (Reader.enclosed opening closing fuel item).Returns fun values =>
      ∀ value ∈ values, holds value := by
  refine returns_any.bind fun _ _ => returns_any.bind fun _ _ => returns_any.bind fun next _ => ?_
  rw [listed]
  split
  · refine returns_any.bind fun _ _ => ?_
    exact returns_return fun _ absent => absurd absent List.not_mem_nil
  · refine returns.bind fun first here => (returns.further.many fuel).bind fun values all => ?_
    refine returns_return fun value member => ?_
    rcases List.mem_cons.mp member with rfl | later
    · exact here
    · exact all value later

end Returning

end Reader

end Reading
