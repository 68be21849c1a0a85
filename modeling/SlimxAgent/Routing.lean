import SlimxAgent.Callbacks
import SlimxAgent.Quoting

/-!
# Request targets

What is sent for a call says which call it is and which identities it is about.  A path
is a list of segments, so identities can neither add one nor remove one.
-/

namespace SlimxAgent

open Interaction

/-! ## Paths -/

/-- The segments of a path: `path.split("/")`. -/
def pathSegments (path : String) : List String :=
  (path.toList.splitOn '/').map String.ofList

/-- Dot segments are taken out, as clients do before they send. -/
def dropDots (output : List String) : List String → List String
  | [] => output
  | segment :: rest =>
      if segment = "." then dropDots output rest
      else if segment = ".." then dropDots output.dropLast rest
      else dropDots (output ++ [segment]) rest

def normalizePath (path : String) : String :=
  "/".intercalate (dropDots [] (pathSegments path))

/-- A segment that a path keeps as it is. -/
def PlainSegment (segment : String) : Prop :=
  segment ∉ ["", ".", ".."] ∧ ∀ c ∈ segment.toList, c ∉ ['/', '?', '#']

instance (segment : String) : Decidable (PlainSegment segment) :=
  have : Decidable (∀ c ∈ segment.toList, c ∉ ['/', '?', '#']) := List.decidableBAll _ _
  inferInstanceAs (Decidable (_ ∧ _))

theorem dropDots_plain (output : List String) {segments : List String}
    (plain : ∀ segment ∈ segments, segment ∉ [".", ".."]) :
    dropDots output segments = output ++ segments := by
  induction segments generalizing output with
  | nil => simp [dropDots]
  | cons segment rest ih =>
      have here := plain segment (.head _)
      simp only [List.mem_cons, List.not_mem_nil, or_false, not_or] at here
      have later : ∀ other ∈ rest, other ∉ [".", ".."] := fun other member =>
        plain other (.tail _ member)
      rw [dropDots, if_neg here.1, if_neg here.2, ih _ later,
        List.append_assoc, List.singleton_append]

/-- The absolute path of a list of segments. -/
def absolutePath (segments : List String) : String :=
  "/".intercalate ("" :: segments)

section Absolute

variable {segments : List String}

/-- A path has exactly the segments it was made of. -/
theorem pathSegments_absolutePath (plain : ∀ segment ∈ segments, PlainSegment segment) :
    pathSegments (absolutePath segments) = "" :: segments := by
  have unsplit : ∀ part ∈ ("" :: segments).map String.toList, '/' ∉ part := by
    intro part member
    rcases List.mem_map.mp member with ⟨segment, held, rfl⟩
    rcases List.mem_cons.mp held with rfl | held
    · simp
    · exact fun slash => (plain segment held).2 '/' slash (by decide)
  have slash : "/".toList = ['/'] := by decide
  rw [pathSegments, absolutePath, String.toList_intercalate, slash,
    List.splitOn_intercalate '/' unsplit (by simp), List.map_map]
  have back : String.ofList ∘ String.toList = id := by
    funext text
    exact String.ofList_toList
  rw [back, List.map_id]

theorem normalizePath_absolutePath (plain : ∀ segment ∈ segments, PlainSegment segment) :
    normalizePath (absolutePath segments) = absolutePath segments := by
  have notDots : ∀ segment ∈ "" :: segments, segment ∉ [".", ".."] := by
    intro segment member
    rcases List.mem_cons.mp member with rfl | member
    · decide
    · exact fun dots => (plain segment member).1 (.tail _ dots)
  rw [normalizePath, pathSegments_absolutePath plain, dropDots_plain [] notDots, List.nil_append,
    absolutePath]

theorem mem_intercalate {c : Char} (segments : List String)
    (member : c ∈ ("/".intercalate segments).toList) :
    c = '/' ∨ ∃ segment ∈ segments, c ∈ segment.toList := by
  induction segments with
  | nil => simp at member
  | cons segment rest ih =>
      by_cases last : rest = []
      · subst last
        rw [String.intercalate_singleton] at member
        exact .inr ⟨segment, .head _, member⟩
      · simp only [String.intercalate_cons_of_ne_nil last, String.toList_append,
          List.mem_append] at member
        rcases member with (here | slash) | later
        · exact .inr ⟨segment, .head _, here⟩
        · exact .inl (by simpa using slash)
        · rcases ih later with slash | ⟨other, held, inside⟩
          · exact .inl slash
          · exact .inr ⟨other, .tail _ held, inside⟩

theorem absolutePath_plain (plain : ∀ segment ∈ segments, PlainSegment segment) :
    ∀ c ∈ (absolutePath segments).toList, c ∉ ['?', '#'] := by
  intro c member
  rcases mem_intercalate _ member with rfl | ⟨segment, held, inside⟩
  · decide
  · rcases List.mem_cons.mp held with rfl | held
    · cases inside
    · exact fun ends => (plain segment held).2 c inside (.tail _ ends)

end Absolute

/-! ## The paths of the callbacks -/

/-- A piece of a path: a word of the interface, or an identity. -/
inductive Piece where
  | word (text : String)
  | identity (text : String)
  deriving DecidableEq

namespace Piece

def segment : Piece → String
  | .word text => text
  | .identity text => quote text

def identity? : Piece → Option String
  | .word _ => none
  | .identity text => some text

end Piece

/-- Where the callback interface lives. -/
def basePieces : List Piece := [.word "internal", .word "agent-host"]

namespace Target

/-- The pieces of a callback's path. -/
def pieces : Target → List Piece
  | .run runId => [.word "runs", .identity runId]
  | .steps runId => [.word "runs", .identity runId, .word "steps"]
  | .step stepId => [.word "steps", .identity stepId]
  | .runStatus runId => [.word "runs", .identity runId, .word "status"]
  | .stepState stepId => [.word "steps", .identity stepId, .word "state"]
  | .events runId => [.word "runs", .identity runId, .word "events"]
  | .nextSequence runId => [.word "runs", .identity runId, .word "events", .word "next-sequence"]
  | .eventsAfter runId _ => [.word "runs", .identity runId, .word "events"]
  | .invoke runId stepId =>
      [.word "runs", .identity runId, .word "steps", .identity stepId, .word "invoke"]
  | .runEnd runId => [.word "runs", .identity runId, .word "run-end"]

/-- The identities in the path. -/
def identities (target : Target) : List String :=
  target.pieces.filterMap Piece.identity?

/-- The path that is requested: `_BASE_PATH` and the path below it. -/
def url (target : Target) : Except HostError String := do
  return "/internal/agent-host" ++ (← target.path)

end Target

/-- The identities that `segment` refuses. -/
def refusedIdentities : List String := ["", ".", ".."]

theorem segment_refused {text : String} (refused : text ∈ refusedIdentities) :
    ∃ error, error.kind = .hostProtocolError ∧ segment text = .error error := by
  simp only [refusedIdentities, List.mem_cons, List.not_mem_nil, or_false] at refused
  rw [segment, if_pos refused]
  exact ⟨_, rfl, rfl⟩

theorem segment_accepted {text : String} (accepted : text ∉ refusedIdentities) :
    segment text = .ok (quote text) := by
  simp only [refusedIdentities, List.mem_cons, List.not_mem_nil, or_false] at accepted
  rw [segment, if_neg accepted]

namespace Target

/-- A path with a refused identity is refused. -/
theorem path_refused {target : Target} {text : String} (member : text ∈ target.identities)
    (refused : text ∈ refusedIdentities) :
    ∃ error, error.kind = .hostProtocolError ∧ target.path = .error error := by
  rcases segment_refused refused with ⟨error, kind, refuses⟩
  cases target with
  | invoke runId stepId =>
      rcases List.mem_pair.mp member with rfl | rfl
      · exact ⟨error, kind, by simp [path, refuses, bind, Except.bind]⟩
      · by_cases first : runId ∈ refusedIdentities
        · rcases segment_refused first with ⟨other, otherKind, refusesFirst⟩
          exact ⟨other, otherKind, by simp [path, refusesFirst, bind, Except.bind]⟩
        · exact ⟨error, kind,
            by simp [path, segment_accepted first, refuses, bind, Except.bind]⟩
  | _ =>
      rw [List.mem_singleton.mp member] at refuses
      exact ⟨error, kind, by simp [path, refuses, bind, Except.bind]⟩

/-- Any other path is the path of its pieces. -/
theorem url_accepted {target : Target}
    (accepted : ∀ text ∈ target.identities, text ∉ refusedIdentities) :
    target.url = .ok (absolutePath ((basePieces ++ target.pieces).map Piece.segment)) := by
  cases target <;>
    simp [identities, pieces, Piece.identity?] at accepted <;>
    simp [url, path, segment_accepted, accepted, absolutePath, basePieces, pieces, Piece.segment,
      bind, Except.bind, pure, Except.pure, ← String.toList_inj]

/-- The path that is sent. -/
def absolute (target : Target) : String :=
  absolutePath ((basePieces ++ target.pieces).map Piece.segment)

theorem plain_identity {text : String} (accepted : text ∉ refusedIdentities) :
    PlainSegment (quote text) := by
  refine ⟨?_, quote_plain text⟩
  have same := quote_refused text
  simp only [refusedIdentities, List.mem_cons, List.not_mem_nil, or_false] at accepted ⊢
  rw [same]
  exact accepted

theorem plain_words (target : Target) :
    ∀ piece ∈ basePieces ++ target.pieces, ∀ word, piece = .word word → PlainSegment word := by
  cases target <;>
    simp only [basePieces, pieces, List.cons_append, List.nil_append, List.forall_mem_cons,
      List.not_mem_nil, Piece.word.injEq, reduceCtorEq, forall_eq', IsEmpty.forall_iff,
      implies_true, true_and, and_true] <;>
    decide

theorem plain_pieces {target : Target}
    (accepted : ∀ text ∈ target.identities, text ∉ refusedIdentities) :
    ∀ segment ∈ (basePieces ++ target.pieces).map Piece.segment, PlainSegment segment := by
  intro segment member
  rcases List.mem_map.mp member with ⟨piece, held, rfl⟩
  cases piece with
  | identity text =>
      have listed : text ∈ target.identities := by
        rw [identities, List.mem_filterMap]
        exact ⟨.identity text, by simpa [basePieces] using held, rfl⟩
      exact plain_identity (accepted text listed)
  | word text => exact plain_words target _ held text rfl

end Target

/-! ## The calls -/

/-- The methods of the client. -/
inductive ClientMethod where
  | getRun
  | getSteps
  | getStep
  | setRunStatus
  | setStepState
  | appendEvent
  | nextSequence
  | eventsAfter
  | invokeStep
  | runEnd
  deriving DecidableEq

def Target.name : Target → ClientMethod
  | .run _ => .getRun
  | .steps _ => .getSteps
  | .step _ => .getStep
  | .runStatus _ => .setRunStatus
  | .stepState _ => .setStepState
  | .events _ => .appendEvent
  | .nextSequence _ => .nextSequence
  | .eventsAfter _ _ => .eventsAfter
  | .invoke _ _ => .invokeStep
  | .runEnd _ => .runEnd

/-- The method and the pieces of a target say which callback it is, and about what. -/
theorem route_unique {first second : Target} (sameMethod : first.method = second.method)
    (samePieces : first.pieces.map Piece.segment = second.pieces.map Piece.segment) :
    first.name = second.name ∧ first.identities = second.identities := by
  cases first <;> cases second <;>
    simp [Target.method, Target.pieces, Piece.segment, quote_eq_iff] at sameMethod samePieces <;>
    simp [Target.name, Target.identities, Target.pieces, Piece.identity?, samePieces]

namespace HostCall

variable {α β : Type}

def name (call : HostCall α) : ClientMethod :=
  call.target.name

/-- The identities that the call's path is about. -/
def identities (call : HostCall α) : List String :=
  call.target.identities

/-- The request line of the call, if anything is sent for it. -/
def sent (call : HostCall α) : Option (Method × String) :=
  match call.program with
  | .call (.request request) _ =>
      match request.target.url with
      | .ok path => some (request.target.method, path)
      | .error _ => none
  | _ => none

/-- The call ends with a protocol error and nothing is sent for it. -/
def Refused (call : HostCall α) : Prop :=
  ∃ error, error.kind = .hostProtocolError ∧
    call.program = .call (.refused call.target error) fun _ => .raise (.hostError error)

variable {call : HostCall α} {other : HostCall β}

theorem refused_of_identity {text : String} (member : text ∈ call.identities)
    (refused : text ∈ refusedIdentities) : call.Refused ∧ call.sent = none := by
  rcases Target.path_refused member refused with ⟨error, kind, path⟩
  have ends : call.program =
      .call (.refused call.target error) fun _ => .raise (.hostError error) := by
    rw [program_eq, callback, path]
  exact ⟨⟨error, kind, ends⟩, by rw [sent, ends]⟩

theorem sent_of_identities (accepted : ∀ text ∈ call.identities, text ∉ refusedIdentities) :
    ¬ call.Refused ∧ call.sent = some (call.target.method, call.target.absolute) := by
  have url : call.target.url = .ok call.target.absolute := Target.url_accepted accepted
  have path : ∃ path, call.target.path = .ok path := by
    cases routed : call.target.path with
    | ok path => exact ⟨path, rfl⟩
    | error error =>
        rw [Target.url, routed] at url
        cases url
  rcases path with ⟨path, routed⟩
  have asks : call.program = .call (.request ⟨call.target, call.json⟩) fun answer =>
      .ofExcept (observe call.parse answer) := by
    rw [program_eq, callback, routed]
  constructor
  · rintro ⟨error, _, ends⟩
    rw [asks] at ends
    cases (Program.call.inj ends).1
  · rw [sent, asks]
    dsimp only
    rw [url]

/-- A call is sent unless one of its identities is refused. -/
theorem refused_iff :
    (call.Refused ↔ ∃ text ∈ call.identities, text ∈ refusedIdentities) ∧
      (call.Refused ↔ call.sent = none) := by
  by_cases refused : ∃ text ∈ call.identities, text ∈ refusedIdentities
  · rcases refused with ⟨text, member, listed⟩
    rcases refused_of_identity member listed with ⟨ends, unsent⟩
    exact ⟨iff_of_true ends ⟨text, member, listed⟩, iff_of_true ends unsent⟩
  · have accepted : ∀ text ∈ call.identities, text ∉ refusedIdentities :=
      fun text member listed => refused ⟨text, member, listed⟩
    rcases sent_of_identities accepted with ⟨goes, sends⟩
    refine ⟨iff_of_false goes refused, iff_of_false goes ?_⟩
    rw [sends]
    exact nofun

/-- What is sent is the target's method and path. -/
theorem sent_eq_some {method : Method} {path : String} (sends : call.sent = some (method, path)) :
    (∀ text ∈ call.identities, text ∉ refusedIdentities) ∧ method = call.target.method ∧
      path = call.target.absolute := by
  have accepted : ∀ text ∈ call.identities, text ∉ refusedIdentities := by
    intro text member listed
    rw [(refused_of_identity member listed).2] at sends
    cases sends
  rw [(sent_of_identities accepted).2] at sends
  have same := Option.some.inj sends
  exact ⟨accepted, (congrArg Prod.fst same).symm, (congrArg Prod.snd same).symm⟩

end HostCall

/-- A call is refused before anything is sent exactly if an identity in its path is empty or a
dot segment; what is sent otherwise determines the method called and its identities, and
each identity is one segment of a path that normalisation leaves alone. -/
theorem callback_targets {α β : Type} (call : HostCall α) (other : HostCall β) :
    (call.Refused ↔ ∃ text ∈ call.identities, text ∈ refusedIdentities) ∧
      (call.Refused ↔ call.sent = none) ∧
      ∀ method path, call.sent = some (method, path) →
        (other.sent = some (method, path) →
          call.name = other.name ∧ call.identities = other.identities) ∧
        pathSegments path = "" :: (basePieces ++ call.target.pieces).map Piece.segment ∧
        (∀ segment ∈ (pathSegments path).tail, segment ∉ ["", ".", ".."]) ∧
        (∀ c ∈ path.toList, c ∉ ['?', '#']) ∧ normalizePath path = path := by
  refine ⟨HostCall.refused_iff.1, HostCall.refused_iff.2, fun method path sends => ?_⟩
  rcases HostCall.sent_eq_some sends with ⟨accepted, rfl, rfl⟩
  have plain := Target.plain_pieces accepted
  have segments := pathSegments_absolutePath plain
  refine ⟨fun otherSends => ?_, segments, ?_, absolutePath_plain plain,
    normalizePath_absolutePath plain⟩
  · rcases HostCall.sent_eq_some otherSends with ⟨otherAccepted, sameMethod, samePath⟩
    have otherSegments := pathSegments_absolutePath (Target.plain_pieces otherAccepted)
    rw [Target.absolute, Target.absolute] at samePath
    rw [samePath, otherSegments] at segments
    have pieces := (List.cons.inj segments).2
    rw [List.map_append, List.map_append] at pieces
    exact route_unique sameMethod (List.append_cancel_left pieces.symm)
  · rw [Target.absolute, segments, List.tail_cons]
    exact fun segment member => (plain segment member).1

end SlimxAgent
