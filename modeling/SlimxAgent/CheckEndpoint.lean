import SlimxAgent.Endpoint
import SlimxAgent.CheckRunner
import SlimxAgent.Reading.Utf8
import Mathlib.Data.List.DropRight

/-!
# The run-check endpoint

The endpoint is there only where it is enabled, answers nobody without the token, and runs
one command in the directory of its run.  Every run of it is recorded with its system calls:
what a command was started for, and what its answer rests on.
-/

namespace SlimxAgent

open Interaction

/-! ## The body -/

/-- What is wrong with a value of a check. -/
inductive CheckProblem where
  | body (problem : BodyProblem)
  | notList
  | fewItems
  | manyItems
  | holdsNul
  | notNumber
  | notFinite
  | tooLarge
  | tooSmall
  | unknownField
  deriving DecidableEq

/-- A problem, with the key it is found under and, within a list, the index. -/
structure CheckError where
  key : String
  index : Option Nat
  problem : CheckProblem
  deriving DecidableEq

def nul : Char := Char.ofNat 0

/-- From 1 to 64 arguments, each of 1 to 4096 characters, none of them NUL. -/
structure Argv where
  parts : List String
  some : parts ≠ []
  few : parts.length ≤ 64
  bounded : ∀ part ∈ parts, 1 ≤ part.length ∧ part.length ≤ 4096
  clean : ∀ part ∈ parts, nul ∉ part.toList

/-- A check that is well formed. -/
structure CheckCommand where
  argv : Argv
  runId : String
  plain : plainRunId runId = true
  limits : RunCheckBody

/-- The elements of a list, each of them looked at. -/
def argvParts : Nat → List Json → Except (List CheckError) (List String)
  | _, [] => .ok []
  | index, item :: items =>
      match boundedStr 1 4096 item, argvParts (index + 1) items with
      | .ok part, .ok parts => .ok (part :: parts)
      | .ok _, .error errors => .error errors
      | .error problem, .ok _ => .error [⟨"argv", some index, .body problem⟩]
      | .error problem, .error errors => .error (⟨"argv", some index, .body problem⟩ :: errors)

theorem argvParts_eq_ok {index : Nat} {items : List Json} {parts : List String} :
    argvParts index items = .ok parts ↔
      items = parts.map .str ∧ ∀ part ∈ parts, 1 ≤ part.length ∧ part.length ≤ 4096 := by
  induction items generalizing index parts with
  | nil =>
      rw [argvParts]
      constructor
      · rintro ⟨⟩
        exact ⟨rfl, fun _ absent => absurd absent List.not_mem_nil⟩
      · rintro ⟨empty, _⟩
        rw [List.map_eq_nil_iff.mp empty.symm]
  | cons item items ih =>
      rw [argvParts]
      constructor
      · intro read
        split at read
        · rename_i part parts first rest
          cases read
          rcases boundedStr_eq_ok.mp first with ⟨rfl, bounds⟩
          rcases ih.mp rest with ⟨rfl, others⟩
          exact ⟨rfl, List.forall_mem_cons.mpr ⟨bounds, others⟩⟩
        all_goals cases read
      · rintro ⟨same, bounded⟩
        cases parts with
        | nil => cases same
        | cons part parts =>
            cases same
            rcases List.forall_mem_cons.mp bounded with ⟨bounds, others⟩
            rw [boundedStr_eq_ok.mpr ⟨rfl, bounds⟩, ih.mpr ⟨rfl, others⟩]

section Fields

variable (floatValue : String → Option ℚ) (fields : Dict)

def argvOfItems (items : List Json) (few : items.length ≤ 64) :
    Except (List CheckError) Argv :=
  match read : argvParts 0 items with
  | .error errors => .error errors
  | .ok parts =>
      if some : parts = [] then .error [⟨"argv", none, .fewItems⟩]
      else if clean : ∀ part ∈ parts, nul ∉ part.toList then
        .ok {
          parts := parts
          some := some
          few := by
            rw [(argvParts_eq_ok.mp read).1, List.length_map] at few
            exact few
          bounded := (argvParts_eq_ok.mp read).2
          clean := clean }
      else .error [⟨"argv", none, .holdsNul⟩]

def argv? : Except (List CheckError) Argv :=
  match fields.get? "argv" with
  | none => .error [⟨"argv", none, .body .missing⟩]
  | some (.arr items) =>
      if few : items.length ≤ 64 then argvOfItems items few
      else .error [⟨"argv", none, .manyItems⟩]
  | some _ => .error [⟨"argv", none, .notList⟩]

def runId? : Except CheckProblem { runId : String // plainRunId runId = true } :=
  match fields.get? "run_id" with
  | none => .error (.body .missing)
  | some (.str runId) =>
      if plain : plainRunId runId = true then .ok ⟨runId, plain⟩ else .error (.body .notPlain)
  | some _ => .error (.body .notString)

/-- A number in its range. -/
def boundedTimeout (value : ℚ) : Except CheckProblem { value : ℚ // 0 < value ∧ value ≤ 600 } :=
  if bounded : value ≤ 600 then
    if positive : 0 < value then .ok ⟨value, positive, bounded⟩ else .error .tooSmall
  else .error .tooLarge

/-- A strict float: an integer is one, a boolean or a text is none. -/
def timeoutSeconds? : Except CheckProblem { value : ℚ // 0 < value ∧ value ≤ 600 } :=
  match fields.get? "timeout_seconds" with
  | none => .ok ⟨120, by decide +kernel⟩
  | some (.int value) => boundedTimeout value
  | some (.real rendering) => (floatValue rendering).elim (.error .notFinite) boundedTimeout
  | some _ => .error .notNumber

def outputCap? : Except CheckProblem { value : Int // 1 ≤ value ∧ value ≤ 100000 } :=
  match fields.get? "output_cap" with
  | none => .ok ⟨20000, by decide⟩
  | some (.int value) =>
      if bounded : value ≤ 100000 then
        if positive : 1 ≤ value then .ok ⟨value, positive, bounded⟩ else .error .tooSmall
      else .error .tooLarge
  | some _ => .error (.body .notInteger)

def checkKeys : List String := ["argv", "run_id", "timeout_seconds", "output_cap"]

/-- The fields that the body does not have. -/
def unknownFields : List String :=
  (fields.map Prod.fst).filter (!checkKeys.contains ·)

def errorsOf {α : Type} : Except (List CheckError) α → List CheckError
  | .ok _ => []
  | .error errors => errors

def errorAt {α : Type} (key : String) : Except CheckProblem α → List CheckError
  | .ok _ => []
  | .error problem => [⟨key, none, problem⟩]

/-- Every field is looked at before anything is reported. -/
def checkErrors : List CheckError :=
  errorsOf (argv? fields) ++ errorAt "run_id" (runId? fields) ++
    errorAt "timeout_seconds" (timeoutSeconds? floatValue fields) ++
    errorAt "output_cap" (outputCap? fields) ++
    (unknownFields fields).map fun key => ⟨key, none, .unknownField⟩

end Fields

/-- Validate the body of a check. -/
def CheckCommand.parse (floatValue : String → Option ℚ) :
    Json → Except (List CheckError) CheckCommand
  | .obj fields =>
      match argv? fields, runId? fields, timeoutSeconds? floatValue fields, outputCap? fields,
        unknownFields fields with
      | .ok argv, .ok runId, .ok timeout, .ok cap, [] => .ok {
          argv := argv
          runId := runId.1
          plain := runId.2
          limits := ⟨timeout.1, cap.1, timeout.2.1, timeout.2.2, cap.2.1, cap.2.2⟩ }
      | _, _, _, _, _ => .error (checkErrors floatValue fields)
  | .null => .error [⟨"", none, .body .missing⟩]
  | _ => .error [⟨"", none, .body .notObject⟩]

/-! ## The directory of a run -/

/-- `os.path.join` of two parts. -/
def joinPath (path name : String) : String :=
  if name.toList.head? = some '/' then name
  else if path = "" ∨ path.toList.getLast? = some '/' then path ++ name
  else path ++ "/" ++ name

/-- `os.path.dirname`. -/
def dirname (path : String) : String :=
  let head := path.toList.rdropWhile (· != '/')
  String.ofList (if head.all (· == '/') then head else head.rdropWhile (· == '/'))

namespace Os

def realpath (path : String) : Os String := @Program.perform osSignature _ (.realpath path)

def isdir (path : String) : Os Bool := @Program.perform osSignature _ (.isdir path)

end Os

/-- The directory of a run, if it is one of the volume. -/
def workspaceOf (root : String) (runId : String) : Os (Option String) := do
  let root ← Os.realpath root
  let cwd ← Os.realpath (joinPath root runId)
  if dirname cwd ≠ root then return none
  else do
    let directory ← Os.isdir cwd
    return if directory then some cwd else none

/-! ## The endpoint -/

/-- What the service answers to a check: its result, the problems of a body that is not well
formed, or an `HTTPException`. -/
inductive CheckReply where
  | ran (ok : Bool) (exitCode : Option Int) (timedOut : Bool) (output : String)
      (outputTruncated : Bool)
  | invalid (errors : List CheckError)
  | raised (statusCode : Nat) (detail : String)
  deriving DecidableEq

/-- The environment of the service, as far as checks read it. -/
structure CheckService where
  enabled : Option String
  token : Option String
  workspaceRoot : Option String
  path : Option String

structure CheckRequest where
  authorization : Option String
  body : Json

/-- `_env_flag`. -/
def envFlag (value : Option String) : Bool :=
  ["1", "true", "yes", "on"].contains (strip (value.getD "")).toLower

/-- Command execution has no tokenless mode. -/
def requireRunCheckToken (service : CheckService) (authorization : Option String) :
    Except CheckReply Unit :=
  let token := service.token.getD ""
  if token = "" then
    .error (.raised 503 "run-check requires SLIMX_AGENT_INTERNAL_TOKEN on this service")
  else if tokenMatches authorization token then .ok ()
  else .error (.raised 401 "Missing or invalid internal service token")

/-- Everything that is checked before the first system call.  A route that is not enabled is
not there. -/
def allowedCheck (floatValue : String → Option ℚ) (service : CheckService)
    (request : CheckRequest) : Except CheckReply CheckCommand :=
  if envFlag service.enabled then
    match requireRunCheckToken service request.authorization with
    | .error reply => .error reply
    | .ok () => (CheckCommand.parse floatValue request.body).mapError .invalid
  else .error (.raised 404 "Not Found")

/-- `exc.strerror or 'error'`. -/
def reasonOf : Option String → String
  | none => "error"
  | some strerror => if strerror = "" then "error" else strerror

def CheckResult.reply (result : CheckResult) : CheckReply :=
  .ran (result.exitCode == some 0) result.exitCode result.timedOut
    (String.ofList (Reading.Utf8.decode result.output)) result.truncated

/-- A check that raised an `OSError`. -/
def notStarted (strerror : Option String) : CheckReply :=
  .ran false none false ("could not start the check command: " ++ reasonOf strerror) false

/-- The answer to what a check returned or raised; no other exception is caught. -/
def checkReplyOf : Except OsRaised (Option CheckResult) → Except OsRaised (Option CheckReply)
  | .ok result => .ok (result.map CheckResult.reply)
  | .error (.osError _ strerror) => .ok (some (notStarted strerror))
  | .error error => .error error

/-- The check of a command in its directory. -/
def checkIn (service : CheckService) (command : CheckCommand) (cwd : String) (fuel : Nat) :
    Os (Option CheckReply) := do
  let ended ← (runBoundedCheck service.path command.argv.parts cwd command.limits.timeoutSeconds
    command.limits.outputCap fuel).attempt
  .ofExcept (checkReplyOf ended)

def runCommand (service : CheckService) (command : CheckCommand) (fuel : Nat) :
    Os (Option CheckReply) := do
  match ← workspaceOf (service.workspaceRoot.getD "/workspaces") command.runId with
  | none => return some (.raised 404 "run workspace not found on this volume")
  | some cwd => checkIn service command cwd fuel

/-- `POST /internal/run-check`; `none` is a check that is still running. -/
def runCheck (floatValue : String → Option ℚ) (service : CheckService) (request : CheckRequest)
    (fuel : Nat) : Os (Option CheckReply) :=
  match allowedCheck floatValue service request with
  | .error reply => return some reply
  | .ok command => runCommand service command fuel

/-! ## What is well formed -/

/-- The number that a value is, if it is one and finite. -/
def numberOf (floatValue : String → Option ℚ) : Json → Option ℚ
  | .int value => some value
  | .real rendering => floatValue rendering
  | _ => none

/-- The fields of a body, and no others, ask for a command. -/
structure AsksFor (floatValue : String → Option ℚ) (fields : Dict) (command : CheckCommand) :
    Prop where
  argv : fields.get? "argv" = some (.arr (command.argv.parts.map .str))
  runId : fields.get? "run_id" = some (.str command.runId)
  timeout : numberOf floatValue ((fields.get? "timeout_seconds").getD (.int 120)) =
    some command.limits.timeoutSeconds
  cap : (fields.get? "output_cap").getD (.int 20000) = .int command.limits.outputCap
  known : ∀ key ∈ fields.map Prod.fst, key ∈ checkKeys

section AsksFor

variable {floatValue : String → Option ℚ} {fields : Dict} {command : CheckCommand}

theorem strs_inj {parts others : List String} :
    Json.arr (parts.map .str) = .arr (others.map .str) ↔ parts = others := by
  rw [Json.arr.injEq]
  exact (List.map_injective_iff.mpr fun _ _ same => Json.str.inj same).eq_iff

theorem argvOfItems_eq_ok {argv : Argv} {items : List Json} {few : items.length ≤ 64} :
    argvOfItems items few = .ok argv ↔ Json.arr items = .arr (argv.parts.map .str) := by
  rw [argvOfItems]
  split
  · rename_i errors read
    constructor
    · rintro ⟨⟩
    · rintro ⟨⟩
      rw [argvParts_eq_ok.mpr ⟨rfl, argv.bounded⟩] at read
      cases read
  · rename_i parts read
    rcases argvParts_eq_ok.mp read with ⟨rfl, bounded⟩
    rw [strs_inj]
    split
    · rename_i empty
      constructor
      · rintro ⟨⟩
      · intro same
        exact absurd (same.symm.trans empty) argv.some
    · split
      · constructor
        · rintro ⟨⟩
          rfl
        · rintro rfl
          rfl
      · rename_i odd
        constructor
        · rintro ⟨⟩
        · rintro rfl
          exact absurd argv.clean odd

theorem argv?_eq_ok {argv : Argv} :
    argv? fields = .ok argv ↔ fields.get? "argv" = some (.arr (argv.parts.map .str)) := by
  rw [argv?]
  split
  · rename_i absent
    rw [absent]
    exact iff_of_false (by simp) (by simp)
  · rename_i items found
    rw [found, Option.some_inj]
    split
    · exact argvOfItems_eq_ok
    · rename_i many
      constructor
      · rintro ⟨⟩
      · rintro ⟨⟩
        rw [List.length_map] at many
        exact absurd argv.few many
  · rename_i value other found
    rw [found]
    constructor
    · rintro ⟨⟩
    · rintro ⟨⟩
      exact absurd rfl (other _)

theorem runId?_eq_ok {runId : { runId : String // plainRunId runId = true }} :
    runId? fields = .ok runId ↔ fields.get? "run_id" = some (.str runId.1) := by
  rw [runId?]
  split
  · rename_i absent
    simp [absent]
  · rename_i text found
    rw [found]
    split
    · constructor
      · rintro ⟨⟩
        rfl
      · rintro ⟨⟩
        rfl
    · rename_i odd
      constructor
      · rintro ⟨⟩
      · rintro ⟨⟩
        exact absurd runId.2 odd
  · rename_i value other found
    rw [found]
    constructor
    · rintro ⟨⟩
    · rintro ⟨⟩
      exact absurd rfl (other _)

theorem boundedTimeout_eq_ok {value : ℚ} {timeout : { value : ℚ // 0 < value ∧ value ≤ 600 }} :
    boundedTimeout value = .ok timeout ↔ value = timeout.1 := by
  rw [boundedTimeout]
  split
  · split
    · constructor
      · rintro ⟨⟩
        rfl
      · rintro rfl
        rfl
    · rename_i negative
      constructor
      · rintro ⟨⟩
      · rintro rfl
        exact absurd timeout.2.1 negative
  · rename_i long
    constructor
    · rintro ⟨⟩
    · rintro rfl
      exact absurd timeout.2.2 long

theorem timeoutSeconds?_eq_ok {timeout : { value : ℚ // 0 < value ∧ value ≤ 600 }} :
    timeoutSeconds? floatValue fields = .ok timeout ↔
      numberOf floatValue ((fields.get? "timeout_seconds").getD (.int 120)) = some timeout.1 := by
  rw [timeoutSeconds?]
  cases fields.get? "timeout_seconds" with
  | none =>
      constructor
      · rintro ⟨⟩
        rfl
      · intro same
        exact congrArg Except.ok (Subtype.ext (Option.some.inj same))
  | some value =>
      cases value with
      | int value => exact boundedTimeout_eq_ok.trans Option.some_inj.symm
      | real rendering =>
          change (floatValue rendering).elim _ _ = _ ↔ floatValue rendering = _
          cases floatValue rendering with
          | none => exact iff_of_false (by simp) (by simp)
          | some value => exact boundedTimeout_eq_ok.trans Option.some_inj.symm
      | _ => exact iff_of_false (by simp) (by simp [numberOf])

theorem outputCap?_eq_ok {cap : { value : Int // 1 ≤ value ∧ value ≤ 100000 }} :
    outputCap? fields = .ok cap ↔ (fields.get? "output_cap").getD (.int 20000) = .int cap.1 := by
  rw [outputCap?]
  cases fields.get? "output_cap" with
  | none =>
      constructor
      · rintro ⟨⟩
        rfl
      · intro same
        exact congrArg Except.ok (Subtype.ext (Json.int.inj same))
  | some value =>
      cases value with
      | int value =>
          rw [Option.getD_some, Json.int.injEq]
          dsimp only
          split
          · split
            · constructor
              · rintro ⟨⟩
                rfl
              · rintro rfl
                rfl
            · rename_i negative
              constructor
              · rintro ⟨⟩
              · rintro rfl
                exact absurd cap.2.1 negative
          · rename_i long
            constructor
            · rintro ⟨⟩
            · rintro rfl
              exact absurd cap.2.2 long
      | _ => exact iff_of_false (by simp) (by simp)

theorem unknownFields_eq_nil :
    unknownFields fields = [] ↔ ∀ key ∈ fields.map Prod.fst, key ∈ checkKeys := by
  rw [unknownFields, List.filter_eq_nil_iff]
  simp only [Bool.not_eq_true', Bool.not_eq_false, List.contains_iff_mem]

/-- The bodies that are accepted, and what they ask for. -/
theorem CheckCommand.parse_eq_ok :
    CheckCommand.parse floatValue (.obj fields) = .ok command ↔
      AsksFor floatValue fields command := by
  rw [CheckCommand.parse]
  constructor
  · intro parsed
    split at parsed
    · rename_i argv runId timeout cap read named timed capped known
      cases parsed
      exact ⟨argv?_eq_ok.mp read, runId?_eq_ok.mp named, timeoutSeconds?_eq_ok.mp timed,
        outputCap?_eq_ok.mp capped, unknownFields_eq_nil.mp known⟩
    · cases parsed
  · intro asks
    have named : runId? fields = .ok ⟨command.runId, command.plain⟩ :=
      runId?_eq_ok.mpr asks.runId
    have timed : timeoutSeconds? floatValue fields = .ok ⟨command.limits.timeoutSeconds,
        command.limits.timeoutPositive, command.limits.timeoutBounded⟩ :=
      timeoutSeconds?_eq_ok.mpr asks.timeout
    have capped : outputCap? fields = .ok ⟨command.limits.outputCap,
        command.limits.capPositive, command.limits.capBounded⟩ :=
      outputCap?_eq_ok.mpr asks.cap
    rw [argv?_eq_ok.mpr asks.argv, named, timed, capped, unknownFields_eq_nil.mpr asks.known]

end AsksFor

/-! ## Resolved paths -/

/-- A name of a directory entry. -/
structure EntryName (name : String) : Prop where
  filled : name.toList ≠ []
  single : '/' ∉ name.toList
  proper : name ≠ "." ∧ name ≠ ".."

def rooted (names : List String) : List Char :=
  names.flatMap fun name => '/' :: name.toList

/-- An absolute path, without links and without empty or relative parts. -/
def ResolvedPath (path : String) : Prop :=
  ∃ names, (∀ name ∈ names, EntryName name) ∧
    path.toList = if names = [] then ['/'] else rooted names

/-- A directory is an entry of another. -/
def EntryOf (root path : String) : Prop :=
  ∃ name, EntryName name ∧ path = joinPath root name

section Paths

variable {root path name : String} {names : List String}

theorem rooted_concat : rooted (names ++ [name]) = rooted names ++ '/' :: name.toList := by
  rw [rooted, List.flatMap_append, List.flatMap_singleton]
  rfl

/-- The last slash and what is before it. -/
theorem upToSlash {text last : List Char} (single : '/' ∉ last) :
    (text ++ '/' :: last).rdropWhile (· != '/') = text ++ ['/'] := by
  rw [List.rdropWhile, List.reverse_append, List.reverse_cons, List.append_assoc,
    List.dropWhile_append_of_pos]
  · change (List.dropWhile (· != '/') ('/' :: text.reverse)).reverse = _
    rw [List.dropWhile_cons_of_neg (by decide), List.reverse_cons, List.reverse_reverse]
  · intro c member
    rw [bne_iff_ne]
    rintro rfl
    exact single (List.mem_reverse.mp member)

theorem rooted_ends (entries : ∀ name ∈ names, EntryName name) (some : names ≠ []) :
    ∃ text c, rooted names = text ++ [c] ∧ c ≠ '/' := by
  rcases List.eq_nil_or_concat names with rfl | ⟨names, name, rfl⟩
  · exact absurd rfl some
  · rw [List.concat_eq_append] at entries ⊢
    have entry := entries name (List.mem_append_right _ (List.mem_singleton_self _))
    rcases List.eq_nil_or_concat name.toList with empty | ⟨text, c, spelled⟩
    · exact absurd empty entry.filled
    · rw [List.concat_eq_append] at spelled
      refine ⟨rooted names ++ '/' :: text, c, ?_, ?_⟩
      · rw [rooted_concat, spelled, List.append_assoc, List.cons_append]
      · rintro rfl
        exact entry.single (spelled ▸ List.mem_append_right _ (List.mem_singleton_self _))

theorem joinPath_entry (entry : EntryName name) : joinPath path name =
    if path = "" ∨ path.toList.getLast? = some '/' then path ++ name else path ++ "/" ++ name := by
  refine if_neg fun slash => entry.single ?_
  exact List.mem_of_mem_head? slash

/-- A resolved path is an entry of its directory, except at the root. -/
theorem entryOf_dirname (resolved : ResolvedPath path) :
    EntryOf (dirname path) path ∨ path = "/" ∧ dirname path = "/" := by
  rcases resolved with ⟨names, entries, spelled⟩
  rcases List.eq_nil_or_concat names with rfl | ⟨names, name, rfl⟩
  · right
    rw [if_pos rfl] at spelled
    have slash : path = "/" := String.toList_inj.mp spelled
    rw [slash]
    exact ⟨rfl, by decide +kernel⟩
  · left
    rw [List.concat_eq_append] at entries spelled
    rw [if_neg (List.concat_ne_nil name names), rooted_concat] at spelled
    have entry := entries name (List.mem_append_right _ (List.mem_singleton_self _))
    refine ⟨name, entry, ?_⟩
    rw [joinPath_entry entry, dirname, spelled, upToSlash entry.single]
    by_cases top : names = []
    · have slash : path = "/" ++ name := by
        rw [← String.toList_inj, spelled, top, String.toList_append]
        rfl
      rw [top, slash]
      rfl
    · rcases rooted_ends (fun name member => entries name (List.mem_append_left _ member)) top with
        ⟨text, c, ends, other⟩
      have inner : ¬ (rooted names ++ ['/']).all (· == '/') = true := by
        rw [ends, List.all_append, List.all_append]
        simp [other]
      have kept : (rooted names ++ ['/']).rdropWhile (· == '/') = rooted names := by
        rw [List.rdropWhile_concat_pos _ _ _ (by decide), ends,
          List.rdropWhile_concat_neg _ _ _ (by simp [other])]
      have last : ¬ (String.ofList (rooted names) = "" ∨
          (String.ofList (rooted names)).toList.getLast? = some '/') := by
        rw [String.toList_ofList, ends, List.getLast?_concat]
        rintro (empty | slash)
        · simp at empty
        · exact other (Option.some.inj slash)
      rw [if_neg inner, kept, if_neg last, ← String.toList_inj, String.toList_append,
        String.toList_append, String.toList_ofList, spelled, List.append_assoc]
      rfl

end Paths

/-! ## The record of a request -/

variable {σ : Type}

/-- The calls that find the directory of a run, and what they come to. -/
inductive WorkspaceRecord (setting runId : String) :
    History osSignature OsRaised σ → Except OsRaised (Option String) → Prop where
  | noRoot {before after : σ} {error : OsRaised} :
      WorkspaceRecord setting runId [⟨before, .realpath setting, .error error, after⟩]
        (.error error)
  | noPath {before middle after : σ} {root : String} {error : OsRaised} :
      WorkspaceRecord setting runId
        [⟨before, .realpath setting, .ok root, middle⟩,
          ⟨middle, .realpath (joinPath root runId), .error error, after⟩] (.error error)
  | outside {before middle after : σ} {root cwd : String} : dirname cwd ≠ root →
      WorkspaceRecord setting runId
        [⟨before, .realpath setting, .ok root, middle⟩,
          ⟨middle, .realpath (joinPath root runId), .ok cwd, after⟩] (.ok none)
  | unseen {before middle last after : σ} {root cwd : String} {error : OsRaised} :
      WorkspaceRecord setting runId
        [⟨before, .realpath setting, .ok root, middle⟩,
          ⟨middle, .realpath (joinPath root runId), .ok cwd, last⟩,
          ⟨last, .isdir cwd, .error error, after⟩] (.error error)
  | missing {before middle last after : σ} {root cwd : String} : dirname cwd = root →
      WorkspaceRecord setting runId
        [⟨before, .realpath setting, .ok root, middle⟩,
          ⟨middle, .realpath (joinPath root runId), .ok cwd, last⟩,
          ⟨last, .isdir cwd, .ok false, after⟩] (.ok none)
  | found {before middle last after : σ} {root cwd : String} : dirname cwd = root →
      WorkspaceRecord setting runId
        [⟨before, .realpath setting, .ok root, middle⟩,
          ⟨middle, .realpath (joinPath root runId), .ok cwd, last⟩,
          ⟨last, .isdir cwd, .ok true, after⟩] (.ok (some cwd))

/-- The calls of a request. -/
inductive CheckCalls (floatValue : String → Option ℚ) (service : CheckService)
    (request : CheckRequest) (fuel : Nat) :
    History osSignature OsRaised σ → Except OsRaised (Option CheckReply) → Prop where
  | refused {reply : CheckReply} : allowedCheck floatValue service request = .error reply →
      CheckCalls floatValue service request fuel [] (.ok (some reply))
  | lost {command : CheckCommand} {calls : History osSignature OsRaised σ} {error : OsRaised} :
      allowedCheck floatValue service request = .ok command →
      WorkspaceRecord (service.workspaceRoot.getD "/workspaces") command.runId calls
        (.error error) →
      CheckCalls floatValue service request fuel calls (.error error)
  | notFound {command : CheckCommand} {calls : History osSignature OsRaised σ} :
      allowedCheck floatValue service request = .ok command →
      WorkspaceRecord (service.workspaceRoot.getD "/workspaces") command.runId calls (.ok none) →
      CheckCalls floatValue service request fuel calls
        (.ok (some (.raised 404 "run workspace not found on this volume")))
  | ran {command : CheckCommand} {located calls : History osSignature OsRaised σ} {cwd : String}
      {ended : Except OsRaised (Option CheckResult)} :
      allowedCheck floatValue service request = .ok command →
      WorkspaceRecord (service.workspaceRoot.getD "/workspaces") command.runId located
        (.ok (some cwd)) →
      CheckRecord service.path command.argv.parts cwd command.limits.timeoutSeconds
        command.limits.outputCap fuel calls ended →
      CheckCalls floatValue service request fuel (located ++ calls) (checkReplyOf ended)

section Record

variable {world : World osSignature OsRaised σ} {state last : σ}
  {history : History osSignature OsRaised σ}

theorem workspaceOf_record {setting runId : String} {outcome : Except OsRaised (Option String)}
    (runs : Runs world.recorded (workspaceOf setting runId) (state, []) outcome (last, history)) :
    WorkspaceRecord setting runId history outcome := by
  rcases Runs.record_bind runs with ⟨root, _, _, _, rfl, first, resolves⟩ | ⟨error, rfl, first⟩
  · rcases Runs.record_perform first with ⟨_, rfl⟩
    rcases Runs.record_bind resolves with ⟨cwd, _, _, _, rfl, second, looks⟩ |
      ⟨error, rfl, second⟩
    · rcases Runs.record_perform second with ⟨_, rfl⟩
      split at looks
      · rename_i apart
        rcases Runs.ok_iff.mp looks with ⟨rfl, ended⟩
        cases ended
        exact .outside apart
      · rename_i same
        rcases Runs.record_bind looks with ⟨directory, _, _, _, rfl, third, found⟩ |
          ⟨error, rfl, third⟩
        · rcases Runs.record_perform third with ⟨_, rfl⟩
          rcases Runs.ok_iff.mp found with ⟨rfl, ended⟩
          cases ended
          cases directory with
          | true => exact .found (not_not.mp same)
          | false => exact .missing (not_not.mp same)
        · rcases Runs.record_perform third with ⟨_, rfl⟩
          exact .unseen
    · rcases Runs.record_perform second with ⟨_, rfl⟩
      exact .noPath
  · rcases Runs.record_perform first with ⟨_, rfl⟩
    exact .noRoot

/-- The record of a request. -/
theorem runCheck_record {floatValue : String → Option ℚ}
    {service : CheckService} {request : CheckRequest} {fuel : Nat}
    {outcome : Except OsRaised (Option CheckReply)}
    (runs : Runs world.recorded (runCheck floatValue service request fuel) (state, []) outcome
      (last, history)) :
    CheckCalls floatValue service request fuel history outcome := by
  rw [runCheck] at runs
  cases admission : allowedCheck floatValue service request with
  | error reply =>
      rw [admission] at runs
      rcases Runs.ok_iff.mp runs with ⟨rfl, ended⟩
      cases ended
      exact .refused admission
  | ok command =>
      rw [admission] at runs
      rcases Runs.record_bind runs with ⟨found, middle, located, calls, rfl, finds, rest⟩ |
        ⟨error, rfl, finds⟩
      · have places := workspaceOf_record finds
        cases found with
        | none =>
            rcases Runs.ok_iff.mp rest with ⟨rfl, ended⟩
            cases ended
            rw [List.append_nil]
            exact .notFound admission places
        | some cwd =>
            rcases Runs.bind_iff.mp rest with ⟨ended, after, attempted, answered⟩ |
              ⟨error, attempted, _⟩
            · rcases Runs.attempt_iff.mp attempted with ⟨_, same, checks⟩
              cases same
              rcases Runs.ofExcept_iff.mp answered with ⟨rfl, rfl⟩
              exact .ran admission places (runBoundedCheck_record checks)
            · rcases Runs.attempt_iff.mp attempted with ⟨_, same, _⟩
              cases same
      · exact .lost admission (workspaceOf_record finds)

end Record

/-! ## What is started -/

/-- Checks are enabled, and the caller has the token. -/
structure Entitled (service : CheckService) (request : CheckRequest) : Prop where
  enabled : envFlag service.enabled = true
  guarded : service.token.getD "" ≠ ""
  bearer : request.authorization = some ("Bearer " ++ service.token.getD "")

section Started

variable {world : World osSignature OsRaised σ} {floatValue : String → Option ℚ}
  {service : CheckService} {request : CheckRequest} {command : CheckCommand} {state last : σ}
  {history earlier later : History osSignature OsRaised σ}
  {outcome : Except OsRaised (Option CheckReply)} {call : Served osSignature OsRaised σ}
  {spawn : Spawn} {fuel : Nat}

theorem tokenMatches_iff {authorization : Option String} {token : String} :
    tokenMatches authorization token = true ↔ authorization = some ("Bearer " ++ token) := by
  cases authorization with
  | none => simp [tokenMatches]
  | some supplied => simp [tokenMatches]

theorem requireRunCheckToken_eq_ok :
    requireRunCheckToken service request.authorization = .ok () ↔
      service.token.getD "" ≠ "" ∧
        request.authorization = some ("Bearer " ++ service.token.getD "") := by
  rw [requireRunCheckToken, ← tokenMatches_iff]
  split
  · rename_i tokenless
    exact iff_of_false (by simp) fun both => both.1 tokenless
  · split
    · rename_i guarded known
      exact iff_of_true rfl ⟨guarded, known⟩
    · rename_i wrong
      exact iff_of_false (by simp) fun both => wrong both.2

theorem allowedCheck_eq_ok : allowedCheck floatValue service request = .ok command ↔
    Entitled service request ∧
      ∃ fields, request.body = .obj fields ∧ AsksFor floatValue fields command := by
  have parsed : (CheckCommand.parse floatValue request.body).mapError CheckReply.invalid =
      .ok command ↔ ∃ fields, request.body = .obj fields ∧ AsksFor floatValue fields command := by
    cases request.body with
    | obj fields =>
        simp only [Json.obj.injEq, exists_eq_left', ← CheckCommand.parse_eq_ok]
        cases CheckCommand.parse floatValue (.obj fields) with
        | ok other => exact Iff.rfl.trans (by simp [Except.mapError])
        | error errors => exact iff_of_false (by simp [Except.mapError]) (by simp)
    | _ => exact iff_of_false (by simp [CheckCommand.parse, Except.mapError]) (by simp)
  rw [allowedCheck]
  split
  · rename_i enabled
    cases token : requireRunCheckToken service request.authorization with
    | ok granted =>
        have both := requireRunCheckToken_eq_ok.mp token
        exact parsed.trans ⟨fun body => ⟨⟨enabled, both.1, both.2⟩, body⟩, And.right⟩
    | error reply =>
        refine iff_of_false (by simp) fun both => ?_
        rw [requireRunCheckToken_eq_ok.mpr ⟨both.1.guarded, both.1.bearer⟩] at token
        cases token
  · rename_i disabled
    exact iff_of_false (by simp) fun both => disabled both.1.enabled

/-- The directory is looked for before anything is started. -/
theorem WorkspaceRecord.starts_nothing {setting runId : String}
    {calls : History osSignature OsRaised σ} {outcome : Except OsRaised (Option String)}
    (record : WorkspaceRecord setting runId calls outcome) :
    ∀ call ∈ calls, ∀ spawn, call.op ≠ .popen spawn := by
  cases record <;> simp

/-- There is one start. -/
theorem start_unique {front calls : History osSignature OsRaised σ}
    {first : Served osSignature OsRaised σ}
    (before : ∀ call ∈ front, ∀ spawn, call.op ≠ .popen spawn)
    (after : ∀ call ∈ calls, ∀ spawn, call.op ≠ .popen spawn)
    (split : front ++ first :: calls = earlier ++ call :: later)
    (starts : call.op = .popen spawn) : earlier = front ∧ call = first ∧ later = calls := by
  have absent : call ∉ front := fun member => before call member spawn starts
  have gone : call ∉ calls := fun member => after call member spawn starts
  rcases (List.append_cons_inj_of_notMem absent gone).mp split with ⟨rfl, rfl, rfl⟩
  exact ⟨rfl, rfl, rfl⟩

/-- A command is started after its directory was found, once, and nothing is started
after it. -/
theorem CheckCalls.started (calls : CheckCalls floatValue service request fuel history outcome)
    (split : history = earlier ++ call :: later) (starts : call.op = .popen spawn) :
    ∃ command located clock ended,
      allowedCheck floatValue service request = .ok command ∧
      WorkspaceRecord (service.workspaceRoot.getD "/workspaces") command.runId located
        (.ok (some spawn.cwd)) ∧
      CheckRecord service.path command.argv.parts spawn.cwd command.limits.timeoutSeconds
        command.limits.outputCap fuel (clock :: call :: later) ended ∧
      earlier = located ++ [clock] ∧ outcome = checkReplyOf ended := by
  have member : call ∈ history := split ▸ List.mem_append_right _ List.mem_cons_self
  cases calls with
  | refused refused => cases member
  | lost admission record => exact absurd starts (record.starts_nothing call member spawn)
  | notFound admission record => exact absurd starts (record.starts_nothing call member spawn)
  | @ran command located calls cwd ended admission places record =>
      have looking : ∀ clock : Served osSignature OsRaised σ,
          (∀ spawn, clock.op ≠ .popen spawn) →
          ∀ call ∈ located ++ [clock], ∀ spawn, call.op ≠ .popen spawn := by
        intro clock read call member
        rcases List.mem_append.mp member with before | last
        · exact places.starts_nothing call before
        · cases List.mem_singleton.mp last
          exact read
      have original := record
      cases record with
      | @noClock before after error =>
          exact absurd starts (looking ⟨before, .monotonic, .error error, after⟩
            (fun _ same => by cases same) call member spawn)
      | @noProcess before middle after started error =>
          rw [List.append_cons] at split
          rcases start_unique (looking _ fun _ same => by cases same)
            (fun _ absent => absurd absent List.not_mem_nil) split starts with ⟨rfl, rfl, rfl⟩
          cases starts
          exact ⟨command, located, _, _, admission, places, original, rfl, rfl⟩
      | @process before middle after started pid calls outcome ends =>
          rw [List.append_cons] at split
          have none : ∀ call ∈ calls, ∀ spawn, call.op ≠ .popen spawn := by
            intro call member spawn starts
            have concern := ends.concerns call member
            rw [starts] at concern
            exact concern
          rcases start_unique (looking _ fun _ same => by cases same) none split starts with
            ⟨rfl, rfl, rfl⟩
          cases starts
          exact ⟨command, located, _, _, admission, places, original, rfl, rfl⟩

/-- What was asked, and the answer. -/
def exchanged (call : Served osSignature OsRaised σ) :
    (op : OsOp) × Except OsRaised (osSignature.Res op) :=
  ⟨call.op, call.answer⟩

theorem WorkspaceRecord.exchanges {setting runId cwd : String}
    {calls : History osSignature OsRaised σ}
    (record : WorkspaceRecord setting runId calls (.ok (some cwd))) :
    calls.map exchanged = [⟨.realpath setting, .ok (dirname cwd)⟩,
      ⟨.realpath (joinPath (dirname cwd) runId), .ok cwd⟩, ⟨.isdir cwd, .ok true⟩] := by
  cases record with
  | found same =>
      rw [same]
      rfl

end Started

/-- The answers of `realpath` are resolved paths. -/
def Resolves (world : World osSignature OsRaised σ) : Prop :=
  ∀ {state path answer after}, world.serve state (.realpath path) (.ok answer) after →
    ResolvedPath answer

/-- Whatever a caller sends, a command is started only for one who has the token of a service
that runs checks, as the well-formed body asks for it and without any other environment, in a
directory that was found to be an entry of the volume; and no other is started. -/
theorem check_confined {world : World osSignature OsRaised σ} (resolves : Resolves world)
    {floatValue : String → Option ℚ} {service : CheckService} {request : CheckRequest}
    {fuel : Nat} {state last : σ} {history : History osSignature OsRaised σ}
    {outcome : Except OsRaised (Option CheckReply)}
    (runs : Runs world.recorded (runCheck floatValue service request fuel) (state, []) outcome
      (last, history))
    {earlier later : History osSignature OsRaised σ} {call : Served osSignature OsRaised σ}
    (split : history = earlier ++ call :: later) {spawn : Spawn}
    (starts : call.op = .popen spawn) :
    Entitled service request ∧
      (∃ fields command root clock, request.body = .obj fields ∧
        AsksFor floatValue fields command ∧ spawn.argv = command.argv.parts ∧
        spawn.env = scrubbedEnv service.path ∧
        earlier.map exchanged =
          [⟨.realpath (service.workspaceRoot.getD "/workspaces"), .ok root⟩,
            ⟨.realpath (joinPath root command.runId), .ok spawn.cwd⟩,
            ⟨.isdir spawn.cwd, .ok true⟩, ⟨.monotonic, .ok clock⟩] ∧
        (EntryOf root spawn.cwd ∨ spawn.cwd = "/" ∧ root = "/")) ∧
      ∀ other ∈ later, ∀ spawn, other.op ≠ .popen spawn := by
  rcases (runCheck_record runs).started split starts with
    ⟨command, located, clock, ended, admission, places, record, rfl, _⟩
  rcases allowedCheck_eq_ok.mp admission with ⟨entitled, fields, body, asks⟩
  have entry : EntryOf (dirname spawn.cwd) spawn.cwd ∨
      spawn.cwd = "/" ∧ dirname spawn.cwd = "/" := by
    have asked : (⟨.realpath (joinPath (dirname spawn.cwd) command.runId), .ok spawn.cwd⟩ :
        (op : OsOp) × Except OsRaised (osSignature.Res op)) ∈ located.map exchanged := by
      rw [places.exchanges]
      exact List.mem_cons_of_mem _ List.mem_cons_self
    rcases List.mem_map.mp asked with ⟨⟨before, op, answer, after⟩, member, same⟩
    cases same
    have served := runs.answered (fun _ absent => absurd absent List.not_mem_nil) _
      (split ▸ List.mem_append_left (call :: later) (List.mem_append_left [clock] member))
    exact entryOf_dirname (resolves served)
  have clocked : ∃ reading, exchanged clock = ⟨.monotonic, .ok reading⟩ ∧
      spawn.argv = command.argv.parts ∧ spawn.env = scrubbedEnv service.path ∧
      ∀ other ∈ later, ∀ spawn, other.op ≠ .popen spawn := by
    rcases spawn with ⟨argv, cwd, env⟩
    cases record with
    | @noProcess _ _ _ started =>
        cases starts
        exact ⟨started, rfl, rfl, rfl, fun _ absent => absurd absent List.not_mem_nil⟩
    | @process _ _ _ started pid calls outcome ends =>
        cases starts
        refine ⟨started, rfl, rfl, rfl, ?_⟩
        intro other member spawn starts
        have concern := ends.concerns other member
        rw [starts] at concern
        exact concern
  rcases clocked with ⟨reading, clocked, argv, env, once⟩
  refine ⟨entitled, ⟨fields, command, dirname spawn.cwd, reading, body, asks, argv, env, ?_, entry⟩,
    once⟩
  rw [List.map_append, places.exchanges, List.map_singleton, clocked]
  rfl

/-- A volume with one run, and a command that prints two characters in three bytes; the state
counts the reads. -/
def checkHost : (op : OsOp) → Nat → Except OsRaised (osSignature.Res op) × Nat
  | .realpath path, reads =>
      (.ok (if path = "/workspaces" then path else "/workspaces/run-1"), reads)
  | .isdir _, reads => (.ok true, reads)
  | .monotonic, reads => (.ok 0, reads)
  | .popen _, reads => (.ok 42, reads)
  | .register, reads => (.ok (), reads)
  | .select _, reads => (.ok true, reads)
  | .read _, reads => (.ok (if reads = 0 then [0x68, 0xC3, 0xA9] else []), reads + 1)
  | .waitid _, reads => (.ok true, reads)
  | .sleep _, reads => (.ok (), reads)
  | .killpg _, reads => (.ok (), reads)
  | .close, reads => (.ok (), reads)
  | .wait, reads => (.ok 0, reads)

def checkService : CheckService := ⟨some "true", some "secret", none, none⟩

/-- A check that keeps two bytes of its output. -/
def checkRequest : CheckRequest where
  authorization := some "Bearer secret"
  body := .obj [("argv", .arr [.str "pytest", .str "-q"]), ("run_id", .str "run-1"),
    ("output_cap", .int 2)]

def checkSpawn : Spawn :=
  ⟨["pytest", "-q"], "/workspaces/run-1", [("PATH", "/usr/bin:/bin"), ("HOME", "/tmp")]⟩

/-- The recorded run. -/
theorem checkHost_runs : ∃ last history,
    Runs (World.ofFn checkHost).recorded (runCheck (fun _ => none) checkService checkRequest 3)
      (0, []) (.ok (some (.ran true (some 0) false
        (String.ofList ['h', Reading.Utf8.replacement]) true))) (last, history) ∧
      (∃ call ∈ history, call.op = .popen checkSpawn) ∧
      bytesRead (checkActions history) = Reading.Utf8.encode ['h', Char.ofNat 0xE9] := by
  have runs : Runs (World.ofFn checkHost).recorded
      (runCheck (fun _ => none) checkService checkRequest 3) (0, [])
      ((runCheck (fun _ => none) checkService checkRequest 3).eval
        (respondMonitored checkHost fun history call => history ++ [call]) (0, [])).1
      ((runCheck (fun _ => none) checkService checkRequest 3).eval
        (respondMonitored checkHost fun history call => history ++ [call]) (0, [])).2 := by
    rw [World.recorded, monitored_ofFn]
    exact runs_ofFn.mpr rfl
  have answer : ((runCheck (fun _ => none) checkService checkRequest 3).eval
      (respondMonitored checkHost fun history call => history ++ [call]) (0, [])).1 =
        .ok (some (.ran true (some 0) false (String.ofList ['h', Reading.Utf8.replacement])
          true)) := by decide +kernel
  rw [answer] at runs
  exact ⟨_, _, runs, by decide +kernel, by decide +kernel⟩

theorem checkHost_resolves : Resolves (World.ofFn checkHost) := by
  have volume : EntryName "workspaces" := ⟨by decide +kernel, by decide +kernel, by decide⟩
  have entry : EntryName "run-1" := ⟨by decide +kernel, by decide +kernel, by decide⟩
  intro state path answer after served
  cases served
  split
  · rename_i same
    rw [same]
    exact ⟨["workspaces"], List.forall_mem_singleton.mpr volume, by decide +kernel⟩
  · exact ⟨["workspaces", "run-1"],
      List.forall_mem_cons.mpr ⟨volume, List.forall_mem_singleton.mpr entry⟩, by decide +kernel⟩

theorem check_confined_entry : ∃ last history earlier call later,
    Runs (World.ofFn checkHost).recorded (runCheck (fun _ => none) checkService checkRequest 3)
      (0, []) (.ok (some (.ran true (some 0) false
        (String.ofList ['h', Reading.Utf8.replacement]) true))) (last, history) ∧
      history = earlier ++ call :: later ∧ call.op = .popen checkSpawn ∧
      Entitled checkService checkRequest ∧
      (∃ fields command root clock, checkRequest.body = .obj fields ∧
        AsksFor (fun _ => none) fields command ∧ checkSpawn.argv = command.argv.parts ∧
        checkSpawn.env = scrubbedEnv checkService.path ∧
        earlier.map exchanged =
          [⟨.realpath (checkService.workspaceRoot.getD "/workspaces"), .ok root⟩,
            ⟨.realpath (joinPath root command.runId), .ok checkSpawn.cwd⟩,
            ⟨.isdir checkSpawn.cwd, .ok true⟩, ⟨.monotonic, .ok clock⟩] ∧
        (EntryOf root checkSpawn.cwd ∨ checkSpawn.cwd = "/" ∧ root = "/")) ∧
      ∀ other ∈ later, ∀ spawn, other.op ≠ .popen spawn := by
  rcases checkHost_runs with ⟨last, history, runs, ⟨call, member, starts⟩, _⟩
  rcases List.append_of_mem member with ⟨earlier, later, split⟩
  exact ⟨last, history, earlier, call, later, runs, split, starts,
    check_confined checkHost_resolves runs split starts⟩

/-! ## What is answered -/

/-- A started command, and its group, is killed, closed and reaped before there is an answer,
with one call each and none after, unless one of these calls raises; and the answer says what
the calls before them showed, or what the last of them raised. -/
theorem check_answered {world : World osSignature OsRaised σ} {floatValue : String → Option ℚ}
    {service : CheckService} {request : CheckRequest} {fuel : Nat} {state last : σ}
    {history : History osSignature OsRaised σ} {outcome : Except OsRaised (Option CheckReply)}
    (runs : Runs world.recorded (runCheck floatValue service request fuel) (state, []) outcome
      (last, history))
    {earlier later : History osSignature OsRaised σ} {before after : σ} {spawn : Spawn} {pid : Int}
    (split : history = earlier ++ ⟨before, .popen spawn, .ok pid, after⟩ :: later) :
    ∃ fields command clock ended, request.body = .obj fields ∧ AsksFor floatValue fields command ∧
      (earlier.map exchanged).getLast? = some ⟨.monotonic, .ok clock⟩ ∧
      (∀ call ∈ later, call.op.Concerns pid) ∧
      CheckEnds command.limits.outputCap (clock + command.limits.timeoutSeconds) pid fuel later
        ended ∧
      outcome = checkReplyOf ended := by
  rcases spawn with ⟨argv, cwd, env⟩
  rcases (runCheck_record runs).started split rfl with
    ⟨command, located, clock, ended, admission, places, record, rfl, rfl⟩
  rcases allowedCheck_eq_ok.mp admission with ⟨_, fields, body, asks⟩
  cases record with
  | @process _ _ _ started pid calls outcome ends =>
      refine ⟨fields, command, started, ended, body, asks, ?_, ends.concerns, ends, rfl⟩
      rw [List.map_append, List.map_singleton, List.getLast?_concat]
      rfl

theorem check_answered_ok : ∃ last history earlier before after later,
    Runs (World.ofFn checkHost).recorded (runCheck (fun _ => none) checkService checkRequest 3)
      (0, []) (.ok (some (.ran true (some 0) false
        (String.ofList ['h', Reading.Utf8.replacement]) true))) (last, history) ∧
      history = earlier ++ ⟨before, .popen checkSpawn, .ok 42, after⟩ :: later ∧
      ∃ fields command clock ended, checkRequest.body = .obj fields ∧
        AsksFor (fun _ => none) fields command ∧
        (earlier.map exchanged).getLast? = some ⟨.monotonic, .ok clock⟩ ∧
        (∀ call ∈ later, call.op.Concerns 42) ∧
        CheckEnds command.limits.outputCap (clock + command.limits.timeoutSeconds) 42 3 later
          ended ∧
        Except.ok (some (.ran true (some 0) false
          (String.ofList ['h', Reading.Utf8.replacement]) true)) = checkReplyOf ended := by
  rcases checkHost_runs with ⟨last, history, runs, ⟨⟨before, op, answer, after⟩, member, starts⟩, _⟩
  have served := runs.answered (fun _ absent => absurd absent List.not_mem_nil) _ member
  cases starts
  cases served
  rcases List.append_of_mem member with ⟨earlier, later, split⟩
  exact ⟨last, history, earlier, before, before, later, runs, split,
    check_answered runs split⟩

theorem allowedCheck_refuses {floatValue : String → Option ℚ} {service : CheckService}
    {request : CheckRequest} {ok timedOut truncated : Bool} {exitCode : Option Int}
    {output : String} :
    allowedCheck floatValue service request ≠
      .error (.ran ok exitCode timedOut output truncated) := by
  rw [allowedCheck]
  split
  · cases token : requireRunCheckToken service request.authorization with
    | ok granted =>
        cases CheckCommand.parse floatValue request.body <;> simp [Except.mapError]
    | error reply =>
        rw [requireRunCheckToken] at token
        split at token
        · cases token
          simp
        · split at token <;> cases token
          simp
  · simp

/-- What the calls of a started command read is what the whole record reads. -/
theorem bytesRead_located {setting runId cwd : String}
    {located calls : History osSignature OsRaised σ} {before middle after : σ} {clock : ℚ}
    {spawn : Spawn} {pid : Int}
    (places : WorkspaceRecord setting runId located (.ok (some cwd))) :
    bytesRead (checkActions (located ++ ⟨before, .monotonic, .ok clock, middle⟩ ::
      ⟨middle, .popen spawn, .ok pid, after⟩ :: calls)) = bytesRead (checkActions calls) := by
  cases places with
  | found same => rfl

/-- A call raised this error, and the check did not suppress it. -/
def Unsuppressed (history : History osSignature OsRaised σ) (error : OsRaised) : Prop :=
  ∃ before op after, ⟨before, op, .error error, after⟩ ∈ history ∧
    ∀ pgid, op = .killpg pgid → ¬ Suppressed (.error error)

theorem Unsuppressed.mono {history wider : History osSignature OsRaised σ} {error : OsRaised}
    (raised : Unsuppressed history error) (within : history ⊆ wider) :
    Unsuppressed wider error := by
  rcases raised with ⟨before, op, after, member, loud⟩
  exact ⟨before, op, after, within member, loud⟩

/-- What ends a check is what one of its calls raised. -/
theorem CheckRecord.raised {path : Option String} {argv : List String} {cwd : String}
    {timeoutSeconds : ℚ} {outputCap : Int} {fuel : Nat}
    {history : History osSignature OsRaised σ} {error : OsRaised}
    (record : CheckRecord path argv cwd timeoutSeconds outputCap fuel history (.error error)) :
    Unsuppressed history error := by
  cases record with
  | noClock => exact ⟨_, .monotonic, _, List.mem_singleton_self _, fun _ same => by cases same⟩
  | noProcess =>
      exact ⟨_, .popen _, _, List.mem_cons_of_mem _ (List.mem_singleton_self _),
        fun _ same => by cases same⟩
  | @process _ _ _ _ pid calls _ ends =>
      have raised : Unsuppressed calls error := by
        generalize spelled : (Except.error error : Except OsRaised (Option CheckResult)) = ended
          at ends
        cases ends with
        | running => cases spelled
        | @ended calls cleaning tried returncode watching tries cleaned =>
            cases tries with
            | decided => cases spelled
            | @raised earlier before after op raised split =>
                cases spelled
                have member : ⟨before, op, .error error, after⟩ ∈ calls := by
                  rw [split]
                  exact List.mem_append_right _ (List.mem_singleton_self _)
                refine ⟨before, op, after, List.mem_append_left _ member, ?_⟩
                rintro pgid rfl
                exact (watching _ member).elim
        | @uncleaned calls cleaning tried raised watching tries cleaned =>
            cases spelled
            have last : Unsuppressed cleaning error := by
              generalize spelled : (Except.error error : Except OsRaised Int) = ended at cleaned
              cases cleaned with
              | unkilled loud =>
                  cases spelled
                  exact ⟨_, _, _, List.mem_singleton_self _, fun _ _ => loud⟩
              | unclosed =>
                  cases spelled
                  exact ⟨_, .close, _, List.mem_cons_of_mem _ (List.mem_singleton_self _),
                    fun _ same => by cases same⟩
              | reaped =>
                  cases spelled
                  exact ⟨_, .wait, _, List.mem_cons_of_mem _ (List.mem_cons_of_mem _
                    (List.mem_singleton_self _)), fun _ same => by cases same⟩
            exact last.mono (List.subset_append_right _ _)
      exact raised.mono fun call member =>
        List.mem_cons_of_mem _ (List.mem_cons_of_mem _ member)

/-- The `finally` reads nothing. -/
theorem bytesRead_cleanedUp {pid : Int} {calls cleaning : History osSignature OsRaised σ}
    {outcome : Except OsRaised Int} (cleaned : CleanedUp pid cleaning outcome) :
    bytesRead (checkActions (calls ++ cleaning)) = bytesRead (checkActions calls) := by
  have nothing : bytesRead (checkActions cleaning) = [] := by
    cases cleaned with
    | unkilled | unclosed => rfl
    | reaped => cases outcome <;> rfl
  rw [checkActions, List.filterMap_append, bytesRead, List.flatMap_append]
  exact (congrArg _ nothing).trans (List.append_nil _)

/-- The output of a check that printed a text is the text as far as the cap reaches: its whole
characters, then one replacement character where the cap falls within a character.  Only an
`OSError` of a call is answered otherwise. -/
theorem check_shows_text {world : World osSignature OsRaised σ} {floatValue : String → Option ℚ}
    {service : CheckService} {request : CheckRequest}
    {fuel : Nat} {state last : σ} {history : History osSignature OsRaised σ}
    {ok timedOut truncated : Bool} {exitCode : Option Int} {output : String}
    (runs : Runs world.recorded (runCheck floatValue service request fuel) (state, [])
      (.ok (some (.ran ok exitCode timedOut output truncated))) (last, history))
    {text : List Char}
    (printed : bytesRead (checkActions history) = Reading.Utf8.encode text) :
    (∃ kind strerror, Unsuppressed history (.osError kind strerror) ∧
      CheckReply.ran ok exitCode timedOut output truncated = notStarted strerror) ∨
      ∃ fields command, request.body = .obj fields ∧ AsksFor floatValue fields command ∧
        output = String.ofList (Reading.Utf8.whole command.limits.outputCap.toNat text ++
          if Reading.Utf8.CutWithin command.limits.outputCap.toNat text then
            [Reading.Utf8.replacement] else []) ∧
        (truncated = true ↔
          Reading.Utf8.whole command.limits.outputCap.toNat text ≠ text) := by
  generalize answered : (Except.ok (some (.ran ok exitCode timedOut output truncated)) :
    Except OsRaised (Option CheckReply)) = outcome at runs
  cases runCheck_record runs with
  | refused refused =>
      cases answered
      exact absurd refused allowedCheck_refuses
  | lost => cases answered
  | notFound => cases answered
  | @ran command located calls cwd ended admission places record =>
      rcases allowedCheck_eq_ok.mp admission with ⟨_, fields, body, asks⟩
      cases ended with
      | error error =>
          cases error with
          | osError kind strerror =>
              cases answered
              exact .inl ⟨kind, strerror, record.raised.mono (List.subset_append_right _ _), rfl⟩
          | exception typeName => cases answered
      | ok result =>
          cases result with
          | none => cases answered
          | some result =>
              cases answered
              right
              generalize spelled : (Except.ok (some result) :
                Except OsRaised (Option CheckResult)) = ended at record
              cases record with
              | noClock => cases spelled
              | noProcess => cases spelled
              | process ends =>
                  rw [bytesRead_located places] at printed
                  cases ends with
                  | running => cases spelled
                  | uncleaned => cases spelled
                  | ended watching tries cleaned =>
                      rw [bytesRead_cleanedUp cleaned] at printed
                      cases tries with
                      | raised => cases spelled
                      | decided decided =>
                          cases spelled
                          refine ⟨fields, command, body, asks, ?_, ?_⟩
                          · rw [resultOf, printed, Reading.Utf8.decode_take]
                          · rw [resultOf, printed, decide_eq_true_iff, ne_eq,
                              Reading.Utf8.whole_eq_self, not_le]

/-- The second character does not fit. -/
theorem check_shows_text_cut : ∃ last history,
    Runs (World.ofFn checkHost).recorded (runCheck (fun _ => none) checkService checkRequest 3)
      (0, []) (.ok (some (.ran true (some 0) false
        (String.ofList ['h', Reading.Utf8.replacement]) true))) (last, history) ∧
      bytesRead (checkActions history) = Reading.Utf8.encode ['h', Char.ofNat 0xE9] ∧
      ((∃ kind strerror, Unsuppressed history (.osError kind strerror) ∧
          CheckReply.ran true (some 0) false
            (String.ofList ['h', Reading.Utf8.replacement]) true = notStarted strerror) ∨
        ∃ fields command, checkRequest.body = .obj fields ∧
          AsksFor (fun _ => none) fields command ∧
          String.ofList ['h', Reading.Utf8.replacement] =
            String.ofList (Reading.Utf8.whole command.limits.outputCap.toNat
                ['h', Char.ofNat 0xE9] ++
              if Reading.Utf8.CutWithin command.limits.outputCap.toNat ['h', Char.ofNat 0xE9] then
                [Reading.Utf8.replacement] else []) ∧
          (true = true ↔ Reading.Utf8.whole command.limits.outputCap.toNat
            ['h', Char.ofNat 0xE9] ≠ ['h', Char.ofNat 0xE9])) := by
  rcases checkHost_runs with ⟨last, history, runs, _, printed⟩
  exact ⟨last, history, runs, printed, check_shows_text runs printed⟩

end SlimxAgent
