import SlimxAgent.HostClient

/-!
# The store over HTTP

Runs and steps arrive as JSON snapshots and are parsed strictly: a field with the
wrong JSON type is a protocol error, never coerced.  Every write is one callback that
the host commits by itself.
-/

namespace SlimxAgent

open Interaction

/-! ## Strict wire fields -/

/-- The error of a field of the wrong type. -/
def fieldError (what key expected : String) : HostError :=
  .protocol (what ++ " field " ++ reprStr key ++ " must be " ++ expected)

def requiredStr (data : Dict) (key what : String) : Except HostError String :=
  match Dict.get data key with
  | .str value =>
      if value = "" then .error (fieldError what key "a non-empty string") else .ok value
  | _ => .error (fieldError what key "a non-empty string")

def optionalStr (data : Dict) (key what : String) : Except HostError (Option String) :=
  match Dict.get data key with
  | .null => .ok none
  | .str value => .ok (some value)
  | _ => .error (fieldError what key "a string or null")

def optionalBool (data : Dict) (key what : String) : Except HostError Bool :=
  match Dict.get data key with
  | .null => .ok false
  | .bool value => .ok value
  | _ => .error (fieldError what key "a boolean or null")

def optionalInt (data : Dict) (key what : String) : Except HostError (Option Int) :=
  match Dict.get data key with
  | .null => .ok none
  | .int value => .ok (some value)
  | _ => .error (fieldError what key "an integer or null")

/-- The members of a list, if each of them is a string. -/
def strings? : List Json → Option (List String)
  | [] => some []
  | .str text :: items => (strings? items).map (text :: ·)
  | _ => none

def optionalStrList (data : Dict) (key what : String) : Except HostError (Option (List String)) :=
  match Dict.get data key with
  | .null => .ok none
  | .arr items =>
      match strings? items with
      | some texts => .ok (some texts)
      | none => .error (fieldError what key "an array of strings or null")
  | _ => .error (fieldError what key "an array of strings or null")

/-! ## Snapshots -/

/-- A parsed list of strings, as the policies read it. -/
def storedStrings : Option (List String) → Stored
  | none => .json .null
  | some texts => .json (.arr (texts.map .str))

section Accepted

variable {data : Dict} {key what : String}

theorem requiredStr_eq_ok {value : String} :
    requiredStr data key what = .ok value ↔ data.get key = .str value ∧ value ≠ "" := by
  rw [requiredStr]
  cases data.get key with
  | str text =>
      by_cases empty : text = ""
      · simp only [empty, if_true, reduceCtorEq, Json.str.injEq, false_iff]
        rintro ⟨rfl, filled⟩
        exact filled rfl
      · simp only [empty, if_false, Except.ok.injEq, Json.str.injEq]
        constructor
        · rintro rfl
          exact ⟨rfl, empty⟩
        · exact And.left
  | _ => simp

/-- An optional text is read as it stands, null being no text. -/
theorem optionalStr_eq_ok {value : Option String} :
    optionalStr data key what = .ok value ↔ data.get key = .ofOption .str value := by
  rw [optionalStr]
  cases data.get key <;> cases value <;> simp [Json.ofOption]

theorem optionalInt_eq_ok {value : Option Int} :
    optionalInt data key what = .ok value ↔ data.get key = .ofOption .int value := by
  rw [optionalInt]
  cases data.get key <;> cases value <;> simp [Json.ofOption]

theorem strings?_eq_some {items : List Json} {texts : List String} :
    strings? items = some texts ↔ items = texts.map .str := by
  induction items generalizing texts with
  | nil => cases texts <;> simp [strings?]
  | cons item items ih =>
      cases item with
      | str text => cases texts <;> simp [strings?, ih, and_comm]
      | _ => cases texts <;> simp [strings?]

/-- An optional list of texts is read as it stands. -/
theorem optionalStrList_eq_ok {value : Option (List String)} :
    optionalStrList data key what = .ok value ↔ .json (data.get key) = storedStrings value := by
  rw [optionalStrList]
  cases data.get key with
  | arr items =>
      cases value with
      | none => cases texts : strings? items <;> simp [storedStrings, texts]
      | some held =>
          simp only [storedStrings, Stored.json.injEq, Json.arr.injEq, ← strings?_eq_some]
          cases strings? items <;> simp
  | _ => cases value <;> simp [storedStrings]

end Accepted

/-- The engine-visible view of a host run row. -/
def RunSnapshot.fromWire (data : Dict) : Except HostError (RunView String) := do
  let what := "run snapshot"
  let id ← requiredStr data "id" what
  let status ← requiredStr data "status" what
  let approvalPolicy ← optionalStr data "approval_policy" what
  let autoApprove ← optionalBool data "auto_approve" what
  let allowedToolsJson ← optionalStrList data "allowed_tools_json" what
  let budgetMaxSteps ← optionalInt data "budget_max_steps" what
  let budgetMaxWallSeconds ← optionalInt data "budget_max_wall_seconds" what
  let preapprovedTools ← optionalStrList data "preapproved_tools" what
  return {
    id := id
    status := .ofText status
    approvalPolicy := approvalPolicy.map .ofText
    autoApprove := autoApprove
    allowedToolsJson := storedStrings allowedToolsJson
    budgetMaxSteps := .ofOption .int budgetMaxSteps
    budgetMaxWallSeconds := .ofOption .int budgetMaxWallSeconds
    preapprovedTools := storedStrings preapprovedTools }

/-- The engine-visible view of a host step row.  The gates key on exact statuses: an
unrecognized one is refused, never dispatched. -/
def StepSnapshot.fromWire (data : Dict) : Except HostError (StepView String) := do
  let what := "step snapshot"
  let status ← requiredStr data "status" what
  if (StepStatus.ofText status).recognized = false then
    .error (.protocol ("the " ++ what ++ " has an unrecognized status " ++
      reprStr (clip status 64)))
  else
    let id ← requiredStr data "id" what
    let type ← requiredStr data "type" what
    let title ← optionalStr data "title" what
    let requiresApproval ← optionalBool data "requires_approval" what
    return {
      id := id
      type := type
      title := title.getD ""
      status := .ofText status
      requiresApproval := requiresApproval }

/-! ## The store -/

/-- Raise a wire-shape error found in an answer. -/
def checked {α : Type} (result : Except HostError α) : Wire α :=
  .ofExcept (result.mapError .hostError)

namespace HttpRunStore

def getRun (runId : String) : Wire (Option (RunView String)) := do
  match ← HostClient.getRun runId with
  | none => return none
  | some data => return some (← checked (RunSnapshot.fromWire data))

def getSteps (runId : String) : Wire (List (StepView String)) := do
  checked ((← HostClient.getSteps runId).mapM StepSnapshot.fromWire)

def getStep (stepId : String) : Wire (Option (StepView String)) := do
  match ← HostClient.getStep stepId with
  | none => return none
  | some data => return some (← checked (StepSnapshot.fromWire data))

def setRunStatus (run : RunView String) (status : RunStatus) : Wire (RunView String) := do
  checked (RunSnapshot.fromWire (← HostClient.setRunStatus run.id status))

def setStepState (stepId : String) (status : StepStatus) (error : Given (Option String))
    (outputRefs : Given (Option Dict)) : Wire (StepView String) := do
  checked (StepSnapshot.fromWire (← HostClient.setStepState stepId status error outputRefs))

/-- A handler exception has already rolled back inside the host's own request. -/
def rollback : Wire Unit :=
  return ()

/-- Each callback commits by itself, whatever `commit` says. -/
def appendEvent (runId : String) (type : EventType) (stepId : Option String)
    (payload : Option Dict) : Wire Unit := do
  let _ ← HostClient.appendEvent runId type stepId payload
  return ()

def nextSequence (runId : String) : Wire Int :=
  HostClient.nextSequence runId

def drainedEvents (runId : String) (afterSequence : Int) : Wire (List Event) :=
  HostClient.eventsAfter runId afterSequence

end HttpRunStore

end SlimxAgent
