import SlimxAgent.Host
import SlimxAgent.Exchange

/-!
# A host over HTTP

The callback API over the rows of a host: what each callback answers and what it
changes.  Rows travel as snapshots; `parse_runRow` and `parse_stepRow` say that the
strict parsers read back what was sent, for rows within the wire shape.
-/

namespace SlimxAgent

open Interaction

/-! ## Answers -/

def jsonResponse (body : Json) : Response :=
  ⟨200, false, some body, body.dumps⟩

def noContent : Response :=
  ⟨204, true, none, ""⟩

def notFoundResponse : Response :=
  let body := Json.obj [("detail", .str "not found")]
  ⟨404, false, some body, body.dumps⟩

def Stored.wire : Stored → Json
  | .json value => value
  | .tuple items => .arr items
  | .set items => .arr items

/-- A run row as a snapshot. -/
def runRow (run : RunView String) : Dict :=
  [("id", .str run.id), ("status", .str run.status.text),
    ("approval_policy", .ofOption (fun policy => .str policy.text) run.approvalPolicy),
    ("auto_approve", .bool run.autoApprove), ("allowed_tools_json", run.allowedToolsJson.wire),
    ("budget_max_steps", run.budgetMaxSteps),
    ("budget_max_wall_seconds", run.budgetMaxWallSeconds),
    ("preapproved_tools", run.preapprovedTools.wire)]

/-- A step row as a snapshot. -/
def stepRow (stepId : String) (row : StepRow) : Dict :=
  [("id", .str stepId), ("type", .str row.type), ("title", .str row.title),
    ("status", .str row.status.text), ("requires_approval", .bool row.requiresApproval),
    ("error", .ofOption .str row.error), ("output_refs_json", .ofOption .obj row.outputRefs)]

/-- The outcome envelope of an invocation. -/
def ToolOutcome.envelope : ToolOutcome → Dict
  | .completed outputRefs => [("outcome", .str "completed"),
      ("output_refs", .ofOption .obj outputRefs)]
  | .skipped reason => [("outcome", .str "skipped"), ("reason", .str reason)]
  | .failed error => [("outcome", .str "failed"), ("error", .str error)]
  | .prepared reason => [("outcome", .str "prepared"), ("reason", .str reason)]

/-! ## Bodies -/

def Json.asDict? : Json → Option Dict
  | .obj fields => some fields
  | _ => none

/-- A field that counts only when its flag is set. -/
def flagged {α : Type} (body : Dict) (flag key : String) (decode : Json → Option α) :
    Given (Option α) :=
  match Dict.get body flag with
  | .bool true => .given (decode (Dict.get body key))
  | _ => .unset

/-- The transition that a body asks for. -/
def transitionOf (row : StepRow) (body : Dict) : StepRow :=
  row.transition (.ofText (Dict.get body "status").text)
    (flagged body "error_set" "error" Json.asStr?)
    (flagged body "output_refs_set" "output_refs" Json.asDict?)

/-- The entry that a body asks for. -/
def entryOf (body : Dict) : LogEntry :=
  ⟨(Dict.get body "type").text, (Dict.get body "step_id").asStr?,
    (Dict.get body "payload").asDict?⟩

namespace HostRules

/-- What the host answers to a callback, and what the callback does. -/
def answer (rules : HostRules) : Target → Dict → HostState → Response × HostState
  | .run runId, _, state =>
      (if runId = state.run.id then jsonResponse (.obj (runRow state.run)) else notFoundResponse,
        state)
  | .steps _, _, state =>
      (jsonResponse (.arr (state.order.map fun stepId =>
        .obj (stepRow stepId (state.rows stepId)))), state)
  | .step stepId, _, state =>
      (if stepId ∈ state.order then jsonResponse (.obj (stepRow stepId (state.rows stepId)))
        else notFoundResponse, state)
  | .runStatus _, body, state =>
      let after := state.setStatus (.ofText (Dict.get body "status").text)
      (jsonResponse (.obj (runRow after.run)), after)
  | .stepState stepId, body, state =>
      let row := transitionOf (state.rows stepId) body
      (jsonResponse (.obj (stepRow stepId row)), state.setRow stepId row)
  | .events _, body, state =>
      (jsonResponse (.obj ((entryOf body).event state.run.id state.nextSequence).fields),
        state.append (entryOf body))
  | .nextSequence _, _, state =>
      (jsonResponse (.obj [("next_sequence", .int state.nextSequence)]), state)
  | .eventsAfter _ after, _, state =>
      (jsonResponse (.arr ((state.log.filter fun event => decide (after < event.sequence)).map
        fun event => .obj event.fields)), state)
  | .invoke _ stepId, _, state =>
      let invoked := rules.invoke stepId state
      (jsonResponse (.obj invoked.1.envelope), invoked.2)
  | .runEnd _, body, state =>
      let status := RunStatus.ofText (Dict.get body "status").text
      (noContent, rules.epilogue status { state with runEnds := state.runEnds ++ [status] })

/-- Serve a standalone drive over HTTP from the rows. -/
def serve (rules : HostRules) (clock : HostState → ℚ) :
    (op : WireOp) → HostState → Except (Raised String) op.Res × HostState
  | .request request, state =>
      let answered := rules.answer request.target (request.json.getD []) state
      (.ok answered.1, answered.2)
  | .refused _ _, state => (.ok (), state)
  | .now, state => (.ok (clock state), state)
  | .yieldEvent payload, state => (.ok (), { state with yielded := state.yielded ++ [payload] })

end HostRules

/-! ## Reading back what was sent -/

@[simp] theorem requestAnswer_json (allow404 : Bool) (body : Json) :
    requestAnswer allow404 (jsonResponse body) = .ok (.body body) := by
  simp [requestAnswer, jsonResponse]

@[simp] theorem requestAnswer_notFound :
    requestAnswer true notFoundResponse = .ok .notFound := by
  simp [requestAnswer, notFoundResponse]

@[simp] theorem requestAnswer_noContent (allow404 : Bool) :
    requestAnswer allow404 noContent = .ok (.body .null) := by
  simp [requestAnswer, noContent]

theorem objects?_map (objects : List Dict) : objects? (objects.map .obj) = some objects := by
  induction objects with
  | nil => rfl
  | cons fields objects ih => simp [objects?, ih]

theorem expectEvent_fields (event : Event) : expectEvent event.fields = .ok event := by
  obtain ⟨fields, sequence, sequenced⟩ := event
  rw [expectEvent]
  split
  · rename_i read equal
    rw [sequenced] at equal
    cases equal
    rfl
  · rename_i mismatch
    exact absurd sequenced (mismatch sequence)

theorem expectEvents_fields (events : List Event) :
    (events.map Event.fields).mapM expectEvent = .ok events := by
  induction events with
  | nil => rfl
  | cons event events ih =>
      rw [List.map_cons, List.mapM_cons, expectEvent_fields, ih]
      rfl

/-- An event list is read back. -/
theorem eventList_json (events : List Event) :
    HostClient.eventList (jsonResponse (.arr (events.map fun event => .obj event.fields))) =
      .ok events := by
  have objects : (events.map fun event => Json.obj event.fields) =
      (events.map Event.fields).map .obj := by
    rw [List.map_map]
    rfl
  rw [HostClient.eventList, HostClient.objectList, requestAnswer_json, objects]
  change (expectObjectList "event list" (.body (.arr _)) >>= fun items =>
    items.mapM expectEvent) = _
  rw [expectObjectList, objects?_map]
  exact expectEvents_fields events

/-- The run fields the wire can carry: the documented types, and texts that are not
empty. -/
structure WireRun (run : RunView String) : Prop where
  id : run.id ≠ ""
  status : run.status.text ≠ ""
  allowedTools : ∃ texts, run.allowedToolsJson = storedStrings texts
  budgetMaxSteps : ∃ budget, run.budgetMaxSteps = .ofOption .int budget
  budgetMaxWallSeconds : ∃ budget, run.budgetMaxWallSeconds = .ofOption .int budget
  preapprovedTools : ∃ texts, run.preapprovedTools = storedStrings texts

/-- The step fields the wire can carry. -/
structure WireStep (stepId : String) (row : StepRow) : Prop where
  id : stepId ≠ ""
  type : row.type ≠ ""
  status : row.status.recognized = true

theorem storedStrings_wire (texts : Option (List String)) :
    .json (storedStrings texts).wire = storedStrings texts := by
  cases texts <;> rfl

theorem optionalStrList_wire {data : Dict} {key what : String} {texts : Option (List String)}
    {stored : Stored} (held : stored = storedStrings texts) (sent : data.get key = stored.wire) :
    optionalStrList data key what = .ok texts := by
  rw [optionalStrList_eq_ok, sent, held]
  exact storedStrings_wire texts

/-- A run snapshot is read back as the run. -/
theorem parse_runRow {run : RunView String} (wire : WireRun run) :
    RunSnapshot.fromWire (runRow run) = .ok run := by
  obtain ⟨allowedTools, allowed⟩ := wire.allowedTools
  obtain ⟨preapprovedTools, preapproved⟩ := wire.preapprovedTools
  obtain ⟨maxSteps, steps⟩ := wire.budgetMaxSteps
  obtain ⟨maxWall, wall⟩ := wire.budgetMaxWallSeconds
  have policyText : ∀ policy : Option ApprovalPolicy,
      Json.ofOption (fun policy => .str policy.text) policy =
        .ofOption .str (policy.map ApprovalPolicy.text) := by
    intro policy
    cases policy <;> rfl
  have policyRead : optionalStr (runRow run) "approval_policy" "run snapshot" =
      .ok (run.approvalPolicy.map ApprovalPolicy.text) :=
    optionalStr_eq_ok.mpr (policyText run.approvalPolicy)
  have toolsRead : optionalStrList (runRow run) "allowed_tools_json" "run snapshot" =
      .ok allowedTools :=
    optionalStrList_wire allowed rfl
  have grantsRead : optionalStrList (runRow run) "preapproved_tools" "run snapshot" =
      .ok preapprovedTools :=
    optionalStrList_wire preapproved rfl
  have maxStepsRead : optionalInt (runRow run) "budget_max_steps" "run snapshot" = .ok maxSteps :=
    optionalInt_eq_ok.mpr steps
  have maxWallRead : optionalInt (runRow run) "budget_max_wall_seconds" "run snapshot" =
      .ok maxWall :=
    optionalInt_eq_ok.mpr wall
  have policyBack : (run.approvalPolicy.map ApprovalPolicy.text).map ApprovalPolicy.ofText =
      run.approvalPolicy := by
    cases run.approvalPolicy <;> simp
  have idRead : requiredStr (runRow run) "id" "run snapshot" = .ok run.id :=
    requiredStr_eq_ok.mpr ⟨rfl, wire.id⟩
  have statusRead : requiredStr (runRow run) "status" "run snapshot" = .ok run.status.text :=
    requiredStr_eq_ok.mpr ⟨rfl, wire.status⟩
  have autoRead : optionalBool (runRow run) "auto_approve" "run snapshot" =
      .ok run.autoApprove := rfl
  simp only [RunSnapshot.fromWire, idRead, statusRead, policyRead, autoRead, toolsRead,
    maxStepsRead, maxWallRead, grantsRead, bind, Except.bind, pure, Except.pure]
  rw [policyBack, RunStatus.ofText_text, ← allowed, ← preapproved, ← steps, ← wall]

/-- A step snapshot is read back as what the engine reads of the row. -/
theorem parse_stepRow {stepId : String} {row : StepRow} (wire : WireStep stepId row) :
    StepSnapshot.fromWire (stepRow stepId row) = .ok (row.view stepId) := by
  have idRead : requiredStr (stepRow stepId row) "id" "step snapshot" = .ok stepId :=
    requiredStr_eq_ok.mpr ⟨rfl, wire.id⟩
  have typeRead : requiredStr (stepRow stepId row) "type" "step snapshot" = .ok row.type :=
    requiredStr_eq_ok.mpr ⟨rfl, wire.type⟩
  have filled : row.status.text ≠ "" := by
    cases status : row.status with
    | other text unlisted =>
        have recognized := wire.status
        rw [status] at recognized
        cases recognized
    | _ => decide
  have statusRead : requiredStr (stepRow stepId row) "status" "step snapshot" =
      .ok row.status.text :=
    requiredStr_eq_ok.mpr ⟨rfl, filled⟩
  have titleRead : optionalStr (stepRow stepId row) "title" "step snapshot" =
      .ok (some row.title) := rfl
  have flagRead : optionalBool (stepRow stepId row) "requires_approval" "step snapshot" =
      .ok row.requiresApproval := rfl
  simp [StepSnapshot.fromWire, statusRead, wire.status, idRead, typeRead, titleRead, flagRead,
    StepRow.view, bind, Except.bind, pure, Except.pure]

end SlimxAgent
