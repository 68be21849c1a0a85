import SlimxAgent.Exchange
import SlimxAgent.Text
import Mathlib.Data.List.Forall2

/-!
# Strict snapshots

The wire grammar of runs and steps, told apart from the parser.  What is accepted is the
wire object read as it stands, so a gate that looks at a snapshot decides as it would on the
raw values.
-/

namespace SlimxAgent

open Interaction

/-! ## The grammar -/

/-- The text field is there. -/
def HasText (data : Dict) (key : String) : Prop :=
  ∃ text, data.get key = .str text ∧ text ≠ ""

def TextOrNull (value : Json) : Prop :=
  value = .null ∨ ∃ text, value = .str text

def BoolOrNull (value : Json) : Prop :=
  value = .null ∨ ∃ truth, value = .bool truth

def IntOrNull (value : Json) : Prop :=
  value = .null ∨ ∃ number, value = .int number

def TextsOrNull (value : Json) : Prop :=
  value = .null ∨ ∃ texts : List String, value = .arr (texts.map .str)

/-- The run objects of the wire. -/
structure RunGrammar (data : Dict) : Prop where
  id : HasText data "id"
  status : HasText data "status"
  approvalPolicy : TextOrNull (data.get "approval_policy")
  autoApprove : BoolOrNull (data.get "auto_approve")
  allowedTools : TextsOrNull (data.get "allowed_tools_json")
  budgetMaxSteps : IntOrNull (data.get "budget_max_steps")
  budgetMaxWallSeconds : IntOrNull (data.get "budget_max_wall_seconds")
  preapprovedTools : TextsOrNull (data.get "preapproved_tools")

/-- The step objects of the wire. -/
structure StepGrammar (data : Dict) : Prop where
  id : HasText data "id"
  type : HasText data "type"
  status : ∃ text ∈ stepStatusTexts, data.get "status" = .str text
  title : TextOrNull (data.get "title")
  requiresApproval : BoolOrNull (data.get "requires_approval")

/-! ## The raw values -/

/-- A field as text; anything else reads as the empty one. -/
def rawText (data : Dict) (key : String) : String :=
  (data.get key).asStr?.getD ""

/-- The run object as it stands: a policy other than null is a policy, any true value approves, and
the lists and the budgets are whatever was sent. -/
def RunView.ofWire (data : Dict) : RunView String where
  id := rawText data "id"
  status := .ofText (rawText data "status")
  approvalPolicy :=
    match data.get "approval_policy" with
    | .null => none
    | value => some (.ofText value.text)
  autoApprove := (data.get "auto_approve").truthy
  allowedToolsJson := .json (data.get "allowed_tools_json")
  budgetMaxSteps := data.get "budget_max_steps"
  budgetMaxWallSeconds := data.get "budget_max_wall_seconds"
  preapprovedTools := .json (data.get "preapproved_tools")

/-- The step object as it stands. -/
def StepView.ofWire (data : Dict) : StepView String where
  id := rawText data "id"
  type := rawText data "type"
  title := rawText data "title"
  status := .ofText (rawText data "status")
  requiresApproval := (data.get "requires_approval").truthy

/-! ## The fields -/

/-- The check returns what it finds, or fails with a protocol error. -/
def OnlyProtocol {α : Type} (result : Except HostError α) : Prop :=
  ∀ error, result = .error error → error.kind = .hostProtocolError

section Fields

variable {α β : Type} {data : Dict} {key what : String}

theorem OnlyProtocol.bind {first : Except HostError α} {next : α → Except HostError β}
    (here : OnlyProtocol first) (later : ∀ given, OnlyProtocol (next given)) :
    OnlyProtocol (first >>= next) := by
  intro error failed
  cases first with
  | ok given => exact later given error failed
  | error other =>
      cases failed
      exact here _ rfl

theorem onlyProtocol_ok (value : α) : OnlyProtocol (.ok value) := nofun

theorem onlyProtocol_protocol (detail : String) :
    OnlyProtocol (.error (.protocol detail) : Except HostError α) := by
  intro error failed
  cases failed
  rfl

theorem requiredStr_only : OnlyProtocol (requiredStr data key what) := by
  rw [requiredStr]
  split
  · split
    · exact onlyProtocol_protocol _
    · exact onlyProtocol_ok _
  · exact onlyProtocol_protocol _

theorem optionalStr_only : OnlyProtocol (optionalStr data key what) := by
  rw [optionalStr]
  split
  · exact onlyProtocol_ok _
  · exact onlyProtocol_ok _
  · exact onlyProtocol_protocol _

/-- An optional truth value is read as Python would take it. -/
theorem optionalBool_eq_ok {value : Bool} :
    optionalBool data key what = .ok value ↔
      BoolOrNull (data.get key) ∧ value = (data.get key).truthy := by
  rw [optionalBool]
  cases data.get key <;> simp [BoolOrNull, Json.truthy, eq_comm]

theorem optionalBool_only : OnlyProtocol (optionalBool data key what) := by
  rw [optionalBool]
  split
  · exact onlyProtocol_ok _
  · exact onlyProtocol_ok _
  · exact onlyProtocol_protocol _

theorem optionalInt_only : OnlyProtocol (optionalInt data key what) := by
  rw [optionalInt]
  split
  · exact onlyProtocol_ok _
  · exact onlyProtocol_ok _
  · exact onlyProtocol_protocol _

theorem optionalStrList_only : OnlyProtocol (optionalStrList data key what) := by
  rw [optionalStrList]
  split
  · exact onlyProtocol_ok _
  · split
    · exact onlyProtocol_ok _
    · exact onlyProtocol_protocol _
  · exact onlyProtocol_protocol _

end Fields

/-! ## Snapshots -/

section Grammar

variable {data : Dict} {key : String}

theorem rawText_of {value : String} (held : data.get key = .str value) :
    rawText data key = value := by
  rw [rawText, held]
  rfl

theorem textOrNull_iff {value : Json} :
    TextOrNull value ↔ ∃ text, value = .ofOption .str text := by
  constructor
  · rintro (rfl | ⟨text, rfl⟩)
    · exact ⟨none, rfl⟩
    · exact ⟨some text, rfl⟩
  · rintro ⟨text, rfl⟩
    cases text with
    | none => exact .inl rfl
    | some text => exact .inr ⟨text, rfl⟩

theorem intOrNull_iff {value : Json} :
    IntOrNull value ↔ ∃ number, value = .ofOption .int number := by
  constructor
  · rintro (rfl | ⟨number, rfl⟩)
    · exact ⟨none, rfl⟩
    · exact ⟨some number, rfl⟩
  · rintro ⟨number, rfl⟩
    cases number with
    | none => exact .inl rfl
    | some number => exact .inr ⟨number, rfl⟩

theorem textsOrNull_iff {value : Json} :
    TextsOrNull value ↔ ∃ texts, .json value = storedStrings texts := by
  constructor
  · rintro (rfl | ⟨texts, rfl⟩)
    · exact ⟨none, rfl⟩
    · exact ⟨some texts, rfl⟩
  · rintro ⟨texts, same⟩
    cases texts with
    | none => exact .inl (Stored.json.inj same)
    | some texts => exact .inr ⟨texts, Stored.json.inj same⟩

/-- The parsed fields are the run as it stands. -/
theorem runView_ofWire {id status : String} {policy : Option String}
    {tools grants : Option (List String)} {maxSteps maxWall : Option Int}
    (identified : data.get "id" = .str id) (known : data.get "status" = .str status)
    (policies : data.get "approval_policy" = .ofOption .str policy)
    (allowed : .json (data.get "allowed_tools_json") = storedStrings tools)
    (steps : data.get "budget_max_steps" = .ofOption .int maxSteps)
    (wall : data.get "budget_max_wall_seconds" = .ofOption .int maxWall)
    (preapproved : .json (data.get "preapproved_tools") = storedStrings grants) :
    RunView.ofWire data =
      ⟨id, .ofText status, policy.map .ofText,
        (data.get "auto_approve").truthy, storedStrings tools,
        .ofOption .int maxSteps, .ofOption .int maxWall, storedStrings grants⟩ := by
  rw [RunView.ofWire, rawText_of identified, rawText_of known, policies, allowed, steps, wall,
    preapproved]
  cases policy <;> rfl

/-- A run object is accepted exactly if it has the grammar, and then read as it stands. -/
theorem runSnapshot_eq_ok {run : RunView String} :
    RunSnapshot.fromWire data = .ok run ↔ RunGrammar data ∧ run = .ofWire data := by
  simp only [RunSnapshot.fromWire, bind_eq_ok, requiredStr_eq_ok, optionalStr_eq_ok,
    optionalBool_eq_ok, optionalStrList_eq_ok, optionalInt_eq_ok]
  constructor
  · rintro ⟨id, identified, status, known, policy, policies, approve, ⟨boolean, approves⟩, tools,
      allowed, maxSteps, steps, maxWall, wall, grants, preapproved, same⟩
    constructor
    · exact ⟨⟨id, identified⟩, ⟨status, known⟩, textOrNull_iff.mpr ⟨policy, policies⟩, boolean,
        textsOrNull_iff.mpr ⟨tools, allowed⟩, intOrNull_iff.mpr ⟨maxSteps, steps⟩,
        intOrNull_iff.mpr ⟨maxWall, wall⟩, textsOrNull_iff.mpr ⟨grants, preapproved⟩⟩
    · rw [runView_ofWire identified.1 known.1 policies allowed steps wall preapproved, ← approves]
      exact (Except.ok.inj same).symm
  · rintro ⟨grammar, rfl⟩
    rcases grammar.id with ⟨id, identified⟩
    rcases grammar.status with ⟨status, known⟩
    rcases textOrNull_iff.mp grammar.approvalPolicy with ⟨policy, policies⟩
    rcases textsOrNull_iff.mp grammar.allowedTools with ⟨tools, allowed⟩
    rcases intOrNull_iff.mp grammar.budgetMaxSteps with ⟨maxSteps, steps⟩
    rcases intOrNull_iff.mp grammar.budgetMaxWallSeconds with ⟨maxWall, wall⟩
    rcases textsOrNull_iff.mp grammar.preapprovedTools with ⟨grants, preapproved⟩
    refine ⟨id, identified, status, known, policy, policies, _, ⟨grammar.autoApprove, rfl⟩, tools,
      allowed, maxSteps, steps, maxWall, wall, grants, preapproved, ?_⟩
    rw [runView_ofWire identified.1 known.1 policies allowed steps wall preapproved]
    rfl

theorem runSnapshot_only : OnlyProtocol (RunSnapshot.fromWire data) :=
  .bind requiredStr_only fun _ => .bind requiredStr_only fun _ => .bind optionalStr_only fun _ =>
    .bind optionalBool_only fun _ => .bind optionalStrList_only fun _ =>
    .bind optionalInt_only fun _ => .bind optionalInt_only fun _ =>
    .bind optionalStrList_only fun _ => onlyProtocol_ok _

theorem recognized_ofText (text : String) :
    (StepStatus.ofText text).recognized = true ↔ text ∈ stepStatusTexts := by
  rw [StepStatus.ofText]
  split
  · rename_i unlisted
    simp [StepStatus.recognized, unlisted]
  · rename_i listed
    rw [not_not] at listed
    refine iff_of_true ?_ listed
    repeat' split
    all_goals rfl

/-- The parsed fields are the step as it stands. -/
theorem stepView_ofWire {id type status : String} {title : Option String}
    (identified : data.get "id" = .str id) (typed : data.get "type" = .str type)
    (titled : data.get "title" = .ofOption .str title) (known : data.get "status" = .str status) :
    StepView.ofWire data =
      ⟨id, type, title.getD "", .ofText status, (data.get "requires_approval").truthy⟩ := by
  have shown : rawText data "title" = title.getD "" := by
    rw [rawText, titled]
    cases title <;> rfl
  rw [StepView.ofWire, rawText_of identified, rawText_of typed, rawText_of known, shown]

/-- A step object is accepted exactly if it has the grammar, and then read as it stands. -/
theorem stepSnapshot_eq_ok {step : StepView String} :
    StepSnapshot.fromWire data = .ok step ↔ StepGrammar data ∧ step = .ofWire data := by
  simp only [StepSnapshot.fromWire, bind_eq_ok, requiredStr_eq_ok]
  constructor
  · rintro ⟨status, known, rest⟩
    by_cases listed : (StepStatus.ofText status).recognized = false
    · rw [if_pos listed] at rest
      cases rest
    · rw [if_neg listed] at rest
      simp only [bind_eq_ok, requiredStr_eq_ok, optionalStr_eq_ok, optionalBool_eq_ok] at rest
      rcases rest with ⟨id, identified, type, typed, title, titled, flag,
        ⟨boolean, flagged⟩, same⟩
      rw [Bool.not_eq_false, recognized_ofText] at listed
      constructor
      · exact ⟨⟨id, identified⟩, ⟨type, typed⟩, ⟨status, listed, known.1⟩,
          textOrNull_iff.mpr ⟨title, titled⟩, boolean⟩
      · rw [stepView_ofWire identified.1 typed.1 titled known.1, ← flagged]
        exact (Except.ok.inj same).symm
  · rintro ⟨grammar, rfl⟩
    rcases grammar.id with ⟨id, identified⟩
    rcases grammar.type with ⟨type, typed⟩
    rcases grammar.status with ⟨status, listed, known⟩
    rcases textOrNull_iff.mp grammar.title with ⟨title, titled⟩
    have filled : status ≠ "" := by
      rintro rfl
      exact absurd listed (by decide)
    refine ⟨status, ⟨known, filled⟩, ?_⟩
    rw [if_neg (by rw [Bool.not_eq_false, recognized_ofText]; exact listed)]
    simp only [bind_eq_ok, requiredStr_eq_ok, optionalStr_eq_ok, optionalBool_eq_ok]
    refine ⟨id, identified, type, typed, title, titled, _, ⟨grammar.requiresApproval, rfl⟩, ?_⟩
    rw [stepView_ofWire identified.1 typed.1 titled known]
    rfl

theorem stepSnapshot_only : OnlyProtocol (StepSnapshot.fromWire data) := by
  refine .bind requiredStr_only fun status => ?_
  split
  · exact onlyProtocol_protocol _
  · exact .bind requiredStr_only fun _ => .bind requiredStr_only fun _ =>
      .bind optionalStr_only fun _ => .bind optionalBool_only fun _ => onlyProtocol_ok _

end Grammar

/-! ## Lists of steps -/

/-- A list of step objects is read item by item. -/
theorem mapM_fromWire_eq_ok {items : List Dict} {steps : List (StepView String)} :
    items.mapM StepSnapshot.fromWire = .ok steps ↔
      List.Forall₂ (fun item step => StepSnapshot.fromWire item = .ok step) items steps := by
  induction items generalizing steps with
  | nil => cases steps <;> simp [pure, Except.pure]
  | cons item items ih =>
      simp only [List.mapM_cons, bind_eq_ok, ih]
      constructor
      · rintro ⟨step, here, rest, later, same⟩
        rw [← Except.ok.inj same]
        exact .cons here later
      · intro related
        cases related with
        | cons here later => exact ⟨_, here, _, later, rfl⟩

/-- The items that are read are those with the grammar, as they stand. -/
theorem forall₂_fromWire {items : List Dict} {steps : List (StepView String)} :
    List.Forall₂ (fun item step => StepSnapshot.fromWire item = .ok step) items steps ↔
      (∀ item ∈ items, StepGrammar item) ∧ steps = items.map .ofWire := by
  simp only [stepSnapshot_eq_ok]
  constructor
  · intro related
    induction related with
    | nil => exact ⟨nofun, rfl⟩
    | cons here _ ih => exact ⟨List.forall_mem_cons.mpr ⟨here.1, ih.1⟩, by simp [here.2, ih.2]⟩
  · rintro ⟨grammar, rfl⟩
    rw [List.forall₂_map_right_iff]
    exact List.forall₂_same.mpr fun item member => ⟨grammar item member, rfl⟩

/-- Reading the steps fails with a protocol error, if at all. -/
theorem mapM_fromWire_only {items : List Dict} :
    OnlyProtocol (items.mapM StepSnapshot.fromWire) := by
  induction items with
  | nil => exact onlyProtocol_ok _
  | cons item items ih =>
      rw [List.mapM_cons]
      exact .bind stepSnapshot_only fun _ => .bind ih fun _ => onlyProtocol_ok _

/-- What the engine is told of an answered list of steps. -/
theorem getSteps_answered {runId : String}
    {resume : Except (Raised String) Response → Wire (List (StepView String))}
    (sent : HttpRunStore.getSteps runId = .call (.request ⟨.steps runId, none⟩) resume)
    {response : Response} {items : List Dict}
    (answered : HostClient.objectList "step list" response = .ok items) :
    resume (.ok response) =
      .ofExcept ((items.mapM StepSnapshot.fromWire).mapError .hostError) := by
  have exchanged : HttpRunStore.getSteps runId =
      exchange ⟨.steps runId, none⟩ (observe readSteps) :=
    checked_callback
  have read : readSteps response = items.mapM StepSnapshot.fromWire := by
    rw [readSteps, answered]
    rfl
  rw [sent, exchange] at exchanged
  cases routed : Target.path (.steps runId) with
  | error error =>
      rw [routed] at exchanged
      cases (Program.call.inj exchanged).1
  | ok path =>
      rw [routed] at exchanged
      rw [eq_of_heq (Program.call.inj exchanged).2]
      simp only [observe, read]

/-! ## The gates -/

/-- A parse succeeds with the given value if the object has the grammar, and is a protocol error
otherwise. -/
def ParsesExactly {α : Type} (grammar : Prop) (value : α) (result : Except HostError α) : Prop :=
  (grammar ∧ result = .ok value) ∨
    (¬ grammar ∧ ∃ error, error.kind = .hostProtocolError ∧ result = .error error)

theorem parsesExactly_of {α : Type} {grammar : Prop} {value : α} {result : Except HostError α}
    (accepts : ∀ other, result = .ok other ↔ grammar ∧ other = value) (only : OnlyProtocol result) :
    ParsesExactly grammar value result := by
  by_cases holds : grammar
  · exact .inl ⟨holds, (accepts value).mpr ⟨holds, rfl⟩⟩
  · cases parsed : result with
    | ok other => exact absurd ((accepts other).mp parsed).1 holds
    | error error => exact .inr ⟨holds, error, only error parsed, rfl⟩

/-- Snapshots accept exactly the wire grammar, a list of steps is read in order if each of its
items is accepted, and the gates decide on snapshots as on the raw values. -/
theorem snapshots_strict :
    (∀ data, ParsesExactly (RunGrammar data) (RunView.ofWire data) (RunSnapshot.fromWire data)) ∧
      (∀ data, ParsesExactly (StepGrammar data) (StepView.ofWire data)
        (StepSnapshot.fromWire data)) ∧
      (∀ runId resume response items,
        HttpRunStore.getSteps runId = .call (.request ⟨.steps runId, none⟩) resume →
        HostClient.objectList "step list" response = .ok items →
        ∃ result, resume (.ok response) = .ofExcept (result.mapError .hostError) ∧
          ParsesExactly (∀ item ∈ items, StepGrammar item) (items.map StepView.ofWire) result) ∧
      ∀ runData stepData items run step steps,
        RunSnapshot.fromWire runData = .ok run → StepSnapshot.fromWire stepData = .ok step →
        List.Forall₂ (fun item step => StepSnapshot.fromWire item = .ok step) items steps →
        permissionBlockReason step run =
            permissionBlockReason (.ofWire stepData) (RunView.ofWire runData) ∧
          (∀ driveStarted, budgetExhaustedReason run steps driveStarted =
            budgetExhaustedReason (.ofWire runData) (items.map .ofWire) driveStarted) ∧
          resolveGate step run.approvalPolicy run.autoApprove run.preapprovedTools =
            resolveGate (.ofWire stepData) (RunView.ofWire runData).approvalPolicy
              (RunView.ofWire runData).autoApprove (RunView.ofWire runData).preapprovedTools := by
  refine ⟨fun data => parsesExactly_of (fun _ => runSnapshot_eq_ok) runSnapshot_only,
    fun data => parsesExactly_of (fun _ => stepSnapshot_eq_ok) stepSnapshot_only, ?_, ?_⟩
  · intro runId resume response items sent answered
    refine ⟨_, getSteps_answered sent answered,
      parsesExactly_of (fun steps => ?_) mapM_fromWire_only⟩
    rw [mapM_fromWire_eq_ok, forall₂_fromWire]
  · intro runData stepData items run step steps parsedRun parsedStep listed
    rw [(runSnapshot_eq_ok.mp parsedRun).2, (stepSnapshot_eq_ok.mp parsedStep).2,
      (forall₂_fromWire.mp listed).2]
    exact ⟨rfl, fun _ => rfl, rfl⟩

end SlimxAgent
