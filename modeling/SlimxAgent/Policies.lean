import SlimxAgent.Store

/-!
# Run policies

The two gates of a step: whether it stops for a human (approval policy), and
whether the run permits its tool at all (tool policy).  Both are functions of the
step type and of stored run values.  Stored grants and pre-approvals are
untrusted: anything but a collection of strings grants nothing.
-/

namespace SlimxAgent

/-- Risk tiers. -/
inductive Tier where
  | autoSafe
  | reviewRecommended
  | hardGated
  deriving DecidableEq

namespace Tier

def text : Tier → String
  | .autoSafe => "auto_safe"
  | .reviewRecommended => "review_recommended"
  | .hardGated => "hard_gated"

end Tier

/-! ## Approval policy -/

/-- Base tier per step type. -/
def tierByType : List (String × Tier) :=
  [("model_call", .autoSafe), ("rag_retrieve", .autoSafe), ("knowledge_retrieve", .autoSafe),
    ("attach_context", .autoSafe), ("create_synthesis", .autoSafe),
    ("save_evidence", .autoSafe), ("compare_models", .reviewRecommended),
    ("web_search", .hardGated), ("web_fetch", .hardGated), ("mcp_call", .hardGated),
    ("plugin_tool", .hardGated), ("code_search", .autoSafe), ("code_read", .autoSafe),
    ("project_inventory", .autoSafe), ("evidence_query", .autoSafe),
    ("document_read", .autoSafe), ("conversation_search", .autoSafe),
    ("create_note", .reviewRecommended), ("add_tag", .reviewRecommended),
    ("create_work_item", .reviewRecommended), ("link_work_item", .reviewRecommended),
    ("work_items_read", .autoSafe), ("promote_to_knowledge", .reviewRecommended),
    ("write_file", .reviewRecommended), ("package_artifact", .reviewRecommended),
    ("propose_patch", .autoSafe), ("stage_files", .autoSafe), ("review_patch", .autoSafe),
    ("apply_patch_sandbox", .reviewRecommended), ("run_check", .reviewRecommended),
    ("package_patch", .autoSafe), ("spawn_run", .autoSafe), ("join_runs", .reviewRecommended),
    ("netops_collect", .reviewRecommended), ("netops_apply", .hardGated),
    ("netops_auto_apply", .reviewRecommended), ("data_catalog", .reviewRecommended),
    ("data_query", .reviewRecommended), ("analyze_data", .autoSafe),
    ("research_iterate", .autoSafe), ("compose_report", .autoSafe)]

/-- The reason of a type without its own. -/
def reasonByTier : Tier → String
  | .autoSafe => "Additive, reversible step — runs automatically in Auto-complete."
  | .reviewRecommended => "A meaningful checkpoint — a good place to review before it runs."
  | .hardGated => "Safety checkpoint — always requires approval, even in Auto-complete."

def fanOutReason : String :=
  "Runs several models (slower/costlier and may use extra providers) — a good place to " ++
    "review."

/-- What each gated type does, in the user's terms. -/
def reasonByType : List (String × String) :=
  [("web_search",
      "Sends your query to an external web-search service — always asks first, even in " ++
        "Auto-complete."),
    ("web_fetch",
      "Fetches one public web page (read-only) — always asks first, even in " ++
        "Auto-complete, unless you pre-approved web research for this run."),
    ("research_iterate",
      "Reviews findings and may extend the plan; every added step still passes the " ++
        "permission and approval gates."),
    ("compare_models", fanOutReason),
    ("join_runs",
      "Runs the spawned sub-agents, each its own series of model calls (slower/costlier) " ++
        "— a good place to review."),
    ("create_note",
      "Saves a note in this project — additive and reversible; review what it writes."),
    ("add_tag",
      "Adds a label to an existing highlight or comment in this project — additive and " ++
        "reversible; review what it changes."),
    ("create_work_item",
      "Creates a task in this project — additive and reversible; review what it writes."),
    ("link_work_item",
      "Links an existing task to a document or conversation in this project — additive " ++
        "and reversible; review what it changes."),
    ("promote_to_knowledge",
      "Promotes this run's synthesis into the project Knowledge Base — additive and " ++
        "reversible; review what becomes curated knowledge."),
    ("write_file",
      "Writes a file into this run's sandboxed workspace — review what it writes."),
    ("package_artifact",
      "Packages this run's workspace files as a downloadable artifact — review what it " ++
        "includes."),
    ("apply_patch_sandbox",
      "Applies the proposed patch inside this run's sandbox — review the change first."),
    ("run_check",
      "Runs one allowlisted check command inside this run's sandbox — review before it " ++
        "executes."),
    ("netops_collect",
      "Reads network telemetry from your devices (read-only, leaves this machine) — a " ++
        "good place to review."),
    ("data_catalog",
      "Lists the allowed tables and columns of a connected data source (read-only, leaves " ++
        "this machine) — a good place to review."),
    ("data_query",
      "Runs one read-only query against a connected data source (leaves this machine) — a " ++
        "good place to review."),
    ("netops_auto_apply",
      "Applies a bounded low-risk change to a network device, with automatic rollback if " ++
        "validation fails — review before it runs."),
    ("netops_apply",
      "Changes a network device — always requires approval, even in Auto-complete."),
    ("mcp_call",
      "Calls a connector tool that may write to an external system — always requires " ++
        "approval, even in Auto-complete."),
    ("plugin_tool",
      "Runs admin-installed plugin code the platform cannot classify — always requires " ++
        "approval, even in Auto-complete.")]

/-- Types outside the contract fall back to review-recommended. -/
def tierOf (stepType : String) : Tier :=
  (tierByType.lookup stepType).getD .reviewRecommended

/-- The tier of a step's type, with a plain-language reason. -/
def classifyStep {ι : Type} (step : StepView ι) : Tier × String :=
  let tier := tierOf step.type
  let reason := (reasonByType.lookup step.type).getD (reasonByTier tier)
  if tier = .reviewRecommended ∧ (tierByType.lookup step.type).isNone then
    (tier, "Unrecognized step type " ++ reprStr step.type ++ " — review before it runs.")
  else (tier, reason)

@[simp] theorem classifyStep_tier {ι : Type} (step : StepView ι) :
    (classifyStep step).1 = tierOf step.type := by
  rw [classifyStep]
  split <;> rfl

/-- The read-only external types a user may authorize for the rest of one run. -/
def preapprovableStepTypes : List String := ["web_search", "web_fetch"]

/-- Whether execution must stop at a step under the given policy. -/
def requiresStop (policy : ApprovalPolicy) (classification : Tier) (requiresApproval : Bool)
    (preapproved : Bool) : Bool :=
  if classification = .hardGated then
    if preapproved then byPolicy .reviewRecommended else true
  else byPolicy classification
where
  byPolicy (classification : Tier) : Bool :=
    match policy with
    | .autoComplete => false
    | .reviewCheckpoints => decide (classification = .reviewRecommended) || requiresApproval
    | _ => decide (classification = .reviewRecommended) || requiresApproval

/-- The string members of a stored list-like value. -/
def stringMembers : Stored → List String
  | .json (.arr items) => items.filterMap Json.asStr?
  | .tuple items => items.filterMap Json.asStr?
  | .set items => items.filterMap Json.asStr?
  | .json _ => []

/-- The types a stored value may clear: never one outside the allowlist. -/
def normalizePreapproved (value : Stored) : List String :=
  (stringMembers value).filter fun stepType => preapprovableStepTypes.contains stepType

theorem preapprovable_of_normalized {value : Stored} {stepType : String}
    (normalized : (normalizePreapproved value).contains stepType = true) :
    stepType ∈ preapprovableStepTypes := by
  rw [List.contains_iff_mem, normalizePreapproved, List.mem_filter] at normalized
  exact List.contains_iff_mem.mp normalized.2

/-- A hard gate opens without a human only for a pre-approved type under
Auto-complete. -/
theorem requiresStop_hardGated {policy : ApprovalPolicy} {requiresApproval preapproved : Bool}
    (passes : requiresStop policy .hardGated requiresApproval preapproved = false) :
    preapproved = true ∧ policy = .autoComplete := by
  cases preapproved with
  | false => simp [requiresStop] at passes
  | true => cases policy <;> simp [requiresStop, requiresStop.byPolicy] at passes ⊢

/-! ## Tool policy -/

/-- The grant each gated type needs; a type not listed needs none. -/
def grantByType : List (String × String) :=
  [("web_search", "web_search"), ("web_fetch", "web_search"), ("mcp_call", "mcp_tools"),
    ("plugin_tool", "plugin_tools"), ("code_search", "code_read"), ("code_read", "code_read"),
    ("propose_patch", "code_read"), ("stage_files", "code_read"),
    ("review_patch", "code_read"), ("apply_patch_sandbox", "code_write"),
    ("run_check", "code_write"), ("package_patch", "code_write"),
    ("spawn_run", "spawn_agents"), ("join_runs", "spawn_agents"),
    ("create_note", "evidence_write"), ("add_tag", "evidence_write"),
    ("create_work_item", "evidence_write"), ("link_work_item", "evidence_write"),
    ("promote_to_knowledge", "evidence_write"), ("netops_collect", "netops_read"),
    ("netops_apply", "netops_write"), ("netops_auto_apply", "netops_write"),
    ("data_catalog", "data_read"), ("data_query", "data_read"), ("analyze_data", "data_read")]

def grantLabels : List (String × String) :=
  [("web_search", "Web search"), ("code_read", "Codebase (read-only)"),
    ("code_write", "Edit code (sandboxed patches)"), ("spawn_agents", "Sub-agents"),
    ("mcp_tools", "Connector tools (MCP)"), ("evidence_write", "Save notes & tags"),
    ("netops_read", "Network telemetry (read-only)"),
    ("netops_write", "Apply network changes"), ("plugin_tools", "Trusted tool plugins"),
    ("data_read", "Data sources (read-only SQL)")]

/-- The grant a step type needs to run. -/
def requiredGrant (stepType : String) : Option String :=
  grantByType.lookup stepType

theorem mem_grantByType {stepType grant : String} (required : requiredGrant stepType = some grant) :
    (stepType, grant) ∈ grantByType := by
  rw [requiredGrant, List.lookup_eq_some_iff] at required
  rcases required with ⟨before, after, entries, _⟩
  rw [entries]
  exact List.mem_append_right before List.mem_cons_self

/-- The grants of a run. -/
def grantedTools {ι : Type} (run : RunView ι) : List String :=
  stringMembers run.allowedToolsJson

/-- Why a step is not permitted, if it is not. -/
def permissionBlockReason {ι : Type} (step : StepView ι) (run : RunView ι) : Option String :=
  match requiredGrant step.type with
  | none => none
  | some grant =>
      if (grantedTools run).contains grant then none
      else some ("'" ++ (grantLabels.lookup grant).getD grant ++
        "' was not enabled for this run — skipping (turn it on in the run's Tools to use it).")

/-- The run's grants cover the step type. -/
def Permitted {ι : Type} (stepType : String) (run : RunView ι) : Prop :=
  ∀ grant, requiredGrant stepType = some grant → grant ∈ stringMembers run.allowedToolsJson

/-- The gate blocks exactly the steps whose grant is missing. -/
theorem permissionBlockReason_eq_none {ι : Type} {step : StepView ι} {run : RunView ι} :
    permissionBlockReason step run = none ↔ Permitted step.type run := by
  rw [permissionBlockReason, Permitted]
  cases required : requiredGrant step.type with
  | none => simp
  | some grant => simp [grantedTools]

end SlimxAgent
