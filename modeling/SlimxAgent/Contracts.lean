import SlimxAgent.Json

/-!
# Contracts

The vocabularies every agent surface shares: step types, step statuses, grants
and the durable events.  Vocabularies the source compares by exact text are
inductive types here; a text outside the vocabulary is a value of its own that
carries the proof that it is not a listed one, so each text has one reading.
-/

namespace SlimxAgent

/-! ## Step types -/

def assistedStepTypes : List String :=
  ["model_call", "compare_models", "rag_retrieve", "knowledge_retrieve", "attach_context",
    "create_synthesis", "compose_report", "save_evidence"]

def externalStepTypes : List String := ["web_search", "web_fetch", "mcp_call"]

def codeStepTypes : List String := ["code_search", "code_read"]

def evidenceStepTypes : List String :=
  ["project_inventory", "evidence_query", "document_read", "conversation_search"]

def evidenceWriteStepTypes : List String := ["create_note", "add_tag"]

def taskStepTypes : List String := ["create_work_item", "link_work_item"]

def taskReadStepTypes : List String := ["work_items_read"]

def knowledgeWriteStepTypes : List String := ["promote_to_knowledge"]

def buildStepTypes : List String := ["write_file", "package_artifact"]

def codeBuildStepTypes : List String :=
  ["propose_patch", "apply_patch_sandbox", "run_check", "package_patch", "stage_files",
    "review_patch"]

def orchestrationStepTypes : List String := ["spawn_run", "join_runs"]

def netopsStepTypes : List String := ["netops_collect"]

def netopsWriteStepTypes : List String := ["netops_apply", "netops_auto_apply"]

def pluginStepTypes : List String := ["plugin_tool"]

def dataStepTypes : List String := ["data_catalog", "data_query", "analyze_data"]

def researchStepTypes : List String := ["research_iterate"]

/-- The executor dispatches only these types. -/
def allowedStepTypes : List String :=
  assistedStepTypes ++ evidenceStepTypes ++ evidenceWriteStepTypes ++ taskStepTypes ++
    taskReadStepTypes ++ knowledgeWriteStepTypes ++ externalStepTypes ++ codeStepTypes ++
    buildStepTypes ++ codeBuildStepTypes ++ orchestrationStepTypes ++ netopsStepTypes ++
    netopsWriteStepTypes ++ pluginStepTypes ++ researchStepTypes ++ dataStepTypes

/-! ## Grants -/

/-- The keys a run may list to opt into a gated tool. -/
def grantableTools : List String :=
  ["web_search", "code_read", "code_write", "spawn_agents", "mcp_tools", "evidence_write",
    "netops_read", "netops_write", "plugin_tools", "data_read"]

/-! ## Statuses -/

/-- The closed step-status vocabulary. -/
def stepStatusTexts : List String :=
  ["pending", "awaiting_approval", "approved", "running", "completed", "failed", "skipped"]

/-- A step status as a host stores it. -/
inductive StepStatus where
  | pending
  | awaitingApproval
  | approved
  | running
  | completed
  | failed
  | skipped
  | other (text : String) (unlisted : text ∉ stepStatusTexts)
  deriving DecidableEq

instance : Inhabited StepStatus := ⟨.pending⟩

namespace StepStatus

def text : StepStatus → String
  | .pending => "pending"
  | .awaitingApproval => "awaiting_approval"
  | .approved => "approved"
  | .running => "running"
  | .completed => "completed"
  | .failed => "failed"
  | .skipped => "skipped"
  | .other text _ => text

/-- The reading of a stored text. -/
def ofText (text : String) : StepStatus :=
  if unlisted : text ∉ stepStatusTexts then .other text unlisted
  else if text = "pending" then .pending
  else if text = "awaiting_approval" then .awaitingApproval
  else if text = "approved" then .approved
  else if text = "running" then .running
  else if text = "completed" then .completed
  else if text = "failed" then .failed
  else .skipped

/-- Membership in `STEP_STATUSES`. -/
def recognized : StepStatus → Bool
  | .other _ _ => false
  | _ => true

@[simp] theorem ofText_text (status : StepStatus) : ofText status.text = status := by
  cases status with
  | other text unlisted =>
      rw [StepStatus.text, ofText, dif_pos unlisted]
  | _ => decide

end StepStatus

/-- The run statuses the engine reads or writes by name. -/
def runStatusTexts : List String :=
  ["running", "paused", "cancelled", "awaiting_approval", "completed", "failed"]

/-- A run status.  Hosts have further ones, such as `planned`. -/
inductive RunStatus where
  | running
  | paused
  | cancelled
  | awaitingApproval
  | completed
  | failed
  | other (text : String) (unlisted : text ∉ runStatusTexts)
  deriving DecidableEq

namespace RunStatus

theorem planned_unlisted : "planned" ∉ runStatusTexts := by
  decide

def text : RunStatus → String
  | .running => "running"
  | .paused => "paused"
  | .cancelled => "cancelled"
  | .awaitingApproval => "awaiting_approval"
  | .completed => "completed"
  | .failed => "failed"
  | .other text _ => text

/-- The reading of a stored text. -/
def ofText (text : String) : RunStatus :=
  if unlisted : text ∉ runStatusTexts then .other text unlisted
  else if text = "running" then .running
  else if text = "paused" then .paused
  else if text = "cancelled" then .cancelled
  else if text = "awaiting_approval" then .awaitingApproval
  else if text = "completed" then .completed
  else .failed

@[simp] theorem ofText_text (status : RunStatus) : ofText status.text = status := by
  cases status with
  | other text unlisted =>
      rw [RunStatus.text, ofText, dif_pos unlisted]
  | _ => decide

end RunStatus

/-! ## Approval policies -/

def approvalPolicyTexts : List String := ["manual", "review_checkpoints", "auto_complete"]

/-- A stored approval policy; any other string is legal and conservative. -/
inductive ApprovalPolicy where
  | manual
  | reviewCheckpoints
  | autoComplete
  | other (text : String) (unlisted : text ∉ approvalPolicyTexts)
  deriving DecidableEq

namespace ApprovalPolicy

def text : ApprovalPolicy → String
  | .manual => "manual"
  | .reviewCheckpoints => "review_checkpoints"
  | .autoComplete => "auto_complete"
  | .other text _ => text

/-- The reading of a stored text. -/
def ofText (text : String) : ApprovalPolicy :=
  if unlisted : text ∉ approvalPolicyTexts then .other text unlisted
  else if text = "manual" then .manual
  else if text = "review_checkpoints" then .reviewCheckpoints
  else .autoComplete

@[simp] theorem ofText_text (policy : ApprovalPolicy) : ofText policy.text = policy := by
  cases policy with
  | other text unlisted =>
      rw [ApprovalPolicy.text, ofText, dif_pos unlisted]
  | _ => decide

end ApprovalPolicy

/-! ## Durable events -/

/-- The durable event types the engine appends. -/
inductive EventType where
  | stepStarted
  | stepCompleted
  | stepFailed
  | stepSkipped
  | approvalRequired
  | approvalGranted
  | runCompleted
  | runFailed
  | runPaused
  | budgetExhausted
  deriving DecidableEq

namespace EventType

def text : EventType → String
  | .stepStarted => "agent.step.started"
  | .stepCompleted => "agent.step.completed"
  | .stepFailed => "agent.step.failed"
  | .stepSkipped => "agent.step.skipped"
  | .approvalRequired => "agent.approval.required"
  | .approvalGranted => "agent.approval.granted"
  | .runCompleted => "agent.run.completed"
  | .runFailed => "agent.run.failed"
  | .runPaused => "agent.run.paused"
  | .budgetExhausted => "agent.run.budget_exhausted"

/-- Every type has its own text. -/
theorem text_injective : Function.Injective text := by
  intro left right same
  cases left <;> cases right <;> first | rfl | exact absurd same (by decide)

end EventType

end SlimxAgent
