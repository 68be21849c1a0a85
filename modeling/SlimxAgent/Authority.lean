import SlimxAgent.Approval
import SlimxAgent.Twins

/-!
# The reach of stored authority

How far `auto_approve`, `preapproved_tools` and `allowed_tools_json` can influence a
drive.  The engine reads them through its gates only: two runs that no gate tells apart
are driven in lockstep, by a host that does not tell them apart either.
-/

namespace SlimxAgent

open Interaction

variable {ι σ τ : Type}

/-! ## What nothing depends on -/

namespace RunView

/-- The runs agree on everything but `auto_approve` and `preapproved_tools`. -/
def AgreesButAuthority (run other : RunView ι) : Prop :=
  other = { run with
    autoApprove := other.autoApprove
    preapprovedTools := other.preapprovedTools }

/-- Under a policy, with the same pre-approvals among the types that may be pre-approved. -/
structure SamePreapproval (run other : RunView ι) : Prop where
  agrees : run.AgreesButAuthority other
  policy : run.approvalPolicy ≠ none
  preapproved : ∀ stepType ∈ preapprovableStepTypes,
    stepType ∈ stringMembers run.preapprovedTools ↔ stepType ∈ stringMembers other.preapprovedTools

/-- Without a policy and with the same `auto_approve`, or under one that is not
Auto-complete. -/
structure NoAutoComplete (run other : RunView ι) : Prop where
  agrees : run.AgreesButAuthority other
  policy : run.approvalPolicy ≠ some .autoComplete
  legacy : run.approvalPolicy = none → other.autoApprove = run.autoApprove

/-- The runs agree on everything but `allowed_tools_json`, which has the same string
members. -/
structure SameGrants (run other : RunView ι) : Prop where
  agrees : other = { run with allowedToolsJson := other.allowedToolsJson }
  grants : ∀ grant, grant ∈ stringMembers run.allowedToolsJson ↔
    grant ∈ stringMembers other.allowedToolsJson

theorem permissionBlockReason_of_grants {run other : RunView ι}
    (grants : ∀ grant, grant ∈ stringMembers run.allowedToolsJson ↔
      grant ∈ stringMembers other.allowedToolsJson) (step : StepView ι) :
    permissionBlockReason step other = permissionBlockReason step run := by
  simp only [permissionBlockReason, grantedTools, List.contains_iff_mem, grants]

theorem SameGrants.unnoticed {run other : RunView ι} (same : run.SameGrants other) :
    run.Unnoticed other := by
  have permits := permissionBlockReason_of_grants same.grants
  have agrees := same.agrees
  constructor
  case permits => exact permits
  all_goals rw [agrees]
  · exact fun _ => rfl
  · exact fun _ _ => rfl

/-- The gates read the pre-approvals of preapprovable types only. -/
theorem SamePreapproval.normalized {run other : RunView ι} (same : run.SamePreapproval other)
    (stepType : String) : (normalizePreapproved other.preapprovedTools).contains stepType =
      (normalizePreapproved run.preapprovedTools).contains stepType := by
  rw [Bool.eq_iff_iff]
  simp only [List.contains_iff_mem, normalizePreapproved, List.mem_filter]
  constructor
  · rintro ⟨member, allowed⟩
    exact ⟨(same.preapproved stepType allowed).mpr member, allowed⟩
  · rintro ⟨member, allowed⟩
    exact ⟨(same.preapproved stepType allowed).mp member, allowed⟩

theorem SamePreapproval.unnoticed {run other : RunView ι} (same : run.SamePreapproval other) :
    run.Unnoticed other := by
  have normalized := same.normalized
  have agrees := same.agrees
  have policy : other.approvalPolicy = run.approvalPolicy := by rw [agrees]
  constructor
  case gate =>
    intro step
    rw [gateDecision, gateDecision, policy]
    cases given : run.approvalPolicy with
    | none => exact absurd given same.policy
    | some policy => simp only [resolveGate, normalizePreapproved_normalized, normalized]
  case records =>
    intro step _
    simp only [preapprovedGate, normalized]
  all_goals rw [agrees]
  exact fun _ => rfl

/-- Pre-approvals clear hard-gated steps under Auto-complete only. -/
theorem NoAutoComplete.unnoticed {run other : RunView ι} (same : run.NoAutoComplete other) :
    run.Unnoticed other := by
  have agrees := same.agrees
  have policy : other.approvalPolicy = run.approvalPolicy := by rw [agrees]
  have stops : ∀ given, run.approvalPolicy = some given → ∀ requires preapproved,
      requiresStop given .hardGated requires preapproved = true := by
    intro given here requires preapproved
    cases passes : requiresStop given .hardGated requires preapproved with
    | true => rfl
    | false =>
        exact absurd (here.trans (congrArg some (requiresStop_hardGated passes).2)) same.policy
  constructor
  case gate =>
    intro step
    rw [gateDecision, gateDecision, policy]
    cases given : run.approvalPolicy with
    | none => simp only [resolveGate, same.legacy given]
    | some policy =>
        have gated := stops policy given step.requiresApproval
        by_cases hard : tierOf step.type = .hardGated
        · simp only [resolveGate, classifyStep_tier, hard, gated]
        · simp only [resolveGate, classifyStep_tier, requiresStop, hard, ↓reduceIte]
  case records =>
    intro step passes
    simp only [preapprovedGate]
    cases given : run.approvalPolicy with
    | none => simp [gateDecision, resolveGate, given]
    | some policy =>
        have gated := stops policy given step.requiresApproval
        by_cases hard : tierOf step.type = .hardGated
        · simp [gateDecision, resolveGate, given, hard, gated] at passes
        · have soft : (tierOf step.type == Tier.hardGated) = false := beq_eq_false_iff_ne.mpr hard
          simp [gateDecision, resolveGate, given, soft]
  all_goals rw [agrees]
  exact fun _ => rfl

end RunView

namespace RunView

/-- The runs differ in stored authority only, and not within its reach. -/
def SameReach (run other : RunView ι) : Prop :=
  run.SamePreapproval other ∨ run.NoAutoComplete other ∨ run.SameGrants other

theorem SameReach.unnoticed {run other : RunView ι} (same : run.SameReach other) :
    run.Unnoticed other := by
  rcases same with same | same | same
  · exact same.unnoticed
  · exact same.unnoticed
  · exact same.unnoticed

theorem SameReach.status {run other : RunView ι} (same : run.SameReach other) :
    other.status = run.status := by
  rcases same with same | same | same
  · rw [same.agrees]
  · rw [same.agrees]
  · rw [same.agrees]

end RunView

/-! ## What a drive does -/

/-- What a drive does to its host: it calls a handler, writes a status, logs an event,
notifies the host, or yields. -/
inductive Deed (ι : Type) where
  | dispatches (step : StepView ι)
  | writesStep (stepId : ι) (status : StepStatus) (error : Given (Option String))
      (outputRefs : Given (Option Dict))
  | writesRun (runId : ι) (status : RunStatus)
  | logs (runId : ι) (type : EventType) (stepId : Option ι) (payload : Option Dict) (commit : Bool)
  | notifies (runId : ι) (status : RunStatus)
  | yields (payload : Event)

/-- What an operation does, if it does anything. -/
def EngineOp.deed? : EngineOp ι → Option (Deed ι)
  | .handle _ step => some (.dispatches step)
  | .setStepState stepId status error outputRefs =>
      some (.writesStep stepId status error outputRefs)
  | .setRunStatus run status => some (.writesRun run.id status)
  | .appendEvent runId type stepId payload commit => some (.logs runId type stepId payload commit)
  | .onRunEnd run status => some (.notifies run.id status)
  | .yieldEvent payload => some (.yields payload)
  | _ => none

/-- What a drive did, in order. -/
def deeds (history : History (engineSignature ι) (Raised ι) σ) : List (Deed ι) :=
  history.filterMap fun call => call.op.deed?

/-- Calls correspond when they differ in the runs they hand over only, and those are twins;
so are the runs as read. -/
abbrev TwinRuns (twin : RunView ι → RunView ι → Prop) : Pairing (engineSignature ι) :=
  RunTwins twin (Option.Rel twin)

theorem RunTwins.deed {handed : RunView ι → RunView ι → Prop}
    {reads : Option (RunView ι) → Option (RunView ι) → Prop}
    (id : ∀ run other, handed run other → other.id = run.id) {op otherOp : EngineOp ι}
    {results : op.Res → otherOp.Res → Prop} (paired : RunTwins handed reads op otherOp results) :
    op.deed? = otherOp.deed? := by
  cases paired with
  | same _ | getRun _ => rfl
  | setRunStatus status related | onRunEnd status related =>
      simp only [EngineOp.deed?, id _ _ related]
  | handle step _ => rfl

theorem deeds_alike {twin : RunView ι → RunView ι → Prop}
    (id : ∀ run other, twin run other → other.id = run.id)
    {history : History (engineSignature ι) (Raised ι) σ}
    {otherHistory : History (engineSignature ι) (Raised ι) τ}
    (alike : List.Forall₂ (CallsAlike (TwinRuns twin)) history otherHistory) :
    deeds history = deeds otherHistory := by
  induction alike with
  | nil => rfl
  | @cons call otherCall calls otherCalls corresponds _ ih =>
      rcases corresponds with ⟨results, paired, _⟩
      have same := paired.deed id
      simp only [deeds, List.filterMap_cons, same] at ih ⊢
      rw [ih]

/-- The gates make the same of twin runs as read. -/
theorem sameReading_of_twins {twin : RunView ι → RunView ι → Prop}
    (reach : ∀ run other, twin run other → run.SameReach other) {run other : RunView ι}
    (twins : twin run other) (driveStarted : ℚ) {current otherCurrent : Option (RunView ι)}
    (read : Option.Rel twin current otherCurrent) :
    SameReading run other driveStarted driveStarted current otherCurrent := by
  have gates : (current.getD run).Unnoticed (otherCurrent.getD other) := by
    cases read with
    | none => exact (reach run other twins).unnoticed
    | some read => exact (reach _ _ read).unnoticed
  refine ⟨?_, gates, ?_⟩
  · cases read with
    | none => rfl
    | some read => simp only [userStopped, Option.any_some, (reach _ _ read).status]
  · intro steps
    simp only [budgetExhaustedReason, gates.maxSteps, gates.maxWall]

/-- Stored authority does nothing beyond its reach.  Two drives start from twin runs on
hosts that answer alike, with twin runs wherever they answer a run, and whose handlers do
not tell twins apart.  Twins agree on everything, but: under a policy, on `auto_approve`
and on what `preapproved_tools` holds besides the preapprovable types; under no policy or
one that is not Auto-complete, on `preapproved_tools`, and with a policy also on
`auto_approve`; always, on how `allowed_tools_json` holds its string members and on
whatever else it holds.  Then both drives do the same, in the same order, and end alike. -/
theorem authority_reach [HostId ι] {left : World (engineSignature ι) (Raised ι) σ}
    {right : World (engineSignature ι) (Raised ι) τ} {related : σ → τ → Prop}
    {twin : RunView ι → RunView ι → Prop}
    (reach : ∀ run other, twin run other →
      run.SamePreapproval other ∨ run.NoAutoComplete other ∨ run.SameGrants other)
    (hosts : WorldsAlike (TwinRuns twin) left right related) {registry : ToolRegistry}
    {run other : RunView ι} {hooked : Bool} {fuel : Nat} {state last : σ} {twinState twinLast : τ}
    {outcome otherOutcome : Except (Raised ι) (Option Unit)}
    {history : History (engineSignature ι) (Raised ι) σ}
    {otherHistory : History (engineSignature ι) (Raised ι) τ} (twins : twin run other)
    (together : related state twinState)
    (runs : Runs left.recorded (executeRunEvents registry run hooked fuel) (state, []) outcome
      (last, history))
    (otherRuns : Runs right.recorded (executeRunEvents registry other hooked fuel) (twinState, [])
      otherOutcome (twinLast, otherHistory)) :
    deeds history = deeds otherHistory ∧ outcome = otherOutcome ∧ related last twinLast := by
  have same := RunView.SameReach.unnoticed (reach run other twins)
  have lockstep := lockstep_executeRunEvents same.id
    (RunView.SameReach.status (reach run other twins))
    twins (fun driveStarted _ _ read => sameReading_of_twins reach twins driveStarted read) registry
    hooked fuel
  have ends := lockstep.runs hosts runs otherRuns together .nil
  exact ⟨deeds_alike
    (fun run other twins => (RunView.SameReach.unnoticed (reach run other twins)).id)
    ends.2.2, ends.1.equal, ends.2.1⟩

/-- A run with one search, under Auto-complete. -/
def searchHost (autoApprove : Bool) (preapprovedTools : Stored) : HostState :=
  .holding ⟨"run-1", .other "planned" RunStatus.planned_unlisted, some .autoComplete, autoApprove,
    .json (.arr [.str "web_search"]), .null, .null, preapprovedTools⟩
    [("step-1", ⟨"web_search", "Search", .pending, true, none, none⟩)]

/-- Hosts that differ in the run only, and there in nothing a drive depends on. -/
def HostState.Twin (state other : HostState) : Prop :=
  ∃ run, other = { state with run := run } ∧ state.run.SamePreapproval run

theorem RunView.SamePreapproval.setStatus {run other : RunView ι} (same : run.SamePreapproval other)
    (status : RunStatus) :
    ({ run with status := status } : RunView ι).SamePreapproval
      { other with status := status } := by
  refine ⟨?_, same.policy, same.preapproved⟩
  have agrees := same.agrees
  rw [AgreesButAuthority] at agrees ⊢
  rw [agrees]

/-- Hosts whose tools and clock do not look at the run. -/
theorem plain_twins :
    WorldsAlike (TwinRuns RunView.SamePreapproval) (World.ofFn (plainRules.respond fun _ => 0))
      (World.ofFn (plainRules.respond fun _ => 0)) HostState.Twin := by
  rintro state _ op otherOp results answer otherAnswer after otherAfter ⟨run, rfl, twins⟩ paired
    served otherServed
  have id : run.id = state.run.id := by rw [twins.agrees]
  have log : ({ state with run := run } : HostState).log = state.log := by
    simp only [HostState.log, id]
  cases paired with
  | same free =>
      cases op with
      | getRun _ | setRunStatus _ _ | handle _ _ | onRunEnd _ _ => exact free.elim
      | drainedEvents runId cursor =>
          cases served
          cases otherServed
          refine ⟨.ok ?_, run, rfl, twins⟩
          rw [log]
      | _ =>
          cases served
          cases otherServed
          exact ⟨.ok rfl, run, rfl, twins⟩
  | getRun runId =>
      cases served
      cases otherServed
      refine ⟨.ok ?_, run, rfl, twins⟩
      simp only [id]
      split
      · exact .some twins
      · exact .none
  | setRunStatus status related =>
      cases served
      cases otherServed
      exact ⟨.ok (twins.setStatus status), _, rfl, twins.setStatus status⟩
  | handle step related =>
      cases served
      cases otherServed
      exact ⟨.ok rfl, run, rfl, twins⟩
  | onRunEnd status related =>
      cases served
      cases otherServed
      exact ⟨.ok rfl, run, rfl, twins⟩

/-- The one pre-approves searches in a set and auto-approves; the other lists them among
junk.  Both drives clear the gate and search. -/
theorem authority_reach_search :
    ∃ last history otherLast otherHistory,
      Runs (World.ofFn (plainRules.respond fun _ => 0)).recorded
        (executeRunEvents ⟨["web_search"], by decide⟩
          (searchHost true (.set [.str "web_search"])).run
          true 3) (searchHost true (.set [.str "web_search"]), []) (.ok (some ())) (last, history) ∧
      Runs (World.ofFn (plainRules.respond fun _ => 0)).recorded
        (executeRunEvents ⟨["web_search"], by decide⟩
          (searchHost false (.json (.arr [.null, .str "web_search", .str "mcp_call"]))).run true 3)
        (searchHost false (.json (.arr [.null, .str "web_search", .str "mcp_call"])), [])
        (.ok (some ())) (otherLast, otherHistory) ∧
      last.entries.map LogEntry.type = ["agent.approval.granted", "agent.step.started",
        "agent.step.completed", "agent.run.completed"] ∧
      deeds history = deeds otherHistory := by
  have twins : (searchHost true (.set [.str "web_search"])).run.SamePreapproval
      (searchHost false (.json (.arr [.null, .str "web_search", .str "mcp_call"]))).run :=
    ⟨rfl, nofun, by decide⟩
  rcases record_ofFn (plainRules.respond fun _ => 0) (fun (seen : Unit) _ => seen)
    (executeRunEvents ⟨["web_search"], by decide⟩ (searchHost true (.set [.str "web_search"])).run
      true 3) (searchHost true (.set [.str "web_search"])) () with ⟨history, runs, _⟩
  rcases record_ofFn (plainRules.respond fun _ => 0) (fun (seen : Unit) _ => seen)
    (executeRunEvents ⟨["web_search"], by decide⟩
      (searchHost false (.json (.arr [.null, .str "web_search", .str "mcp_call"]))).run true 3)
    (searchHost false (.json (.arr [.null, .str "web_search", .str "mcp_call"]))) ()
    with ⟨otherHistory, otherRuns, _⟩
  have reached := authority_reach (fun _ _ same => .inl same) plain_twins twins
    ⟨_, rfl, twins⟩ runs otherRuns
  exact ⟨_, history, _, otherHistory, runs, otherRuns, by decide, reached.1⟩

end SlimxAgent
