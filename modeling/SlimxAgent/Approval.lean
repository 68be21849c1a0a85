import SlimxAgent.Gate
import Mathlib.Data.List.Induction

/-!
# Recorded approvals of hard gates

Over whole histories of drives and host actions, a hard-gated step is dispatched only
after the host approved it, or after the engine recorded a scoped pre-approval of it
under Auto-complete.  The invariant is that a hard-gated step which is past its gate,
approved or running, has its approval on the trail.
-/

namespace SlimxAgent

open Interaction

/-- The host acts as a user does on a plan: it approves steps that await approval and
appends pending ones, and its prepared actions re-park their step. -/
def GateEntry.UserActs : GateEntry → Prop
  | .hostWrote _ old new => old = .awaitingApproval ∧ new = .approved
  | .hostAdded _ status => status = .pending
  | .prepared _ left => left = .pending ∨ left = .awaitingApproval
  | _ => True

/-- The host approved the step. -/
def HostApproved (trail : List GateEntry) (stepId : String) : Prop :=
  .hostWrote stepId .awaitingApproval .approved ∈ trail

/-- The engine recorded a scoped pre-approval of the step, in a pass that read the run
under Auto-complete. -/
def Preapproved (trail : List GateEntry) (stepId : String) : Prop :=
  ∃ front payload back fresh, trail = front ++ .granted (some stepId) (some payload) :: back ∧
    Dict.get payload "preapproved" = .bool true ∧ (readingOf front).run = some fresh ∧
    fresh.approvalPolicy = some .autoComplete

/-- A step of this type has the approval it needs. -/
def Approved (trail : List GateEntry) (stepId type : String) : Prop :=
  tierOf type = .hardGated →
    HostApproved trail stepId ∨ type ∈ preapprovableStepTypes ∧ Preapproved trail stepId

theorem Approved.append {trail : List GateEntry} {stepId type : String}
    (approved : Approved trail stepId type) (entries : List GateEntry) :
    Approved (trail ++ entries) stepId type := by
  intro hard
  cases approved hard with
  | inl byHost => exact .inl (List.mem_append_left entries byHost)
  | inr byEngine =>
      obtain ⟨allowed, front, payload, back, fresh, split, known⟩ := byEngine
      refine .inr ⟨allowed, front, payload, back ++ entries, fresh, ?_, known⟩
      rw [split, List.append_assoc, List.cons_append]

/-- Normalizing what has been normalized changes nothing. -/
theorem normalizePreapproved_normalized (value : Stored) :
    normalizePreapproved (.set ((normalizePreapproved value).map .str)) =
      normalizePreapproved value := by
  have members : ∀ texts : List String, (texts.map Json.str).filterMap Json.asStr? = texts := by
    intro texts
    rw [List.filterMap_map]
    exact List.filterMap_some
  rw [normalizePreapproved, stringMembers, members, List.filter_eq_self]
  intro type member
  exact (List.mem_filter.mp member).2

/-- What opens the gate of a hard-gated step: its pre-approval, under Auto-complete. -/
theorem gateDecision_hardGated {fresh : RunView String} {step : StepView String}
    (policy : fresh.approvalPolicy ≠ none) (hard : tierOf step.type = .hardGated)
    (passes : (gateDecision fresh step).stop = false) :
    fresh.approvalPolicy = some .autoComplete ∧
      (normalizePreapproved fresh.preapprovedTools).contains step.type = true ∧
      (gateDecision fresh step).classification = some .hardGated := by
  cases given : fresh.approvalPolicy with
  | none => exact absurd given policy
  | some policy =>
      simp only [gateDecision, resolveGate, given, classifyStep_tier, hard,
        normalizePreapproved_normalized] at passes ⊢
      obtain ⟨preapproved, auto⟩ := requiresStop_hardGated passes
      exact ⟨by rw [auto], preapproved, trivial⟩

/-- Every hard-gated step of the plan that is past its gate has its approval, with the
possible exception of one that is just being approved. -/
structure Approvals (exempt : Option String) (state : GateState) : Prop where
  policy : state.host.run.approvalPolicy ≠ none
  read : ∀ run, .runRead run ∈ state.trail → run.approvalPolicy ≠ none
  past : ∀ stepId ∈ state.host.order, some stepId ≠ exempt →
    (state.host.rows stepId).status.Open →
    Approved state.trail stepId (state.host.rows stepId).type
  dispatched : AtDispatch (fun front step => Approved front step.id step.type) state.trail

/-- The conditions on the host. -/
def UserDriven (trail : List GateEntry) : Prop :=
  ∀ entry ∈ trail, entry.UserActs

theorem UserDriven.before {trail entries : List GateEntry}
    (driven : UserDriven (trail ++ entries)) : UserDriven trail :=
  fun entry member => driven entry (List.mem_append_left entries member)

/-- A step past its gate afterwards was past it before, or has its approval now. -/
theorem Approvals.keep {exempt others : Option String} {state after : GateState}
    {entries : List GateEntry} (approvals : Approvals exempt state)
    (trail : after.trail = state.trail ++ entries)
    (policy : after.host.run.approvalPolicy ≠ none)
    (read : ∀ run, .runRead run ∈ entries → run.approvalPolicy ≠ none)
    (dispatched : ∀ step, .dispatched step ∉ entries)
    (past : ∀ stepId ∈ after.host.order, some stepId ≠ others →
      (after.host.rows stepId).status.Open →
      Approved after.trail stepId (after.host.rows stepId).type ∨
        stepId ∈ state.host.order ∧ some stepId ≠ exempt ∧
          (state.host.rows stepId).status.Open ∧
          (after.host.rows stepId).type = (state.host.rows stepId).type) :
    Approvals others after where
  policy := policy
  read run member := by
    rw [trail] at member
    cases List.mem_append.mp member with
    | inl old => exact approvals.read run old
    | inr new => exact read run new
  past stepId listed free opened := by
    cases past stepId listed free opened with
    | inl approved => exact approved
    | inr before =>
        obtain ⟨listedBefore, freeBefore, openedBefore, sameType⟩ := before
        rw [trail, sameType]
        exact (approvals.past stepId listedBefore freeBefore openedBefore).append entries
  dispatched := by
    rw [trail]
    exact approvals.dispatched.append dispatched

theorem Approvals.acts {exempt : Option String} {state after : GateState}
    (acts : HostStep state after) (driven : UserDriven after.trail)
    (approvals : Approvals exempt state) : Approvals exempt after := by
  cases acts with
  | changeRun run sameId policy =>
      obtain ⟨_, read, past, dispatched⟩ := approvals
      exact ⟨policy, read, past, dispatched⟩
  | appendEvent entry =>
      obtain ⟨policy, read, past, dispatched⟩ := approvals
      exact ⟨policy, read, past, dispatched⟩
  | writeStep stepId status =>
      have acted := driven (.hostWrote stepId (state.host.rows stepId).status status)
        (List.mem_append_right _ List.mem_cons_self)
      obtain ⟨awaited, approves⟩ := acted
      have trail : ((state.setStep stepId status).note
          [.hostWrote stepId (state.host.rows stepId).status status]).trail = state.trail ++
            [.hostWrote stepId (state.host.rows stepId).status status] := rfl
      apply approvals.keep trail approvals.policy (by simp) (by simp)
      intro other listed free opened
      by_cases same : other = stepId
      · left
        intro _
        left
        rw [HostApproved, same, GateState.note, awaited, approves]
        exact List.mem_append_right _ List.mem_cons_self
      · right
        have row : ((state.setStep stepId status).host.rows other) = state.host.rows other := by
          simp [GateState.setStep, HostState.setRow, same]
        simp only [GateState.note, row] at opened ⊢
        exact ⟨listed, free, opened, trivial⟩
  | addStep stepId row new =>
      have pending : row.status = .pending :=
        driven (.hostAdded stepId row.status) (List.mem_append_right _ List.mem_cons_self)
      have trail : (GateState.note ⟨{ state.host.setRow stepId row with
          order := state.host.order ++ [stepId] }, state.trail⟩
          [.hostAdded stepId row.status]).trail = state.trail ++ [.hostAdded stepId row.status] :=
        rfl
      apply approvals.keep trail approvals.policy (by simp) (by simp)
      intro other listed free opened
      right
      by_cases same : other = stepId
      · rw [same] at opened
        simp [GateState.note, HostState.setRow, pending, StepStatus.Open] at opened
      · simp only [GateState.note, HostState.setRow, Function.update_of_ne same] at opened ⊢
        refine ⟨?_, free, opened, trivial⟩
        cases List.mem_append.mp listed with
        | inl old => exact old
        | inr added => exact absurd (List.mem_singleton.mp added) same

theorem Approvals.quiet {exempt : Option String} {state after : GateState}
    (quietly : Quietly state after) (approvals : Approvals exempt state) :
    Approvals exempt after := by
  obtain ⟨entries, trail, neutral⟩ := quietly.trail
  apply approvals.keep trail
  · rw [quietly.policy]
    exact approvals.policy
  · intro run member
    have same : run = state.host.run := neutral _ member
    rw [same]
    exact approvals.policy
  · intro step member
    exact neutral _ member
  · intro stepId listed free opened
    right
    rw [quietly.order] at listed
    refine ⟨listed, free, ?_, quietly.type stepId⟩
    cases quietly.status stepId with
    | inl same => rw [← same]; exact opened
    | inr closed => exact absurd opened closed

theorem Approvals.opens {exempt others : Option String} {stepId : String} {status : StepStatus}
    {state after : GateState} (opens : Opens stepId status state after)
    (approvals : Approvals exempt state)
    (covered : some stepId = others ∨
      Approved state.trail stepId (state.host.rows stepId).type)
    (wider : ∀ other, some other ≠ others → some other ≠ exempt) : Approvals others after := by
  apply approvals.keep opens.trail
  · rw [opens.policy]
    exact approvals.policy
  · simp
  · simp
  · intro other listed free opened
    rw [opens.order] at listed
    by_cases same : other = stepId
    · left
      rw [same] at free ⊢
      rw [opens.trail, opens.type]
      cases covered with
      | inl exempted => exact absurd exempted free
      | inr approved => exact approved.append _
    · right
      rw [opens.rows other same] at opened ⊢
      exact ⟨listed, wider other free, opened, rfl⟩

/-- The invariant of histories whose host acts as a user does. -/
def ApprovalInv (exempt : Option String) (state : GateState) : Prop :=
  UserDriven state.trail → Approvals exempt state

/-- The step has the approval it needs. -/
def Covered (step : StepView String) (state : GateState) : Prop :=
  UserDriven state.trail → Approved state.trail step.id step.type

theorem Covered.append {step : StepView String} {state after : GateState}
    {entries : List GateEntry} (covered : Covered step state)
    (trail : after.trail = state.trail ++ entries) : Covered step after := by
  intro driven
  rw [trail] at driven ⊢
  exact (covered driven.before).append entries

theorem HostStep.appends {state after : GateState} (acts : HostStep state after) :
    ∃ entries, after.trail = state.trail ++ entries := by
  cases acts with
  | changeRun run sameId policy => exact ⟨[], (List.append_nil _).symm⟩
  | writeStep stepId status => exact ⟨_, rfl⟩
  | addStep stepId row new => exact ⟨_, rfl⟩
  | appendEvent entry => exact ⟨[], (List.append_nil _).symm⟩

theorem HostStep.approvalInv {exempt : Option String} {state after : GateState}
    (acts : HostStep state after) (inv : ApprovalInv exempt state) : ApprovalInv exempt after := by
  intro driven
  obtain ⟨entries, trail⟩ := acts.appends
  have before : UserDriven state.trail := by
    rw [trail] at driven
    exact driven.before
  exact (inv before).acts acts driven

theorem HostStep.covered {step : StepView String} {state after : GateState}
    (acts : HostStep state after) (covered : Covered step state) : Covered step after := by
  obtain ⟨entries, trail⟩ := acts.appends
  exact covered.append trail

theorem Quietly.covered {step : StepView String} {state after : GateState}
    (quietly : Quietly state after) (covered : Covered step state) : Covered step after := by
  obtain ⟨entries, trail, _⟩ := quietly.trail
  exact covered.append trail

theorem Quietly.approvalInv {exempt : Option String} {state after : GateState}
    (quietly : Quietly state after) (inv : ApprovalInv exempt state) :
    ApprovalInv exempt after := by
  intro driven
  obtain ⟨entries, trail, _⟩ := quietly.trail
  rw [trail] at driven
  exact (inv driven.before).quiet quietly

/-- The law of recorded approvals. -/
theorem approvalLaw : GateLaw (ApprovalInv none) Covered Covered where
  acts acts inv := acts.approvalInv inv
  readyActs acts covered := acts.covered covered
  enteredActs acts covered := acts.covered covered
  quiet quietly inv := quietly.approvalInv inv
  enteredQuiet quietly covered := quietly.covered covered
  past {step state front} inv plan _ status opened := by
    intro driven
    rw [← status] at opened
    have approved := (inv driven).past step.id plan.listed (Option.some_ne_none _) opened
    rw [plan.type] at approved
    exact approved
  readyOf covered := covered
  opens {step status state after} _ opens inv plan covered := by
    refine ⟨?_, covered.append opens.trail⟩
    intro driven
    rw [opens.trail] at driven
    apply (inv driven.before).opens opens
    · right
      rw [plan.type]
      exact covered driven.before
    · intro other free
      exact free
  dispatches {step state} inv _ covered := by
    intro driven
    obtain ⟨policy, read, past, dispatched⟩ := inv driven.before
    refine ⟨policy, ?_, ?_, ?_⟩
    · intro run member
      apply read run
      simpa [GateState.note] using member
    · intro stepId listed free opened
      exact (past stepId listed free opened).append _
    · exact dispatched.dispatch (covered driven.before)
  prepares {step left state} inv _ := by
    intro driven
    have reparks : left = .pending ∨ left = .awaitingApproval :=
      driven (.prepared step.id left) (List.mem_append_right _ List.mem_cons_self)
    have trail : ((state.setStep step.id left).note [.prepared step.id left]).trail =
        state.trail ++ [.prepared step.id left] := rfl
    apply (inv driven.before).keep trail (inv driven.before).policy (by simp) (by simp)
    intro other listed free opened
    right
    by_cases same : other = step.id
    · rw [same] at opened
      simp only [GateState.note, GateState.setStep, HostState.setRow, Function.update_self]
        at opened
      cases reparks with
      | inl pending => rw [pending] at opened; simp [StepStatus.Open] at opened
      | inr awaiting => rw [awaiting] at opened; simp [StepStatus.Open] at opened
    · simp only [GateState.note, GateState.setStep, HostState.setRow,
        Function.update_of_ne same] at opened ⊢
      exact ⟨listed, free, opened, trivial⟩

/-! ## Recording a scoped pre-approval -/

/-- A step written approved whose granting event is still to come. -/
structure Granting (runId : String) (fresh : RunView String) (step : StepView String)
    (state : GateState) : Prop where
  inv : ApprovalInv (some step.id) state
  runId : state.host.run.id = runId
  plan : InPlan step state
  read : (readingOf state.trail).run = some fresh

theorem Granting.moves {runId : String} {fresh : RunView String} {step : StepView String}
    {state after : GateState} (moves : HostMoves state after)
    (granting : Granting runId fresh step state) : Granting runId fresh step after := by
  induction moves with
  | refl => exact granting
  | tail _ acts ih =>
      refine ⟨acts.approvalInv ih.inv, ?_, acts.inPlan ih.plan, ?_⟩
      · rw [acts.runId]
        exact ih.runId
      · rw [acts.reading]
        exact ih.read

/-- The granting event covers the step. -/
theorem Granting.granted {runId : String} {fresh : RunView String} {step : StepView String}
    {state after : GateState} {payload : Dict} (granting : Granting runId fresh step state)
    (auto : fresh.approvalPolicy = some .autoComplete)
    (allowed : step.type ∈ preapprovableStepTypes)
    (flagged : Dict.get payload "preapproved" = .bool true) (quietly : Quietly state after)
    (trail : after.trail = state.trail ++ [.granted (some step.id) (some payload)]) :
    AtStep (ApprovalInv none) Covered runId step after := by
  have covered : Covered step after := by
    intro _ _
    right
    refine ⟨allowed, state.trail, payload, [], fresh, trail, flagged, granting.read, auto⟩
  refine ⟨⟨?_, ?_⟩, quietly.inPlan granting.plan, covered⟩
  · intro driven
    have approvals := quietly.approvalInv granting.inv driven
    refine ⟨approvals.policy, approvals.read, ?_, approvals.dispatched⟩
    intro stepId listed _ opened
    by_cases same : stepId = step.id
    · rw [same, (quietly.inPlan granting.plan).type]
      exact covered driven
    · exact approvals.past stepId listed (by simp [same]) opened
  · rw [quietly.runId]
    exact granting.runId

theorem wp_grants {runId : String} {run fresh : RunView String} {step : StepView String}
    {payload : Dict} {state : GateState}
    (selected : AtStep (ApprovalInv none) (SelectedStep Covered fresh) runId step state)
    (auto : fresh.approvalPolicy = some .autoComplete)
    (allowed : step.type ∈ preapprovableStepTypes)
    (flagged : Dict.get payload "preapproved" = .bool true) :
    wp gateWorld (fun _ _ => True) (do
        let _ ← setStepState step.id .approved .unset .unset
        appendEvent run.id .approvalGranted (some step.id) (some payload) true)
      (fun _ => AtStep (ApprovalInv none) Covered runId step)
      (fun _ => Held (ApprovalInv none) runId) state := by
  have written : wp gateWorld (fun _ _ => True) (setStepState step.id .approved .unset .unset)
      (fun _ => Granting runId fresh step) (fun _ => Held (ApprovalInv none) runId) state := by
    apply wp_gate_call fun middle moves =>
      selected.moves approvalLaw (selectedStep_acts approvalLaw) moves
    · intro middle row after selected served
      have opens := served.opens (.inl rfl)
      refine ⟨?_, ?_, opens.inPlan selected.listed, ?_⟩
      · intro driven
        rw [opens.trail] at driven
        apply (selected.inv driven.before).opens opens (.inl rfl)
        intro other _
        exact Option.some_ne_none other
      · rw [opens.runId]
        exact selected.runId
      · rw [opens.trail, readingOf_append, selected.known.1]
        rfl
    · intro middle error after _ served
      obtain ⟨clock, _, answered⟩ := served
      cases answered id
  apply wp_seq written
  intro _ opened granting
  apply wp_gate_call fun middle moves => granting.moves moves
  · intro middle _ after granting served
    have quietly := served.quietly trivial
    obtain ⟨clock, equal, _⟩ := served
    apply granting.granted auto allowed flagged quietly
    rw [equal]
    rfl
  · intro middle error after _ served
    obtain ⟨clock, _, answered⟩ := served
    cases answered id

/-- What a pass has read of the run is on its trail. -/
theorem runRead_of_readingOf {trail : List GateEntry} {run : RunView String}
    (reading : (readingOf trail).run = some run) : .runRead run ∈ trail := by
  induction trail using List.reverseRecOn with
  | nil => cases reading
  | append_singleton trail entry ih =>
      rw [readingOf_append, List.foldl_cons, List.foldl_nil] at reading
      cases entry with
      | runRead read =>
          cases reading
          simp
      | prepared stepId left => cases reading
      | _ => exact List.mem_append_left _ (ih reading)

theorem approval_clears : Clears (ApprovalInv none) Covered := by
  intro runId run fresh step state selected gated passes
  by_cases vacuous : UserDriven state.trail → tierOf step.type ≠ .hardGated
  · apply wp_ready_recordApproval approvalLaw
    refine ⟨selected.toHeld, selected.listed, ?_⟩
    intro driven hard
    exact absurd hard (vacuous driven)
  · obtain ⟨driven, hard⟩ := Classical.not_imp.mp vacuous
    rw [not_not] at hard
    have read : .runRead fresh ∈ state.trail :=
      runRead_of_readingOf (by rw [selected.known.1])
    obtain ⟨auto, allowed, classified⟩ :=
      gateDecision_hardGated ((selected.inv driven).read fresh read) hard passes
    have preapproved : preapprovedGate step (gateDecision fresh step)
        (normalizePreapproved fresh.preapprovedTools) = true := by
      rw [preapprovedGate, classified, allowed]
      rfl
    rw [recordApproval, preapproved, Bool.or_true, if_pos rfl, auto, classified]
    exact wp_grants selected auto (preapprovable_of_normalized allowed) rfl

/-- Hard gates need a recorded approval.  From a plan whose steps are all pending, in
every history of sequential drives and host actions whose host acts as a user does,
every dispatch of a hard-gated step comes after a host approval of it, or, for a
pre-approvable type, after the engine recorded its scoped pre-approval in a pass that
read the run under Auto-complete. -/
theorem hard_gate_approval {start state : GateState} (untouched : start.trail = [])
    (policy : start.host.run.approvalPolicy ≠ none)
    (pending : ∀ stepId ∈ start.host.order, (start.host.rows stepId).status = .pending)
    (reachable : Reachable start state) (driven : ∀ entry ∈ state.trail, entry.UserActs)
    {earlier later : List GateEntry} {step : StepView String}
    (split : state.trail = earlier ++ .dispatched step :: later)
    (hard : tierOf step.type = .hardGated) :
    HostApproved earlier step.id ∨
      step.type ∈ preapprovableStepTypes ∧ Preapproved earlier step.id := by
  have initially : ApprovalInv none start := by
    intro _
    refine ⟨policy, ?_, ?_, ?_⟩
    · rw [untouched]
      simp
    · intro stepId listed _ opened
      rw [pending stepId listed] at opened
      simp [StepStatus.Open] at opened
    · rw [untouched]
      exact .nil
  have approvals := approvalLaw.reachable approval_clears initially reachable driven
  exact approvals.dispatched earlier step later split hard

/-- One pass over a pre-approved web search. -/
def searchDrive : Except (Raised String) (Option Unit) × GateState :=
  (executeRunEvents ⟨["web_search"], by simp⟩ (oneStepStart "web_search" .pending).host.run false
    1).eval (GateState.scripted (.ok none) .pending) (oneStepStart "web_search" .pending)

/-- It dispatches the search, having recorded the pre-approval. -/
theorem hard_gate_approval_preapproved :
    ∃ earlier, searchDrive.2.trail =
        earlier ++ [.dispatched (onlyStep "web_search" .pending)] ∧
      (HostApproved earlier "step-1" ∨
        "web_search" ∈ preapprovableStepTypes ∧ Preapproved earlier "step-1") := by
  let before : List GateEntry := [.runRead (oneStepRun .running),
    .selected (onlyStep "web_search" .pending), .entered "step-1" .approved,
    .granted (some "step-1") (some (approvalPayload (some .autoComplete) (some .hardGated) true)),
    .entered "step-1" .running]
  have trail : searchDrive.2.trail =
      before ++ [.dispatched (onlyStep "web_search" .pending)] := rfl
  have reachable : Reachable (oneStepStart "web_search" .pending) searchDrive.2 :=
    .driven .start rfl (GateState.scripted_runs rfl)
  have driven : ∀ entry ∈ searchDrive.2.trail, entry.UserActs := by
    rw [trail]
    simp [before, GateEntry.UserActs]
  refine ⟨before, trail, ?_⟩
  exact hard_gate_approval rfl (by decide) (by decide) reachable driven trail (by decide)

end SlimxAgent
