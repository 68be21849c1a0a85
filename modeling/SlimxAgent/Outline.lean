import SlimxAgent.Footprint
import SlimxAgent.Interaction.World

/-!
# Proof outlines of the engine

One rule for each control structure of the engine.  A rule takes the assertions
that hold between the parts and, for each part, the obligation to establish the
next one; what a branch was taken for is among its premises.  A property of
drives is proved by choosing the assertions.
-/

namespace SlimxAgent

open Interaction

variable {ι σ : Type} {world : World (engineSignature ι) (Raised ι) σ}
  {guard : σ → EngineOp ι → Prop} {onRaise : Raised ι → σ → Prop} {state : σ}
  {registry : ToolRegistry} {run fresh : RunView ι} {hooked : Bool} {step : StepView ι}
  {steps : List (StepView ι)} {driveStarted : ℚ} {cursor : Int}

/-- The statuses a step waits in before it is dispatched. -/
def StepStatus.Waiting (status : StepStatus) : Prop :=
  status = .pending ∨ status = .awaitingApproval ∨ status = .approved

/-- The statuses that pass through the approval gate. -/
def StepStatus.Gated (status : StepStatus) : Prop :=
  status = .pending ∨ status = .awaitingApproval

/-- The decision of the approval gate on a step, for the run as read. -/
def gateDecision (fresh : RunView ι) (step : StepView ι) : GateDecision :=
  resolveGate step fresh.approvalPolicy fresh.autoApprove
    (.set ((normalizePreapproved fresh.preapprovedTools).map .str))

/-- Drain, then return. -/
theorem wp_drainAndReturn_of {Q : Option Int → σ → Prop}
    (drains : wp world guard (drain run.id cursor) (fun _ => Q none) onRaise state) :
    wp world guard (drainAndReturn run cursor) Q onRaise state :=
  wp_seq drains fun _ _ drained => drained

theorem wp_drainAndContinue_of {Q : Option Int → σ → Prop}
    (drains : wp world guard (drain run.id cursor) (fun reached => Q (some reached)) onRaise
      state) :
    wp world guard (drainAndContinue run cursor) Q onRaise state :=
  wp_seq drains fun _ _ drained => drained

/-- The completion block. -/
theorem wp_completeRun_of {finished : σ → Prop} {reread : Option (RunView ι) → σ → Prop}
    (written appended notified : σ → Prop)
    (rereads : wp world guard (getRun run.id) reread onRaise state)
    (stops : ∀ current state, userStopped current = true → reread current state →
      wp world guard (drain run.id cursor) (fun _ => finished) onRaise state)
    (writes : ∀ current state, userStopped current = false → reread current state →
      wp world guard (setRunStatus run .completed) (fun _ => written) onRaise state)
    (appends : ∀ state, written state →
      wp world guard (appendEvent run.id .runCompleted none none true) (fun _ => appended) onRaise
        state)
    (notifies : ∀ state, appended state →
      wp world guard (notifyRunEnd hooked run .completed) (fun _ => notified) onRaise state)
    (drains : ∀ state, notified state →
      wp world guard (drain run.id cursor) (fun _ => finished) onRaise state) :
    wp world guard (completeRun run hooked cursor) (fun _ => finished) onRaise state := by
  apply wp_seq rereads
  intro current state rereadHere
  cases stopped : userStopped current with
  | true =>
      apply wp_seq (stops current state stopped rereadHere)
      intro _ state finishedHere
      exact finishedHere
  | false =>
      apply wp_seq (writes current state stopped rereadHere)
      intro _ state writtenHere
      apply wp_seq (appends state writtenHere)
      intro _ state appendedHere
      apply wp_seq (notifies state appendedHere)
      intro _ state notifiedHere
      apply wp_seq (drains state notifiedHere)
      intro _ state finishedHere
      exact finishedHere

variable [HostId ι]

/-- Executing a step: the running transition, its event, the handler. -/
theorem wp_runStep_of {Q : StepView ι → σ → Prop} {entered started : σ → Prop}
    {shown typed : String → σ → Prop}
    (enters : wp world guard (setStepState step.id .running .unset .unset)
      (fun _ => entered) onRaise state)
    (shows : ∀ state, entered state →
      wp world guard (currentType step) shown onRaise state)
    (starts : ∀ startedType state, shown startedType state →
      wp world guard (appendEvent run.id .stepStarted (some step.id)
        (some [("type", .str startedType)]) true) (fun _ => started) onRaise state)
    (types : ∀ state, started state →
      wp world guard (currentType step) typed onRaise state)
    (unsupported : ∀ stepType state, registry.resolve stepType = false → typed stepType state →
      wp world guard (failStep run step.id stepType
        ("Unsupported step type " ++ reprStr stepType)) Q onRaise state)
    (handles : ∀ stepType state, registry.resolve stepType = true → typed stepType state →
      guard state (.handle run { step with type := stepType }) ∧
      ∀ outcome after, world.serve state (.handle run { step with type := stepType }) outcome
          after →
        wp world guard (settleStep run step outcome) Q onRaise after) :
    wp world guard (runStep registry run step) Q onRaise state := by
  apply wp_seq enters
  intro _ state enteredHere
  apply wp_seq (shows state enteredHere)
  intro startedType state shownHere
  apply wp_seq (starts startedType state shownHere)
  intro _ state startedHere
  apply wp_seq (types state startedHere)
  intro stepType state typedHere
  cases resolved : registry.resolve stepType with
  | false => exact unsupported stepType state resolved typedHere
  | true =>
      obtain ⟨met, settles⟩ := handles stepType state resolved typedHere
      rw [wp_bind, wp_attempt]
      apply wp_perform.mpr
      refine ⟨met, ?_, ?_⟩
      · intro outputRefs after served
        exact settles (.ok outputRefs) after served
      · intro error after served
        exact settles (.error error) after served

/-- Dispatching a step whose gates have passed. -/
theorem wp_dispatchStep_of {Q : Option Int → σ → Prop} {ranTo : StepView ι → σ → Prop}
    {drained : StepView ι → Int → σ → Prop}
    {judged : StepView ι → Int → StepStatus → σ → Prop} {failed : Int → σ → Prop}
    (runs : wp world guard (runStep registry run step) ranTo onRaise state)
    (drains : ∀ ran state, ranTo ran state →
      wp world guard (drain run.id cursor) (drained ran) onRaise state)
    (judges : ∀ ran reached state, drained ran reached state →
      wp world guard (currentStatus ran) (judged ran reached) onRaise state)
    (parked : ∀ ran reached state, judged ran reached .awaitingApproval state → Q none state)
    (fails : ∀ ran reached state, judged ran reached .failed state →
      wp world guard (failRun hooked run ran.id) (fun _ => failed reached) onRaise state)
    (returns : ∀ reached state, failed reached state →
      wp world guard (drainAndReturn run reached) Q onRaise state)
    (continues : ∀ ran reached status state, status ≠ .awaitingApproval → status ≠ .failed →
      judged ran reached status state → Q (some reached) state) :
    wp world guard (dispatchStep registry run hooked step cursor) Q onRaise state := by
  apply wp_seq runs
  intro ran state ranHere
  apply wp_seq (drains ran state ranHere)
  intro reached state drainedHere
  apply wp_seq (judges ran reached state drainedHere)
  intro status state judgedHere
  split
  · rename_i awaiting
    subst awaiting
    exact parked ran reached state judgedHere
  · rename_i notAwaiting
    split
    · rename_i wasFailed
      subst wasFailed
      apply wp_seq (fails ran reached state judgedHere)
      intro _ state failedHere
      exact returns reached state failedHere
    · rename_i notFailed
      exact continues ran reached status state notAwaiting notFailed judgedHere

theorem approvalGate_stopped (gated : step.status.Gated)
    (stops : (gateDecision fresh step).stop = true) :
    approvalGate registry run hooked fresh step cursor =
      stopAtGate run step (gateDecision fresh step).reason cursor := by
  rw [StepStatus.Gated] at gated
  rw [gateDecision] at stops ⊢
  simp only [approvalGate, if_pos gated, stops]

theorem approvalGate_cleared (gated : step.status.Gated)
    (passes : (gateDecision fresh step).stop = false) :
    approvalGate registry run hooked fresh step cursor = (do
      recordApproval run fresh.approvalPolicy step (gateDecision fresh step)
        (normalizePreapproved fresh.preapprovedTools)
      dispatchStep registry run hooked step cursor) := by
  rw [StepStatus.Gated] at gated
  rw [gateDecision] at passes ⊢
  simp only [approvalGate, if_pos gated, passes]

theorem approvalGate_passed (passes : ¬ step.status.Gated) :
    approvalGate registry run hooked fresh step cursor =
      dispatchStep registry run hooked step cursor := by
  rw [StepStatus.Gated] at passes
  simp only [approvalGate, if_neg passes]

/-- The approval gate: a step that passes through it stops, or is cleared. -/
theorem wp_approvalGate_of {Q : Option Int → σ → Prop} {cleared : σ → Prop}
    (stops : step.status.Gated → (gateDecision fresh step).stop = true →
      wp world guard (stopAtGate run step (gateDecision fresh step).reason cursor) Q onRaise state)
    (clears : step.status.Gated → (gateDecision fresh step).stop = false →
      wp world guard (recordApproval run fresh.approvalPolicy step (gateDecision fresh step)
        (normalizePreapproved fresh.preapprovedTools)) (fun _ => cleared) onRaise state)
    (passed : ¬ step.status.Gated → cleared state)
    (dispatches : ∀ state, cleared state →
      wp world guard (dispatchStep registry run hooked step cursor) Q onRaise state) :
    wp world guard (approvalGate registry run hooked fresh step cursor) Q onRaise state := by
  by_cases gated : step.status.Gated
  · cases decided : (gateDecision fresh step).stop with
    | true =>
        rw [approvalGate_stopped gated decided]
        exact stops gated decided
    | false =>
        rw [approvalGate_cleared gated decided]
        apply wp_seq (clears gated decided)
        intro _ state clearedHere
        exact dispatches state clearedHere
  · rw [approvalGate_passed gated]
    exact dispatches state (passed gated)

omit [HostId ι] in
/-- Without a wall budget only the steps count. -/
theorem budgetExhaustedReason_unlimited {run : RunView ι}
    (unlimited : wallBudget run.budgetMaxWallSeconds = none) (steps : List (StepView ι))
    (driveStarted : ℚ) :
    budgetExhaustedReason run steps driveStarted =
      .done (stepBudgetReason run.budgetMaxSteps steps) := by
  rw [budgetExhaustedReason, unlimited]
  cases stepBudgetReason run.budgetMaxSteps steps <;> rfl

/-- The budget gate. -/
theorem wp_budgetGate_of {Q : Option Int → σ → Prop} {checked : σ → Prop}
    (checks : wp world guard (budgetExhaustedReason fresh steps driveStarted)
      (fun _ => checked) onRaise state)
    (pauses : ∀ reason state, checked state →
      wp world guard (pauseForBudget run reason cursor) Q onRaise state)
    (passes : ∀ state, checked state →
      wp world guard (approvalGate registry run hooked fresh step cursor) Q onRaise state) :
    wp world guard (budgetGate registry run hooked driveStarted fresh steps step cursor) Q onRaise
      state := by
  apply wp_seq checks
  intro reason state checkedHere
  cases reason with
  | some reason => exact pauses reason state checkedHere
  | none => exact passes state checkedHere

/-- A step found failed: its failure has been reported, or is reported now. -/
theorem wp_foundFailed_of {Q : Option Int → σ → Prop} {stepId : ι} {asked : Bool → σ → Prop}
    (ended : σ → Prop)
    (asks : wp world guard (runFailureReported run.id stepId) asked onRaise state)
    (reported : ∀ state, asked true state →
      wp world guard (setRunStatus run .failed) (fun _ => ended) onRaise state)
    (unreported : ∀ state, asked false state →
      wp world guard (failRun hooked run stepId) (fun _ => ended) onRaise state)
    (returns : ∀ state, ended state →
      wp world guard (drainAndReturn run cursor) Q onRaise state) :
    wp world guard (foundFailed run hooked stepId cursor) Q onRaise state := by
  apply wp_seq asks
  intro known state askedHere
  cases known with
  | true =>
      apply wp_seq (reported state askedHere)
      intro _ state endedHere
      exact returns state endedHere
  | false =>
      apply wp_seq (unreported state askedHere)
      intro _ state endedHere
      exact returns state endedHere

/-- The branches of a visit.  The step was selected as unfinished. -/
theorem wp_visitStep_of {Q : Option Int → σ → Prop}
    (selected : firstUnfinished steps = some step)
    (unknown : ∀ text unlisted, step.status = .other text unlisted →
      onRaise (.unknownStepStatus step.id (.other text unlisted)) state)
    (found : step.status = .failed →
      wp world guard (foundFailed run hooked step.id cursor) Q onRaise state)
    (refused : ∀ reason, step.status = .running → permissionBlockReason step fresh = some reason →
      onRaise (.runningStepNotPermitted step.id reason) state)
    (skips : ∀ reason, step.status.Waiting → permissionBlockReason step fresh = some reason →
      wp world guard (do
        let _ ← skipStep run step.id step.type reason
        drainAndContinue run cursor) Q onRaise state)
    (permits : step.status.Waiting ∨ step.status = .running → Permitted step.type fresh →
      wp world guard (budgetGate registry run hooked driveStarted fresh steps step cursor) Q
        onRaise state) :
    wp world guard (visitStep registry run hooked driveStarted fresh steps step cursor) Q onRaise
      state := by
  have unfinished := firstUnfinished_status selected
  rw [visitStep]
  cases status : step.status with
  | pending | awaitingApproval | approved =>
      have waiting : step.status.Waiting := by simp [StepStatus.Waiting, status]
      cases blocked : permissionBlockReason step fresh with
      | some reason => exact skips reason waiting blocked
      | none => exact permits (.inl waiting) (permissionBlockReason_eq_none.mp blocked)
  | completed => exact absurd status unfinished.1
  | skipped => exact absurd status unfinished.2
  | failed => exact found status
  | running =>
      cases blocked : permissionBlockReason step fresh with
      | some reason => exact refused reason status blocked
      | none => exact permits (.inr status) (permissionBlockReason_eq_none.mp blocked)
  | other text unlisted => exact unknown text unlisted status

/-- What a visit leaves: the head of another pass, or a drive that returns. -/
def VisitEnd (top : Int → σ → Prop) (returned : σ → Prop) : Option Int → σ → Prop
  | some cursor => top cursor
  | none => returned

/-- What a pass leaves. -/
def PassEnd (top : Int → σ → Prop) (returned : σ → Prop) (allDone : Int → σ → Prop) :
    Int ⊕ LoopExit → σ → Prop
  | .inl cursor => top cursor
  | .inr .returned => returned
  | .inr (.allDone cursor) => allDone cursor

/-- What the loop leaves. -/
def LoopEnd (unfinished returned : σ → Prop) (allDone : Int → σ → Prop) :
    Option LoopExit → σ → Prop
  | none => unfinished
  | some .returned => returned
  | some (.allDone cursor) => allDone cursor

theorem passEnd_afterVisit {top : Int → σ → Prop} {returned : σ → Prop}
    {allDone : Int → σ → Prop} {next : Option Int} {state : σ}
    (visited : VisitEnd top returned next state) :
    PassEnd top returned allDone (afterVisit next) state := by
  cases next with
  | none => exact visited
  | some cursor => exact visited

/-- One pass. -/
theorem wp_loopPass_of {top : Int → σ → Prop} {returned : σ → Prop} {allDone : Int → σ → Prop}
    {reread : Option (RunView ι) → σ → Prop}
    (listed : Option (RunView ι) → List (StepView ι) → σ → Prop)
    (rereads : wp world guard (getRun run.id) reread onRaise state)
    (stops : ∀ current state, userStopped current = true → reread current state →
      wp world guard (drainAndReturn run cursor) (VisitEnd top returned) onRaise state)
    (lists : ∀ current state, userStopped current = false → reread current state →
      wp world guard (getSteps run.id) (listed current) onRaise state)
    (finishes : ∀ current steps state, firstUnfinished steps = none →
      listed current steps state → allDone cursor state)
    (visits : ∀ current steps step state, userStopped current = false →
      firstUnfinished steps = some step → listed current steps state →
      wp world guard (visitStep registry run hooked driveStarted (current.getD run) steps step
        cursor) (VisitEnd top returned) onRaise state) :
    wp world guard (loopPass registry run hooked driveStarted cursor)
      (PassEnd top returned allDone) onRaise state := by
  apply wp_seq rereads
  intro current state rereadHere
  cases stopped : userStopped current with
  | true =>
      apply wp_seq (stops current state stopped rereadHere)
      intro next state visited
      exact passEnd_afterVisit visited
  | false =>
      apply wp_seq (lists current state stopped rereadHere)
      intro steps state listedHere
      cases selected : firstUnfinished steps with
      | none => exact finishes current steps state selected listedHere
      | some step =>
          apply wp_seq (visits current steps step state stopped selected listedHere)
          intro next state visited
          exact passEnd_afterVisit visited

/-- A whole drive: the loop's assertion holds at the head of every pass, and may speak
of the passes that are left. -/
theorem wp_executeRunEvents_counted {fuel : Nat} (top : Nat → Int → σ → Prop)
    (returned : σ → Prop) (allDone : Int → σ → Prop) {onReturn : Option Unit → σ → Prop}
    {opened : Int → σ → Prop} {begun : Int → σ → Prop} {drained : Int → σ → Prop}
    (opens : wp world guard (nextSequence run.id) opened onRaise state)
    (terminal : ∀ next state, run.status ∈ terminalRunStatuses → opened next state →
      onReturn (some ()) state)
    (begins : ∀ next state, run.status ∉ terminalRunStatuses → opened next state →
      wp world guard (setRunStatus run .running) (fun _ => begun next) onRaise state)
    (drains : ∀ next state, begun next state →
      wp world guard (drain run.id (next - 1)) drained onRaise state)
    (clocks : ∀ cursor state, drained cursor state →
      wp world guard now (fun _ => top fuel cursor) onRaise state)
    (passes : ∀ driveStarted left cursor state, top (left + 1) cursor state →
      wp world guard (loopPass registry run hooked driveStarted cursor)
        (PassEnd (top left) returned allDone) onRaise state)
    (unfinished : ∀ cursor state, top 0 cursor state → onReturn none state)
    (returns : ∀ state, returned state → onReturn (some ()) state)
    (completes : ∀ cursor state, allDone cursor state →
      wp world guard (completeRun run hooked cursor) (fun _ => onReturn (some ())) onRaise
        state) :
    wp world guard (executeRunEvents registry run hooked fuel) onReturn onRaise state := by
  apply wp_seq opens
  intro next state openedHere
  split
  · rename_i ended
    exact terminal next state ended openedHere
  · rename_i alive
    apply wp_seq (begins next state alive openedHere)
    intro _ state begunHere
    apply wp_seq (drains next state begunHere)
    intro cursor state drainedHere
    apply wp_seq (clocks cursor state drainedHere)
    intro driveStarted state topHere
    have looped : wp world guard
        (Program.iterate (loopPass registry run hooked driveStarted) fuel cursor)
        (LoopEnd (onReturn none) returned allDone) onRaise state := by
      refine wp_iterate_counted top ?_ ?_ fuel cursor state topHere
      · intro left cursor state topHere
        apply wp_post (passes driveStarted left cursor state topHere)
        intro result state ends
        cases result with
        | inl again => exact ends
        | inr exit =>
            cases exit with
            | returned => exact ends
            | allDone cursor => exact ends
      · exact unfinished
    apply wp_seq looped
    intro exit state ends
    cases exit with
    | none => exact ends
    | some exit =>
        cases exit with
        | returned => exact returns state ends
        | allDone cursor =>
            apply wp_seq (completes cursor state ends)
            intro _ state completed
            exact completed

/-- A whole drive: the loop's assertion holds at the head of every pass. -/
theorem wp_executeRunEvents_of {fuel : Nat} (top : Int → σ → Prop) (returned : σ → Prop)
    (allDone : Int → σ → Prop) {onReturn : Option Unit → σ → Prop} {opened : Int → σ → Prop}
    {begun : Int → σ → Prop} {drained : Int → σ → Prop}
    (opens : wp world guard (nextSequence run.id) opened onRaise state)
    (terminal : ∀ next state, run.status ∈ terminalRunStatuses → opened next state →
      onReturn (some ()) state)
    (begins : ∀ next state, run.status ∉ terminalRunStatuses → opened next state →
      wp world guard (setRunStatus run .running) (fun _ => begun next) onRaise state)
    (drains : ∀ next state, begun next state →
      wp world guard (drain run.id (next - 1)) drained onRaise state)
    (clocks : ∀ cursor state, drained cursor state →
      wp world guard now (fun _ => top cursor) onRaise state)
    (passes : ∀ driveStarted cursor state, top cursor state →
      wp world guard (loopPass registry run hooked driveStarted cursor)
        (PassEnd top returned allDone) onRaise state)
    (unfinished : ∀ cursor state, top cursor state → onReturn none state)
    (returns : ∀ state, returned state → onReturn (some ()) state)
    (completes : ∀ cursor state, allDone cursor state →
      wp world guard (completeRun run hooked cursor) (fun _ => onReturn (some ())) onRaise
        state) :
    wp world guard (executeRunEvents registry run hooked fuel) onReturn onRaise state :=
  wp_executeRunEvents_counted (fun _ => top) returned allDone opens terminal begins drains clocks
    (fun driveStarted _ => passes driveStarted) unfinished returns completes

end SlimxAgent
