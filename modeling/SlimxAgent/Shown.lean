import SlimxAgent.Exchange
import SlimxAgent.Outline

/-!
# What a drive shows

A drive yields nothing of its own: every event that it yields was in an earlier answer to
one of its reads of the log, whatever else happens.
-/

namespace SlimxAgent

open Interaction

variable {ι σ : Type}

/-- Every operation but a yield. -/
def Unshown : EngineOp ι → Prop
  | .yieldEvent _ => False
  | _ => True

/-- An event may be yielded once it is known, and it is known from a read on. -/
structure Showing (world : World (engineSignature ι) (Raised ι) σ)
    (guard : σ → EngineOp ι → Prop) (known : σ → Event → Prop) : Prop where
  free : ∀ {state op}, Unshown op → guard state op
  shows : ∀ {state payload}, known state payload → guard state (.yieldEvent payload)
  learns : ∀ {state runId sequence events after payload},
    world.serve state (.drainedEvents runId sequence) (.ok events) after → payload ∈ events →
    known after payload
  keeps : ∀ {state payload answer after other},
    world.serve state (.yieldEvent payload) answer after → known state other →
    known after other

section Parts

variable {world : World (engineSignature ι) (Raised ι) σ} {guard : σ → EngineOp ι → Prop}
  {known : σ → Event → Prop} {registry : ToolRegistry} {run fresh : RunView ι} {hooked : Bool}
  {step : StepView ι} {steps : List (StepView ι)} {driveStarted : ℚ} {cursor : Int} {state : σ}
  {α β : Type}

/-- Wherever the program starts, its calls meet the guard. -/
def Shows (world : World (engineSignature ι) (Raised ι) σ) (guard : σ → EngineOp ι → Prop)
    (program : Engine ι α) : Prop :=
  ∀ state, wp world guard program (fun _ _ => True) (fun _ _ => True) state

theorem Shows.bind {program : Engine ι α} {next : α → Engine ι β}
    (first : Shows world guard program) (second : ∀ value, Shows world guard (next value)) :
    Shows world guard (program >>= next) := by
  intro state
  apply wp_seq (first state)
  intro value after _
  exact second value after

variable (showing : Showing world guard known)

include showing

theorem shows_quiet {program : Engine ι α} (propagates : program.Propagates Unshown) :
    Shows world guard program := by
  intro state
  apply wp_propagates (fun _ => True) ?_ (fun _ _ _ => trivial) propagates trivial
  exact fun state op quiet _ => ⟨showing.free quiet, fun _ _ _ => trivial, fun _ _ _ => trivial⟩

theorem shows_yieldAll {payloads : List Event}
    (read : ∀ payload ∈ payloads, known state payload) :
    wp world guard (yieldAll payloads cursor) (fun _ _ => True) (fun _ _ => True) state := by
  induction payloads generalizing cursor state with
  | nil => trivial
  | cons payload payloads ih =>
      rw [yieldAll, wp_bind]
      apply wp_perform.mpr
      refine ⟨showing.shows (read payload List.mem_cons_self), ?_, fun _ _ _ => trivial⟩
      intro _ after served
      apply ih
      intro other member
      exact showing.keeps served (read other (List.mem_cons_of_mem _ member))

theorem shows_drain (runId : ι) (cursor : Int) : Shows world guard (drain runId cursor) := by
  intro state
  rw [drain, wp_bind]
  apply wp_perform.mpr
  refine ⟨showing.free trivial, ?_, fun _ _ _ => trivial⟩
  intro events after served
  exact shows_yieldAll showing fun payload member => showing.learns served member

theorem shows_drainAndReturn : Shows world guard (drainAndReturn run cursor) :=
  (shows_drain showing run.id cursor).bind fun _ => shows_quiet showing trivial

theorem shows_drainAndContinue : Shows world guard (drainAndContinue run cursor) :=
  (shows_drain showing run.id cursor).bind fun _ => shows_quiet showing trivial

omit showing in
theorem unshown_transition {runId stepId : ι} {status : StepStatus} {type : EventType} :
    AllowsTransition Unshown runId stepId status type :=
  ⟨fun _ _ => trivial, fun _ => trivial⟩

theorem shows_failRun {stepId : ι} : Shows world guard (failRun hooked run stepId) :=
  shows_quiet showing (failRun_propagates ⟨fun _ => trivial, trivial, trivial⟩ hooked stepId)

theorem shows_pauseForBudget {reason : String} :
    Shows world guard (pauseForBudget run reason cursor) :=
  (shows_quiet showing (appendEvent_propagates trivial)).bind fun _ =>
    (shows_quiet showing (setRunStatus_propagates trivial)).bind fun _ =>
      (shows_quiet showing (appendEvent_propagates trivial)).bind fun _ =>
        shows_drainAndReturn showing

theorem shows_stopAtGate {reason : String} :
    Shows world guard (stopAtGate run step reason cursor) :=
  (shows_quiet showing (parkPending_propagates ⟨unshown_transition, fun _ => trivial⟩
    reason)).bind fun _ =>
    (shows_quiet showing (setRunStatus_propagates trivial)).bind fun _ =>
      shows_drainAndReturn showing

theorem shows_completeRun : Shows world guard (completeRun run hooked cursor) := by
  intro state
  apply wp_completeRun_of (fun _ => True) (fun _ => True) (fun _ => True)
  · exact shows_quiet showing (getRun_propagates trivial) state
  · exact fun _ state _ _ => shows_drain showing run.id cursor state
  · exact fun _ state _ _ => shows_quiet showing (setRunStatus_propagates trivial) state
  · exact fun state _ => shows_quiet showing (appendEvent_propagates trivial) state
  · exact fun state _ => shows_quiet showing (notifyRunEnd_propagates trivial hooked) state
  · exact fun state _ => shows_drain showing run.id cursor state

variable [HostId ι]

theorem shows_runStep : Shows world guard (runStep registry run step) := by
  have settles : AllowsSettling Unshown run.id step.id :=
    ⟨unshown_transition, unshown_transition, unshown_transition, trivial, trivial,
      fun _ => trivial⟩
  intro state
  apply wp_runStep_of
  · exact shows_quiet showing (setStepState_propagates trivial) state
  · exact fun state _ => shows_quiet showing (currentType_propagates trivial) state
  · exact fun _ state _ => shows_quiet showing (appendEvent_propagates trivial) state
  · exact fun state _ => shows_quiet showing (currentType_propagates trivial) state
  · exact fun _ state _ _ =>
      shows_quiet showing (failStep_propagates unshown_transition _ _) state
  · intro _ state _ _
    refine ⟨showing.free trivial, fun outcome after _ => ?_⟩
    exact shows_quiet showing (settleStep_propagates settles outcome) after

theorem shows_dispatchStep : Shows world guard (dispatchStep registry run hooked step cursor) := by
  intro state
  apply wp_dispatchStep_of
  · exact shows_runStep showing state
  · exact fun _ state _ => shows_drain showing run.id cursor state
  · exact fun _ _ state _ => shows_quiet showing (currentStatus_propagates trivial) state
  · exact fun _ _ _ _ => trivial
  · exact fun _ _ state _ => shows_failRun showing state
  · exact fun _ state _ => shows_drainAndReturn showing state
  · exact fun _ _ _ _ _ _ _ => trivial

theorem shows_foundFailed {stepId : ι} :
    Shows world guard (foundFailed run hooked stepId cursor) := by
  intro state
  apply wp_foundFailed_of fun _ => True
  · exact shows_quiet showing (runFailureReported_propagates trivial stepId) state
  · exact fun state _ => shows_quiet showing (setRunStatus_propagates trivial) state
  · exact fun state _ => shows_failRun showing state
  · exact fun state _ => shows_drainAndReturn showing state

theorem shows_visitStep (selected : firstUnfinished steps = some step) :
    Shows world guard (visitStep registry run hooked driveStarted fresh steps step cursor) := by
  intro state
  apply wp_visitStep_of selected
  · exact fun _ _ _ => trivial
  · exact fun _ => shows_foundFailed showing state
  · exact fun _ _ _ => trivial
  · intro reason _ _
    exact (shows_quiet showing (skipStep_propagates unshown_transition _ _)).bind
      (fun _ => shows_drainAndContinue showing) state
  · intro _ _
    apply wp_budgetGate_of
    · exact shows_quiet showing (budgetExhaustedReason_propagates trivial _ _ _) state
    · exact fun _ state _ => shows_pauseForBudget showing state
    · intro state _
      apply wp_approvalGate_of
      · exact fun _ _ => shows_stopAtGate showing state
      · intro _ _
        exact shows_quiet showing (recordApproval_propagates unshown_transition _ _ _) state
      · exact fun _ => trivial
      · exact fun state _ => shows_dispatchStep showing state

theorem shows_loopPass (state : σ) :
    wp world guard (loopPass registry run hooked driveStarted cursor)
      (PassEnd (fun _ _ => True) (fun _ => True) fun _ _ => True) (fun _ _ => True) state := by
  have left : ∀ (next : Option Int) (state : σ),
      VisitEnd (fun _ _ => True) (fun _ => True) next state := by
    intro next state
    cases next <;> trivial
  apply wp_loopPass_of fun _ _ _ => True
  · exact shows_quiet showing (getRun_propagates trivial) state
  · intro current state _ _
    exact wp_post (shows_drainAndReturn showing state) fun next state _ => left next state
  · exact fun _ state _ _ => shows_quiet showing (getSteps_propagates trivial) state
  · exact fun _ _ _ _ _ => trivial
  · intro current steps step state _ selected _
    exact wp_post (shows_visitStep showing selected state) fun next state _ => left next state

theorem shows_executeRunEvents {fuel : Nat} :
    Shows world guard (executeRunEvents registry run hooked fuel) := by
  intro state
  apply wp_executeRunEvents_of (fun _ _ => True) (fun _ => True) fun _ _ => True
  · exact shows_quiet showing (nextSequence_propagates trivial) state
  · exact fun _ _ _ _ => trivial
  · exact fun _ state _ _ => shows_quiet showing (setRunStatus_propagates trivial) state
  · exact fun next state _ => shows_drain showing run.id _ state
  · exact fun _ state _ => shows_quiet showing (now_propagates trivial) state
  · exact fun _ _ state _ => shows_loopPass showing state
  · exact fun _ _ _ => trivial
  · exact fun _ _ => trivial
  · exact fun _ state _ => shows_completeRun showing state

end Parts

end SlimxAgent
