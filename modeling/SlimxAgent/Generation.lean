import SlimxAgent.Gate
import Mathlib.Data.List.Induction

/-!
# Prepared action generations

A handler that raises `StepActionPrepared` has prepared a new action instead of
executing one.  The step is not dispatched again before the host approves it or the
approval gate lets it through, provided the host has re-parked the step by the time it
is read again.
-/

namespace SlimxAgent

open Interaction

/-- The host wrote the step approved. -/
def ApprovedIn (stepId : String) (trail : List GateEntry) : Prop :=
  ∃ old, .hostWrote stepId old .approved ∈ trail

/-- A pass read the run and selected the step, and the approval gate on what it read
said not to stop. -/
def GateOpened (stepId : String) (trail : List GateEntry) : Prop :=
  ∃ front status back fresh step, trail = front ++ .entered stepId status :: back ∧
    readingOf front = ⟨some fresh, some step⟩ ∧ step.id = stepId ∧ step.status.Gated ∧
    (gateDecision fresh step).stop = false

/-- The step's generation was approved or passed the gate. -/
def ClearedIn (stepId : String) (trail : List GateEntry) : Prop :=
  ApprovedIn stepId trail ∨ GateOpened stepId trail

/-- A generation was prepared, and has not been cleared since. -/
def Armed (trail : List GateEntry) (stepId : String) : Prop :=
  ∃ earlier left middle, trail = earlier ++ .prepared stepId left :: middle ∧
    ¬ ClearedIn stepId middle

/-- Whenever a pass reads a step that is armed, the host has re-parked it: it is in no
status that passes no gate. -/
def Reparked (trail : List GateEntry) : Prop :=
  ∀ front step back, trail = front ++ .selected step :: back → Armed front step.id →
    ¬ step.status.Open

theorem ClearedIn.append {stepId : String} {trail : List GateEntry}
    (cleared : ClearedIn stepId trail) (more : List GateEntry) :
    ClearedIn stepId (trail ++ more) := by
  cases cleared with
  | inl approved =>
      obtain ⟨old, member⟩ := approved
      exact .inl ⟨old, List.mem_append_left more member⟩
  | inr opened =>
      obtain ⟨front, status, back, fresh, step, equal, known⟩ := opened
      refine .inr ⟨front, status, back ++ more, fresh, step, ?_, known⟩
      rw [equal, List.append_assoc, List.cons_append]

/-- Entries that prepare nothing for the step leave it armed only if it was, and clear
nothing. -/
theorem Armed.append {trail entries : List GateEntry} {stepId : String}
    (others : ∀ left, .prepared stepId left ∉ entries) (armed : Armed (trail ++ entries) stepId) :
    ∃ earlier left rest, trail = earlier ++ .prepared stepId left :: rest ∧
      ¬ ClearedIn stepId (rest ++ entries) := by
  obtain ⟨earlier, left, middle, split, uncleared⟩ := armed
  rw [List.append_eq_append_iff] at split
  cases split with
  | inl inside =>
      obtain ⟨early, _, equal⟩ := inside
      exact absurd (by rw [equal]; simp) (others left)
  | inr outside =>
      obtain ⟨rest, whole, equal⟩ := outside
      cases rest with
      | nil =>
          have member : .prepared stepId left ∈ entries := by
            rw [List.nil_append] at equal
            rw [← equal]
            exact List.mem_cons_self
          exact absurd member (others left)
      | cons first rest =>
          simp only [List.cons_append, List.cons.injEq] at equal
          refine ⟨earlier, left, rest, ?_, ?_⟩
          · rw [whole, equal.1]
          · rw [← equal.2]
            exact uncleared

theorem Armed.before {trail entries : List GateEntry} {stepId : String}
    (others : ∀ left, .prepared stepId left ∉ entries) (armed : Armed (trail ++ entries) stepId) :
    Armed trail stepId := by
  obtain ⟨earlier, left, rest, split, uncleared⟩ := armed.append others
  exact ⟨earlier, left, rest, split, fun cleared => uncleared (cleared.append entries)⟩

/-- Opening a step that the gate let through disarms it. -/
theorem not_armed_opened {trail : List GateEntry} {step : StepView String} {fresh : RunView String}
    (reading : readingOf trail = ⟨some fresh, some step⟩) (gated : step.status.Gated)
    (passes : (gateDecision fresh step).stop = false) (status : StepStatus) :
    ¬ Armed (trail ++ [.entered step.id status]) step.id := by
  intro armed
  obtain ⟨earlier, left, rest, split, uncleared⟩ := armed.append (by simp)
  apply uncleared
  refine .inr ⟨rest, status, [], fresh, step, rfl, ?_, rfl, gated, passes⟩
  -- the pass began after the generation was prepared
  rw [split, readingOf_append, List.foldl_cons] at reading
  exact reading

theorem Reparked.before {trail entries : List GateEntry} (reparked : Reparked (trail ++ entries)) :
    Reparked trail := by
  intro front step back split
  apply reparked front step (back ++ entries)
  rw [split, List.append_assoc, List.cons_append]

/-- The invariant of histories: no armed step has been dispatched. -/
def GenerationInv (state : GateState) : Prop :=
  Reparked state.trail → AtDispatch (fun front step => ¬ Armed front step.id) state.trail

/-- The step is not armed. -/
def Disarmed (step : StepView String) (state : GateState) : Prop :=
  Reparked state.trail → ¬ Armed state.trail step.id

/-- The step is not armed, or opening it disarms it: the gate let it through in this
pass. -/
def Disarming (step : StepView String) (state : GateState) : Prop :=
  Reparked state.trail → ¬ Armed state.trail step.id ∨
    ∃ fresh, readingOf state.trail = ⟨some fresh, some step⟩ ∧ step.status.Gated ∧
      (gateDecision fresh step).stop = false

/-- The trail goes on with entries that prepare and dispatch nothing. -/
def GoesOn (state after : GateState) : Prop :=
  ∃ entries, after.trail = state.trail ++ entries ∧
    (∀ stepId left, .prepared stepId left ∉ entries) ∧ ∀ step, .dispatched step ∉ entries

theorem HostStep.goesOn {state after : GateState} (acts : HostStep state after) :
    GoesOn state after := by
  cases acts with
  | changeRun run sameId policy => exact ⟨[], (List.append_nil _).symm, by simp, by simp⟩
  | writeStep stepId status => exact ⟨_, rfl, by simp, by simp⟩
  | addStep stepId row new => exact ⟨_, rfl, by simp, by simp⟩
  | appendEvent entry => exact ⟨[], (List.append_nil _).symm, by simp, by simp⟩

theorem Quietly.goesOn {state after : GateState} (quietly : Quietly state after) :
    GoesOn state after := by
  obtain ⟨entries, trail, neutral⟩ := quietly.trail
  refine ⟨entries, trail, ?_, ?_⟩
  · intro stepId left member
    exact neutral _ member
  · intro step member
    exact neutral _ member

theorem GoesOn.inv {state after : GateState} (goesOn : GoesOn state after)
    (inv : GenerationInv state) : GenerationInv after := by
  obtain ⟨entries, trail, _, dispatched⟩ := goesOn
  intro reparked
  rw [trail] at reparked ⊢
  exact (inv reparked.before).append dispatched

theorem GoesOn.disarmed {step : StepView String} {state after : GateState}
    (goesOn : GoesOn state after) (disarmed : Disarmed step state) : Disarmed step after := by
  obtain ⟨entries, trail, prepared, _⟩ := goesOn
  intro reparked armed
  rw [trail] at reparked armed
  exact disarmed reparked.before (armed.before (prepared step.id))

theorem HostStep.disarming {step : StepView String} {state after : GateState}
    (acts : HostStep state after) (ready : Disarming step state) : Disarming step after := by
  obtain ⟨entries, trail, prepared, _⟩ := acts.goesOn
  intro reparked
  rw [trail] at reparked
  cases ready reparked.before with
  | inl disarmed =>
      left
      rw [trail]
      intro armed
      exact disarmed (armed.before (prepared step.id))
  | inr gate =>
      right
      rw [acts.reading]
      exact gate

theorem Opens.disarmed {step : StepView String} {status : StepStatus} {state after : GateState}
    (opens : Opens step.id status state after) (ready : Disarming step state) :
    Disarmed step after := by
  intro reparked armed
  rw [opens.trail] at reparked armed
  cases ready reparked.before with
  | inl disarmed => exact disarmed (armed.before (by simp))
  | inr gate =>
      obtain ⟨fresh, reading, gated, passes⟩ := gate
      exact not_armed_opened reading gated passes status armed

/-- The law of prepared generations. -/
theorem generationLaw : GateLaw GenerationInv Disarming Disarmed where
  acts acts inv := acts.goesOn.inv inv
  readyActs acts ready := acts.disarming ready
  enteredActs acts disarmed := acts.goesOn.disarmed disarmed
  quiet quietly inv := quietly.goesOn.inv inv
  enteredQuiet quietly disarmed := quietly.goesOn.disarmed disarmed
  past {step state front} _ _ trail _ opened := by
    intro reparked
    left
    intro armed
    rw [trail] at reparked armed
    exact reparked front step [] rfl (armed.before (by simp)) opened
  readyOf disarmed reparked := .inl (disarmed reparked)
  opens {step status state after} _ opens inv _ ready := by
    refine ⟨?_, opens.disarmed ready⟩
    have goesOn : GoesOn state after := ⟨_, opens.trail, by simp, by simp⟩
    exact goesOn.inv inv
  dispatches inv _ entered := by
    intro reparked
    exact (inv reparked.before).dispatch (entered reparked.before)
  prepares inv _ := by
    intro reparked
    exact (inv reparked.before).append (by simp)

theorem generation_clears : Clears GenerationInv Disarming := by
  intro runId run fresh step state selected gated passes
  apply wp_ready_recordApproval generationLaw
  refine ⟨selected.toHeld, selected.listed, ?_⟩
  intro _
  exact .inr ⟨fresh, selected.known.1, gated, passes⟩

/-- Approval of an earlier generation never carries over.  In every history of drives
and host actions in which a prepared step is re-parked by the time it is read again:
between a handler's raise of `StepActionPrepared` and the next dispatch of its step,
the host wrote the step approved, or the approval gate was evaluated on the run read
in that pass and let it through. -/
theorem generation_gate {start state : GateState} (untouched : start.trail = [])
    (reachable : Reachable start state) (reparked : Reparked state.trail)
    {earlier middle later : List GateEntry} {left : StepStatus} {step : StepView String}
    (split : state.trail =
      earlier ++ .prepared step.id left :: middle ++ .dispatched step :: later) :
    ApprovedIn step.id middle ∨ GateOpened step.id middle := by
  have initially : GenerationInv start := by
    intro _
    rw [untouched]
    exact .nil
  have lawful := generationLaw.reachable generation_clears initially reachable reparked
  have disarmed := lawful (earlier ++ .prepared step.id left :: middle) step later split
  by_contra uncleared
  exact disarmed ⟨earlier, left, middle, rfl, uncleared⟩

/-- Two passes over a run of one step, with a tool that prepares an action each time. -/
def preparingDrive (type : String) (status left : StepStatus) :
    Except (Raised String) (Option Unit) × GateState :=
  (executeRunEvents ⟨[type], by simp⟩ (oneStepStart type status).host.run false 2).eval
    (GateState.scripted (.error (.stepActionPrepared "prepared")) left) (oneStepStart type status)

theorem preparingDrive_reachable (type : String) (status left : StepStatus) :
    Reachable (oneStepStart type status) (preparingDrive type status left).2 :=
  .driven .start rfl (GateState.scripted_runs rfl)

/-- What such a pass adds before it dispatches the step. -/
def enteringPass (type : String) (status : StepStatus) : List GateEntry :=
  [.runRead (oneStepRun .running), .selected (onlyStep type status), .entered "step-1" .running]

/-- A comparison re-parked as pending is dispatched again, its new generation having
passed the gate. -/
theorem generation_gate_reparked :
    (preparingDrive "compare_models" .pending .pending).2.trail =
      enteringPass "compare_models" .pending ++
        [.dispatched (onlyStep "compare_models" .pending)] ++
        .prepared "step-1" .pending :: enteringPass "compare_models" .pending ++
        .dispatched (onlyStep "compare_models" .pending) :: [.prepared "step-1" .pending] ∧
      (ApprovedIn "step-1" (enteringPass "compare_models" .pending) ∨
        GateOpened "step-1" (enteringPass "compare_models" .pending)) := by
  have trail : (preparingDrive "compare_models" .pending .pending).2.trail =
      enteringPass "compare_models" .pending ++
        [.dispatched (onlyStep "compare_models" .pending)] ++
        .prepared (onlyStep "compare_models" .pending).id .pending ::
        enteringPass "compare_models" .pending ++
        .dispatched (onlyStep "compare_models" .pending) :: [.prepared "step-1" .pending] := rfl
  have reparked : Reparked (preparingDrive "compare_models" .pending .pending).2.trail := by
    intro front step back split _
    have selected :
        .selected step ∈ (preparingDrive "compare_models" .pending .pending).2.trail := by
      rw [split]
      simp
    rw [trail] at selected
    have equal : step = onlyStep "compare_models" .pending := by
      simpa [enteringPass] using selected
    rw [equal]
    simp [onlyStep, StepStatus.Open]
  exact ⟨trail, generation_gate rfl (preparingDrive_reachable _ _ _) reparked trail⟩

/-- What a pass has selected is on its trail. -/
theorem selected_of_readingOf {trail : List GateEntry} {step : StepView String}
    (reading : (readingOf trail).step = some step) : .selected step ∈ trail := by
  induction trail using List.reverseRecOn with
  | nil => cases reading
  | append_singleton trail entry ih =>
      rw [readingOf_append, List.foldl_cons, List.foldl_nil] at reading
      cases entry with
      | runRead run => cases reading
      | prepared stepId left => cases reading
      | selected selected =>
          cases reading
          simp
      | _ => exact List.mem_append_left _ (ih reading)

/-- A connector call left running by the handler that prepared it is dispatched again,
with no approval and past no gate. -/
theorem generation_gate_left_running :
    ∃ start state earlier middle later left step, start.trail = [] ∧ Reachable start state ∧
      state.trail = earlier ++ .prepared step.id left :: middle ++ .dispatched step :: later ∧
      ¬ (ApprovedIn step.id middle ∨ GateOpened step.id middle) := by
  refine ⟨oneStepStart "mcp_call" .approved, _,
    enteringPass "mcp_call" .approved ++ [.dispatched (onlyStep "mcp_call" .approved)],
    enteringPass "mcp_call" .running, [.prepared "step-1" .running], .running,
    onlyStep "mcp_call" .running, rfl, preparingDrive_reachable "mcp_call" .approved .running,
    rfl, ?_⟩
  intro cleared
  cases cleared with
  | inl approved =>
      obtain ⟨old, member⟩ := approved
      simp [enteringPass] at member
  | inr opened =>
      obtain ⟨front, status, back, fresh, step, split, reading, _, gated, _⟩ := opened
      have selected : .selected step ∈ enteringPass "mcp_call" .running := by
        rw [split]
        apply List.mem_append_left
        exact selected_of_readingOf (by rw [reading])
      simp only [enteringPass, List.mem_cons, GateEntry.selected.injEq, reduceCtorEq,
        List.not_mem_nil, or_false, false_or] at selected
      rw [selected] at gated
      simp [onlyStep, StepStatus.Gated] at gated

end SlimxAgent
