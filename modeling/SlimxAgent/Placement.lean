import SlimxAgent.Remote
import SlimxAgent.InProcess
import SlimxAgent.Interaction.Relational

/-!
# One engine, two placements

The engine in-process, over the host's own rows, and the engine behind the wire, over
snapshots of them.  The two are run side by side: what one reads the other reads, what
one writes the other writes, and no event stays uncommitted past the status it belongs
to.
-/

namespace SlimxAgent

open Interaction

/-! ## Two placements of one host -/

/-- Identities as the rows have them are texts of the host's own, and can be addressed. -/
structure Identified {ι : Type} [HostId ι] (ident : String → ι) (runId : String)
    (planned : String → Prop) : Prop where
  run : HostId.text (ident runId) = runId
  runSegment : Segmentable runId
  step : ∀ stepId, planned stepId → HostId.text (ident stepId) = stepId
  stepSegment : ∀ stepId, planned stepId → Segmentable stepId

/-- What a step object may be asked of its row while the host's own code is not running:
the plan, and of each row its type, its title and its status. -/
structure Shape where
  order : List String
  types : String → String
  titles : String → String
  statuses : String → StepStatus

def HostState.shape (state : HostState) : Shape :=
  ⟨state.order, fun stepId => (state.rows stepId).type, fun stepId => (state.rows stepId).title,
    fun stepId => (state.rows stepId).status⟩

namespace Shape

variable {ι : Type} [HostId ι]

/-- A step transition changes the status only. -/
def mark (shape : Shape) (stepId : String) (status : StepStatus) : Shape :=
  { shape with statuses := Function.update shape.statuses stepId status }

/-- The step is listed, and its row has its type and its title. -/
structure Shows (shape : Shape) (step : StepView ι) : Prop where
  listed : HostId.text step.id ∈ shape.order
  type : shape.types (HostId.text step.id) = step.type
  title : shape.titles (HostId.text step.id) = step.title

theorem Shows.mark {shape : Shape} {step : StepView ι} (shows : shape.Shows step)
    (stepId : String) (status : StepStatus) : (shape.mark stepId status).Shows step :=
  ⟨shows.listed, shows.type, shows.title⟩

end Shape

theorem HostState.shape_transition (state : HostState) (stepId : String) (status : StepStatus)
    (error : Given (Option String)) (outputRefs : Given (Option Dict)) :
    (state.setRow stepId ((state.rows stepId).transition status error outputRefs)).shape =
      state.shape.mark stepId status := by
  simp only [HostState.shape, HostState.setRow, Shape.mark, Shape.mk.injEq, true_and]
  refine ⟨?_, ?_, ?_⟩ <;>
    (funext other; by_cases same : other = stepId <;> simp [same, StepRow.transition])

/-- The session sees the rows of the other placement, which have the given shape. -/
structure Abreast (runId : String) (planned : String → Prop) (shape : Shape)
    (session : Session) (state : HostState) : Prop where
  working : session.working = state
  ready : WireReady runId planned state
  shape : state.shape = shape

/-- The placements hold the same rows, and nothing is pending. -/
structure Coupled (runId : String) (planned : String → Prop) (shape : Shape)
    (session : Session) (state : HostState) : Prop where
  settled : session = .settled state
  ready : WireReady runId planned state
  shape : state.shape = shape

theorem Coupled.abreast {runId : String} {planned : String → Prop} {shape : Shape}
    {session : Session} {state : HostState}
    (coupled : Coupled runId planned shape session state) :
    Abreast runId planned shape session state :=
  ⟨congrArg Session.working coupled.settled, coupled.ready, coupled.shape⟩

/-- The same, of whatever shape. -/
def Level (runId : String) (planned : String → Prop) (session : Session) (state : HostState) :
    Prop :=
  ∃ shape, Coupled runId planned shape session state

/-- The same, while the step in hand is as its row. -/
def Holding {ι : Type} [HostId ι] (runId : String) (planned : String → Prop) (step : StepView ι)
    (session : Session) (state : HostState) : Prop :=
  ∃ shape, shape.Shows step ∧ Coupled runId planned shape session state

theorem Coupled.level {runId : String} {planned : String → Prop} {shape : Shape}
    {session : Session} {state : HostState}
    (coupled : Coupled runId planned shape session state) : Level runId planned session state :=
  ⟨shape, coupled⟩

theorem level_settled {runId : String} {planned : String → Prop} {state : HostState}
    (ready : WireReady runId planned state) : Level runId planned (.settled state) state :=
  ⟨_, rfl, ready, rfl⟩

section Writes

variable {runId : String} {planned : String → Prop} {state : HostState}

theorem WireReady.setStatus (ready : WireReady runId planned state) {status : RunStatus}
    (filled : status.text ≠ "") : WireReady runId planned (state.setStatus status) :=
  ⟨ready.runId, ready.run.setStatus filled, ready.unwalled, ready.steps, ready.order⟩

theorem WireReady.setRow (ready : WireReady runId planned state) {key : String} {row : StepRow}
    (wired : planned key → WireStep key row) : WireReady runId planned (state.setRow key row) := by
  refine ⟨ready.runId, ready.run, ready.unwalled, ?_, ready.order⟩
  intro stepId member
  by_cases same : stepId = key
  · rw [same] at member ⊢
    simp only [HostState.setRow, Function.update_self]
    exact wired member
  · simp only [HostState.setRow, Function.update_of_ne same]
    exact ready.steps stepId member

theorem WireReady.transition (ready : WireReady runId planned state) {key : String}
    {status : StepStatus} (recognized : status.recognized = true) (error : Given (Option String))
    (outputRefs : Given (Option Dict)) : WireReady runId planned
      (state.setRow key ((state.rows key).transition status error outputRefs)) :=
  ready.setRow fun member => (ready.steps key member).transition recognized error outputRefs

end Writes

/-- A step as both placements have it. -/
structure SameStep {ι : Type} [HostId ι] (planned : String → Prop) (step : StepView ι)
    (other : StepView String) : Prop where
  other : other = step.mapId HostId.text
  planned : planned (HostId.text step.id)

/-- A row as both placements have just read it. -/
structure SameRow {ι : Type} [HostId ι] (planned : String → Prop) (shape : Shape)
    (step : StepView ι) (other : StepView String) : Prop extends SameStep planned step other where
  status : shape.statuses (HostId.text step.id) = step.status

/-- A row in hand, and the hosts it was read from. -/
def Ran {ι : Type} [HostId ι] (runId : String) (planned : String → Prop) (step : StepView ι)
    (other : StepView String) (session : Session) (state : HostState) : Prop :=
  ∃ shape, SameRow planned shape step other ∧ Coupled runId planned shape session state

/-- The run as both placements have just read it. -/
structure SameRun {ι : Type} [HostId ι] (run : RunView ι) (other : RunView String) : Prop where
  other : other = run.mapId HostId.text
  unwalled : wallBudget run.budgetMaxWallSeconds = none

/-- A result, and what holds of the two hosts with it. -/
abbrev Along {α β : Type} (same : α → β → Prop) (holds : Session → HostState → Prop) :
    α → β → Session → HostState → Prop :=
  fun value other session state => same value other ∧ holds session state

/-- The same exception ends both placements. -/
def RaisedAlike {ι : Type} [HostId ι] (runId : String) (planned : String → Prop) :
    Raised ι → Raised String → Session → HostState → Prop :=
  Along (fun error other => other = error.mapId HostId.text) (Level runId planned)

theorem RunView.mapId_back {ι : Type} [HostId ι] {ident : String → ι} {run : RunView String}
    (named : HostId.text (ident run.id) = run.id) :
    run = (run.mapId ident).mapId HostId.text := by
  simp only [RunView.mapId, named]

theorem StepView.mapId_back {ι : Type} [HostId ι] {ident : String → ι} {step : StepView String}
    (named : HostId.text (ident step.id) = step.id) :
    step = (step.mapId ident).mapId HostId.text := by
  simp only [StepView.mapId, named]

namespace HostRules

/-- The host's own code keeps the rows within the wire shape, and its tools say how they
ended. -/
structure Scripted (rules : HostRules) (runId : String) (planned : String → Prop) : Prop where
  invoke : ∀ {stepId state}, planned stepId → WireReady runId planned state →
    WireReady runId planned (rules.invoke stepId state).2 ∧ (rules.invoke stepId state).1.Spoken
  epilogue : ∀ status {state}, WireReady runId planned state →
    WireReady runId planned (rules.epilogue status state)

/-- A tool leaves the step it runs for, which is listed, in place: its type, when the step
is skipped or fails, and its listing, when an action was prepared. -/
structure LeavesInPlace (rules : HostRules) (runId : String) (planned : String → Prop) : Prop where
  invoke : ∀ {stepId state}, stepId ∈ state.order → WireReady runId planned state →
    match (rules.invoke stepId state).1 with
    | .completed _ => True
    | .prepared _ => stepId ∈ (rules.invoke stepId state).2.order
    | _ => ((rules.invoke stepId state).2.rows stepId).type = (state.rows stepId).type

end HostRules

section Operations

variable {ι : Type} [HostId ι] {rules : HostRules} {ident : String → ι}
  {clock otherClock : HostState → ℚ} {profile : RunProfile} {runId : String}
  {planned : String → Prop} {shape : Shape} {session : Session} {state : HostState}
  {run : RunView ι} {step : StepView ι} {id : ι}

/-- `Alike` of engine code in the two placements of a host. -/
abbrev Placed {α β : Type} (rules : HostRules) (ident : String → ι)
    (clock otherClock : HostState → ℚ) (profile : RunProfile) (runId : String)
    (planned : String → Prop) (program : Engine ι α) (other : Engine String β)
    (returns : α → β → Session → HostState → Prop) (session : Session) (state : HostState) :
    Prop :=
  Alike (rules.inProcess ident clock) (rules.remote otherClock profile) program other returns
    (RaisedAlike runId planned) session state

theorem placed_now (coupled : Coupled runId planned shape session state) :
    Placed rules ident clock otherClock profile runId planned now now
      (fun _ _ => Coupled runId planned shape) session state := by
  obtain ⟨rfl, ready, shaped⟩ := coupled
  apply alike_perform.mpr
  exact ⟨rfl, ready, shaped⟩

theorem placed_yieldEvent {payload : Event} (coupled : Coupled runId planned shape session state) :
    Placed rules ident clock otherClock profile runId planned (yieldEvent payload)
      (yieldEvent payload) (fun _ _ => Coupled runId planned shape) session state := by
  obtain ⟨rfl, ready, shaped⟩ := coupled
  apply alike_perform.mpr
  exact ⟨rfl, ⟨ready.runId, ready.run, ready.unwalled, ready.steps, ready.order⟩, shaped⟩

/-! A live row and a snapshot, as long as the row is as the step shows it. -/

theorem placed_currentType (kept : shape.types (HostId.text step.id) = step.type)
    (coupled : Coupled runId planned shape session state) :
    Placed rules ident clock otherClock profile runId planned (currentType step)
      (currentType (step.mapId HostId.text))
      (Along (fun stepType other => stepType = step.type ∧ other = step.type)
        (Coupled runId planned shape)) session state := by
  obtain ⟨rfl, ready, shaped⟩ := coupled
  apply alike_perform.mpr
  refine ⟨⟨?_, rfl⟩, rfl, ready, shaped⟩
  rw [← shaped] at kept
  exact kept

theorem placed_currentTitle (kept : shape.titles (HostId.text step.id) = step.title)
    (coupled : Coupled runId planned shape session state) :
    Placed rules ident clock otherClock profile runId planned (currentTitle step)
      (currentTitle (step.mapId HostId.text)) (Along Eq (Coupled runId planned shape)) session
      state := by
  obtain ⟨rfl, ready, shaped⟩ := coupled
  apply alike_perform.mpr
  refine ⟨?_, rfl, ready, shaped⟩
  rw [← shaped] at kept
  exact kept

theorem placed_currentStatus (kept : shape.statuses (HostId.text step.id) = step.status)
    (coupled : Coupled runId planned shape session state) :
    Placed rules ident clock otherClock profile runId planned (currentStatus step)
      (currentStatus (step.mapId HostId.text)) (Along Eq (Coupled runId planned shape)) session
      state := by
  obtain ⟨rfl, ready, shaped⟩ := coupled
  apply alike_perform.mpr
  refine ⟨?_, rfl, ready, shaped⟩
  rw [← shaped] at kept
  exact kept

/-- Ends that mean the same are both values, or both exceptions. -/
theorem SameOutcome.caught {ι κ σ τ : Type} {outcome : Except (Raised ι) (Option Dict)}
    {other : Except (Raised κ) (Option Dict)} {state : σ} {twin : τ}
    (holds : Except (Raised ι) (Option Dict) → Except (Raised κ) (Option Dict) → σ → τ → Prop)
    (same : SameOutcome outcome other) (held : holds outcome other state twin) :
    EndsAlike (fun value other => holds (.ok value) (.ok other))
      (fun error other => holds (.error error) (.error other)) (outcome, state)
      (other, twin) := by
  cases same <;> exact held

/-- What the engine reads, of a step in hand, after its handler: the type of a step that
is skipped or fails, and whether a prepared one is still listed. -/
def Unmoved (step : StepView ι) (state : HostState) : Except (Raised ι) (Option Dict) → Prop
  | .ok _ => True
  | .error (.stepActionPrepared _) => HostId.text step.id ∈ state.order
  | .error _ => (state.rows (HostId.text step.id)).type = step.type

theorem placed_yieldAll {payloads : List Event} {cursor : Int}
    (coupled : Coupled runId planned shape session state) :
    Placed rules ident clock otherClock profile runId planned (yieldAll payloads cursor)
      (yieldAll payloads cursor) (Along Eq (Coupled runId planned shape)) session state := by
  induction payloads generalizing cursor session state with
  | nil => exact ⟨rfl, coupled⟩
  | cons payload payloads ih =>
      apply alike_seq (placed_yieldEvent coupled)
      intro _ _ session state coupled
      exact ih coupled

omit [HostId ι] in
theorem stepBudgetReason_mapId {κ : Type} (form : ι → κ) (budget : Json)
    (steps : List (StepView ι)) :
    stepBudgetReason budget (steps.map (StepView.mapId form)) = stepBudgetReason budget steps := by
  simp only [stepBudgetReason, List.countP_map]
  rfl

/-- Without a wall budget the clock is not asked. -/
theorem placed_budgetExhaustedReason {fresh : RunView ι} {steps : List (StepView ι)}
    {driveStarted otherStarted : ℚ} (unwalled : wallBudget fresh.budgetMaxWallSeconds = none)
    (coupled : Coupled runId planned shape session state) :
    Placed rules ident clock otherClock profile runId planned
      (budgetExhaustedReason fresh steps driveStarted)
      (budgetExhaustedReason (fresh.mapId HostId.text) (steps.map (StepView.mapId HostId.text))
        otherStarted) (Along Eq (Coupled runId planned shape)) session state := by
  simp only [budgetExhaustedReason, stepBudgetReason_mapId, RunView.mapId, unwalled]
  cases stepBudgetReason fresh.budgetMaxSteps steps with
  | some reason => exact ⟨rfl, coupled⟩
  | none => exact ⟨rfl, coupled⟩

omit [HostId ι] in
theorem firstUnfinished_mapId {κ : Type} (form : ι → κ) (steps : List (StepView ι)) :
    firstUnfinished (steps.map (StepView.mapId form)) =
      (firstUnfinished steps).map (StepView.mapId form) := by
  rw [firstUnfinished, List.find?_map]
  rfl

variable (identified : Identified ident runId planned)

include identified

theorem placed_getRun (named : HostId.text id = runId)
    (coupled : Coupled runId planned shape session state) :
    Placed rules ident clock otherClock profile runId planned (getRun id)
      (getRun (HostId.text id))
      (Along (fun current other => ∃ run otherRun, current = some run ∧ other = some otherRun ∧
        SameRun run otherRun) (Coupled runId planned shape)) session state := by
  obtain ⟨rfl, ready, shaped⟩ := coupled
  have here : HostId.text id = state.run.id := named.trans ready.runId.symm
  apply alike_perform.mpr
  rw [named, remote_getRun identified.runSegment ready]
  simp only [HostRules.inProcess, HostRules.respond, Session.settled, here, ready.runId, if_true]
  have back : HostId.text (ident state.run.id) = state.run.id := by
    rw [ready.runId]
    exact identified.run
  exact ⟨⟨state.run.mapId ident, state.run, rfl, rfl, RunView.mapId_back back, ready.unwalled⟩,
    rfl, ready, shaped⟩

/-- The row of a planned step, in both forms. -/
theorem sameStep_view {stepId : String}
    (member : planned stepId) (row : StepRow) :
    SameStep planned ((row.view stepId).mapId ident) (row.view stepId) := by
  have back : HostId.text (ident stepId) = stepId := identified.step stepId member
  exact ⟨StepView.mapId_back back, back.symm ▸ member⟩

theorem placed_getSteps (named : HostId.text id = runId)
    (coupled : Coupled runId planned shape session state) :
    Placed rules ident clock otherClock profile runId planned (getSteps id)
      (getSteps (HostId.text id))
      (Along (fun steps others => others = steps.map (StepView.mapId HostId.text) ∧
        ∀ step ∈ steps, planned (HostId.text step.id) ∧ shape.Shows step)
        (Coupled runId planned shape)) session state := by
  obtain ⟨rfl, ready, shaped⟩ := coupled
  apply alike_perform.mpr
  rw [named, remote_getSteps identified.runSegment ready]
  refine ⟨⟨?_, ?_⟩, rfl, ready, shaped⟩
  · simp only [Session.settled, HostState.steps, List.map_map]
    apply List.map_congr_left
    intro stepId listed
    exact (sameStep_view identified (ready.order stepId listed) _).other
  · intro step member
    obtain ⟨view, listed, rfl⟩ := List.mem_map.mp member
    obtain ⟨stepId, ordered, rfl⟩ := List.mem_map.mp listed
    have back : HostId.text (ident stepId) = stepId :=
      identified.step stepId (ready.order stepId ordered)
    have listed : HostId.text (ident stepId) ∈ state.order := back.symm ▸ ordered
    rw [← shaped]
    exact ⟨ready.order _ listed, listed, congrArg (fun key => (state.rows key).type) back,
      congrArg (fun key => (state.rows key).title) back⟩

theorem placed_setRunStatus (named : HostId.text run.id = runId) {status : RunStatus}
    (filled : status.text ≠ "") (abreast : Abreast runId planned shape session state) :
    Placed rules ident clock otherClock profile runId planned (setRunStatus run status)
      (setRunStatus (run.mapId HostId.text) status)
      (fun _ _ => Coupled runId planned shape) session state := by
  obtain ⟨rfl, ready, shaped⟩ := abreast
  have addressed : Segmentable (run.mapId HostId.text).id := by
    rw [RunView.mapId, named]
    exact identified.runSegment
  apply alike_perform.mpr
  rw [remote_setRunStatus addressed filled ready]
  exact ⟨rfl, ready.setStatus filled, shaped⟩

theorem placed_setStepState (member : planned (HostId.text id)) {status : StepStatus}
    (recognized : status.recognized = true) (error : Given (Option String))
    (outputRefs : Given (Option Dict)) (coupled : Coupled runId planned shape session state) :
    Placed rules ident clock otherClock profile runId planned
      (setStepState id status error outputRefs)
      (setStepState (HostId.text id) status error outputRefs)
      (Along (SameRow planned (shape.mark (HostId.text id) status))
        (Coupled runId planned (shape.mark (HostId.text id) status))) session state := by
  obtain ⟨rfl, ready, rfl⟩ := coupled
  have back : HostId.text (ident (HostId.text id)) = HostId.text id := identified.step _ member
  apply alike_perform.mpr
  rw [remote_setStepState (identified.stepSegment _ member) recognized (ready.steps _ member)]
  refine ⟨⟨sameStep_view identified member _, ?_⟩, rfl, ready.transition recognized _ _,
    state.shape_transition _ _ _ _⟩
  change (state.shape.mark (HostId.text id) status).statuses
    (HostId.text (ident (HostId.text id))) = status
  rw [back]
  exact Function.update_self ..

/-- An entry is in the log at once; its commit may wait. -/
theorem placed_appendEvent (named : HostId.text run.id = runId) {type : EventType}
    {about : Option ι} {payload : Option Dict} {commit : Bool}
    (coupled : Coupled runId planned shape session state) :
    Placed rules ident clock otherClock profile runId planned
      (appendEvent run.id type about payload commit)
      (appendEvent (HostId.text run.id) type (about.map HostId.text) payload commit)
      (fun _ _ session state => Abreast runId planned shape session state ∧
        (commit = true → Coupled runId planned shape session state)) session state := by
  obtain ⟨rfl, ready, shaped⟩ := coupled
  have appended : ∀ entry, WireReady runId planned (state.append entry) := fun _ =>
    ⟨ready.runId, ready.run, ready.unwalled, ready.steps, ready.order⟩
  apply alike_perform.mpr
  rw [named, remote_appendEvent identified.runSegment]
  cases commit with
  | true => exact ⟨⟨rfl, appended _, shaped⟩, fun _ => ⟨rfl, appended _, shaped⟩⟩
  | false => exact ⟨⟨rfl, appended _, shaped⟩, fun committed => Bool.noConfusion committed⟩

theorem placed_logged (named : HostId.text run.id = runId) {type : EventType} {about : Option ι}
    {payload : Option Dict} (coupled : Coupled runId planned shape session state) :
    Placed rules ident clock otherClock profile runId planned
      (appendEvent run.id type about payload true)
      (appendEvent (HostId.text run.id) type (about.map HostId.text) payload true)
      (fun _ _ => Coupled runId planned shape) session state :=
  alike_post (placed_appendEvent identified named coupled) fun _ _ _ _ logged => logged.2 rfl

theorem placed_nextSequence (named : HostId.text run.id = runId)
    (coupled : Coupled runId planned shape session state) :
    Placed rules ident clock otherClock profile runId planned (nextSequence run.id)
      (nextSequence (HostId.text run.id)) (Along Eq (Coupled runId planned shape)) session
      state := by
  obtain ⟨rfl, ready, shaped⟩ := coupled
  apply alike_perform.mpr
  rw [named, remote_nextSequence identified.runSegment]
  exact ⟨rfl, rfl, ready, shaped⟩

theorem placed_drainedEvents (named : HostId.text id = runId) {afterSequence : Int}
    (coupled : Coupled runId planned shape session state) :
    Placed rules ident clock otherClock profile runId planned (drainedEvents id afterSequence)
      (drainedEvents (HostId.text id) afterSequence) (Along Eq (Coupled runId planned shape))
      session state := by
  obtain ⟨rfl, ready, shaped⟩ := coupled
  apply alike_perform.mpr
  rw [named, remote_drainedEvents identified.runSegment]
  exact ⟨rfl, rfl, ready, shaped⟩

theorem placed_getStep (listed : HostId.text id ∈ state.order)
    (coupled : Coupled runId planned shape session state) :
    Placed rules ident clock otherClock profile runId planned (getStep id)
      (getStep (HostId.text id))
      (Along (fun found other => ∃ row otherRow, found = some row ∧ other = some otherRow ∧
        SameRow planned shape row otherRow) (Coupled runId planned shape)) session state := by
  obtain ⟨rfl, ready, rfl⟩ := coupled
  have member := ready.order _ listed
  apply alike_perform.mpr
  rw [remote_getStep (identified.stepSegment _ member) ready]
  simp only [HostRules.inProcess, HostRules.respond, Session.settled, listed, if_true]
  have back : HostId.text (ident (HostId.text id)) = HostId.text id := identified.step _ member
  refine ⟨⟨_, _, rfl, rfl, sameStep_view identified member _, ?_⟩, rfl, ready, rfl⟩
  exact congrArg (fun stepId => (state.rows stepId).status) back

theorem placed_onRunEnd (scripted : rules.Scripted runId planned)
    (named : HostId.text run.id = runId)
    {status : RunStatus} (coupled : Coupled runId planned shape session state) :
    Placed rules ident clock otherClock profile runId planned (onRunEnd run status)
      (onRunEnd (run.mapId HostId.text) status) (fun _ _ => Level runId planned) session
      state := by
  obtain ⟨rfl, ready, _⟩ := coupled
  have addressed : Segmentable (run.mapId HostId.text).id := by
    rw [RunView.mapId, named]
    exact identified.runSegment
  have reported : WireReady runId planned
      { state with runEnds := state.runEnds ++ [status] } :=
    ⟨ready.runId, ready.run, ready.unwalled, ready.steps, ready.order⟩
  apply alike_perform.mpr
  rw [remote_onRunEnd addressed]
  exact level_settled (scripted.epilogue status reported)

theorem placed_handle (scripted : rules.Scripted runId planned)
    (inPlace : rules.LeavesInPlace runId planned)
    (named : HostId.text run.id = runId) (member : planned (HostId.text step.id))
    (shows : shape.Shows step)
    (coupled : Coupled runId planned shape session state) :
    Placed rules ident clock otherClock profile runId planned (handle run step).attempt
      (handle (run.mapId HostId.text) (step.mapId HostId.text)).attempt
      (fun outcome other session state => SameOutcome outcome other ∧
        Unmoved step state outcome ∧ Level runId planned session state) session state := by
  obtain ⟨rfl, ready, rfl⟩ := coupled
  have addressed : Segmentable (run.mapId HostId.text).id := by
    rw [RunView.mapId, named]
    exact identified.runSegment
  have segmentable : Segmentable (step.mapId HostId.text).id := identified.stepSegment _ member
  have tells := (scripted.invoke member ready).2
  have left := inPlace.invoke shows.listed ready
  have level := level_settled (scripted.invoke member ready).1
  have unmoved : Unmoved step (rules.invoke (HostId.text step.id) state).2
      (rules.invoke (HostId.text step.id) state).1.native := by
    cases ended : (rules.invoke (HostId.text step.id) state).1 with
    | completed outputRefs => trivial
    | skipped reason =>
        rw [ended] at left
        exact left.trans shows.type
    | failed error =>
        rw [ended] at left
        exact left.trans shows.type
    | prepared reason =>
        rw [ended] at left
        exact left
  apply alike_attempt
  apply alike_perform.mpr
  rw [remote_handle addressed segmentable]
  have same := interpretOutcome_envelope (ι := ι) tells (step.mapId HostId.text).id
  exact SameOutcome.caught
    (fun outcome other session state => SameOutcome outcome other ∧
      Unmoved step state outcome ∧ Level runId planned session state)
    same ⟨same, unmoved, level⟩

/-! ### The engine -/

theorem placed_drain (named : HostId.text id = runId) {cursor : Int}
    (coupled : Coupled runId planned shape session state) :
    Placed rules ident clock otherClock profile runId planned (drain id cursor)
      (drain (HostId.text id) cursor) (Along Eq (Coupled runId planned shape)) session state := by
  apply alike_seq (placed_drainedEvents identified named coupled)
  rintro payloads _ session state ⟨rfl, coupled⟩
  exact placed_yieldAll coupled

/-- A step transition and its event, which may name the type of the row. -/
theorem placed_transition (named : HostId.text run.id = runId) (member : planned (HostId.text id))
    {status : StepStatus} (recognized : status.recognized = true)
    {error : Given (Option String)} {outputRefs : Given (Option Dict)} {type : EventType}
    (payload : String → Option Dict) (coupled : Coupled runId planned shape session state) :
    Placed rules ident clock otherClock profile runId planned
      (do
        let row ← setStepState id status error outputRefs
        appendEvent run.id type (some id) (payload row.type) true
        return row)
      (do
        let row ← setStepState (HostId.text id) status error outputRefs
        appendEvent (HostId.text run.id) type (some (HostId.text id)) (payload row.type) true
        return row)
      (Ran runId planned) session state := by
  apply alike_seq (placed_setStepState identified member recognized error outputRefs coupled)
  rintro row _ session state ⟨⟨⟨rfl, member⟩, kept⟩, coupled⟩
  apply alike_seq (placed_logged identified named coupled)
  intro _ _ session state coupled
  exact ⟨_, ⟨⟨rfl, member⟩, kept⟩, coupled⟩

theorem placed_failStep (named : HostId.text run.id = runId) (member : planned (HostId.text id))
    (stepType message : String) (coupled : Coupled runId planned shape session state) :
    Placed rules ident clock otherClock profile runId planned (failStep run id stepType message)
      (failStep (run.mapId HostId.text) (HostId.text id) stepType message)
      (Ran runId planned) session state := by
  have failed : StepStatus.failed.recognized = true := rfl
  exact placed_transition identified named member failed
    (fun _ => some [("type", .str stepType), ("error", .str message)]) coupled

theorem placed_skipStep (named : HostId.text run.id = runId) (member : planned (HostId.text id))
    (stepType reason : String) (coupled : Coupled runId planned shape session state) :
    Placed rules ident clock otherClock profile runId planned (skipStep run id stepType reason)
      (skipStep (run.mapId HostId.text) (HostId.text id) stepType reason)
      (Ran runId planned) session state := by
  have skipped : StepStatus.skipped.recognized = true := rfl
  exact placed_transition identified named member skipped
    (fun _ => some [("type", .str stepType), ("reason", .str reason)]) coupled

/-- What the handler's end makes of the step. -/
theorem placed_settleStep (named : HostId.text run.id = runId)
    (member : planned (HostId.text step.id))
    {outcome : Except (Raised ι) (Option Dict)} {other : Except (Raised String) (Option Dict)}
    (same : SameOutcome outcome other) (unmoved : Unmoved step state outcome)
    (level : Level runId planned session state) :
    Placed rules ident clock otherClock profile runId planned (settleStep run step outcome)
      (settleStep (run.mapId HostId.text) (step.mapId HostId.text) other)
      (Ran runId planned) session state := by
  obtain ⟨shape, coupled⟩ := level
  have shaped := coupled.shape
  cases same with
  | completed outputRefs =>
      have completed : StepStatus.completed.recognized = true := rfl
      exact placed_transition identified named member completed
        (fun rowType => some (Dict.update [("type", .str rowType)] (outputRefs.getD []))) coupled
  | skipped reason =>
      have kept : shape.types (HostId.text step.id) = step.type := shaped ▸ unmoved
      apply alike_seq (placed_currentType kept coupled)
      rintro _ _ session state ⟨⟨rfl, rfl⟩, coupled⟩
      exact placed_skipStep identified named member _ _ coupled
  | failed error =>
      have kept : shape.types (HostId.text step.id) = step.type := shaped ▸ unmoved
      apply alike_seq (placed_currentType kept coupled)
      rintro _ _ session state ⟨⟨rfl, rfl⟩, coupled⟩
      exact placed_failStep identified named member _ _ coupled
  | prepared reason other =>
      apply alike_seq (placed_getStep identified unmoved coupled)
      rintro _ _ session state ⟨⟨row, otherRow, rfl, rfl, same⟩, coupled⟩
      exact ⟨shape, same, coupled⟩

theorem placed_runStep (scripted : rules.Scripted runId planned)
    (inPlace : rules.LeavesInPlace runId planned)
    (named : HostId.text run.id = runId) (member : planned (HostId.text step.id))
    (shows : shape.Shows step) (registry : ToolRegistry)
    (coupled : Coupled runId planned shape session state) :
    Placed rules ident clock otherClock profile runId planned (runStep registry run step)
      (runStep registry (run.mapId HostId.text) (step.mapId HostId.text))
      (Ran runId planned) session state := by
  have running : StepStatus.running.recognized = true := rfl
  have entered := shows.mark (HostId.text step.id) .running
  apply alike_seq (placed_setStepState identified member running .unset .unset coupled)
  rintro _ _ session state ⟨_, coupled⟩
  apply alike_seq (placed_currentType entered.type coupled)
  rintro _ _ session state ⟨⟨rfl, rfl⟩, coupled⟩
  apply alike_seq (placed_logged identified named coupled)
  intro _ _ session state coupled
  apply alike_seq (placed_currentType entered.type coupled)
  rintro _ _ session state ⟨⟨rfl, rfl⟩, coupled⟩
  cases registry.resolve step.type with
  | false => exact placed_failStep identified named member _ _ coupled
  | true =>
      apply alike_seq (placed_handle identified scripted inPlace named member entered coupled)
      rintro outcome other session state ⟨same, unmoved, level⟩
      exact placed_settleStep identified named member same unmoved level

theorem placed_notifyRunEnd (scripted : rules.Scripted runId planned)
    (named : HostId.text run.id = runId)
    (hooked : Bool) {status : RunStatus} (coupled : Coupled runId planned shape session state) :
    Placed rules ident clock otherClock profile runId planned (notifyRunEnd hooked run status)
      (notifyRunEnd hooked (run.mapId HostId.text) status) (fun _ _ => Level runId planned)
      session state := by
  cases hooked with
  | true => exact placed_onRunEnd identified scripted named coupled
  | false => exact coupled.level

/-- The event of a failed run waits for its status to be committed. -/
theorem placed_failRun (scripted : rules.Scripted runId planned)
    (named : HostId.text run.id = runId)
    (hooked : Bool) (coupled : Coupled runId planned shape session state) :
    Placed rules ident clock otherClock profile runId planned (failRun hooked run id)
      (failRun hooked (run.mapId HostId.text) (HostId.text id)) (fun _ _ => Level runId planned)
      session state := by
  have filled : RunStatus.failed.text ≠ "" := by decide
  apply alike_seq (placed_appendEvent identified named coupled)
  rintro _ _ session state ⟨abreast, _⟩
  apply alike_seq (placed_setRunStatus identified named filled abreast)
  intro _ _ session state coupled
  exact placed_notifyRunEnd identified scripted named hooked coupled

theorem placed_runFailureReported (named : HostId.text run.id = runId)
    (coupled : Coupled runId planned shape session state) :
    Placed rules ident clock otherClock profile runId planned (runFailureReported run.id id)
      (runFailureReported (HostId.text run.id) (HostId.text id))
      (Along Eq (Coupled runId planned shape)) session state := by
  apply alike_seq (placed_drainedEvents identified named coupled)
  rintro events _ session state ⟨rfl, coupled⟩
  exact ⟨rfl, coupled⟩

theorem placed_drainAndReturn (named : HostId.text run.id = runId) {cursor : Int}
    (level : Level runId planned session state) :
    Placed rules ident clock otherClock profile runId planned (drainAndReturn run cursor)
      (drainAndReturn (run.mapId HostId.text) cursor) (Along Eq (Level runId planned)) session
      state := by
  obtain ⟨shape, coupled⟩ := level
  apply alike_seq (placed_drain identified named coupled)
  rintro next _ session state ⟨rfl, coupled⟩
  exact ⟨rfl, coupled.level⟩

theorem placed_drainAndContinue (named : HostId.text run.id = runId) {cursor : Int}
    (level : Level runId planned session state) :
    Placed rules ident clock otherClock profile runId planned (drainAndContinue run cursor)
      (drainAndContinue (run.mapId HostId.text) cursor) (Along Eq (Level runId planned)) session
      state := by
  obtain ⟨shape, coupled⟩ := level
  apply alike_seq (placed_drain identified named coupled)
  rintro next _ session state ⟨rfl, coupled⟩
  exact ⟨rfl, coupled.level⟩

theorem placed_foundFailed (scripted : rules.Scripted runId planned)
    (named : HostId.text run.id = runId)
    (hooked : Bool) {cursor : Int} (coupled : Coupled runId planned shape session state) :
    Placed rules ident clock otherClock profile runId planned (foundFailed run hooked id cursor)
      (foundFailed (run.mapId HostId.text) hooked (HostId.text id) cursor)
      (Along Eq (Level runId planned)) session state := by
  have filled : RunStatus.failed.text ≠ "" := by decide
  apply alike_seq (placed_runFailureReported identified named coupled)
  rintro reported _ session state ⟨rfl, coupled⟩
  cases reported with
  | true =>
      apply alike_seq (placed_setRunStatus identified named filled coupled.abreast)
      intro _ _ session state coupled
      exact placed_drainAndReturn identified named coupled.level
  | false =>
      apply alike_seq (placed_failRun identified scripted named hooked coupled)
      intro _ _ session state level
      exact placed_drainAndReturn identified named level

theorem placed_dispatchStep (scripted : rules.Scripted runId planned)
    (inPlace : rules.LeavesInPlace runId planned)
    (named : HostId.text run.id = runId) (member : planned (HostId.text step.id))
    (registry : ToolRegistry) (hooked : Bool) {cursor : Int}
    (holding : Holding runId planned step session state) :
    Placed rules ident clock otherClock profile runId planned
      (dispatchStep registry run hooked step cursor)
      (dispatchStep registry (run.mapId HostId.text) hooked (step.mapId HostId.text) cursor)
      (Along Eq (Level runId planned)) session state := by
  obtain ⟨shape, shows, coupled⟩ := holding
  apply alike_seq
    (placed_runStep identified scripted inPlace named member shows registry coupled)
  rintro ran _ session state ⟨shape, ⟨⟨rfl, _⟩, kept⟩, coupled⟩
  apply alike_seq (placed_drain identified named coupled)
  rintro next _ session state ⟨rfl, coupled⟩
  apply alike_seq (placed_currentStatus kept coupled)
  rintro status _ session state ⟨rfl, coupled⟩
  apply alike_ite Iff.rfl
  · intro _
    exact ⟨rfl, coupled.level⟩
  · intro _
    apply alike_ite Iff.rfl
    · intro _
      apply alike_seq (placed_failRun identified scripted named hooked coupled)
      intro _ _ session state level
      exact placed_drainAndReturn identified named level
    · intro _
      exact ⟨rfl, coupled.level⟩

theorem placed_recordApproval (named : HostId.text run.id = runId)
    (member : planned (HostId.text step.id))
    {policy : Option ApprovalPolicy} {decision : GateDecision} {preapprovedTools : List String}
    (holding : Holding runId planned step session state) :
    Placed rules ident clock otherClock profile runId planned
      (recordApproval run policy step decision preapprovedTools)
      (recordApproval (run.mapId HostId.text) policy (step.mapId HostId.text) decision
        preapprovedTools) (fun _ _ => Holding runId planned step) session state := by
  have approved : StepStatus.approved.recognized = true := rfl
  apply alike_ite Iff.rfl
  · intro _
    obtain ⟨shape, shows, coupled⟩ := holding
    apply alike_seq (placed_setStepState identified member approved .unset .unset coupled)
    rintro _ _ session state ⟨_, coupled⟩
    apply alike_post (placed_logged identified named coupled)
    intro _ _ session state coupled
    exact ⟨_, shows.mark _ _, coupled⟩
  · intro _
    exact holding

theorem placed_stopAtGate (named : HostId.text run.id = runId)
    (member : planned (HostId.text step.id))
    {reason : String} {cursor : Int} (holding : Holding runId planned step session state) :
    Placed rules ident clock otherClock profile runId planned (stopAtGate run step reason cursor)
      (stopAtGate (run.mapId HostId.text) (step.mapId HostId.text) reason cursor)
      (Along Eq (Level runId planned)) session state := by
  have awaiting : StepStatus.awaitingApproval.recognized = true := rfl
  have filled : RunStatus.awaitingApproval.text ≠ "" := by decide
  obtain ⟨shape, shows, coupled⟩ := holding
  have parked : Placed rules ident clock otherClock profile runId planned
      (parkPending run step reason)
      (parkPending (run.mapId HostId.text) (step.mapId HostId.text) reason)
      (fun _ _ => Level runId planned) session state := by
    apply alike_ite Iff.rfl
    · intro _
      have parks := shows.mark (HostId.text step.id) .awaitingApproval
      apply alike_seq (placed_setStepState identified member awaiting .unset .unset coupled)
      rintro _ _ session state ⟨_, coupled⟩
      apply alike_seq (placed_currentTitle parks.title coupled)
      rintro title _ session state ⟨rfl, coupled⟩
      apply alike_post (placed_logged identified named coupled)
      intro _ _ session state coupled
      exact coupled.level
    · intro _
      exact coupled.level
  apply alike_seq parked
  rintro _ _ session state ⟨shape, coupled⟩
  apply alike_seq (placed_setRunStatus identified named filled coupled.abreast)
  intro _ _ session state coupled
  exact placed_drainAndReturn identified named coupled.level

theorem placed_approvalGate (scripted : rules.Scripted runId planned)
    (inPlace : rules.LeavesInPlace runId planned)
    (named : HostId.text run.id = runId) (member : planned (HostId.text step.id))
    (shows : shape.Shows step) (registry : ToolRegistry) (hooked : Bool)
    {fresh : RunView ι} {cursor : Int} (coupled : Coupled runId planned shape session state) :
    Placed rules ident clock otherClock profile runId planned
      (approvalGate registry run hooked fresh step cursor)
      (approvalGate registry (run.mapId HostId.text) hooked (fresh.mapId HostId.text)
        (step.mapId HostId.text) cursor)
      (Along Eq (Level runId planned)) session state := by
  have holding : Holding runId planned step session state := ⟨shape, shows, coupled⟩
  apply alike_ite Iff.rfl
  · intro _
    have same : resolveGate (step.mapId HostId.text) fresh.approvalPolicy fresh.autoApprove
        (.set ((normalizePreapproved fresh.preapprovedTools).map .str)) =
      resolveGate step fresh.approvalPolicy fresh.autoApprove
        (.set ((normalizePreapproved fresh.preapprovedTools).map .str)) := rfl
    simp only [RunView.mapId, same]
    cases (resolveGate step fresh.approvalPolicy fresh.autoApprove
        (.set ((normalizePreapproved fresh.preapprovedTools).map .str))).stop with
    | true => exact placed_stopAtGate identified named member holding
    | false =>
        apply alike_seq (placed_recordApproval identified named member holding)
        intro _ _ session state holding
        exact placed_dispatchStep identified scripted inPlace named member registry hooked holding
  · intro _
    exact placed_dispatchStep identified scripted inPlace named member registry hooked holding

theorem placed_pauseForBudget (named : HostId.text run.id = runId) {reason : String} {cursor : Int}
    (coupled : Coupled runId planned shape session state) :
    Placed rules ident clock otherClock profile runId planned (pauseForBudget run reason cursor)
      (pauseForBudget (run.mapId HostId.text) reason cursor) (Along Eq (Level runId planned))
      session state := by
  have filled : RunStatus.paused.text ≠ "" := by decide
  apply alike_seq (placed_logged identified named coupled)
  intro _ _ session state coupled
  apply alike_seq (placed_setRunStatus identified named filled coupled.abreast)
  intro _ _ session state coupled
  apply alike_seq (placed_logged identified named coupled)
  intro _ _ session state coupled
  exact placed_drainAndReturn identified named coupled.level

theorem placed_budgetGate (scripted : rules.Scripted runId planned)
    (inPlace : rules.LeavesInPlace runId planned)
    (named : HostId.text run.id = runId) (member : planned (HostId.text step.id))
    (shows : shape.Shows step) (registry : ToolRegistry) (hooked : Bool)
    {fresh : RunView ι} {steps : List (StepView ι)} {driveStarted otherStarted : ℚ}
    {cursor : Int} (unwalled : wallBudget fresh.budgetMaxWallSeconds = none)
    (coupled : Coupled runId planned shape session state) :
    Placed rules ident clock otherClock profile runId planned
      (budgetGate registry run hooked driveStarted fresh steps step cursor)
      (budgetGate registry (run.mapId HostId.text) hooked otherStarted (fresh.mapId HostId.text)
        (steps.map (StepView.mapId HostId.text)) (step.mapId HostId.text) cursor)
      (Along Eq (Level runId planned)) session state := by
  apply alike_seq (placed_budgetExhaustedReason unwalled coupled)
  rintro reason _ session state ⟨rfl, coupled⟩
  cases reason with
  | some reason => exact placed_pauseForBudget identified named coupled
  | none =>
      exact placed_approvalGate identified scripted inPlace named member shows registry hooked
        coupled

theorem placed_visitStep (scripted : rules.Scripted runId planned)
    (inPlace : rules.LeavesInPlace runId planned)
    (named : HostId.text run.id = runId) (member : planned (HostId.text step.id))
    (shows : shape.Shows step) (registry : ToolRegistry) (hooked : Bool)
    {fresh : RunView ι} {steps : List (StepView ι)} {driveStarted otherStarted : ℚ}
    {cursor : Int} (unwalled : wallBudget fresh.budgetMaxWallSeconds = none)
    (coupled : Coupled runId planned shape session state) :
    Placed rules ident clock otherClock profile runId planned
      (visitStep registry run hooked driveStarted fresh steps step cursor)
      (visitStep registry (run.mapId HostId.text) hooked otherStarted (fresh.mapId HostId.text)
        (steps.map (StepView.mapId HostId.text)) (step.mapId HostId.text) cursor)
      (Along Eq (Level runId planned)) session state := by
  have gates : Placed rules ident clock otherClock profile runId planned
      (budgetGate registry run hooked driveStarted fresh steps step cursor)
      (budgetGate registry (run.mapId HostId.text) hooked otherStarted (fresh.mapId HostId.text)
        (steps.map (StepView.mapId HostId.text)) (step.mapId HostId.text) cursor)
      (Along Eq (Level runId planned)) session state :=
    placed_budgetGate identified scripted inPlace named member shows registry hooked unwalled
      coupled
  have blocked : permissionBlockReason (step.mapId HostId.text) (fresh.mapId HostId.text) =
      permissionBlockReason step fresh := rfl
  have reads : (step.mapId HostId.text).status = step.status := rfl
  simp only [visitStep, reads, blocked]
  cases step.status with
  | other text unlisted => exact ⟨rfl, coupled.level⟩
  | failed => exact placed_foundFailed identified scripted named hooked coupled
  | running =>
      cases permissionBlockReason step fresh with
      | some reason => exact ⟨rfl, coupled.level⟩
      | none => exact gates
  | pending | awaitingApproval | approved =>
      cases permissionBlockReason step fresh with
      | none => exact gates
      | some reason =>
          apply alike_seq (placed_skipStep identified named member step.type reason coupled)
          rintro _ _ session state ⟨shape, _, coupled⟩
          exact placed_drainAndContinue identified named coupled.level
  | completed => exact gates
  | skipped => exact gates

theorem placed_loopPass (scripted : rules.Scripted runId planned)
    (inPlace : rules.LeavesInPlace runId planned)
    (named : HostId.text run.id = runId) (registry : ToolRegistry) (hooked : Bool)
    {driveStarted otherStarted : ℚ} {cursor : Int} (level : Level runId planned session state) :
    Placed rules ident clock otherClock profile runId planned
      (loopPass registry run hooked driveStarted cursor)
      (loopPass registry (run.mapId HostId.text) hooked otherStarted cursor)
      (Along Eq (Level runId planned)) session state := by
  obtain ⟨shape, coupled⟩ := level
  apply alike_seq (placed_getRun identified named coupled)
  rintro _ _ session state ⟨⟨fresh, _, rfl, rfl, rfl, unwalled⟩, coupled⟩
  have stops : userStopped (some (fresh.mapId HostId.text)) = userStopped (some fresh) := rfl
  simp only [stops]
  cases userStopped (some fresh) with
  | true =>
      apply alike_seq (placed_drainAndReturn identified named coupled.level)
      rintro next _ session state ⟨rfl, level⟩
      exact ⟨rfl, level⟩
  | false =>
      apply alike_seq (placed_getSteps identified named coupled)
      rintro steps _ session state ⟨⟨rfl, listed⟩, coupled⟩
      simp only [firstUnfinished_mapId]
      cases selected : firstUnfinished steps with
      | none => exact ⟨rfl, coupled.level⟩
      | some step =>
          obtain ⟨member, typed⟩ := listed step (firstUnfinished_mem selected)
          apply alike_seq (placed_visitStep identified scripted inPlace named member typed
            registry hooked unwalled coupled)
          rintro next _ session state ⟨rfl, level⟩
          exact ⟨rfl, level⟩

theorem placed_completeRun (scripted : rules.Scripted runId planned)
    (named : HostId.text run.id = runId)
    (hooked : Bool) {cursor : Int} (level : Level runId planned session state) :
    Placed rules ident clock otherClock profile runId planned (completeRun run hooked cursor)
      (completeRun (run.mapId HostId.text) hooked cursor) (fun _ _ => Level runId planned)
      session state := by
  have filled : RunStatus.completed.text ≠ "" := by decide
  obtain ⟨shape, coupled⟩ := level
  apply alike_seq (placed_getRun identified named coupled)
  rintro _ _ session state ⟨⟨fresh, _, rfl, rfl, rfl, _⟩, coupled⟩
  have stops : userStopped (some (fresh.mapId HostId.text)) = userStopped (some fresh) := rfl
  simp only [stops]
  cases userStopped (some fresh) with
  | true =>
      apply alike_seq (placed_drain identified named coupled)
      rintro _ _ session state ⟨_, coupled⟩
      exact coupled.level
  | false =>
      apply alike_seq (placed_setRunStatus identified named filled coupled.abreast)
      intro _ _ session state coupled
      apply alike_seq (placed_logged identified named coupled)
      intro _ _ session state coupled
      apply alike_seq (placed_notifyRunEnd identified scripted named hooked coupled)
      rintro _ _ session state ⟨shape, coupled⟩
      apply alike_seq (placed_drain identified named coupled)
      rintro _ _ session state ⟨_, coupled⟩
      exact coupled.level

theorem placed_executeRunEvents (scripted : rules.Scripted runId planned)
    (inPlace : rules.LeavesInPlace runId planned)
    (named : HostId.text run.id = runId) (registry : ToolRegistry) (hooked : Bool) (fuel : Nat)
    (level : Level runId planned session state) :
    Placed rules ident clock otherClock profile runId planned
      (executeRunEvents registry run hooked fuel)
      (executeRunEvents registry (run.mapId HostId.text) hooked fuel)
      (Along Eq (Level runId planned)) session state := by
  have filled : RunStatus.running.text ≠ "" := by decide
  obtain ⟨shape, coupled⟩ := level
  apply alike_seq (placed_nextSequence identified named coupled)
  rintro next _ session state ⟨rfl, coupled⟩
  apply alike_ite Iff.rfl
  · intro _
    exact ⟨rfl, coupled.level⟩
  · intro _
    apply alike_seq (placed_setRunStatus identified named filled coupled.abreast)
    intro _ _ session state coupled
    apply alike_seq (placed_drain identified named coupled)
    rintro cursor _ session state ⟨rfl, coupled⟩
    apply alike_seq (placed_now coupled)
    intro driveStarted otherStarted session state coupled
    have round : ∀ {again other : Int} {session : Session} {state : HostState},
        Along Eq (Level runId planned) again other session state →
        Placed rules ident clock otherClock profile runId planned
          (loopPass registry run hooked driveStarted again)
          (loopPass registry (run.mapId HostId.text) hooked otherStarted other)
          (RoundsAlike (Along Eq (Level runId planned)) (Along Eq (Level runId planned)))
          session state := by
      rintro again _ session state ⟨rfl, level⟩
      apply alike_post (placed_loopPass identified scripted inPlace named registry hooked level)
      rintro decided _ session state ⟨rfl, level⟩
      cases decided with
      | inl again => exact ⟨rfl, level⟩
      | inr left => exact ⟨rfl, level⟩
    apply alike_seq (alike_iterate round fuel ⟨rfl, coupled.level⟩)
    intro left other session state ended
    cases left with
    | none =>
        cases other with
        | none =>
            obtain ⟨_, _, _, level⟩ := ended
            exact ⟨rfl, level⟩
        | some _ => exact ended.elim
    | some left =>
        cases other with
        | none => exact ended.elim
        | some other =>
            obtain ⟨rfl, level⟩ := ended
            cases left with
            | returned => exact ⟨rfl, level⟩
            | allDone cursor =>
                apply alike_seq (placed_completeRun identified scripted named hooked level)
                intro _ _ session state level
                exact ⟨rfl, level⟩

theorem placed_executeRun (scripted : rules.Scripted runId planned)
    (inPlace : rules.LeavesInPlace runId planned)
    (named : HostId.text run.id = runId) (registry : ToolRegistry) (hooked : Bool) (fuel : Nat)
    (level : Level runId planned session state) :
    Placed rules ident clock otherClock profile runId planned
      (executeRun registry run hooked fuel)
      (executeRun registry (run.mapId HostId.text) hooked fuel)
      (Along (fun ended other => other = ended.map (RunView.mapId HostId.text))
        (Level runId planned)) session state := by
  apply alike_seq
    (placed_executeRunEvents identified scripted inPlace named registry hooked fuel level)
  rintro ended _ session state ⟨rfl, shape, coupled⟩
  cases ended with
  | none => exact ⟨rfl, coupled.level⟩
  | some _ =>
      apply alike_seq (placed_getRun identified named coupled)
      rintro _ _ session state ⟨⟨fresh, _, rfl, rfl, rfl, _⟩, coupled⟩
      exact ⟨rfl, coupled.level⟩

end Operations

/-! ## The two placements -/

/-- A drive ended alike in both placements: the same outcome, and the same rows, all of
them committed. -/
structure SameEnd {ι α β : Type} [HostId ι] (form : α → β)
    (native : Except (Raised ι) α × Session) (remote : Except (Raised String) β × HostState) :
    Prop where
  outcome : remote.1 = (native.1.map form).mapError (Raised.mapId HostId.text)
  rows : native.2 = .settled remote.2

theorem sameEnd_of_alike {ι α β : Type} [HostId ι] {runId : String} {planned : String → Prop}
    {form : α → β} {native : Except (Raised ι) α × Session}
    {remote : Except (Raised String) β × HostState}
    (ends : EndsAlike (Along (fun value other => other = form value) (Level runId planned))
      (RaisedAlike runId planned) native remote) : SameEnd form native remote := by
  obtain ⟨outcome, session⟩ := native
  obtain ⟨otherOutcome, state⟩ := remote
  cases outcome with
  | ok value =>
      cases otherOutcome with
      | error error => exact ends.elim
      | ok other =>
          obtain ⟨rfl, shape, coupled⟩ := ends
          exact ⟨rfl, coupled.settled⟩
  | error error =>
      cases otherOutcome with
      | ok other => exact ends.elim
      | error other =>
          obtain ⟨rfl, shape, coupled⟩ := ends
          exact ⟨rfl, coupled.settled⟩

/-- A drive over the wire ends as the drive in-process does, for tools that leave the
step they run for in place. -/
theorem one_engine_two_placements {ι : Type} [HostId ι] {rules : HostRules}
    {ident : String → ι} {runId : String} {planned : String → Prop} {state : HostState}
    (identified : Identified ident runId planned) (ready : WireReady runId planned state)
    (scripted : rules.Scripted runId planned) (inPlace : rules.LeavesInPlace runId planned)
    (clock otherClock : HostState → ℚ) (profile : RunProfile) (registry : ToolRegistry)
    (fuel : Nat) :
    SameEnd id
      ((executeRunEvents registry (state.run.mapId ident) true fuel).eval
        (rules.inProcess ident clock) (.settled state))
      ((standaloneEvents profile registry state.run fuel).eval (rules.serve otherClock) state) ∧
    SameEnd (Option.map (RunView.mapId HostId.text))
      ((executeRun registry (state.run.mapId ident) true fuel).eval
        (rules.inProcess ident clock) (.settled state))
      ((standaloneRun profile registry state.run fuel).eval (rules.serve otherClock) state) := by
  have named : HostId.text (ident state.run.id) = runId := by
    rw [ready.runId]
    exact identified.run
  have back : state.run = (state.run.mapId ident).mapId HostId.text :=
    RunView.mapId_back (named.trans ready.runId.symm)
  have level := level_settled ready
  have events : Placed rules ident clock otherClock profile runId planned
      (executeRunEvents registry (state.run.mapId ident) true fuel)
      (executeRunEvents registry ((state.run.mapId ident).mapId HostId.text) true fuel)
      (Along Eq (Level runId planned)) (.settled state) state :=
    placed_executeRunEvents identified scripted inPlace named registry true fuel level
  have refreshed : Placed rules ident clock otherClock profile runId planned
      (executeRun registry (state.run.mapId ident) true fuel)
      (executeRun registry ((state.run.mapId ident).mapId HostId.text) true fuel)
      (Along (fun ended other => other = ended.map (RunView.mapId HostId.text))
        (Level runId planned)) (.settled state) state :=
    placed_executeRun identified scripted inPlace named registry true fuel level
  rw [← back] at events refreshed
  rw [standaloneEvents, standaloneRun, eval_translate, eval_translate]
  constructor
  · apply sameEnd_of_alike
    apply EndsAlike.mono events
    · intro value other session state ended
      exact ⟨ended.1.symm, ended.2⟩
    · intro error other session state raised
      exact raised
  · exact sameEnd_of_alike refreshed

/-- A run of three model calls. -/
def mixedHost : HostState :=
  .holding ⟨"run-1", .other "planned" RunStatus.planned_unlisted, some .autoComplete, false,
    .json .null, .null, .null, .json .null⟩
    [("step-1", ⟨"model_call", "Ask", .pending, false, none, none⟩),
      ("step-2", ⟨"model_call", "Ask again", .pending, false, none, none⟩),
      ("step-3", ⟨"model_call", "Ask once more", .pending, false, none, none⟩)]

/-- The steps of that run. -/
def mixedStep (stepId : String) : Prop := stepId ∈ ["step-1", "step-2", "step-3"]

/-- Tools that leave their steps in place: one completes, one does not apply, one fails. -/
def mixedRules : HostRules where
  invoke stepId state :=
    (if stepId = "step-1" then .completed none
      else if stepId = "step-2" then .skipped "nothing to ask" else .failed "refused", state)
  epilogue _ state := state

theorem identified_mixed : Identified id "run-1" mixedStep := by
  refine ⟨rfl, ⟨by decide, by decide, by decide⟩, fun _ _ => rfl, ?_⟩
  intro stepId member
  simp only [mixedStep, List.mem_cons, List.not_mem_nil, or_false] at member
  rcases member with rfl | rfl | rfl <;> exact ⟨by decide, by decide, by decide⟩

theorem mixedHost_ready : WireReady "run-1" mixedStep mixedHost := by
  refine ⟨rfl, ⟨by decide, by decide, ⟨none, rfl⟩, ⟨none, rfl⟩, ⟨none, rfl⟩, ⟨none, rfl⟩⟩, rfl,
    ?_, fun _ listed => listed⟩
  intro stepId member
  simp only [mixedStep, List.mem_cons, List.not_mem_nil, or_false] at member
  rcases member with rfl | rfl | rfl <;> exact ⟨by decide, by decide, rfl⟩

theorem mixedRules_scripted : mixedRules.Scripted "run-1" mixedStep := by
  refine ⟨fun _ ready => ⟨ready, ?_⟩, fun _ _ ready => ready⟩
  have inapplicable : ¬ Blank "nothing to ask" := by decide +kernel
  have refused : ¬ Blank "refused" := by decide +kernel
  simp only [mixedRules]
  split
  · trivial
  · split
    · exact inapplicable
    · exact refused

theorem mixedRules_inPlace : mixedRules.LeavesInPlace "run-1" mixedStep := by
  constructor
  intro stepId state _ _
  by_cases first : stepId = "step-1"
  · simp [mixedRules, first]
  · by_cases second : stepId = "step-2" <;> simp [mixedRules, first, second]

/-- A step completes, one is skipped and one fails, in both placements. -/
theorem one_engine_two_placements_mixed :
    SameEnd id
      ((executeRunEvents remoteRegistry (mixedHost.run.mapId id) true 4).eval
        (mixedRules.inProcess id fun _ => 0) (.settled mixedHost))
      ((standaloneEvents ⟨"openai", "gpt", none⟩ remoteRegistry mixedHost.run 4).eval
        (mixedRules.serve fun _ => 1) mixedHost) ∧
    ((standaloneEvents ⟨"openai", "gpt", none⟩ remoteRegistry mixedHost.run 4).eval
        (mixedRules.serve fun _ => 1) mixedHost).2.steps.map StepView.status =
      [.completed, .skipped, .failed] := by
  constructor
  · exact (one_engine_two_placements identified_mixed mixedHost_ready mixedRules_scripted
      mixedRules_inPlace _ _ _ _ _).1
  · rfl

/-! ### Tools that do not leave their step in place -/

/-- A run of one model call that was waiting for its approval. -/
def waitingHost : HostState :=
  .holding ⟨"run-1", .awaitingApproval, some .autoComplete, false, .json .null, .null, .null,
    .json .null⟩ [("step-1", ⟨"model_call", "Ask", .awaitingApproval, false, none, none⟩)]

/-- The steps of that run. -/
def waitingStep (stepId : String) : Prop := stepId = "step-1"

theorem waitingHost_ready : WireReady "run-1" waitingStep waitingHost := by
  refine ⟨rfl, ⟨by decide, by decide, ⟨none, rfl⟩, ⟨none, rfl⟩, ⟨none, rfl⟩, ⟨none, rfl⟩⟩, rfl,
    ?_, ?_⟩
  · rintro _ rfl
    exact ⟨by decide, by decide, rfl⟩
  · intro stepId listed
    exact List.mem_singleton.mp listed

theorem identified_waiting : Identified id "run-1" waitingStep := by
  refine ⟨rfl, ⟨by decide, by decide, by decide⟩, ?_, ?_⟩
  · intro stepId _
    rfl
  · rintro _ rfl
    exact ⟨by decide, by decide, by decide⟩

/-- A tool that rewrites the type of its step, and fails. -/
def retypingRules : HostRules where
  invoke stepId state :=
    (.failed "refused", state.setRow stepId { state.rows stepId with type := "web_search" })
  epilogue _ state := state

theorem retypingRules_scripted : retypingRules.Scripted "run-1" waitingStep := by
  refine ⟨?_, fun _ _ ready => ready⟩
  intro stepId state member ready
  have wired := ready.steps stepId member
  have filled : "web_search" ≠ "" := by decide
  have told : ¬ Blank "refused" := by decide +kernel
  exact ⟨ready.setRow fun _ => ⟨wired.id, filled, wired.status⟩, told⟩

/-- A tool that takes its step off the plan, and says that it prepared an action. -/
def removingRules : HostRules where
  invoke stepId state := (.prepared "try again", { state with order := state.order.erase stepId })
  epilogue _ state := state

theorem removingRules_scripted : removingRules.Scripted "run-1" waitingStep := by
  refine ⟨?_, fun _ _ ready => ready⟩
  intro stepId state member ready
  refine ⟨⟨ready.runId, ready.run, ready.unwalled, ready.steps, ?_⟩, trivial⟩
  intro listed remains
  exact ready.order listed (List.mem_of_mem_erase remains)

/-- The type of a step in the payload of an event. -/
def LogEntry.stepType (entry : LogEntry) : Option String :=
  entry.payload.map fun payload => (Dict.get payload "type").text

/-- Rows that are read live and rows that are not differ when a tool changes its own:
the failure is logged with another type, and a step that is gone reads running or still
awaiting approval. -/
theorem placements_differ :
    Identified id "run-1" waitingStep ∧ WireReady "run-1" waitingStep waitingHost ∧
    retypingRules.Scripted "run-1" waitingStep ∧ removingRules.Scripted "run-1" waitingStep ∧
    ((standaloneEvents ⟨"openai", "gpt", none⟩ remoteRegistry waitingHost.run 3).eval
        (retypingRules.serve fun _ => 0) waitingHost).2.entries ≠
      ((executeRunEvents remoteRegistry (waitingHost.run.mapId id) true 3).eval
        (retypingRules.inProcess id fun _ => 0) (Session.settled waitingHost)).2.committed.entries ∧
    ((standaloneEvents ⟨"openai", "gpt", none⟩ remoteRegistry waitingHost.run 3).eval
        (removingRules.serve fun _ => 0) waitingHost).2.run.status = .running ∧
    ((executeRunEvents remoteRegistry (waitingHost.run.mapId id) true 3).eval
        (removingRules.inProcess id fun _ => 0)
          (Session.settled waitingHost)).2.committed.run.status =
      .completed := by
  refine ⟨identified_waiting, waitingHost_ready, retypingRules_scripted, removingRules_scripted, ?_,
    rfl, rfl⟩
  intro same
  have types := congrArg (List.map LogEntry.stepType) same
  revert types
  decide

end SlimxAgent
