import SlimxAgent.Host
import SlimxAgent.Outline
import Mathlib.Logic.Relation

/-!
# Gates over whole histories

One run on its host, driven any number of times.  Between any two calls of a drive,
while a handler runs, and between drives the host may act: change the run and its
policy, set a step's status, append steps and events.  The trail keeps what such a
history says about gates.

`GateLaw` collects what an invariant of histories has to be shown of single steps;
`GateLaw.reachable` carries it over every history.
-/

namespace SlimxAgent

open Interaction Program

/-- One entry of the trail. -/
inductive GateEntry where
  /-- A pass read the run. -/
  | runRead (run : RunView String)
  /-- A pass selected a step, as listed. -/
  | selected (step : StepView String)
  /-- The host set the status of a step. -/
  | hostWrote (stepId : String) (old new : StepStatus)
  /-- The host appended a step to the plan. -/
  | hostAdded (stepId : String) (status : StepStatus)
  /-- The engine wrote a step approved or running. -/
  | entered (stepId : String) (status : StepStatus)
  /-- The engine appended `agent.approval.granted`. -/
  | granted (stepId : Option String) (payload : Option Dict)
  /-- The engine called the handler of a step. -/
  | dispatched (step : StepView String)
  /-- The handler raised `StepActionPrepared` and left its step in a status. -/
  | prepared (stepId : String) (left : StepStatus)

/-- What the current pass has read of the run and of its step. -/
structure Reading where
  run : Option (RunView String)
  step : Option (StepView String)

namespace Reading

def none : Reading := ⟨.none, .none⟩

/-- A pass begins with the run; after a prepared action only a later pass goes on. -/
def see (reading : Reading) : GateEntry → Reading
  | .runRead run => ⟨some run, .none⟩
  | .selected step => { reading with step := some step }
  | .prepared _ _ => Reading.none
  | _ => reading

end Reading

/-- What the last pass of a trail has read. -/
def readingOf (trail : List GateEntry) : Reading :=
  trail.foldl Reading.see Reading.none

@[simp] theorem readingOf_append (front back : List GateEntry) :
    readingOf (front ++ back) = back.foldl Reading.see (readingOf front) :=
  List.foldl_append

/-- The host's rows, and the trail of what has happened. -/
structure GateState where
  host : HostState
  trail : List GateEntry

namespace GateState

def note (state : GateState) (entries : List GateEntry) : GateState :=
  { state with trail := state.trail ++ entries }

/-- Set the status of a step's row. -/
def setStep (state : GateState) (stepId : String) (status : StepStatus) : GateState :=
  { state with host :=
      state.host.setRow stepId { state.host.rows stepId with status := status } }

/-- What a call of a drive adds to the trail. -/
def entriesOf (host : HostState) : EngineOp String → List GateEntry
  | .getRun runId => if runId = host.run.id then [.runRead host.run] else []
  | .getSteps _ => ((firstUnfinished host.steps).map GateEntry.selected).toList
  | .setStepState stepId .approved _ _ => [.entered stepId .approved]
  | .setStepState stepId .running _ _ => [.entered stepId .running]
  | .appendEvent _ .approvalGranted stepId payload _ => [.granted stepId payload]
  | _ => []

end GateState

/-- One action of the host. -/
inductive HostStep : GateState → GateState → Prop where
  /-- Status, policy, grants, budgets, pre-approvals: any run with a policy. -/
  | changeRun {state : GateState} (run : RunView String) (sameId : run.id = state.host.run.id)
      (policy : run.approvalPolicy ≠ none) :
      HostStep state { state with host := { state.host with run := run } }
  | writeStep {state : GateState} (stepId : String) (status : StepStatus) :
      HostStep state ((state.setStep stepId status).note
        [.hostWrote stepId (state.host.rows stepId).status status])
  | addStep {state : GateState} (stepId : String) (row : StepRow)
      (new : stepId ∉ state.host.order) :
      HostStep state ({ state with host := { state.host.setRow stepId row with
        order := state.host.order ++ [stepId] } }.note [.hostAdded stepId row.status])
  | appendEvent {state : GateState} (entry : LogEntry) :
      HostStep state { state with host := state.host.append entry }

/-- Any number of them. -/
abbrev HostMoves : GateState → GateState → Prop :=
  Relation.ReflTransGen HostStep

/-- How a handler ends: a prepared action leaves its step in some status. -/
def HandlerEnds (stepId : String) (during : GateState)
    (outcome : Except (Raised String) (Option Dict))
    (after : GateState) : Prop :=
  match outcome with
  | .error (.stepActionPrepared _) =>
      ∃ left, after = (during.setStep stepId left).note [.prepared stepId left]
  | _ => after = during

/-- The tools and the epilogue act through the host's own actions, not by
themselves. -/
def storeRules : HostRules :=
  ⟨fun _ host => (.completed none, host), fun _ host => host⟩

/-- One call, once the host has acted.  Store calls succeed; handlers, the hook and
the consumer end in any way.  A step object says what it said when it was answered, or,
where it is live, what its row says by now. -/
def GateState.Serves (state : GateState) (op : EngineOp String)
    (answer : Except (Raised String) op.Res) (after : GateState) : Prop :=
  match op, answer with
  | .handle _ step, outcome =>
      ∃ during, HostMoves (state.note [.dispatched step]) during ∧
        HandlerEnds step.id during outcome after
  | .currentType step, answer => after = state ∧
      (answer = .ok step.type ∨ answer = .ok (state.host.rows step.id).type)
  | .currentTitle step, answer => after = state ∧
      (answer = .ok step.title ∨ answer = .ok (state.host.rows step.id).title)
  | .currentStatus step, answer => after = state ∧
      (answer = .ok step.status ∨ answer = .ok (state.host.rows step.id).status)
  | op, answer => ∃ clock,
      after = ⟨(storeRules.respond clock op state.host).2,
        state.trail ++ GateState.entriesOf state.host op⟩ ∧
      (¬ op.LeavesStore → answer = (storeRules.respond clock op state.host).1)

/-- Drives of a run whose host may act at every call. -/
def gateWorld : World (engineSignature String) (Raised String) GateState where
  serve state op answer after := ∃ middle, HostMoves state middle ∧ middle.Serves op answer after

/-- The histories of sequential drives and host actions, by the states they reach. -/
inductive Reachable (start : GateState) : GateState → Prop where
  | start : Reachable start start
  | acted {state after : GateState} :
      Reachable start state → HostStep state after → Reachable start after
  | driven {state after : GateState} {registry : ToolRegistry} {run : RunView String}
      {hooked : Bool} {fuel : Nat} {outcome : Except (Raised String) (Option Unit)} :
      Reachable start state → run.id = state.host.run.id →
      Runs gateWorld (executeRunEvents registry run hooked fuel) state outcome after →
      Reachable start after

/-! ## What single calls do -/

/-- A status in which a step is dispatched without passing the approval gate. -/
def StepStatus.Open (status : StepStatus) : Prop :=
  status = .approved ∨ status = .running

/-- Every operation but a handler call and the writes that open a step. -/
def OffGate : EngineOp String → Prop
  | .handle _ _ => False
  | .setStepState _ status _ _ => ¬ status.Open
  | _ => True

/-- The entry says nothing new about a step. -/
def GateEntry.Neutral (host : HostState) : GateEntry → Prop
  | .runRead run => run = host.run
  | .selected _ => True
  | .granted _ _ => True
  | _ => False

/-- No step is opened and nothing is dispatched between two states. -/
structure Quietly (state after : GateState) : Prop where
  order : after.host.order = state.host.order
  runId : after.host.run.id = state.host.run.id
  policy : after.host.run.approvalPolicy = state.host.run.approvalPolicy
  type : ∀ stepId, (after.host.rows stepId).type = (state.host.rows stepId).type
  status : ∀ stepId, (after.host.rows stepId).status = (state.host.rows stepId).status ∨
    ¬ (after.host.rows stepId).status.Open
  trail : ∃ entries, after.trail = state.trail ++ entries ∧
    ∀ entry ∈ entries, entry.Neutral state.host

theorem quietly_of_rows {state : GateState} {host : HostState} {entries : List GateEntry}
    (order : host.order = state.host.order) (rows : host.rows = state.host.rows)
    (runId : host.run.id = state.host.run.id)
    (policy : host.run.approvalPolicy = state.host.run.approvalPolicy)
    (neutral : ∀ entry ∈ entries, entry.Neutral state.host) :
    Quietly state ⟨host, state.trail ++ entries⟩ where
  order := order
  runId := runId
  policy := policy
  type stepId := by rw [rows]
  status stepId := by rw [rows]; exact .inl rfl
  trail := ⟨entries, rfl, neutral⟩

theorem quietly_of_same (state : GateState) : Quietly state state where
  order := rfl
  runId := rfl
  policy := rfl
  type _ := rfl
  status _ := .inl rfl
  trail := ⟨[], (List.append_nil _).symm, fun _ member => absurd member List.not_mem_nil⟩

theorem entriesOf_neutral (host : HostState) (op : EngineOp String) (offGate : OffGate op) :
    ∀ entry ∈ GateState.entriesOf host op, entry.Neutral host := by
  intro entry member
  cases op with
  | getRun runId =>
      rw [GateState.entriesOf] at member
      split at member
      · rw [List.mem_singleton.mp member]
        rfl
      · cases member
  | getSteps runId =>
      rw [GateState.entriesOf, Option.mem_toList, Option.map_eq_some_iff] at member
      obtain ⟨step, _, equal⟩ := member
      rw [← equal]
      trivial
  | setStepState stepId status error outputRefs =>
      cases status with
      | approved => exact absurd (.inl rfl) offGate
      | running => exact absurd (.inr rfl) offGate
      | _ => cases member
  | appendEvent runId type stepId payload commit =>
      cases type with
      | approvalGranted =>
          rw [List.mem_singleton.mp member]
          trivial
      | _ => cases member
  | handle _ _ => cases member
  | _ => cases member

theorem GateState.Serves.quietly {state after : GateState} {op : EngineOp String}
    {answer : Except (Raised String) op.Res} (served : state.Serves op answer after)
    (offGate : OffGate op) : Quietly state after := by
  have neutral := entriesOf_neutral state.host op offGate
  cases op with
  | handle _ _ => exact offGate.elim
  | currentType step =>
      rw [served.1]
      exact quietly_of_same state
  | currentTitle step =>
      rw [served.1]
      exact quietly_of_same state
  | currentStatus step =>
      rw [served.1]
      exact quietly_of_same state
  | setStepState stepId status error outputRefs =>
      obtain ⟨clock, equal, _⟩ := served
      rw [equal]
      refine ⟨rfl, rfl, rfl, ?_, ?_, _, rfl, neutral⟩
      · intro other
        by_cases same : other = stepId
        · subst same
          simp [HostRules.respond, HostState.setRow, StepRow.transition]
        · simp [HostRules.respond, HostState.setRow, same]
      · intro other
        by_cases same : other = stepId
        · subst same
          have closed : ¬ status.Open := offGate
          right
          simpa [HostRules.respond, HostState.setRow, StepRow.transition] using closed
        · left
          simp [HostRules.respond, HostState.setRow, same]
  | _ =>
      obtain ⟨clock, equal, _⟩ := served
      rw [equal]
      exact quietly_of_rows rfl rfl rfl rfl neutral

/-- The engine opens a step. -/
structure Opens (stepId : String) (status : StepStatus) (state after : GateState) : Prop where
  order : after.host.order = state.host.order
  runId : after.host.run.id = state.host.run.id
  policy : after.host.run.approvalPolicy = state.host.run.approvalPolicy
  type : ∀ other, (after.host.rows other).type = (state.host.rows other).type
  rows : ∀ other, other ≠ stepId → after.host.rows other = state.host.rows other
  trail : after.trail = state.trail ++ [.entered stepId status]

theorem GateState.Serves.opens {state after : GateState} {stepId : String} {status : StepStatus}
    {error : Given (Option String)} {outputRefs : Given (Option Dict)}
    {answer : Except (Raised String) (StepView String)} (opening : status.Open)
    (served : state.Serves (.setStepState stepId status error outputRefs) answer after) :
    Opens stepId status state after := by
  obtain ⟨clock, equal, _⟩ := served
  rw [equal]
  refine ⟨rfl, rfl, rfl, ?_, ?_, ?_⟩
  · intro other
    by_cases same : other = stepId
    · subst same
      simp [HostRules.respond, HostState.setRow, StepRow.transition]
    · simp [HostRules.respond, HostState.setRow, same]
  · intro other different
    simp [HostRules.respond, HostState.setRow, different]
  · cases opening with
    | inl approved =>
        subst approved
        rfl
    | inr running =>
        subst running
        rfl

/-- A step of the plan, of the type it was read with. -/
structure InPlan (step : StepView String) (state : GateState) : Prop where
  listed : step.id ∈ state.host.order
  type : (state.host.rows step.id).type = step.type

theorem Quietly.inPlan {step : StepView String} {state after : GateState}
    (quietly : Quietly state after) (listed : InPlan step state) : InPlan step after where
  listed := by rw [quietly.order]; exact listed.listed
  type := by rw [quietly.type]; exact listed.type

theorem Opens.inPlan {step : StepView String} {stepId : String} {status : StepStatus}
    {state after : GateState} (opens : Opens stepId status state after)
    (listed : InPlan step state) : InPlan step after where
  listed := by rw [opens.order]; exact listed.listed
  type := by rw [opens.type]; exact listed.type

theorem setStep_inPlan {step : StepView String} {state : GateState} (stepId : String)
    (status : StepStatus) (entries : List GateEntry) (listed : InPlan step state) :
    InPlan step ((state.setStep stepId status).note entries) where
  listed := listed.listed
  type := by
    by_cases same : step.id = stepId
    · rw [← listed.type, same]
      simp [GateState.note, GateState.setStep, HostState.setRow]
    · rw [← listed.type]
      simp [GateState.note, GateState.setStep, HostState.setRow, same]

/-- The host drops no step and changes no type. -/
theorem HostStep.inPlan {step : StepView String} {state after : GateState}
    (acts : HostStep state after) (listed : InPlan step state) : InPlan step after := by
  cases acts with
  | changeRun run sameId policy => exact ⟨listed.listed, listed.type⟩
  | writeStep stepId status => exact setStep_inPlan stepId status _ listed
  | addStep stepId row new =>
      have different : step.id ≠ stepId := by
        intro same
        rw [← same] at new
        exact new listed.listed
      refine ⟨List.mem_append_left _ listed.listed, ?_⟩
      rw [← listed.type]
      simp [GateState.note, HostState.setRow, different]
  | appendEvent entry => exact ⟨listed.listed, listed.type⟩

theorem HostStep.runId {state after : GateState} (acts : HostStep state after) :
    after.host.run.id = state.host.run.id := by
  cases acts with
  | changeRun run sameId policy => exact sameId
  | _ => rfl

/-- What a pass has read stands while the host acts. -/
theorem HostStep.reading {state after : GateState} (acts : HostStep state after) :
    readingOf after.trail = readingOf state.trail := by
  cases acts <;> simp [GateState.note, GateState.setStep, Reading.see]

/-! ## Laws of histories -/

/-- What an invariant of histories needs of single steps.  `Ready` says that a step may
be opened, `Entered` that it has been and may be dispatched. -/
structure GateLaw (Inv : GateState → Prop) (Ready Entered : StepView String → GateState → Prop) :
    Prop where
  acts : ∀ {state after}, HostStep state after → Inv state → Inv after
  readyActs : ∀ {step state after}, HostStep state after → Ready step state → Ready step after
  enteredActs : ∀ {step state after}, HostStep state after → Entered step state →
    Entered step after
  quiet : ∀ {state after}, Quietly state after → Inv state → Inv after
  enteredQuiet : ∀ {step state after}, Quietly state after → Entered step state →
    Entered step after
  /-- A step just listed as approved or running may be opened. -/
  past : ∀ {step state front}, Inv state → InPlan step state →
    state.trail = front ++ [.selected step] →
    (state.host.rows step.id).status = step.status → step.status.Open → Ready step state
  readyOf : ∀ {step state}, Entered step state → Ready step state
  opens : ∀ {step status state after}, status.Open → Opens step.id status state after →
    Inv state → InPlan step state → Ready step state → Inv after ∧ Entered step after
  dispatches : ∀ {step state}, Inv state → InPlan step state → Entered step state →
    Inv (state.note [.dispatched step])
  prepares : ∀ {step : StepView String} {left state}, Inv state → InPlan step state →
    Inv ((state.setStep step.id left).note [.prepared step.id left])

/-- Between two steps of a drive. -/
structure Held (Inv : GateState → Prop) (runId : String) (state : GateState) : Prop where
  inv : Inv state
  runId : state.host.run.id = runId

/-- While a pass is at a step of which `Known` holds. -/
structure AtStep (Inv : GateState → Prop) (Known : StepView String → GateState → Prop)
    (runId : String) (step : StepView String) (state : GateState) : Prop
    extends Held Inv runId state where
  listed : InPlan step state
  known : Known step state

/-- What is known of a step when it has been selected. -/
def SelectedStep (Ready : StepView String → GateState → Prop) (fresh : RunView String)
    (step : StepView String) (state : GateState) : Prop :=
  readingOf state.trail = ⟨some fresh, some step⟩ ∧ (step.status.Open → Ready step state)

/-- The approval gate lets a step through only when it may be opened. -/
def Clears (Inv : GateState → Prop) (Ready : StepView String → GateState → Prop) : Prop :=
  ∀ {runId : String} {run fresh : RunView String} {step : StepView String} {state : GateState},
    AtStep Inv (SelectedStep Ready fresh) runId step state → step.status.Gated →
    (gateDecision fresh step).stop = false →
    wp gateWorld (fun _ _ => True) (recordApproval run fresh.approvalPolicy step
      (gateDecision fresh step) (normalizePreapproved fresh.preapprovedTools))
      (fun _ => AtStep Inv Ready runId step) (fun _ => Held Inv runId) state

section Law

variable {Inv : GateState → Prop} {Ready Entered Known : StepView String → GateState → Prop}
  {runId : String} {step : StepView String} {run fresh : RunView String}

theorem Held.moves (law : GateLaw Inv Ready Entered) {state after : GateState}
    (moves : HostMoves state after) (held : Held Inv runId state) : Held Inv runId after := by
  induction moves with
  | refl => exact held
  | tail _ acts ih => exact ⟨law.acts acts ih.inv, by rw [acts.runId]; exact ih.runId⟩

theorem AtStep.moves (law : GateLaw Inv Ready Entered)
    (knownActs : ∀ {state after}, HostStep state after → Known step state → Known step after)
    {state after : GateState} (moves : HostMoves state after)
    (atStep : AtStep Inv Known runId step state) : AtStep Inv Known runId step after := by
  refine ⟨atStep.toHeld.moves law moves, ?_, ?_⟩
  · induction moves with
    | refl => exact atStep.listed
    | tail _ acts ih => exact acts.inPlan ih
  · induction moves with
    | refl => exact atStep.known
    | tail _ acts ih => exact knownActs acts ih

theorem selectedStep_acts (law : GateLaw Inv Ready Entered) {state after : GateState}
    (acts : HostStep state after) (selected : SelectedStep Ready fresh step state) :
    SelectedStep Ready fresh step after := by
  refine ⟨?_, fun opened => law.readyActs acts (selected.2 opened)⟩
  rw [acts.reading]
  exact selected.1

/-- One call, after the host has acted. -/
theorem wp_gate_call {op : EngineOp String} {before : GateState → Prop}
    {onReturn : op.Res → GateState → Prop} {onRaise : Raised String → GateState → Prop}
    {state : GateState} (moved : ∀ middle, HostMoves state middle → before middle)
    (returns : ∀ middle result after, before middle → middle.Serves op (.ok result) after →
      onReturn result after)
    (raises : ∀ middle error after, before middle → middle.Serves op (.error error) after →
      onRaise error after) :
    wp gateWorld (fun _ _ => True) (@Program.perform (engineSignature String) _ op) onReturn
      onRaise state := by
  rw [wp_perform]
  refine ⟨trivial, ?_, ?_⟩
  · intro result after ⟨middle, moves, served⟩
    exact returns middle result after (moved middle moves) served
  · intro error after ⟨middle, moves, served⟩
    exact raises middle error after (moved middle moves) served

theorem Held.quietly (law : GateLaw Inv Ready Entered) {state after : GateState}
    (quietly : Quietly state after) (held : Held Inv runId state) : Held Inv runId after :=
  ⟨law.quiet quietly held.inv, by rw [quietly.runId]; exact held.runId⟩

/-- Engine code that opens no step and calls no handler. -/
theorem wp_held (law : GateLaw Inv Ready Entered) {α : Type} {program : Engine String α}
    (propagates : program.Propagates OffGate) {state : GateState}
    (held : Held Inv runId state) :
    wp gateWorld (fun _ _ => True) program (fun _ => Held Inv runId) (fun _ => Held Inv runId)
      state := by
  apply wp_propagates (Held Inv runId) ?_ ?_ propagates held
  · intro state op offGate held
    refine ⟨trivial, ?_, ?_⟩
    · intro result after ⟨middle, moves, served⟩
      exact (held.moves law moves).quietly law (served.quietly offGate)
    · intro error after ⟨middle, moves, served⟩
      exact (held.moves law moves).quietly law (served.quietly offGate)
  · intro error state held
    exact held

theorem AtStep.quietly (law : GateLaw Inv Ready Entered) {state after : GateState}
    (quietly : Quietly state after) (entered : AtStep Inv Entered runId step state) :
    AtStep Inv Entered runId step after :=
  ⟨entered.toHeld.quietly law quietly, quietly.inPlan entered.listed,
    law.enteredQuiet quietly entered.known⟩

/-- Engine code that opens no step and calls no handler, at an opened step. -/
theorem wp_entered (law : GateLaw Inv Ready Entered) {α : Type} {program : Engine String α}
    (propagates : program.Propagates OffGate) {state : GateState}
    (entered : AtStep Inv Entered runId step state) :
    wp gateWorld (fun _ _ => True) program (fun _ => AtStep Inv Entered runId step)
      (fun _ => Held Inv runId) state := by
  have kept : ∀ {op : EngineOp String} {state after : GateState}
      {answer : Except (Raised String) op.Res}, OffGate op →
      AtStep Inv Entered runId step state → gateWorld.serve state op answer after →
      AtStep Inv Entered runId step after := by
    intro op state after answer offGate entered ⟨middle, moves, served⟩
    exact (entered.moves law law.enteredActs moves).quietly law (served.quietly offGate)
  apply wp_propagates (AtStep Inv Entered runId step) ?_ ?_ propagates entered
  · intro state op offGate entered
    refine ⟨trivial, ?_, ?_⟩
    · intro result after served
      exact kept offGate entered served
    · intro error after served
      exact (kept offGate entered served).toHeld
  · intro error state entered
    exact entered.toHeld

/-- A step says the type it was listed with, whether it is live or not. -/
theorem wp_entered_currentType (law : GateLaw Inv Ready Entered) {state : GateState}
    (entered : AtStep Inv Entered runId step state) :
    wp gateWorld (fun _ _ => True) (currentType step)
      (fun stepType after => stepType = step.type ∧ AtStep Inv Entered runId step after)
      (fun _ => Held Inv runId) state := by
  apply wp_gate_call (fun middle moves => entered.moves law law.enteredActs moves)
  · intro middle stepType after entered served
    rw [served.1]
    refine ⟨?_, entered⟩
    rcases served.2 with asked | now
    · exact Except.ok.inj asked
    · rw [Except.ok.inj now]
      exact entered.listed.type
  · intro middle error after entered served
    rcases served.2 with asked | now
    · cases asked
    · cases now

/-- The write that opens a step. -/
theorem wp_opens_step (law : GateLaw Inv Ready Entered) {status : StepStatus}
    (opening : status.Open)
    {error : Given (Option String)} {outputRefs : Given (Option Dict)} {state : GateState}
    (ready : AtStep Inv Ready runId step state) :
    wp gateWorld (fun _ _ => True) (setStepState step.id status error outputRefs)
      (fun _ => AtStep Inv Entered runId step) (fun _ => Held Inv runId) state := by
  have opened : ∀ middle answer after, AtStep Inv Ready runId step middle →
      middle.Serves (.setStepState step.id status error outputRefs) answer after →
      AtStep Inv Entered runId step after := by
    intro middle answer after ready served
    have opens := served.opens opening
    obtain ⟨inv, entered⟩ := law.opens opening opens ready.inv ready.listed ready.known
    refine ⟨⟨inv, ?_⟩, opens.inPlan ready.listed, entered⟩
    rw [opens.runId]
    exact ready.runId
  apply wp_gate_call (fun middle moves => ready.moves law law.readyActs moves)
  · intro middle row after ready served
    exact opened middle (.ok row) after ready served
  · intro middle error after ready served
    exact (opened middle (.error error) after ready served).toHeld

/-- A dispatched handler leaves the invariant, however it ends. -/
theorem Held.handled (law : GateLaw Inv Ready Entered) {state after : GateState}
    {outcome : Except (Raised String) (Option Dict)}
    (entered : AtStep Inv Entered runId step state)
    (served : state.Serves (.handle run step) outcome after) : Held Inv runId after := by
  obtain ⟨during, moves, ends⟩ := served
  have dispatched : Held Inv runId (state.note [.dispatched step]) :=
    ⟨law.dispatches entered.inv entered.listed entered.known, entered.runId⟩
  have held : Held Inv runId during := dispatched.moves law moves
  have listed : InPlan step during := by
    have noted : InPlan step (state.note [.dispatched step]) :=
      ⟨entered.listed.listed, entered.listed.type⟩
    clear dispatched held ends
    induction moves with
    | refl => exact noted
    | tail _ acts ih => exact acts.inPlan ih
  unfold HandlerEnds at ends
  split at ends
  · obtain ⟨left, equal⟩ := ends
    rw [equal]
    exact ⟨law.prepares held.inv listed, held.runId⟩
  · rw [ends]
    exact held

theorem offGate_drain : AllowsDrain OffGate runId :=
  ⟨fun _ => trivial, fun _ => trivial⟩

theorem offGate_transition {stepId : String} {status : StepStatus} {type : EventType}
    (closed : ¬ status.Open) : AllowsTransition OffGate runId stepId status type :=
  ⟨fun _ _ => closed, fun _ => trivial⟩

theorem offGate_settling {stepId : String} : AllowsSettling OffGate runId stepId where
  completes := offGate_transition (by simp [StepStatus.Open])
  fails := offGate_transition (by simp [StepStatus.Open])
  skips := offGate_transition (by simp [StepStatus.Open])
  rereads := trivial
  rollsBack := trivial
  readsType _ := trivial

theorem offGate_failing : AllowsFailing OffGate run :=
  ⟨fun _ => trivial, trivial, trivial⟩

/-- The budget gate asks for nothing else. -/
def AsksClock (op : EngineOp String) : Prop :=
  op = .now

theorem GateState.Serves.clock {state after : GateState} {op : EngineOp String}
    {answer : Except (Raised String) op.Res} (served : state.Serves op answer after)
    (asks : AsksClock op) : after = state := by
  cases op with
  | now =>
      obtain ⟨clock, equal, _⟩ := served
      rw [equal]
      simp [GateState.entriesOf, HostRules.respond]
  | _ => cases asks

/-! ## Passes -/

theorem wp_held_dispatchStep (law : GateLaw Inv Ready Entered) (registry : ToolRegistry)
    (hooked : Bool) (cursor : Int) {state : GateState}
    (ready : AtStep Inv Ready runId step state) :
    wp gateWorld (fun _ _ => True) (dispatchStep registry run hooked step cursor)
      (fun _ => Held Inv runId) (fun _ => Held Inv runId) state := by
  have ran : wp gateWorld (fun _ _ => True) (runStep registry run step)
      (fun _ => Held Inv runId) (fun _ => Held Inv runId) state := by
    apply wp_runStep_of (wp_opens_step law (.inr rfl) ready)
    · intro opened entered
      exact wp_entered law (currentType_propagates trivial) entered
    · intro startedType shown entered
      exact wp_entered law (appendEvent_propagates trivial) entered
    · intro started entered
      exact wp_entered_currentType law entered
    · intro stepType typed _ ⟨_, entered⟩
      exact wp_held law (failStep_propagates offGate_settling.fails _ _) entered.toHeld
    · intro stepType typed _ ⟨same, entered⟩
      subst same
      refine ⟨trivial, ?_⟩
      intro outcome after ⟨middle, moves, served⟩
      apply wp_held law (settleStep_propagates offGate_settling outcome)
      exact Held.handled law (entered.moves law law.enteredActs moves) served
  apply wp_dispatchStep_of ran
  · intro ran after held
    exact wp_held law (drain_propagates offGate_drain cursor) held
  · intro ran reached after held
    exact wp_held law (currentStatus_propagates trivial) held
  · intro ran reached after held
    exact held
  · intro ran reached after held
    exact wp_held law (failRun_propagates offGate_failing hooked ran.id) held
  · intro reached after held
    exact wp_held law (drainAndReturn_propagates offGate_drain reached) held
  · intro ran reached status after _ _ held
    exact held

theorem wp_held_approvalGate (law : GateLaw Inv Ready Entered) (clears : Clears Inv Ready)
    (registry : ToolRegistry)
    (hooked : Bool) (live : step.status.Waiting ∨ step.status = .running) (cursor : Int)
    {state : GateState} (selected : AtStep Inv (SelectedStep Ready fresh) runId step state) :
    wp gateWorld (fun _ _ => True) (approvalGate registry run hooked fresh step cursor)
      (fun _ => Held Inv runId) (fun _ => Held Inv runId) state := by
  apply wp_approvalGate_of ?_ (clears selected)
  · intro notGated
    refine ⟨selected.toHeld, selected.listed, selected.known.2 ?_⟩
    cases live with
    | inl waiting =>
        rcases waiting with pending | awaiting | approved
        · exact absurd (.inl pending) notGated
        · exact absurd (.inr awaiting) notGated
        · exact .inl approved
    | inr running => exact .inr running
  · intro cleared ready
    exact wp_held_dispatchStep law registry hooked cursor ready
  · intro _ _
    apply wp_held law ?_ selected.toHeld
    exact stopAtGate_propagates
      ⟨offGate_transition (by simp [StepStatus.Open]), fun _ => trivial⟩ trivial
      offGate_drain _ _

theorem wp_held_visitStep (law : GateLaw Inv Ready Entered) (clears : Clears Inv Ready)
    {steps : List (StepView String)} (registry : ToolRegistry) (hooked : Bool) (driveStarted : ℚ)
    (chosen : firstUnfinished steps = some step) (cursor : Int) {state : GateState}
    (selected : AtStep Inv (SelectedStep Ready fresh) runId step state) :
    wp gateWorld (fun _ _ => True)
      (visitStep registry run hooked driveStarted fresh steps step cursor)
      (fun _ => Held Inv runId) (fun _ => Held Inv runId) state := by
  apply wp_visitStep_of chosen
  · intro text unlisted _
    exact selected.toHeld
  · intro _
    exact wp_held law (foundFailed_propagates offGate_failing offGate_drain hooked _ _)
      selected.toHeld
  · intro reason _ _
    exact selected.toHeld
  · intro reason _ _
    apply wp_held law ?_ selected.toHeld
    apply Propagates.bind
    · exact skipStep_propagates offGate_settling.skips step.type reason
    · intro _
      exact drainAndContinue_propagates offGate_drain cursor
  · intro live _
    have checked : wp gateWorld (fun _ _ => True)
        (budgetExhaustedReason fresh steps driveStarted)
        (fun _ => AtStep Inv (SelectedStep Ready fresh) runId step) (fun _ => Held Inv runId)
        state := by
      have clock : AsksClock .now := rfl
      have asks := budgetExhaustedReason_propagates clock fresh steps driveStarted
      apply wp_propagates (AtStep Inv (SelectedStep Ready fresh) runId step) ?_ ?_ asks selected
      · intro state op clock selected
        refine ⟨trivial, ?_, ?_⟩
        · intro result after ⟨middle, moves, served⟩
          rw [served.clock clock]
          exact selected.moves law (selectedStep_acts law) moves
        · intro error after ⟨middle, moves, served⟩
          rw [served.clock clock]
          exact (selected.moves law (selectedStep_acts law) moves).toHeld
      · intro error state selected
        exact selected.toHeld
    apply wp_budgetGate_of checked
    · intro reason after selected
      apply wp_held law ?_ selected.toHeld
      exact pauseForBudget_propagates ⟨fun _ => trivial, trivial, fun _ => trivial⟩
        offGate_drain reason cursor
    · intro after selected
      exact wp_held_approvalGate law clears registry hooked live cursor selected

/-- The run as read, while no step is selected. -/
def RunReread (Inv : GateState → Prop) (runId : String) (current : Option (RunView String))
    (state : GateState) : Prop :=
  Held Inv runId state ∧ ∃ fresh, current = some fresh ∧ (readingOf state.trail).run = some fresh

theorem wp_reread_run (law : GateLaw Inv Ready Entered) {state : GateState}
    (held : Held Inv run.id state) :
    wp gateWorld (fun _ _ => True) (getRun run.id) (RunReread Inv run.id)
      (fun _ => Held Inv run.id) state := by
  apply wp_gate_call (fun middle moves => held.moves law moves)
  · intro middle current after held served
    refine ⟨held.quietly law (served.quietly trivial), middle.host.run, ?_⟩
    obtain ⟨clock, equal, answered⟩ := served
    have found : some middle.host.run = current := by
      have answer := answered id
      rw [HostRules.respond, if_pos held.runId.symm] at answer
      exact (Except.ok.inj answer).symm
    refine ⟨found.symm, ?_⟩
    rw [equal, GateState.entriesOf, if_pos held.runId.symm]
    simp [Reading.see]
  · intro middle error after held served
    exact held.quietly law (served.quietly trivial)

/-- Listing the steps selects the first unfinished one. -/
theorem wp_list_steps (law : GateLaw Inv Ready Entered) {current : Option (RunView String)}
    {state : GateState} (reread : RunReread Inv runId current state) :
    wp gateWorld (fun _ _ => True) (getSteps runId)
      (fun steps after => Held Inv runId after ∧ ∃ fresh, current = some fresh ∧
        ∀ step, firstUnfinished steps = some step →
          AtStep Inv (SelectedStep Ready fresh) runId step after)
      (fun _ => Held Inv runId) state := by
  have moved : ∀ middle, HostMoves state middle → RunReread Inv runId current middle := by
    intro middle moves
    obtain ⟨held, fresh, found, reading⟩ := reread
    refine ⟨held.moves law moves, fresh, found, ?_⟩
    clear held
    induction moves with
    | refl => exact reading
    | tail _ acts ih => rw [acts.reading]; exact ih
  apply wp_gate_call moved
  · intro middle steps after reread served
    obtain ⟨held, fresh, found, reading⟩ := reread
    have heldAfter := held.quietly law (served.quietly trivial)
    refine ⟨heldAfter, fresh, found, ?_⟩
    intro step chosen
    obtain ⟨clock, equal, answered⟩ := served
    have listing : steps = middle.host.steps := Except.ok.inj (answered id)
    have member : step ∈ middle.host.steps := by
      rw [← listing]
      exact firstUnfinished_mem chosen
    obtain ⟨stepId, inOrder, view⟩ := List.mem_map.mp member
    have sameHost : after.host = middle.host := by
      rw [equal]
      rfl
    have listed : InPlan step after := by
      constructor
      · rw [sameHost, ← view]
        exact inOrder
      · rw [sameHost, ← view]
        rfl
    have status : (after.host.rows step.id).status = step.status := by
      rw [sameHost, ← view]
      rfl
    rw [listing] at chosen
    have trail : after.trail = middle.trail ++ [.selected step] := by
      rw [equal, GateState.entriesOf, chosen]
      rfl
    refine ⟨heldAfter, listed, ?_, law.past heldAfter.inv listed trail status⟩
    rw [trail]
    simp [Reading.see, reading]
  · intro middle error after reread served
    exact reread.1.quietly law (served.quietly trivial)

theorem wp_held_loopPass (law : GateLaw Inv Ready Entered) (clears : Clears Inv Ready)
    (registry : ToolRegistry) (hooked : Bool) (driveStarted : ℚ) (cursor : Int)
    {state : GateState} (held : Held Inv run.id state) :
    wp gateWorld (fun _ _ => True) (loopPass registry run hooked driveStarted cursor)
      (PassEnd (fun _ => Held Inv run.id) (Held Inv run.id) fun _ => Held Inv run.id)
      (fun _ => Held Inv run.id) state := by
  have visited : ∀ {program : Engine String (Option Int)} {state : GateState},
      wp gateWorld (fun _ _ => True) program (fun _ => Held Inv run.id)
        (fun _ => Held Inv run.id) state →
      wp gateWorld (fun _ _ => True) program
        (VisitEnd (fun _ => Held Inv run.id) (Held Inv run.id)) (fun _ => Held Inv run.id)
        state := by
    intro program state ends
    apply wp_post ends
    intro next after held
    cases next with
    | none => exact held
    | some cursor => exact held
  apply wp_loopPass_of (fun current steps after => Held Inv run.id after ∧
    ∃ fresh, current = some fresh ∧ ∀ step, firstUnfinished steps = some step →
      AtStep Inv (SelectedStep Ready fresh) run.id step after) (wp_reread_run law held)
  · intro current after _ reread
    exact visited (wp_held law (drainAndReturn_propagates offGate_drain cursor) reread.1)
  · intro current after _ reread
    exact wp_list_steps law reread
  · intro current steps after _ known
    exact known.1
  · intro current steps step after _ chosen known
    obtain ⟨_, fresh, found, selects⟩ := known
    rw [found]
    exact visited (wp_held_visitStep law clears registry hooked driveStarted chosen cursor
      (selects step chosen))

theorem wp_held_executeRunEvents (law : GateLaw Inv Ready Entered) (clears : Clears Inv Ready)
    (registry : ToolRegistry) (hooked : Bool) (fuel : Nat) {state : GateState}
    (held : Held Inv run.id state) :
    wp gateWorld (fun _ _ => True) (executeRunEvents registry run hooked fuel)
      (fun _ => Held Inv run.id) (fun _ => Held Inv run.id) state := by
  apply wp_executeRunEvents_of (fun _ => Held Inv run.id) (Held Inv run.id)
    (fun _ => Held Inv run.id) (wp_held law (nextSequence_propagates trivial) held)
  · intro next after _ held
    exact held
  · intro next after _ held
    exact wp_held law (setRunStatus_propagates trivial) held
  · intro next after held
    exact wp_held law (drain_propagates offGate_drain _) held
  · intro cursor after held
    exact wp_held law (now_propagates trivial) held
  · intro driveStarted cursor after held
    exact wp_held_loopPass law clears registry hooked driveStarted cursor held
  · intro cursor after held
    exact held
  · intro after held
    exact held
  · intro cursor after held
    exact wp_held law (completeRun_propagates trivial ⟨trivial, trivial, trivial⟩ offGate_drain
      hooked cursor) held

/-- A step that may be opened still may be once its approval is recorded. -/
theorem wp_ready_recordApproval (law : GateLaw Inv Ready Entered)
    (policy : Option ApprovalPolicy) (decision : GateDecision) (preapprovedTools : List String)
    {state : GateState} (ready : AtStep Inv Ready runId step state) :
    wp gateWorld (fun _ _ => True) (recordApproval run policy step decision preapprovedTools)
      (fun _ => AtStep Inv Ready runId step) (fun _ => Held Inv runId) state := by
  rw [recordApproval]
  split
  · apply wp_seq (wp_opens_step law (.inl rfl) ready)
    intro _ opened entered
    apply wp_post (wp_entered law (appendEvent_propagates trivial) entered)
    intro _ after entered
    exact ⟨entered.toHeld, entered.listed, law.readyOf entered.known⟩
  · exact ready

/-- An invariant of single steps holds after every history. -/
theorem GateLaw.reachable (law : GateLaw Inv Ready Entered) (clears : Clears Inv Ready)
    {start state : GateState} (initially : Inv start) (reachable : Reachable start state) :
    Inv state := by
  induction reachable with
  | start => exact initially
  | acted _ acts ih => exact law.acts acts ih
  | @driven before after registry run hooked fuel outcome _ sameId runs ih =>
      have held : Held Inv run.id before := ⟨ih, sameId.symm⟩
      have ends := runs.post (wp_held_executeRunEvents law clears registry hooked fuel held)
      cases outcome with
      | ok result => exact ends.inv
      | error error => exact ends.inv

end Law

/-! ## Dispatches of a trail -/

/-- Every dispatch of the trail meets a condition on what came before it. -/
def AtDispatch (condition : List GateEntry → StepView String → Prop) (trail : List GateEntry) :
    Prop :=
  ∀ front step back, trail = front ++ .dispatched step :: back → condition front step

namespace AtDispatch

variable {condition : List GateEntry → StepView String → Prop} {trail entries : List GateEntry}

theorem nil : AtDispatch condition [] := by
  intro front step back split
  simp at split

theorem append (holds : AtDispatch condition trail)
    (others : ∀ step, .dispatched step ∉ entries) : AtDispatch condition (trail ++ entries) := by
  intro front step back split
  rw [List.append_eq_append_iff] at split
  cases split with
  | inl inside =>
      obtain ⟨early, _, equal⟩ := inside
      exact absurd (by rw [equal]; simp) (others step)
  | inr outside =>
      obtain ⟨rest, whole, equal⟩ := outside
      cases rest with
      | nil =>
          have member : .dispatched step ∈ entries := by
            rw [List.nil_append] at equal
            rw [← equal]
            exact List.mem_cons_self
          exact absurd member (others step)
      | cons first rest =>
          simp only [List.cons_append, List.cons.injEq] at equal
          apply holds front step rest
          rw [whole, equal.1]

theorem dispatch {step : StepView String} (holds : AtDispatch condition trail)
    (met : condition trail step) : AtDispatch condition (trail ++ [.dispatched step]) := by
  intro front other back split
  cases List.eq_nil_or_concat back with
  | inl last =>
      rw [last] at split
      obtain ⟨same, entry⟩ := List.append_inj_right' split rfl |> fun tail =>
        And.intro (List.append_inj_left' split rfl) tail
      cases entry
      rw [← same]
      exact met
  | inr more =>
      obtain ⟨rest, final, equal⟩ := more
      rw [equal, List.concat_eq_append, ← List.cons_append, ← List.append_assoc] at split
      exact holds front other rest (List.append_inj_left' split rfl)

end AtDispatch

/-- A host that lets its tools end as given and does nothing else. -/
def GateState.scripted (tool : Except (Raised String) (Option Dict)) (left : StepStatus) :
    (op : EngineOp String) → GateState → Except (Raised String) op.Res × GateState
  | .handle _ step, state =>
      let during := state.note [.dispatched step]
      (tool, match tool with
        | .error (.stepActionPrepared _) =>
            (during.setStep step.id left).note [.prepared step.id left]
        | _ => during)
  | op, state =>
      ((storeRules.respond (fun _ => 0) op state.host).1,
        ⟨(storeRules.respond (fun _ => 0) op state.host).2,
          state.trail ++ GateState.entriesOf state.host op⟩)

/-- Its drives are histories of a gated host. -/
theorem GateState.scripted_runs {tool : Except (Raised String) (Option Dict)} {left : StepStatus}
    {state after : GateState} {program : Engine String (Option Unit)}
    {outcome : Except (Raised String) (Option Unit)}
    (result : program.eval (GateState.scripted tool left) state = (outcome, after)) :
    Runs gateWorld program state outcome after := by
  apply Runs.mono ?_ (runs_ofFn.mpr result)
  intro state op answer after served
  refine ⟨state, .refl, ?_⟩
  have equal : GateState.scripted tool left op state = (answer, after) := served
  cases op with
  | handle run step =>
      cases equal
      refine ⟨_, .refl, ?_⟩
      cases tool with
      | ok outputRefs => rfl
      | error error =>
          cases error with
          | stepActionPrepared message => exact ⟨left, rfl⟩
          | _ => rfl
  | currentType step | currentTitle step | currentStatus step =>
      cases equal
      exact ⟨by simp [GateState.entriesOf, HostRules.respond], .inl rfl⟩
  | _ =>
      cases equal
      exact ⟨_, rfl, fun _ => rfl⟩

/-- A run of one step. -/
def oneStepRun (status : RunStatus) : RunView String :=
  ⟨"run-1", status, some .autoComplete, false, .json (.arr [.str "mcp_tools", .str "web_search"]),
    .null, .null, .json (.arr [.str "web_search"])⟩

/-- Its step. -/
def onlyStep (type : String) (status : StepStatus) : StepView String :=
  ⟨"step-1", type, "Act", status, false⟩

/-- The host before the first drive. -/
def oneStepStart (type : String) (status : StepStatus) : GateState where
  host := .holding (oneStepRun .awaitingApproval)
    [("step-1", ⟨type, "Act", status, false, none, none⟩)]
  trail := []

end SlimxAgent
