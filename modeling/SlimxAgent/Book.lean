import SlimxAgent.Course
import SlimxAgent.Host

/-!
# The books of a run

What the host durably keeps of a run, seen from a drive: the run's status, its steps
in execution order with their statuses, and the event log.  A store that applies every
write is described by what each call does to the book; what the host does on its own
is a parameter, a relation that may act before any call is answered, and another for
what the handlers do.

`HostRules.bookKept` says that a host serving a drive from its rows keeps its book.
-/

namespace SlimxAgent

open Interaction

variable {ι σ : Type}

/-- A run as its host keeps it. -/
structure Book (ι : Type) where
  runStatus : RunStatus
  /-- The steps, in execution order. -/
  order : List ι
  status : ι → StepStatus
  log : List Event

/-- The event says that something of the given type happened, to the step if one is
given. -/
structure Event.Records [HostId ι] (event : Event) (type : EventType) (stepId : Option ι) :
    Prop where
  ofType : event.type = .str type.text
  ofStep : event.agentStepId = .ofOption (fun id => .str (HostId.text id)) stepId

namespace Book

def setRunStatus (book : Book ι) (status : RunStatus) : Book ι :=
  { book with runStatus := status }

def setStatus [DecidableEq ι] (book : Book ι) (stepId : ι) (status : StepStatus) : Book ι :=
  { book with status := Function.update book.status stepId status }

def append (book : Book ι) (event : Event) : Book ι :=
  { book with log := book.log ++ [event] }

/-- What a call writes. -/
def Wrote [HostId ι] [DecidableEq ι] (op : EngineOp ι) (before after : Book ι) : Prop :=
  match op with
  | .setRunStatus _ status => after = before.setRunStatus status
  | .setStepState stepId status _ _ => after = before.setStatus stepId status
  | .appendEvent _ type stepId _ _ =>
      ∃ event : Event, event.Records type stepId ∧ after = before.append event
  | _ => after = before

@[simp] theorem setStatus_self [DecidableEq ι] (book : Book ι) (stepId : ι)
    (status : StepStatus) : (book.setStatus stepId status).status stepId = status :=
  Function.update_self ..

@[simp] theorem setStatus_of_ne [DecidableEq ι] (book : Book ι) {stepId other : ι}
    (distinct : other ≠ stepId) (status : StepStatus) :
    (book.setStatus stepId status).status other = book.status other :=
  Function.update_of_ne distinct ..

@[simp] theorem setStatus_order [DecidableEq ι] (book : Book ι) (stepId : ι)
    (status : StepStatus) : (book.setStatus stepId status).order = book.order := rfl

@[simp] theorem setStatus_runStatus [DecidableEq ι] (book : Book ι) (stepId : ι)
    (status : StepStatus) : (book.setStatus stepId status).runStatus = book.runStatus := rfl

@[simp] theorem setStatus_log [DecidableEq ι] (book : Book ι) (stepId : ι)
    (status : StepStatus) : (book.setStatus stepId status).log = book.log := rfl

/-- The listing shows the book. -/
structure Lists (book : Book ι) (steps : List (StepView ι)) : Prop where
  order : steps.map StepView.id = book.order
  status : ∀ step ∈ steps, step.status = book.status step.id

/-- No call lists or unlists a step. -/
theorem Wrote.order [HostId ι] [DecidableEq ι] {op : EngineOp ι} {before after : Book ι}
    (wrote : Wrote op before after) : after.order = before.order := by
  cases op with
  | appendEvent run type stepId payload commit =>
      rcases wrote with ⟨event, _, rfl⟩
      rfl
  | _ =>
      cases wrote
      rfl

/-- A status changes by a transition of its step. -/
theorem Wrote.status [HostId ι] [DecidableEq ι] {op : EngineOp ι} {before after : Book ι}
    (wrote : Wrote op before after) (stepId : ι) :
    after.status stepId = before.status stepId ∨
      ∃ status error outputRefs, op = .setStepState stepId status error outputRefs ∧
        after.status stepId = status := by
  cases op with
  | setStepState changed status error outputRefs =>
      cases wrote
      by_cases same : stepId = changed
      · subst same
        exact .inr ⟨status, error, outputRefs, rfl, before.setStatus_self ..⟩
      · exact .inl (before.setStatus_of_ne same status)
  | appendEvent run type stepId payload commit =>
      rcases wrote with ⟨event, _, rfl⟩
      exact .inl rfl
  | _ =>
      cases wrote
      exact .inl rfl

/-- The stream writes nothing. -/
theorem Wrote.streamed [HostId ι] [DecidableEq ι] {op : EngineOp ι} {before after : Book ι}
    (wrote : Wrote op before after) {runId : ι} (streams : op.Streams runId) : after = before := by
  cases op <;> first | exact wrote | exact streams.elim

end Book

/-- What a result tells of the book it was answered from. -/
def Book.Answers (book : Book ι) (runId : ι) : (op : EngineOp ι) → op.Res → Prop
  | .getRun id, some current => id = runId → current.status = book.runStatus
  | .getSteps id, steps => id = runId → book.Lists steps
  | .getStep stepId, some row => row.id = stepId ∧ row.status = book.status stepId
  | .setStepState stepId status _ _, row => row.id = stepId ∧ row.status = status
  /- The step object is a live row, or a snapshot. -/
  | .currentStatus step, status => status = book.status step.id ∨ status = step.status
  | _, _ => True

/-- What the host may do while a call is answered. -/
def EngineOp.between (moves handles : Book ι → Book ι → Prop) : EngineOp ι → Book ι → Book ι → Prop
  | .handle _ _ => handles
  | _ => moves

/-- A store of the run that applies every write.  Before a call is answered the host may
change its book by `moves`, and during a handler by `handles`.  Only calls that leave the
store may raise. -/
structure BookKept [HostId ι] [DecidableEq ι] (world : World (engineSignature ι) (Raised ι) σ)
    (run : RunView ι) (book : σ → Book ι) (moves handles : Book ι → Book ι → Prop) : Prop where
  succeeds : ∀ {state op error after}, world.serve state op (.error error) after →
    op.LeavesStore
  served : ∀ {state op answer after}, world.serve state op answer after →
    ∃ moved, op.between moves handles (book state) moved ∧ Book.Wrote op moved (book after)
  answers : ∀ {state op result after}, world.serve state op (.ok result) after →
    (book after).Answers run.id op result

/-- Only the run's id matters. -/
theorem BookKept.of_id [HostId ι] [DecidableEq ι] {world : World (engineSignature ι) (Raised ι) σ}
    {run other : RunView ι} {book : σ → Book ι} {moves handles : Book ι → Book ι → Prop}
    (store : BookKept world run book moves handles) (same : other.id = run.id) :
    BookKept world other book moves handles := by
  refine ⟨store.succeeds, store.served, ?_⟩
  rw [same]
  exact store.answers

/-- Where handlers do what the host may do at any time, every call is alike. -/
theorem BookKept.moved [HostId ι] [DecidableEq ι] {world : World (engineSignature ι) (Raised ι) σ}
    {run : RunView ι} {book : σ → Book ι} {moves : Book ι → Book ι → Prop}
    (store : BookKept world run book moves moves) {state after : σ} {op : EngineOp ι}
    {answer : Except (Raised ι) op.Res} (served : world.serve state op answer after) :
    ∃ moved, moves (book state) moved ∧ Book.Wrote op moved (book after) := by
  rcases store.served served with ⟨moved, host, wrote⟩
  cases op <;> exact ⟨moved, host, wrote⟩

/-- A store under a host that does less. -/
theorem BookKept.mono [HostId ι] [DecidableEq ι] {world : World (engineSignature ι) (Raised ι) σ}
    {run : RunView ι} {book : σ → Book ι} {moves handles wider invokes : Book ι → Book ι → Prop}
    (store : BookKept world run book moves handles)
    (widens : ∀ {before after}, moves before after → wider before after)
    (admits : ∀ {before after}, handles before after → invokes before after) :
    BookKept world run book wider invokes := by
  refine ⟨store.succeeds, ?_, store.answers⟩
  intro state op answer after served
  rcases store.served served with ⟨moved, host, wrote⟩
  refine ⟨moved, ?_, wrote⟩
  cases op with
  | handle handled step => exact admits host
  | _ => exact widens host

/-- Every read of the run finds it so. -/
def ReadsRun (holds : RunView ι → Prop) (history : History (engineSignature ι) (Raised ι) σ) :
    Prop :=
  ∀ before runId current after,
    (⟨before, .getRun runId, .ok (some current), after⟩ :
      Served (engineSignature ι) (Raised ι) σ) ∈ history → holds current

/-- Every listing finds the steps so. -/
def ReadsSteps (holds : StepView ι → Prop)
    (history : History (engineSignature ι) (Raised ι) σ) : Prop :=
  ∀ before runId steps after,
    (⟨before, .getSteps runId, .ok steps, after⟩ :
      Served (engineSignature ι) (Raised ι) σ) ∈ history → ∀ step ∈ steps, holds step

theorem ReadsRun.left {holds : RunView ι → Prop}
    {earlier later : History (engineSignature ι) (Raised ι) σ}
    (reads : ReadsRun holds (earlier ++ later)) : ReadsRun holds earlier :=
  fun before runId current after member =>
    reads before runId current after (List.mem_append_left _ member)

theorem ReadsSteps.left {holds : StepView ι → Prop}
    {earlier later : History (engineSignature ι) (Raised ι) σ}
    (reads : ReadsSteps holds (earlier ++ later)) : ReadsSteps holds earlier :=
  fun before runId steps after member =>
    reads before runId steps after (List.mem_append_left _ member)

/-- A drive of a run to its end, whatever the run object it is given holds. -/
def Drives [HostId ι] (world : World (engineSignature ι) (Raised ι) σ) (runId : ι) (state : σ)
    (calls : History (engineSignature ι) (Raised ι) σ) (last : σ) : Prop :=
  ∃ registry run hooked fuel outcome, run.id = runId ∧
    Runs world.recorded (executeRunEvents registry run hooked fuel) (state, []) outcome
      (last, calls)

/-! ## The step a drive is at -/

/-- The step a stage is at. -/
def Stage.stepId? : Stage ι → Option ι
  | .visiting visit => some visit.step.id
  | .recording visit _ _ => some visit.step.id
  | .parked visit _ => some visit.step.id
  | .cleared visit => some visit.step.id
  | .entered visit _ => some visit.step.id
  | .started visit => some visit.step.id
  | .typed visit _ => some visit.step.id
  | .handled visit _ => some visit.step.id
  | .rolledBack visit _ => some visit.step.id
  | .decided visit _ => some visit.step.id
  | .settled visit _ => some visit.step.id
  | .judged visit _ => some visit.step.id
  | _ => none

/-- The step is listed. -/
def Stage.Listed (stage : Stage ι) (book : Book ι) : Prop :=
  ∀ stepId, stage.stepId? = some stepId → stepId ∈ book.order

theorem Book.Lists.member {book : Book ι} {steps : List (StepView ι)} (lists : book.Lists steps)
    {step : StepView ι} (selected : firstUnfinished steps = some step) : step.id ∈ book.order := by
  rw [← lists.order]
  exact List.mem_map_of_mem (firstUnfinished_mem selected)

theorem Stage.Listed.of_idle {stage : Stage ι} {book : Book ι} (idle : stage.stepId? = none) :
    stage.Listed book := by
  intro stepId here
  rw [idle] at here
  cases here

/-- The step of a drive comes from a listing. -/
theorem Stage.Listed.answered [HostId ι] {registry : ToolRegistry} {run : RunView ι}
    {hooked : Bool} {stage : Stage ι} {book : Book ι} {op : EngineOp ι}
    (listed : stage.Listed book) (asks : Asks registry run stage op) (result : op.Res)
    (answers : book.Answers run.id op result) : (stage.next run hooked op result).Listed book := by
  cases asks with
  | streams streams served =>
      rw [next_streams streams served]
      exact listed
  | rereads turns =>
      rw [next_turns turns]
      exact .of_idle rfl
  | lists ongoing =>
      rename_i current
      change (Stage.listed run current result).Listed book
      rw [Stage.listed]
      cases selected : firstUnfinished result with
      | none => exact .of_idle rfl
      | some step =>
          rintro stepId ⟨⟩
          exact (answers rfl).member selected
  | records =>
      rename_i visit mark row
      cases mark <;> first | exact listed | exact .of_idle rfl
  | failsRun | logsCompletion =>
      intro stepId here
      cases hooked <;> cases here
  | settles =>
      rename_i visit mark
      cases mark <;> exact listed
  | _ => first | exact listed | exact .of_idle rfl

theorem Stage.Listed.raised {stage : Stage ι} {book : Book ι} (listed : stage.Listed book)
    (op : EngineOp ι) (error : Raised ι) : (stage.fail op error).Listed book := by
  cases op with
  | handle handled step => cases stage <;> first | exact listed | exact .of_idle rfl
  | _ => exact .of_idle rfl

/-- No handler prepares an action. -/
def Unprepared (world : World (engineSignature ι) (Raised ι) σ) : Prop :=
  ∀ before handled step message after,
    ¬ world.serve before (.handle handled step) (.error (.stepActionPrepared message)) after

/-! ## Rows in memory keep their book -/

/-- The book of a host in memory. -/
def HostState.book (state : HostState) : Book String where
  runStatus := state.run.status
  order := state.order
  status stepId := (state.rows stepId).status
  log := state.log

theorem HostState.book_setRow (state : HostState) (stepId : String) (row : StepRow) :
    (state.setRow stepId row).book = state.book.setStatus stepId row.status := by
  simp only [HostState.book, HostState.setRow, Book.setStatus, HostState.log, Book.mk.injEq,
    true_and, and_true]
  funext other
  by_cases same : other = stepId <;> simp [same, Function.update]

theorem HostState.book_append (state : HostState) (entry : LogEntry) :
    (state.append entry).book =
      state.book.append (entry.event state.run.id state.nextSequence) := by
  have grown : (state.append entry).log = state.log ++ [entry].mapIdx fun index added =>
      added.event state.run.id (state.nextSequence + index) :=
    HostState.log_extends rfl rfl rfl
  simp only [HostState.book, Book.append, grown]
  rfl

theorem LogEntry.event_records (runId : String) (sequence : Nat) (type : EventType)
    (stepId : Option String) (payload : Option Dict) :
    (LogEntry.event runId sequence ⟨type.text, stepId, payload⟩).Records type stepId := by
  constructor
  · rfl
  · rfl

theorem HostState.book_lists (state : HostState) : state.book.Lists state.steps := by
  constructor
  · simp [HostState.steps, HostState.book, StepRow.view, Function.comp_def]
  · intro step member
    rcases List.mem_map.mp member with ⟨stepId, _, rfl⟩
    rfl

/-- A host that serves a drive from its rows keeps its book: its tools act by `handles`,
its run-end epilogue by `moves`. -/
theorem HostRules.bookKept {rules : HostRules} {clock : HostState → ℚ} {run : RunView String}
    {moves handles : Book String → Book String → Prop} (still : ∀ book, moves book book)
    (invokes : ∀ stepId state, handles state.book (rules.invoke stepId state).2.book)
    (ends : ∀ status state, moves state.book (rules.epilogue status state).book) :
    BookKept (World.ofFn (rules.respond clock)) run HostState.book moves handles where
  succeeds served := HostRules.leavesStore_of_raised served
  served {state op answer after} served := by
    have left : (rules.respond clock op state).2 = after := congrArg Prod.snd served
    subst left
    cases op with
    | setRunStatus run status => exact ⟨_, still _, rfl⟩
    | setStepState stepId status error outputRefs =>
        exact ⟨_, still _, HostState.book_setRow ..⟩
    | appendEvent runId type stepId payload commit =>
        exact ⟨_, still _, _, LogEntry.event_records .., HostState.book_append ..⟩
    | handle run step => exact ⟨_, invokes step.id state, rfl⟩
    | onRunEnd run status =>
        exact ⟨_, ends status { state with runEnds := state.runEnds ++ [status] }, rfl⟩
    | _ => exact ⟨_, still _, rfl⟩
  answers {state op result after} served := by
    have answered : rules.respond clock op state = (.ok result, after) := served
    cases op with
    | getRun runId =>
        simp only [HostRules.respond, Prod.mk.injEq, Except.ok.injEq] at answered
        rcases answered with ⟨rfl, rfl⟩
        by_cases known : runId = state.run.id
        · simp only [known, ↓reduceIte, Book.Answers]
          exact fun _ => rfl
        · simp only [known, ↓reduceIte, Book.Answers]
    | getSteps runId =>
        cases answered
        exact fun _ => state.book_lists
    | getStep stepId =>
        simp only [HostRules.respond, Prod.mk.injEq, Except.ok.injEq] at answered
        rcases answered with ⟨rfl, rfl⟩
        by_cases known : stepId ∈ state.order
        · simp only [known, ↓reduceIte, Book.Answers]
          exact ⟨rfl, rfl⟩
        · simp only [known, ↓reduceIte, Book.Answers]
    | setStepState stepId status error outputRefs =>
        cases answered
        exact ⟨rfl, rfl⟩
    | currentStatus step =>
        cases answered
        exact .inr rfl
    | _ => trivial

/-- What holds of the run, whatever its status, is read as long as the host's own code keeps
it. -/
theorem HostRules.readsRun {rules : HostRules} {clock : HostState → ℚ} {α : Type}
    {holds : RunView String → Prop}
    (still : ∀ run status, holds run → holds { run with status := status })
    (invokes : ∀ stepId state, holds state.run → holds (rules.invoke stepId state).2.run)
    (ends : ∀ status state, holds state.run → holds (rules.epilogue status state).run)
    {program : Engine String α} {outcome : Except (Raised String) α}
    {state last : HostState × History (engineSignature String) (Raised String) HostState}
    (runs : Runs (World.ofFn (rules.respond clock)).recorded program state outcome last)
    (initially : holds state.1.run) (known : ReadsRun holds state.2) :
    ReadsRun holds last.2 := by
  induction runs with
  | done value state => exact known
  | raise error state => exact known
  | @call op next answer state middle last outcome served rest ih =>
      have answered : rules.respond clock op state.1 = (answer, middle.1) := served.1
      apply ih
      · have left : (rules.respond clock op state.1).2 = middle.1 := congrArg Prod.snd answered
        rw [← left]
        cases op with
        | setRunStatus run status => exact still _ _ initially
        | handle run step => exact invokes step.id state.1 initially
        | onRunEnd run status => exact ends status _ initially
        | _ => exact initially
      · rw [served.2]
        intro before runId current after member
        rcases List.mem_append.mp member with earlier | now
        · exact known before runId current after earlier
        · cases List.mem_singleton.mp now
          simp only [HostRules.respond, Prod.mk.injEq, Except.ok.injEq] at answered
          have read := answered.1
          split at read
          · cases read
            exact initially
          · cases read

end SlimxAgent
