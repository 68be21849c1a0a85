import SlimxAgent.Course
import SlimxAgent.Host
import Mathlib.Data.List.Induction

/-!
# Step reports

The events that report a step: what their payloads say of the step's type, and what a
completion carries of the references its handler returned.
-/

namespace SlimxAgent

open Interaction

variable {ι σ : Type}

/-- The events that report the start and the end of a step. -/
def stepReports : List EventType :=
  [.stepStarted, .stepCompleted, .stepFailed, .stepSkipped]

/-! ## What a drive was told last -/

section Told

variable {α : Type}

/-- The last that the calls tell. -/
def lastOf (tells : Served (engineSignature ι) (Raised ι) σ → Option α)
    (history : History (engineSignature ι) (Raised ι) σ) : Option α :=
  history.foldl (fun last call => (tells call).or last) none

theorem lastOf_append (tells : Served (engineSignature ι) (Raised ι) σ → Option α)
    (history : History (engineSignature ι) (Raised ι) σ)
    (call : Served (engineSignature ι) (Raised ι) σ) :
    lastOf tells (history ++ [call]) = (tells call).or (lastOf tells history) :=
  List.foldl_append

theorem lastOf_mem {tells : Served (engineSignature ι) (Raised ι) σ → Option α}
    {history : History (engineSignature ι) (Raised ι) σ} {told : α}
    (last : lastOf tells history = some told) : ∃ call ∈ history, tells call = some told := by
  induction history using List.reverseRecOn with
  | nil => cases last
  | append_singleton history call ih =>
      rw [lastOf_append] at last
      cases here : tells call with
      | none =>
          rw [here] at last
          rcases ih last with ⟨other, member, same⟩
          exact ⟨other, List.mem_append_left _ member, same⟩
      | some given =>
          rw [here] at last
          exact ⟨call, List.mem_append_right _ (.head _), here.trans last⟩

/-- A handler's return: its step, and the references it returned. -/
def returned? (call : Served (engineSignature ι) (Raised ι) σ) : Option (ι × Dict) :=
  match call with
  | ⟨_, .handle _ step, .ok outputRefs, _⟩ => some (step.id, outputRefs.getD [])
  | _ => none

/-- The last handler's return. -/
def lastReturned (history : History (engineSignature ι) (Raised ι) σ) : Option (ι × Dict) :=
  lastOf returned? history

/-- The step of a transition, with the type that its row shows as written. -/
def written? (call : Served (engineSignature ι) (Raised ι) σ) : Option (ι × String) :=
  match call with
  | ⟨_, .setStepState stepId _ _ _, .ok row, _⟩ => some (stepId, row.type)
  | _ => none

/-- The step that the engine has in hand, with the type it reads of it: the one selected of a
listing, or the one asked for again. -/
def inHand? (call : Served (engineSignature ι) (Raised ι) σ) : Option (ι × String) :=
  match call with
  | ⟨_, .getSteps _, .ok steps, _⟩ =>
      (firstUnfinished steps).map fun step => (step.id, step.type)
  | ⟨_, .currentType step, .ok stepType, _⟩ => some (step.id, stepType)
  | _ => none

/-- The last transition's step, with the type of its row. -/
def lastWritten (history : History (engineSignature ι) (Raised ι) σ) : Option (ι × String) :=
  lastOf written? history

/-- The step in hand, with the type read last. -/
def lastInHand (history : History (engineSignature ι) (Raised ι) σ) : Option (ι × String) :=
  lastOf inHand? history

theorem lastReturned_append (history : History (engineSignature ι) (Raised ι) σ)
    (call : Served (engineSignature ι) (Raised ι) σ) :
    lastReturned (history ++ [call]) = (returned? call).or (lastReturned history) :=
  lastOf_append ..

theorem lastWritten_append (history : History (engineSignature ι) (Raised ι) σ)
    (call : Served (engineSignature ι) (Raised ι) σ) :
    lastWritten (history ++ [call]) = (written? call).or (lastWritten history) :=
  lastOf_append ..

theorem lastInHand_append (history : History (engineSignature ι) (Raised ι) σ)
    (call : Served (engineSignature ι) (Raised ι) σ) :
    lastInHand (history ++ [call]) = (inHand? call).or (lastInHand history) :=
  lastOf_append ..

end Told

/-! ## What a stage holds of types -/

/-- The transition is written, and is recorded with the type that was read last. -/
structure RecordedAs (record : History (engineSignature ι) (Raised ι) σ) (step row : StepView ι)
    (stepType : String) : Prop where
  written : lastWritten record = some (step.id, row.type)
  read : lastInHand record = some (step.id, stepType)

/-- Where the type comes from that a mark is recorded with. -/
def Mark.Named (record : History (engineSignature ι) (Raised ι) σ) (step row : StepView ι) :
    Mark → Prop
  | .skips _ => RecordedAs record step row step.type
  | .enters startedType => RecordedAs record step row startedType
  | .completes outputRefs => lastWritten record = some (step.id, row.type) ∧
      lastReturned record = some (step.id, outputRefs.getD [])
  | .fails stepType _ => RecordedAs record step row stepType
  | .drops stepType _ => RecordedAs record step row stepType
  | _ => True

/-- What a stage holds of the types read and written, and of the references returned. -/
def Stage.Names (record : History (engineSignature ι) (Raised ι) σ) : Stage ι → Prop
  | .visiting visit => lastInHand record = some (visit.step.id, visit.step.type)
  | .entered visit row => lastWritten record = some (visit.step.id, row.type)
  | .typed visit stepType => lastInHand record = some (visit.step.id, stepType)
  | .handled visit (.ok outputRefs) =>
      lastReturned record = some (visit.step.id, outputRefs.getD [])
  | .decided visit (.fails stepType _) => lastInHand record = some (visit.step.id, stepType)
  | .decided visit (.drops stepType _) => lastInHand record = some (visit.step.id, stepType)
  | .recording visit mark row => mark.Named record visit.step row
  | _ => True

section Naming

variable [HostId ι] {registry : ToolRegistry} {run : RunView ι} {hooked : Bool} {stage : Stage ι}
  {record : History (engineSignature ι) (Raised ι) σ}

omit [HostId ι] in
theorem names_hooking (status : RunStatus) :
    (Stage.hooking (ι := ι) hooked status).Names record := by
  cases hooked <;> trivial

omit [HostId ι] in
/-- A write shows the row of the step in hand. -/
theorem recordedAs_append {step row : StepView ι} {stepType : String} {status : StepStatus}
    {error : Given (Option String)} {outputRefs : Given (Option Dict)} {before after : σ}
    (read : lastInHand record = some (step.id, stepType)) :
    RecordedAs (record ++ [⟨before, .setStepState step.id status error outputRefs, .ok row, after⟩])
      step row stepType where
  written := by
    rw [lastWritten_append]
    rfl
  read := by
    rw [lastInHand_append]
    exact read

/-- What the handler's exception makes of a step has the type just read. -/
theorem names_markOfRaised {visit : Visit ι} {stepType : String}
    (read : lastInHand record = some (visit.step.id, stepType)) (error : Raised ι) :
    (Stage.decided visit (markOfRaised stepType error)).Names record := by
  cases error <;> exact read

/-- What a stage holds of types is kept by every answer. -/
theorem names_next {op : EngineOp ι} (names : stage.Names record) (sound : stage.Sound)
    (asks : Asks registry run stage op) (before after : σ) (result : op.Res) :
    (stage.next run hooked op result).Names (record ++ [⟨before, op, .ok result, after⟩]) := by
  cases asks with
  | streams streams served =>
      rw [next_streams streams served result]
      cases stage <;> trivial
  | rereads turns =>
      rw [next_turns turns result]
      trivial
  | lists ongoing =>
      rename_i current
      change (Stage.listed run current result).Names _
      cases selected : firstUnfinished result with
      | none =>
          rw [Stage.listed, selected]
          trivial
      | some step =>
          rw [Stage.listed, selected]
          change lastInHand _ = some (step.id, step.type)
          rw [lastInHand_append, inHand?, selected]
          rfl
  | times _ _ =>
      change lastInHand _ = _
      rw [lastInHand_append]
      exact names
  | skips _ _ => exact recordedAs_append names
  | enters _ _ | proceeds =>
      change lastWritten _ = _
      rw [lastWritten_append]
      rfl
  | shows =>
      constructor
      case written =>
        rw [lastWritten_append]
        exact names
      case read =>
        rw [lastInHand_append]
        rfl
  | types =>
      change lastInHand _ = _
      rw [lastInHand_append]
      rfl
  | refuses _ => exact recordedAs_append names
  | handles _ =>
      change lastReturned _ = _
      rw [lastReturned_append]
      rfl
  | completes =>
      change lastWritten _ = _ ∧ lastReturned _ = _
      rw [lastWritten_append, lastReturned_append]
      exact ⟨rfl, names⟩
  | drops | fails | failsBug rollsBack =>
      apply names_markOfRaised
      rw [lastInHand_append]
      rfl
  | settles =>
      rcases sound with ⟨_, _, stepType, message, rfl | rfl⟩ <;> exact recordedAs_append names
  | records =>
      rename_i visit mark row
      cases mark <;> trivial
  | refetches | rollsBack _ => trivial
  | failsRun | logsCompletion => exact names_hooking _
  | _ => trivial

theorem names_fail {op : EngineOp ι} (asks : Asks registry run stage op) (error : Raised ι) :
    (stage.fail op error).Names record := by
  cases op with
  | handle handled step =>
      rcases asks_handle asks with ⟨visit, stepType, rfl, _⟩
      trivial
  | _ => trivial

/-- A step is reported when its transition was written. -/
theorem asks_report {runId : ι} {type : EventType} {stepId : Option ι} {payload : Option Dict}
    {commit : Bool} (report : type ∈ stepReports)
    (asks : Asks registry run stage (.appendEvent runId type stepId payload commit)) :
    ∃ visit mark row, stage = .recording visit mark row ∧ type = mark.event ∧
      stepId = some visit.step.id ∧ payload = some (mark.payload visit.step row) := by
  generalize same : EngineOp.appendEvent runId type stepId payload commit = op at asks
  cases asks with
  | records =>
      cases same
      exact ⟨_, _, _, rfl, rfl, rfl, rfl⟩
  | streams streams served =>
      subst same
      exact served.elim
  | settles =>
      rename_i visit mark
      cases mark <;> cases same
  | _ =>
      cases same
      try exact absurd report (by decide)

end Naming

/-! ## The payloads -/

/-- The payload names the step's type, and a completion carries every other reference that the
handler returned. -/
structure TypedReport (stepType : String) (outputRefs : Dict) (type : EventType)
    (payload : Dict) : Prop where
  named : payload.get? "type" = some (.str stepType)
  carried : type = .stepCompleted → ∀ key value, key ≠ "type" →
    outputRefs.get? key = some value → payload.get? key = some value

/-- A report of a step, and what the drive was told before it: the type that the step's row
showed as the transition was written, the type read last of the step in hand, and what the
handler returned. -/
structure ReportOf (earlier : History (engineSignature ι) (Raised ι) σ) (type : EventType)
    (stepId : ι) (shown read : String) (outputRefs : Dict) : Prop where
  shown : lastWritten earlier = some (stepId, shown)
  read : type ≠ .stepCompleted → lastInHand earlier = some (stepId, read)
  returned : type = .stepCompleted → lastReturned earlier = some (stepId, outputRefs)

section Payloads

/-- A returned reference takes the place of the type it is named like. -/
theorem completion_get? {outputRefs : Dict} (distinct : (outputRefs.map Prod.fst).Nodup)
    (stepType key : String) :
    (Dict.update [("type", .str stepType)] outputRefs).get? key =
      (outputRefs.get? key).or (if key = "type" then some (.str stepType) else none) := by
  rw [Dict.get?_update _ distinct, Dict.get?_cons]
  rfl

theorem completion_reported {outputRefs : Dict} (distinct : (outputRefs.map Prod.fst).Nodup)
    (stepType : String) :
    TypedReport stepType outputRefs .stepCompleted
        (Dict.update [("type", .str stepType)] outputRefs) ↔
      ∀ value, outputRefs.get? "type" = some value → value = .str stepType := by
  constructor
  · intro reported value held
    have named := reported.named
    rw [completion_get? distinct, held] at named
    exact Option.some.inj named
  · intro agrees
    constructor
    case named =>
      rw [completion_get? distinct]
      cases held : outputRefs.get? "type" with
      | none => rfl
      | some value => rw [agrees value held]; rfl
    case carried =>
      intro _ key value _ held
      rw [completion_get? distinct, held]
      rfl

/-- A payload that begins with a type names that one. -/
theorem reported_iff {type : EventType} (other : type ≠ .stepCompleted) {shown read : String}
    {outputRefs fields : Dict} :
    TypedReport shown outputRefs type (("type", .str read) :: fields) ↔ read = shown := by
  constructor
  · intro reported
    have named := reported.named
    rw [Dict.get?_cons] at named
    simpa using named
  · rintro rfl
    exact ⟨by rw [Dict.get?_cons]; rfl, fun same => absurd same other⟩

end Payloads

section Drives

variable [HostId ι] {world : World (engineSignature ι) (Raised ι) σ} {registry : ToolRegistry}
  {run : RunView ι} {hooked : Bool}

omit [HostId ι] in
/-- Of one report: it names the type that the row shows unless a completion's handler returned
another one under that key, or another type was read last of the step in hand. -/
theorem Mark.Named.reports {record : History (engineSignature ι) (Raised ι) σ} {mark : Mark}
    {step row : StepView ι} (named : mark.Named record step row)
    (report : mark.event ∈ stepReports)
    (mappings : ∀ returned, lastReturned record = some returned →
      (returned.2.map Prod.fst).Nodup) :
    ∃ shown read outputRefs, ReportOf record mark.event step.id shown read outputRefs ∧
      (TypedReport shown outputRefs mark.event (mark.payload step row) ↔
        (mark.event = .stepCompleted → ∀ value, outputRefs.get? "type" = some value →
          value = .str shown) ∧
        (mark.event ≠ .stepCompleted → read = shown)) := by
  have inHand : ∀ {type : EventType} {stepType : String} {fields : Dict},
      type ≠ .stepCompleted → RecordedAs record step row stepType →
      ∃ shown read outputRefs, ReportOf record type step.id shown read outputRefs ∧
        (TypedReport shown outputRefs type (("type", .str stepType) :: fields) ↔
          (type = .stepCompleted → ∀ value, outputRefs.get? "type" = some value →
            value = .str shown) ∧
          (type ≠ .stepCompleted → read = shown)) := by
    intro type stepType fields other recorded
    refine ⟨row.type, stepType, [], ⟨recorded.written, fun _ => recorded.read,
      fun same => absurd same other⟩, ?_⟩
    rw [reported_iff other]
    exact ⟨fun same => ⟨fun completes => absurd completes other, fun _ => same⟩,
      fun holds => holds.2 other⟩
  cases mark with
  | skips reason | enters startedType | fails stepType message | drops stepType reason =>
      refine inHand ?_ named
      intro same
      cases same
  | completes outputRefs =>
      have completed : (Mark.completes outputRefs).event = .stepCompleted := rfl
      refine ⟨row.type, row.type, outputRefs.getD [], ⟨named.1, fun other => absurd completed other,
        fun _ => named.2⟩, ?_⟩
      rw [Mark.payload, Mark.event, completion_reported (mappings _ named.2)]
      exact ⟨fun agrees => ⟨fun _ => agrees, fun _ => rfl⟩, fun holds => holds.1 rfl⟩
  | parks title reason =>
      have unreported : EventType.approvalRequired ∉ stepReports := by decide
      exact absurd report unreported
  | clears payload =>
      have unreported : EventType.approvalGranted ∉ stepReports := by decide
      exact absurd report unreported

/-- A report of a drive names the type that its step's row shows as the transition is written,
and carries the references returned, in these cases and no others: a completion when the
references have no key `type`, or that type under it; a start, a failure and a skip when that
type was also the one read last of the step in hand. -/
theorem reports_name_types {fuel : Nat} {state final : σ}
    {outcome : Except (Raised ι) (Option Unit)}
    {history : History (engineSignature ι) (Raised ι) σ}
    (runs : Runs world.recorded (executeRunEvents registry run hooked fuel) (state, []) outcome
      (final, history))
    (mappings : ∀ call ∈ history, ∀ returned, returned? call = some returned →
      (returned.2.map Prod.fst).Nodup) :
    ∀ earlier call later, history = earlier ++ call :: later →
      ∀ runId type stepId payload commit,
        call.op = .appendEvent runId type stepId payload commit → type ∈ stepReports →
        ∃ reported fields shown read outputRefs,
          stepId = some reported ∧ payload = some fields ∧
          ReportOf earlier type reported shown read outputRefs ∧
          (TypedReport shown outputRefs type fields ↔
            (type = .stepCompleted → ∀ value, outputRefs.get? "type" = some value →
              value = .str shown) ∧
            (type ≠ .stepCompleted → read = shown)) := by
  have course := course_invariant (fun _ course record => course.stage.Names record) runs
    (by
      intro before course record op answer after sound asks names served
      cases answer with
      | ok result => exact names_next names sound asks before after result
      | error error => exact names_fail asks error)
    trivial
  intro earlier call later split runId type stepId payload commit appends report
  rcases course.1 earlier call later split with ⟨asks, _, names⟩
  rw [appends] at asks
  rcases asks_report report asks with ⟨visit, mark, row, atStage, rfl, rfl, rfl⟩
  rw [atStage] at names
  have distinct : ∀ returned, lastReturned earlier = some returned →
      (returned.2.map Prod.fst).Nodup := by
    intro returned last
    rcases lastOf_mem last with ⟨handled, member, returns⟩
    exact mappings handled (by rw [split]; exact List.mem_append_left _ member) _ returns
  rcases Mark.Named.reports names report distinct with ⟨shown, read, outputRefs, known, exact⟩
  exact ⟨_, _, shown, read, outputRefs, rfl, rfl, known, exact⟩

/-- Every report names the type of its step's row, and carries the references returned. -/
def NamesTypes (history : History (engineSignature ι) (Raised ι) σ) : Prop :=
  ∀ earlier call later, history = earlier ++ call :: later →
    ∀ runId type stepId payload commit,
      call.op = .appendEvent runId type stepId payload commit → type ∈ stepReports →
      ∃ reported fields shown read outputRefs,
        stepId = some reported ∧ payload = some fields ∧
        ReportOf earlier type reported shown read outputRefs ∧
        TypedReport shown outputRefs type fields

end Drives

/-! ## A tool that returns a type -/

/-- Two steps: the first one's tool returns the given references, the second one's raises. -/
def reportingHost : HostState :=
  .holding ⟨"run-1", .other "planned" RunStatus.planned_unlisted, some .autoComplete, false,
    .json .null, .null, .null, .json .null⟩
    [("step-1", ⟨"model_call", "Ask", .pending, false, none, none⟩),
     ("step-2", ⟨"model_call", "Ask again", .pending, false, none, none⟩)]

def reportingRules (outputRefs : Dict) : HostRules :=
  ⟨fun stepId state =>
    (if stepId = "step-1" then .completed (some outputRefs) else .failed "no answer", state),
    fun _ state => state⟩

/-- What of a call matters here. -/
inductive Glimpse where
  | shown (stepType : String)
  | returned (keys : List String)
  | completed (stepType : Option String)
  deriving DecidableEq

/-- The type that a completion names. -/
def completionType? : EngineOp String → Option (Option String)
  | .appendEvent _ .stepCompleted _ (some fields) _ => some (Dict.get fields "type").asStr?
  | _ => none

theorem completionType?_eq_some {op : EngineOp String} {named : Option String}
    (completes : completionType? op = some named) :
    ∃ runId stepId fields commit,
      op = .appendEvent runId .stepCompleted stepId (some fields) commit ∧
        (Dict.get fields "type").asStr? = named := by
  unfold completionType? at completes
  split at completes
  · exact ⟨_, _, _, _, rfl, Option.some.inj completes⟩
  · cases completes

def glimpses (call : Served (engineSignature String) (Raised String) HostState) : List Glimpse :=
  ((written? call).or (inHand? call)).toList.map (fun shown => .shown shown.2) ++
    ((returned? call).map fun returned => .returned (returned.2.map Prod.fst)).toList ++
    ((completionType? call.op).map .completed).toList

/-- The type and the keys that a drive shows throughout. -/
def Glimpse.agrees (stepType : String) (keys : List String) : Glimpse → Bool
  | .shown other => other == stepType
  | .returned held => held == keys
  | .completed _ => true

section Glimpses

variable {history : History (engineSignature String) (Raised String) HostState} {stepType : String}
  {keys : List String}

theorem written_or_inHand {call : Served (engineSignature String) (Raised String) HostState}
    {shown : String × String} (shows : written? call = some shown ∨ inHand? call = some shown) :
    (written? call).or (inHand? call) = some shown := by
  rcases shows with written | read
  · rw [written]
    rfl
  · rcases call with ⟨before, op, answer, after⟩
    cases op with
    | setStepState stepId status error outputRefs => cases read
    | _ => exact read

theorem shown_of_glimpses
    (agree : (history.flatMap glimpses).all (Glimpse.agrees stepType keys) = true) :
    ∀ call ∈ history, ∀ shown, written? call = some shown ∨ inHand? call = some shown →
      shown.2 = stepType := by
  intro call member shown shows
  have held : Glimpse.shown shown.2 ∈ history.flatMap glimpses :=
    List.mem_flatMap.mpr ⟨call, member, List.mem_append_left _ (List.mem_append_left _
      (List.mem_map.mpr ⟨shown, Option.mem_toList.mpr (written_or_inHand shows), rfl⟩))⟩
  exact beq_iff_eq.mp (List.all_eq_true.mp agree _ held)

theorem keys_of_glimpses
    (agree : (history.flatMap glimpses).all (Glimpse.agrees stepType keys) = true) :
    ∀ call ∈ history, ∀ returned, returned? call = some returned →
      returned.2.map Prod.fst = keys := by
  intro call member returned here
  have held : Glimpse.returned (returned.2.map Prod.fst) ∈ history.flatMap glimpses :=
    List.mem_flatMap.mpr ⟨call, member,
      List.mem_append_left _ (List.mem_append_right _ (by simp [here]))⟩
  exact beq_iff_eq.mp (List.all_eq_true.mp agree _ held)

/-- What was written last shows the one type that is shown. -/
theorem lastWritten_of_glimpses
    {earlier : History (engineSignature String) (Raised String) HostState}
    {shown : String × String}
    (agree : (history.flatMap glimpses).all (Glimpse.agrees stepType keys) = true)
    (within : ∀ call ∈ earlier, call ∈ history) (last : lastWritten earlier = some shown) :
    shown.2 = stepType := by
  rcases lastOf_mem last with ⟨call, member, here⟩
  exact shown_of_glimpses agree call (within call member) shown (.inl here)

/-- A completion that is seen to name another type. -/
theorem not_namesTypes {other : String}
    (agree : (history.flatMap glimpses).all (Glimpse.agrees stepType keys) = true)
    (differs : other ≠ stepType)
    (seen : Glimpse.completed (some other) ∈ history.flatMap glimpses) :
    ¬ NamesTypes history := by
  intro names
  rcases List.mem_flatMap.mp seen with ⟨call, member, here⟩
  rcases List.append_of_mem member with ⟨earlier, later, split⟩
  have completes : completionType? call.op = some (some other) := by
    simpa [glimpses] using here
  rcases completionType?_eq_some completes with ⟨runId, stepId, fields, commit, appends, held⟩
  rcases names earlier call later split _ _ _ _ _ appends (by decide) with
    ⟨_, _, shown, _, _, _, same, known, reported⟩
  have within : ∀ call ∈ earlier, call ∈ history := by
    intro call member
    rw [split]
    exact List.mem_append_left _ member
  have last : shown = stepType := lastWritten_of_glimpses agree within known.shown
  rw [Dict.get, Option.some.inj same, reported.named, last] at held
  exact differs (Option.some.inj held).symm

end Glimpses

/-- A tool whose references name no type, and one that fails. -/
theorem reports_name_types_noted :
    ∃ final history,
      Runs (World.ofFn ((reportingRules [("note", .str "n-1")]).respond fun _ => 0)).recorded
        (executeRunEvents ⟨["model_call"], by decide⟩ reportingHost.run true 3)
        (reportingHost, []) (.ok (some ())) (final, history) ∧
      NamesTypes history := by
  rcases record_ofFn ((reportingRules [("note", .str "n-1")]).respond fun _ => 0)
    (fun seen call => seen ++ glimpses call)
    (executeRunEvents ⟨["model_call"], by decide⟩ reportingHost.run true 3) reportingHost []
    with ⟨history, runs, view⟩
  rw [← List.flatMap_eq_foldl] at view
  have agree : (history.flatMap glimpses).all (Glimpse.agrees "model_call" ["note"]) = true := by
    rw [view]
    decide
  have keys := keys_of_glimpses agree
  have mappings : ∀ call ∈ history, ∀ returned, returned? call = some returned →
      (returned.2.map Prod.fst).Nodup := by
    intro call member returned here
    rw [keys call member returned here]
    decide
  have reports := reports_name_types runs mappings
  refine ⟨_, history, runs, ?_⟩
  intro earlier call later split runId type stepId payload commit appends report
  have within : ∀ call ∈ earlier, call ∈ history := by
    intro call member
    rw [split]
    exact List.mem_append_left _ member
  rcases reports earlier call later split runId type stepId payload commit appends report with
    ⟨reported, fields, shown, read, outputRefs, sameStep, samePayload, known, named⟩
  refine ⟨reported, fields, shown, read, outputRefs, sameStep, samePayload, known,
    named.mpr ⟨?_, ?_⟩⟩
  · intro completes value held
    rcases lastOf_mem (known.returned completes) with ⟨handled, member, here⟩
    have absent : outputRefs.get? "type" = none := by
      apply Dict.get?_eq_none
      rw [keys handled (within handled member) _ here]
      decide
    rw [absent] at held
    cases held
  · intro other
    have last : shown = "model_call" := lastWritten_of_glimpses agree within known.shown
    rcases lastOf_mem (known.read other) with ⟨reads, member, here⟩
    have hand : read = "model_call" :=
      shown_of_glimpses agree reads (within reads member) _ (.inr here)
    rw [last, hand]

/-- A tool that returns a reference named `type`: its completion names that instead, though
every answer shows the step with its own type. -/
theorem returned_type_wins :
    ∃ final history,
      Runs (World.ofFn ((reportingRules [("type", .str "x")]).respond fun _ => 0)).recorded
        (executeRunEvents ⟨["model_call"], by decide⟩ reportingHost.run true 3)
        (reportingHost, []) (.ok (some ())) (final, history) ∧
      (∀ call ∈ history, ∀ shown, written? call = some shown ∨ inHand? call = some shown →
        shown.2 = "model_call") ∧
      ¬ NamesTypes history := by
  rcases record_ofFn ((reportingRules [("type", .str "x")]).respond fun _ => 0)
    (fun seen call => seen ++ glimpses call)
    (executeRunEvents ⟨["model_call"], by decide⟩ reportingHost.run true 3) reportingHost []
    with ⟨history, runs, view⟩
  rw [← List.flatMap_eq_foldl] at view
  have agree : (history.flatMap glimpses).all (Glimpse.agrees "model_call" ["type"]) = true := by
    rw [view]
    decide
  have seen : Glimpse.completed (some "x") ∈ history.flatMap glimpses := by
    rw [view]
    decide
  exact ⟨_, history, runs, shown_of_glimpses agree, not_namesTypes agree (by decide) seen⟩

end SlimxAgent
