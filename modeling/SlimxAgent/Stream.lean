import SlimxAgent.Host
import SlimxAgent.Outline
import SlimxAgent.Interaction.AppendOnly
import SlimxAgent.Interaction.Monitor

/-!
# The live stream

What a drive yields is the durable log from its starting sequence on.  The log is
append-only with strictly increasing sequences; the host, the handlers and the
hook may append to it during any call.
-/

namespace SlimxAgent

open Interaction AppendOnly

variable {ι σ : Type}

/-- An append-only event log behind the store calls of one run.  Events still to
come have sequences from `floor` on. -/
structure EventLog (world : World (engineSignature ι) (Raised ι) σ) (runId : ι)
    (log : σ → List Event) (floor : σ → Int) : Prop where
  ordered : ∀ state, Ordered Event.sequence (log state)
  grows : ∀ {state op answer after}, world.serve state op answer after →
    ∃ added, log after = log state ++ added ∧ ∀ event ∈ added, floor state ≤ event.sequence
  rises : ∀ {state op answer after}, world.serve state op answer after → floor state ≤ floor after
  /-- `next_sequence` exceeds every sequence in the log and no future one. -/
  next : ∀ {state next after}, world.serve state (.nextSequence runId) (.ok next) after →
    (∀ event ∈ log after, event.sequence < next) ∧ next ≤ floor after
  /-- `drained_events` answers every event past the given sequence, in order. -/
  drained : ∀ {state sequence events after},
    world.serve state (.drainedEvents runId sequence) (.ok events) after →
    events = (log after).filter fun event => decide (sequence < event.sequence)

/-- What the calls of a drive say about its stream. -/
structure StreamView where
  /-- The first `next_sequence` answer. -/
  first : Option Int
  /-- The log at the last `drained_events` read. -/
  seen : Option (List Event)
  yielded : List Event
  /-- Whether the engine or its hook appended after that read. -/
  appendedSince : Bool

namespace StreamView

def start : StreamView := ⟨none, none, [], false⟩

def advance (log : σ → List Event) (view : StreamView)
    (call : Served (engineSignature ι) (Raised ι) σ) : StreamView :=
  match call with
  | ⟨_, .nextSequence _, .ok next, _⟩ => { view with first := some (view.first.getD next) }
  | ⟨_, .drainedEvents _ _, .ok _, after⟩ =>
      { view with seen := some (log after), appendedSince := false }
  | ⟨_, .yieldEvent payload, _, _⟩ => { view with yielded := view.yielded ++ [payload] }
  | ⟨_, .appendEvent _ _ _ _ _, _, _⟩ => { view with appendedSince := true }
  | ⟨_, .onRunEnd _ _, _, _⟩ => { view with appendedSince := true }
  | _ => view

/-- The events from sequence `next` on. -/
def eventsFrom (next : Int) (log : List Event) : List Event :=
  log.filter fun event => decide (next ≤ event.sequence)

/-- Everything was yielded: the events from the starting sequence on that are in the
log at the last read, which nothing the drive appended came after. -/
structure Exact (view : StreamView) (next : Int) (shown : List Event) : Prop where
  first : view.first = some next
  seen : view.seen = some shown
  yielded : view.yielded = eventsFrom next shown
  ordered : Ordered Event.sequence view.yielded
  settled : view.appendedSince = false

/-- What was yielded starts what had to be. -/
def Partial (view : StreamView) : Prop :=
  view.yielded = [] ∨ ∃ next seen, view.first = some next ∧ view.seen = some seen ∧
    view.yielded <+: eventsFrom next seen

end StreamView

open StreamView

section Proof

variable {world : World (engineSignature ι) (Raised ι) σ} {run : RunView ι}
  {log : σ → List Event} {floor : σ → Int} {next cursor : Int} {read todo : List Event}

/-- The drive has yielded what it read from `next` on, up to the cursor, and is
about to yield `todo`. -/
structure Following (log : σ → List Event) (floor : σ → Int) (next cursor : Int)
    (read todo : List Event) (state : σ × StreamView) : Prop where
  first : state.2.first = some next
  reach : next ≤ cursor + 1
  tailed : ∃ rest, Tailed Event.sequence (log state.1) (floor state.1) cursor read (todo ++ rest)
  yielded : state.2.yielded = eventsFrom next read
  seen : ∀ seen, state.2.seen = some seen → read ++ todo <+: seen
  unseen : state.2.seen = none → state.2.yielded = []

/-- The last read showed exactly what has been read and is still to be yielded. -/
structure Caught (log : σ → List Event) (floor : σ → Int) (next cursor : Int)
    (read todo : List Event) (state : σ × StreamView) : Prop extends
    Following log floor next cursor read todo state where
  current : state.2.seen = some (read ++ todo)
  settled : state.2.appendedSince = false

theorem eventsFrom_prefix {front whole : List Event} (begins : front <+: whole) (next : Int) :
    eventsFrom next front <+: eventsFrom next whole :=
  begins.filter _

theorem Following.incomplete {state : σ × StreamView}
    (following : Following log floor next cursor read todo state) : state.2.Partial := by
  cases known : state.2.seen with
  | none => exact .inl (following.unseen known)
  | some seen =>
      refine .inr ⟨next, seen, following.first, known, ?_⟩
      rw [following.yielded]
      apply eventsFrom_prefix
      exact (List.prefix_append read todo).trans (following.seen seen known)

theorem Following.grown (store : EventLog world run.id log floor) {state : σ} {view : StreamView}
    {op : EngineOp ι} {answer : Except (Raised ι) op.Res} {after : σ}
    (served : world.serve state op answer after)
    (following : Following log floor next cursor read todo (state, view)) :
    Following log floor next cursor read todo (after, view) where
  first := following.first
  reach := following.reach
  tailed := by
    obtain ⟨rest, tailed⟩ := following.tailed
    obtain ⟨added, equal, bounded⟩ := store.grows served
    refine ⟨rest ++ added, ?_⟩
    have ordered := store.ordered after
    rw [equal] at ordered ⊢
    rw [← List.append_assoc]
    exact tailed.grows ordered bounded (store.rises served)
  yielded := following.yielded
  seen := following.seen
  unseen := following.unseen

/-- Operations between the drains. -/
def OffStream : EngineOp ι → Prop
  | .nextSequence _ => False
  | .yieldEvent _ => False
  | _ => True

/-- No operation but a yield changes what has been followed. -/
theorem served_following (store : EventLog world run.id log floor) (state : σ × StreamView)
    (op : EngineOp ι) (offStream : OffStream op)
    (following : Following log floor next cursor read [] state)
    (answer : Except (Raised ι) op.Res) (after : σ × StreamView)
    (served : (world.monitored (StreamView.advance log)).serve state op answer after) :
    Following log floor next cursor read [] after := by
  have grown := following.grown store served.1
  have equal : after = (after.1, StreamView.advance log state.2 ⟨state.1, op, answer, after.1⟩) :=
    Prod.ext rfl served.2
  rw [equal]
  cases op with
  | nextSequence _ => exact offStream.elim
  | yieldEvent _ => exact offStream.elim
  | drainedEvents runId sequence =>
      cases answer with
      | error error => exact grown
      | ok events =>
          refine ⟨grown.first, grown.reach, grown.tailed, grown.yielded, ?_, ?_⟩
          · intro seen shown
            cases shown
            obtain ⟨rest, tailed⟩ := grown.tailed
            rw [List.append_nil]
            exact ⟨_, tailed.split.symm⟩
          · intro unseen
            cases unseen
  | appendEvent runId type stepId payload commit =>
      exact ⟨grown.first, grown.reach, grown.tailed, grown.yielded, grown.seen, grown.unseen⟩
  | onRunEnd run status =>
      exact ⟨grown.first, grown.reach, grown.tailed, grown.yielded, grown.seen, grown.unseen⟩
  | _ => exact grown

/-- No call of a drive is refused here. -/
def anyCall (_ : σ × StreamView) (_ : EngineOp ι) : Prop := True

/-- An exception may end the drive here. -/
def RaisedPartial (_ : Raised ι) (state : σ × StreamView) : Prop :=
  state.2.Partial

theorem wp_following (store : EventLog world run.id log floor) {α : Type} {program : Engine ι α}
    (propagates : program.Propagates OffStream) {state : σ × StreamView}
    (following : Following log floor next cursor read [] state) :
    wp (world.monitored (StreamView.advance log)) anyCall program
      (fun _ => Following log floor next cursor read []) RaisedPartial state := by
  apply wp_propagates (Following log floor next cursor read []) ?_ ?_ propagates following
  · intro state op offStream following
    refine ⟨trivial, fun result after served =>
      served_following store state op offStream following _ after served, ?_⟩
    intro error after served
    exact (served_following store state op offStream following _ after served).incomplete
  · intro error state following
    exact following.incomplete

/-! ## A drain catches up -/

/-- The stream has caught up with the log as last read. -/
def CaughtUp (log : σ → List Event) (floor : σ → Int) (next cursor : Int)
    (state : σ × StreamView) : Prop :=
  ∃ read, Caught log floor next cursor read [] state

theorem eventsFrom_read {entry : Event} (from_next : next ≤ entry.sequence) :
    eventsFrom next (read ++ [entry]) = eventsFrom next read ++ [entry] := by
  rw [eventsFrom, List.filter_append]
  congr 1
  simp [from_next]

/-- One yield. -/
theorem served_yield (store : EventLog world run.id log floor) {entry : Event}
    {state : σ × StreamView} (caught : Caught log floor next cursor read (entry :: todo) state)
    {answer : Except (Raised ι) Unit} {after : σ × StreamView}
    (served : (world.monitored (StreamView.advance log)).serve state (.yieldEvent entry) answer
      after) :
    Caught log floor next entry.sequence (read ++ [entry]) todo after := by
  have grown := caught.toFollowing.grown store served.1
  have equal : after = (after.1, { state.2 with yielded := state.2.yielded ++ [entry] }) := by
    apply Prod.ext
    · rfl
    · rw [served.2]
      cases answer <;> rfl
  obtain ⟨rest, tailed⟩ := grown.tailed
  have passed : cursor < entry.sequence := tailed.above entry List.mem_cons_self
  have same : (read ++ [entry]) ++ todo = read ++ entry :: todo := by
    rw [List.append_assoc, List.singleton_append]
  have reached := grown.reach
  rw [equal]
  refine ⟨⟨grown.first, by omega, ⟨rest, tailed.advance (store.ordered after.1)⟩, ?_, ?_, ?_⟩,
    ?_, caught.settled⟩
  · rw [eventsFrom_read (by omega), ← caught.yielded]
  · intro seen shown
    rw [same]
    exact caught.seen seen shown
  · intro unseen
    have shown : state.2.seen = none := unseen
    rw [caught.current] at shown
    cases shown
  · rw [same]
    exact caught.current

theorem wp_yieldAll (store : EventLog world run.id log floor) {state : σ × StreamView}
    (caught : Caught log floor next cursor read todo state) :
    wp (world.monitored (StreamView.advance log)) anyCall (yieldAll todo cursor)
      (CaughtUp log floor next) RaisedPartial state := by
  induction todo generalizing read cursor state with
  | nil => exact ⟨read, caught⟩
  | cons entry todo ih =>
      rw [yieldAll, wp_bind]
      apply wp_perform.mpr
      refine ⟨trivial, ?_, ?_⟩
      · intro _ after served
        exact ih (served_yield store caught served)
      · intro error after served
        exact (served_yield store caught served).incomplete

theorem wp_drain (store : EventLog world run.id log floor) {state : σ × StreamView}
    (following : Following log floor next cursor read [] state) :
    wp (world.monitored (StreamView.advance log)) anyCall (drain run.id cursor)
      (CaughtUp log floor next) RaisedPartial state := by
  rw [drain, wp_bind]
  apply wp_perform_monitored trivial
  · intro events after served
    obtain ⟨rest, tailed⟩ := (following.grown store served).tailed
    rw [List.nil_append] at tailed
    have unread : events = rest := by
      rw [store.drained served]
      exact tailed.filter_past
    rw [unread]
    apply wp_yieldAll store
    refine ⟨⟨following.first, following.reach, ⟨[], by rwa [List.append_nil]⟩,
      following.yielded, ?_, ?_⟩, ?_, rfl⟩
    · intro seen shown
      cases shown
      simp only [tailed.split, List.prefix_rfl]
    · intro unseen
      cases unseen
    · rw [← tailed.split]
      rfl
  · intro error after served
    exact (following.grown store served).incomplete

/-- Reading the status of a step leaves the stream as it is. -/
theorem wp_caught_currentStatus (store : EventLog world run.id log floor) {ran : StepView ι}
    {state : σ × StreamView} (caught : CaughtUp log floor next cursor state) :
    wp (world.monitored (StreamView.advance log)) anyCall (currentStatus ran)
      (fun _ => CaughtUp log floor next cursor) RaisedPartial state := by
  obtain ⟨read, caught⟩ := caught
  apply wp_perform_monitored trivial
  · intro status after served
    exact ⟨read, caught.toFollowing.grown store served, caught.current, caught.settled⟩
  · intro error after served
    exact (caught.toFollowing.grown store served).incomplete

/-! ## The parts of a pass -/

/-- The head of a pass: everything up to the cursor has been yielded. -/
def Streaming (log : σ → List Event) (floor : σ → Int) (next cursor : Int)
    (state : σ × StreamView) : Prop :=
  ∃ read, Following log floor next cursor read [] state

/-- The drive returns with the stream caught up. -/
def Streamed (log : σ → List Event) (floor : σ → Int) (next : Int) (state : σ × StreamView) :
    Prop :=
  ∃ cursor, CaughtUp log floor next cursor state

theorem CaughtUp.streaming {state : σ × StreamView}
    (caught : CaughtUp log floor next cursor state) : Streaming log floor next cursor state := by
  obtain ⟨read, caught⟩ := caught
  exact ⟨read, caught.toFollowing⟩

theorem wp_streaming (store : EventLog world run.id log floor) {α : Type} {program : Engine ι α}
    (propagates : program.Propagates OffStream) {state : σ × StreamView}
    (streaming : Streaming log floor next cursor state) :
    wp (world.monitored (StreamView.advance log)) anyCall program
      (fun _ => Streaming log floor next cursor) RaisedPartial state := by
  obtain ⟨read, following⟩ := streaming
  apply wp_post (wp_following store propagates following)
  intro _ after following
  exact ⟨read, following⟩

/-- What a visit leaves. -/
abbrev VisitStreamed (log : σ → List Event) (floor : σ → Int) (next : Int) :
    Option Int → σ × StreamView → Prop :=
  VisitEnd (Streaming log floor next) (Streamed log floor next)

theorem wp_streamed_return (store : EventLog world run.id log floor) {state : σ × StreamView}
    (streaming : Streaming log floor next cursor state) :
    wp (world.monitored (StreamView.advance log)) anyCall (drainAndReturn run cursor)
      (VisitStreamed log floor next) RaisedPartial state := by
  obtain ⟨read, following⟩ := streaming
  apply wp_drainAndReturn_of
  apply wp_post (wp_drain store following)
  intro reached after caught
  exact ⟨reached, caught⟩

theorem wp_streamed_continue (store : EventLog world run.id log floor) {state : σ × StreamView}
    (streaming : Streaming log floor next cursor state) :
    wp (world.monitored (StreamView.advance log)) anyCall (drainAndContinue run cursor)
      (VisitStreamed log floor next) RaisedPartial state := by
  obtain ⟨read, following⟩ := streaming
  apply wp_drainAndContinue_of
  apply wp_post (wp_drain store following)
  intro reached after caught
  exact caught.streaming

theorem offStream_settling {stepId : ι} :
    AllowsSettling (OffStream (ι := ι)) run.id stepId where
  completes := ⟨fun _ _ => trivial, fun _ => trivial⟩
  fails := ⟨fun _ _ => trivial, fun _ => trivial⟩
  skips := ⟨fun _ _ => trivial, fun _ => trivial⟩
  rereads := trivial
  rollsBack := trivial
  readsType _ := trivial

theorem offStream_failing : AllowsFailing OffStream run :=
  ⟨fun _ => trivial, trivial, trivial⟩

theorem wp_streamed_completeRun (store : EventLog world run.id log floor) (hooked : Bool)
    {state : σ × StreamView} (streaming : Streaming log floor next cursor state) :
    wp (world.monitored (StreamView.advance log)) anyCall (completeRun run hooked cursor)
      (fun _ => Streamed log floor next) RaisedPartial state := by
  have drains : ∀ {state : σ × StreamView}, Streaming log floor next cursor state →
      wp (world.monitored (StreamView.advance log)) anyCall (drain run.id cursor)
        (fun _ => Streamed log floor next) RaisedPartial state := by
    intro state streaming
    obtain ⟨read, following⟩ := streaming
    apply wp_post (wp_drain store following)
    intro reached after caught
    exact ⟨reached, caught⟩
  apply wp_completeRun_of (Streaming log floor next cursor) (Streaming log floor next cursor)
    (Streaming log floor next cursor) (wp_streaming store (getRun_propagates trivial) streaming)
  · intro current reread _ streaming
    exact drains streaming
  · intro current reread _ streaming
    exact wp_streaming store (setRunStatus_propagates trivial) streaming
  · intro written streaming
    exact wp_streaming store (appendEvent_propagates trivial) streaming
  · intro appended streaming
    exact wp_streaming store (notifyRunEnd_propagates trivial hooked) streaming
  · intro notified streaming
    exact drains streaming

theorem CaughtUp.exact (store : EventLog world run.id log floor) {state : σ × StreamView}
    (caught : CaughtUp log floor next cursor state) :
    ∃ shown, state.2.Exact next shown := by
  obtain ⟨read, caught⟩ := caught
  obtain ⟨rest, tailed⟩ := caught.tailed
  refine ⟨read, caught.first, ?_, caught.yielded, ?_, caught.settled⟩
  · rw [caught.current, List.append_nil]
  · rw [caught.yielded]
    have ordered := store.ordered state.1
    rw [tailed.split] at ordered
    exact ordered.left.filter _

variable [HostId ι] {step : StepView ι} {fresh : RunView ι} {steps : List (StepView ι)}

theorem wp_streamed_runStep (store : EventLog world run.id log floor) (registry : ToolRegistry)
    {state : σ × StreamView} (streaming : Streaming log floor next cursor state) :
    wp (world.monitored (StreamView.advance log)) anyCall (runStep registry run step)
      (fun _ => Streaming log floor next cursor) RaisedPartial state := by
  apply wp_runStep_of (wp_streaming store (setStepState_propagates trivial) streaming)
  · intro written streaming
    exact wp_streaming store (currentType_propagates trivial) streaming
  · intro startedType shown streaming
    exact wp_streaming store (appendEvent_propagates trivial) streaming
  · intro started streaming
    exact wp_streaming store (currentType_propagates trivial) streaming
  · intro stepType typed _ streaming
    exact wp_streaming store (failStep_propagates offStream_settling.fails _ _) streaming
  · intro stepType typed _ streaming
    obtain ⟨read, following⟩ := streaming
    refine ⟨trivial, fun outcome ended served => ?_⟩
    apply wp_streaming store (settleStep_propagates offStream_settling outcome)
    exact ⟨read, served_following store typed (.handle run _) trivial following outcome ended
      served⟩

theorem wp_streamed_dispatchStep (store : EventLog world run.id log floor)
    (registry : ToolRegistry) (hooked : Bool) {state : σ × StreamView}
    (streaming : Streaming log floor next cursor state) :
    wp (world.monitored (StreamView.advance log)) anyCall
      (dispatchStep registry run hooked step cursor) (VisitStreamed log floor next)
      RaisedPartial state := by
  apply wp_dispatchStep_of (wp_streamed_runStep store registry streaming)
  · intro ran settled streaming
    obtain ⟨read, following⟩ := streaming
    exact wp_drain store following
  · intro ran reached drained caught
    exact wp_caught_currentStatus store caught
  · intro ran reached judged caught
    exact ⟨reached, caught⟩
  · intro ran reached judged caught
    exact wp_streaming store (failRun_propagates offStream_failing hooked ran.id)
      caught.streaming
  · intro reached failed streaming
    exact wp_streamed_return store streaming
  · intro ran reached status judged _ _ caught
    exact caught.streaming

theorem wp_streamed_budgetGate (store : EventLog world run.id log floor)
    (registry : ToolRegistry) (hooked : Bool) (driveStarted : ℚ) {state : σ × StreamView}
    (streaming : Streaming log floor next cursor state) :
    wp (world.monitored (StreamView.advance log)) anyCall
      (budgetGate registry run hooked driveStarted fresh steps step cursor)
      (VisitStreamed log floor next) RaisedPartial state := by
  apply wp_budgetGate_of (wp_streaming store (budgetExhaustedReason_propagates trivial fresh
    steps driveStarted) streaming)
  · intro reason checked streaming
    apply wp_seq (wp_streaming store (appendEvent_propagates trivial) streaming)
    intro _ exhausted streaming
    apply wp_seq (wp_streaming store (setRunStatus_propagates trivial) streaming)
    intro _ written streaming
    apply wp_seq (wp_streaming store (appendEvent_propagates trivial) streaming)
    intro _ paused streaming
    exact wp_streamed_return store streaming
  · intro checked streaming
    apply wp_approvalGate_of
    · intro _ _
      apply wp_seq (wp_streaming store (parkPending_propagates ⟨⟨fun _ _ => trivial,
        fun _ => trivial⟩, fun _ => trivial⟩ _) streaming)
      intro _ parked streaming
      apply wp_seq (wp_streaming store (setRunStatus_propagates trivial) streaming)
      intro _ written streaming
      exact wp_streamed_return store streaming
    · intro _ _
      exact wp_streaming store (recordApproval_propagates ⟨fun _ _ => trivial,
        fun _ => trivial⟩ _ _ _) streaming
    · intro _
      exact streaming
    · intro cleared streaming
      exact wp_streamed_dispatchStep store registry hooked streaming

theorem wp_streamed_foundFailed (store : EventLog world run.id log floor) (hooked : Bool)
    (stepId : ι) {state : σ × StreamView} (streaming : Streaming log floor next cursor state) :
    wp (world.monitored (StreamView.advance log)) anyCall (foundFailed run hooked stepId cursor)
      (VisitStreamed log floor next) RaisedPartial state := by
  apply wp_foundFailed_of (Streaming log floor next cursor)
    (wp_streaming store (runFailureReported_propagates trivial stepId) streaming)
  · intro asked streaming
    exact wp_streaming store (setRunStatus_propagates trivial) streaming
  · intro asked streaming
    exact wp_streaming store (failRun_propagates offStream_failing hooked stepId) streaming
  · intro ended streaming
    exact wp_streamed_return store streaming

theorem wp_streamed_visitStep (store : EventLog world run.id log floor) (registry : ToolRegistry)
    (hooked : Bool) (driveStarted : ℚ) (selected : firstUnfinished steps = some step)
    {state : σ × StreamView} (streaming : Streaming log floor next cursor state) :
    wp (world.monitored (StreamView.advance log)) anyCall
      (visitStep registry run hooked driveStarted fresh steps step cursor)
      (VisitStreamed log floor next) RaisedPartial state := by
  have incomplete : state.2.Partial := by
    obtain ⟨read, following⟩ := streaming
    exact following.incomplete
  apply wp_visitStep_of selected
  · intro text unlisted _
    exact incomplete
  · intro _
    exact wp_streamed_foundFailed store hooked step.id streaming
  · intro reason _ _
    exact incomplete
  · intro reason _ _
    apply wp_seq (wp_streaming store (skipStep_propagates offStream_settling.skips _ _)
      streaming)
    intro _ skipped streaming
    exact wp_streamed_continue store streaming
  · intro _ _
    exact wp_streamed_budgetGate store registry hooked driveStarted streaming

/-! ## A whole drive -/

theorem wp_streamed_loopPass (store : EventLog world run.id log floor) (registry : ToolRegistry)
    (hooked : Bool) (driveStarted : ℚ) {state : σ × StreamView}
    (streaming : Streaming log floor next cursor state) :
    wp (world.monitored (StreamView.advance log)) anyCall
      (loopPass registry run hooked driveStarted cursor)
      (PassEnd (Streaming log floor next) (Streamed log floor next) (Streaming log floor next))
      RaisedPartial state := by
  apply wp_loopPass_of (fun _ _ => Streaming log floor next cursor)
    (wp_streaming store (getRun_propagates trivial) streaming)
  · intro current reread _ streaming
    exact wp_streamed_return store streaming
  · intro current reread _ streaming
    exact wp_streaming store (getSteps_propagates trivial) streaming
  · intro current steps listed _ streaming
    exact streaming
  · intro current steps step listed _ selected streaming
    exact wp_streamed_visitStep store registry hooked driveStarted selected streaming

omit [HostId ι] in
/-- Before the starting sequence is known nothing has been yielded. -/
theorem wp_opens (store : EventLog world run.id log floor) (state : σ) :
    wp (world.monitored (StreamView.advance log)) anyCall (nextSequence run.id)
      (fun next => Streaming log floor next (next - 1)) RaisedPartial
      (state, StreamView.start) := by
  apply wp_perform_monitored trivial
  · intro next after served
    obtain ⟨past, future⟩ := store.next served
    have tailed : Tailed Event.sequence (log after) (floor after) (next - 1) (log after) [] := by
      refine ⟨(List.append_nil _).symm, ?_, by simp, .inl (Int.sub_one_lt_of_le future)⟩
      intro event member
      have below := past event member
      omega
    have none_from : eventsFrom next (log after) = [] := by
      rw [eventsFrom, List.filter_eq_nil_iff]
      intro event member
      have below := past event member
      simpa using below
    refine ⟨log after, rfl, by omega, ⟨[], tailed⟩, none_from.symm, ?_, fun _ => rfl⟩
    intro seen shown
    cases shown
  · intro error after _
    exact .inl rfl

/-- What the stream of a drive is, by how the drive ended.  `none` is a drive whose
loop is still running. -/
def StreamEnds (log : σ → List Event) (floor : σ → Int) :
    Option Unit → σ × StreamView → Prop
  | some () => fun state => ∃ next, Streamed log floor next state
  | none => fun state => state.2.Partial

theorem wp_streamed_executeRunEvents (store : EventLog world run.id log floor)
    (registry : ToolRegistry) (hooked : Bool) (fuel : Nat)
    (alive : run.status ∉ terminalRunStatuses) (state : σ) :
    wp (world.monitored (StreamView.advance log)) anyCall
      (executeRunEvents registry run hooked fuel) (StreamEnds log floor) RaisedPartial
      (state, StreamView.start) := by
  apply wp_executeRunEvents_of (fun cursor state => ∃ next, Streaming log floor next cursor state)
    (fun state => ∃ next, Streamed log floor next state)
    (fun cursor state => ∃ next, Streaming log floor next cursor state) (wp_opens store state)
  · intro next opened terminal _
    exact absurd terminal alive
  · intro next opened _ streaming
    exact wp_streaming store (setRunStatus_propagates trivial) streaming
  · intro next begun streaming
    obtain ⟨read, following⟩ := streaming
    apply wp_post (wp_drain store following)
    intro reached after caught
    exact (⟨next, caught.streaming⟩ : ∃ next, Streaming log floor next reached after)
  · intro cursor drained streaming
    obtain ⟨next, streaming⟩ := streaming
    apply wp_post (wp_streaming store (now_propagates trivial) streaming)
    intro _ after streaming
    exact ⟨next, streaming⟩
  · intro driveStarted cursor after streaming
    obtain ⟨next, streaming⟩ := streaming
    apply wp_post (wp_streamed_loopPass store registry hooked driveStarted streaming)
    intro result left ends
    cases result with
    | inl again => exact ⟨next, ends⟩
    | inr exit =>
        cases exit with
        | returned => exact ⟨next, ends⟩
        | allDone cursor => exact ⟨next, ends⟩
  · intro cursor after streaming
    obtain ⟨next, read, following⟩ := streaming
    exact following.incomplete
  · intro after streamed
    exact streamed
  · intro cursor after streaming
    obtain ⟨next, streaming⟩ := streaming
    apply wp_post (wp_streamed_completeRun store hooked streaming)
    intro _ left streamed
    exact ⟨next, streamed⟩

end Proof

/-! ## The host in memory keeps such a log -/

/-- The log of one state goes on with entries of a later one. -/
def HostState.Extends (state later : HostState) : Prop :=
  later.run.id = state.run.id ∧ later.firstSequence = state.firstSequence ∧
    ∃ added, later.entries = state.entries ++ added

theorem HostState.Extends.refl (state : HostState) : state.Extends state :=
  ⟨rfl, rfl, [], (List.append_nil _).symm⟩

/-- Tools and an epilogue that only add to the log. -/
structure HostRules.OnlyAppends (rules : HostRules) : Prop where
  invoke : ∀ stepId state, HostState.Extends state (rules.invoke stepId state).2
  epilogue : ∀ status state, HostState.Extends state (rules.epilogue status state)

theorem HostRules.OnlyAppends.respond {rules : HostRules} (appends : rules.OnlyAppends)
    (clock : HostState → ℚ) (op : EngineOp String) (state : HostState) :
    state.Extends (rules.respond clock op state).2 := by
  cases op with
  | appendEvent runId type stepId payload commit => exact ⟨rfl, rfl, _, rfl⟩
  | handle run step => exact appends.invoke step.id state
  | onRunEnd run status => exact appends.epilogue status _
  | _ => exact .refl _

theorem HostRules.OnlyAppends.eventLog {rules : HostRules} (appends : rules.OnlyAppends)
    (clock : HostState → ℚ) (runId : String) :
    EventLog (World.ofFn (rules.respond clock)) runId HostState.log
      fun state => state.nextSequence where
  ordered := HostState.ordered_log
  grows {state op answer after} served := by
    have extended := appends.respond clock op state
    have left : (rules.respond clock op state).2 = after := congrArg Prod.snd served
    rw [left] at extended
    obtain ⟨sameRun, sameStart, added, entries⟩ := extended
    refine ⟨_, HostState.log_extends entries sameRun sameStart, ?_⟩
    intro event member
    obtain ⟨index, bound, equal⟩ := List.mem_mapIdx.mp member
    rw [← equal]
    simp only [LogEntry.event]
    omega
  rises {state op answer after} served := by
    have extended := appends.respond clock op state
    have left : (rules.respond clock op state).2 = after := congrArg Prod.snd served
    rw [left] at extended
    obtain ⟨_, sameStart, added, entries⟩ := extended
    simp only [HostState.nextSequence, entries, sameStart, List.length_append]
    omega
  next {state next after} served := by
    have answered : rules.respond clock (.nextSequence runId) state = (.ok next, after) := served
    cases answered
    constructor
    · intro event member
      exact HostState.sequence_lt_of_mem_log member
    · exact le_refl _
  drained {state sequence events after} served := by
    have answered : rules.respond clock (.drainedEvents runId sequence) state =
        (.ok events, after) := served
    cases answered
    rfl

/-! ## Whole drives -/

/-- The live stream is the durable log.  A drive of a run that is not terminal, over
an append-only log to which anyone may append at any moment, yields exactly the
events from the starting sequence on that are in the log at its last read, in
order and each once, and that read comes after everything the drive appended; if
an exception ends the drive, it has yielded a prefix of them. -/
theorem stream_is_log [HostId ι] {world : World (engineSignature ι) (Raised ι) σ}
    {run : RunView ι} {log : σ → List Event} {floor : σ → Int}
    (store : EventLog world run.id log floor) (registry : ToolRegistry) (hooked : Bool)
    (fuel : Nat) (alive : run.status ∉ terminalRunStatuses) {state last : σ}
    {outcome : Except (Raised ι) (Option Unit)}
    {history : History (engineSignature ι) (Raised ι) σ}
    (runs : Runs world.recorded (executeRunEvents registry run hooked fuel) (state, []) outcome
      (last, history)) :
    (outcome = .ok (some ()) →
      ∃ next shown, (history.foldl (StreamView.advance log) .start).Exact next shown) ∧
    (history.foldl (StreamView.advance log) .start).Partial := by
  have ends := runs.monitor_post
    (wp_streamed_executeRunEvents store registry hooked fuel alive state)
  have exact_partial : ∀ {view : StreamView} {next : Int} {shown : List Event},
      view.Exact next shown → view.Partial := by
    intro view next shown exactly
    refine .inr ⟨next, shown, exactly.first, exactly.seen, ?_⟩
    simp only [exactly.yielded, List.prefix_rfl]
  cases outcome with
  | error error =>
      refine ⟨?_, ends⟩
      intro equal
      cases equal
  | ok result =>
      cases result with
      | none =>
          refine ⟨?_, ends⟩
          intro equal
          cases equal
      | some returned =>
          obtain ⟨next, cursor, caught⟩ := ends
          obtain ⟨shown, exactly⟩ := caught.exact store
          exact ⟨fun _ => ⟨next, shown, exactly⟩, exact_partial exactly⟩

/-- A drive of it returns, and has streamed its three events. -/
theorem stream_is_log_model_call :
    ∃ last history,
      Runs (World.ofFn (HostRules.respond ⟨fun _ state => (.completed none, state),
          fun _ state => state⟩ fun _ => 0)).recorded
        (executeRunEvents ⟨["model_call"], by decide⟩ modelCallHost.run true 2)
        (modelCallHost, []) (.ok (some ())) (last, history) ∧
      last.yielded.length = 3 ∧
      ∃ next shown, (history.foldl (StreamView.advance HostState.log) .start).Exact next shown := by
  have appends : HostRules.OnlyAppends ⟨fun _ state => (.completed none, state),
      fun _ state => state⟩ :=
    ⟨fun _ state => .refl state, fun _ state => .refl state⟩
  obtain ⟨history, runs⟩ := Runs.record (runs_ofFn.mpr (Prod.ext rfl rfl)) []
  exact ⟨_, history, runs, rfl, (stream_is_log (appends.eventLog _ _) _ _ _
    (by decide) runs).1 rfl⟩

end SlimxAgent
