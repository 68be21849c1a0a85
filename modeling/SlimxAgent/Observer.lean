import SlimxAgent.Endpoint
import SlimxAgent.EventStream
import SlimxAgent.Remote
import SlimxAgent.Plan
import SlimxAgent.Stream

/-!
# What an observer reads

From the answers of the host to the client of a stream: the events of an answer are read
from its text, the drive yields them, the bridge publishes them across threads, and the
client reads them from the text of the response.
-/

namespace SlimxAgent

open Interaction

variable {σ : Type}

/-! ## Events on the wire -/

/-- The event that an operation yields. -/
def WireOp.yielded? : WireOp → Option Event
  | .yieldEvent payload => some payload
  | _ => none

/-- The events that a record yields, oldest first. -/
def yieldedBy (history : History wireSignature (Raised String) σ) : List Event :=
  history.filterMap fun call => call.op.yielded?

def withYielded (past : List Event) (call : Served wireSignature (Raised String) σ) :
    List Event :=
  past ++ call.op.yielded?.toList

theorem foldl_yielded (history : History wireSignature (Raised String) σ) (past : List Event) :
    history.foldl withYielded past = past ++ yieldedBy history := by
  induction history generalizing past with
  | nil => exact (List.append_nil past).symm
  | cons call history ih =>
      rw [List.foldl_cons, ih, withYielded, List.append_assoc, yieldedBy, yieldedBy,
        List.filterMap_cons]
      cases call.op.yielded? <;> rfl

/-- The events that have been answered to reads of the log. -/
def answeredEvents (known : List Event) (call : Served wireSignature (Raised String) σ) :
    List Event :=
  match call with
  | ⟨_, .request ⟨.eventsAfter _ _, _⟩, .ok response, _⟩ =>
      known ++ (HostClient.eventList response).toOption.getD []
  | _ => known

/-- The body of every answer was decoded from a text. -/
def FromText (floatText : String → String) (call : Served wireSignature (Raised String) σ) :
    Prop :=
  match call with
  | ⟨_, .request _, .ok response, _⟩ => ∀ body, response.json = some body →
      ∃ text, Json.loads floatText text = some body
  | _ => True

/-- An event is yielded after it was read. -/
def YieldsRead (state : σ × List Event) : WireOp → Prop
  | .yieldEvent payload => payload ∈ state.2
  | _ => True

theorem objects?_members {items : List Json} {objects : List Dict}
    (held : objects? items = some objects) : items = objects.map .obj := by
  induction items generalizing objects with
  | nil =>
      cases held
      rfl
  | cons item items ih =>
      cases item with
      | obj fields =>
          rcases Option.map_eq_some_iff.mp held with ⟨others, rest, rfl⟩
          rw [List.map_cons, ih rest]
      | _ => cases held

theorem expectEvent_eq_ok {fields : Dict} {payload : Event}
    (read : expectEvent fields = .ok payload) : payload.fields = fields := by
  rw [expectEvent] at read
  split at read
  · cases read
    rfl
  · cases read

theorem mapM_expectEvent {objects : List Dict} {events : List Event}
    (read : objects.mapM expectEvent = .ok events) : objects = events.map Event.fields := by
  induction objects generalizing events with
  | nil =>
      cases read
      rfl
  | cons fields objects ih =>
      rw [List.mapM_cons] at read
      rcases bind_eq_ok.mp read with ⟨payload, first, read⟩
      rcases bind_eq_ok.mp read with ⟨others, rest, read⟩
      cases read
      rw [List.map_cons, expectEvent_eq_ok first, ih rest]

/-- A body that is an array came with the response. -/
theorem requestAnswer_array {response : Response} {items : List Json}
    (answered : requestAnswer false response = .ok (.body (.arr items))) :
    response.json = some (.arr items) := by
  rw [requestAnswer] at answered
  split at answered
  · cases answered
  split at answered
  · cases answered
  split at answered
  · cases answered
  split at answered
  · cases answered
  · rename_i body here
    cases answered
    exact here

/-- An event list that was read is the array of the answer. -/
theorem eventList_eq_ok {response : Response} {events : List Event}
    (read : HostClient.eventList response = .ok events) :
    response.json = some (.arr (events.map fun payload => .obj payload.fields)) := by
  rcases bind_eq_ok.mp read with ⟨objects, listed, read⟩
  rcases bind_eq_ok.mp listed with ⟨answer, answered, listed⟩
  rw [expectObjectList.eq_def] at listed
  split at listed
  · rename_i items
    split at listed
    · rename_i others held
      cases listed
      rw [requestAnswer_array answered, objects?_members held, mapM_expectEvent read,
        List.map_map]
      rfl
    · cases listed
  · cases listed

/-! ## A drive over the wire shows what it reads -/

section Wire

variable {world : World wireSignature (Raised String) σ} {profile : RunProfile}

theorem showing_wire :
    Showing (engineWorld (world.monitored answeredEvents) profile)
      (Meets (world.monitored answeredEvents) profile YieldsRead)
      fun state payload => payload ∈ state.2 where
  free {state op} unshown := by
    rw [Meets]
    cases asks : op.request profile with
    | some request =>
        obtain ⟨finish, shape⟩ := overWire_request asks
        rw [shape]
        apply wp_exchange_met
        rw [Request.op]
        split <;> trivial
    | none =>
        cases op with
        | rollback => trivial
        | currentType step => trivial
        | currentTitle step => trivial
        | currentStatus step => trivial
        | now => exact wp_perform.mpr ⟨trivial, fun _ _ _ => trivial, fun _ _ _ => trivial⟩
        | yieldEvent payload => cases unshown
        | _ => cases asks
  shows known := wp_perform.mpr ⟨known, fun _ _ _ => trivial, fun _ _ _ => trivial⟩
  learns {state runId sequence events after payload} served member := by
    have runs : Runs _ (overWire profile (.drainedEvents runId sequence)) state (.ok events)
      after := served
    rw [overWire_drainedEvents] at runs
    rcases runs_exchange.mp runs with ⟨reply, replies, finished⟩
    cases reply with
    | error error => cases error <;> cases finished
    | ok response =>
        have listed : HostClient.eventList response = .ok events := by
          rw [observe] at finished
          cases read : HostClient.eventList response with
          | error error =>
              rw [read] at finished
              cases finished
          | ok others =>
              rw [read] at finished
              cases finished
              rfl
        rcases replies_monitored replies with ⟨_, _, moved⟩ | ⟨_, _, _, refused, _⟩
        · rw [moved, answeredEvents, listed]
          exact List.mem_append_right _ member
        · cases refused
  keeps {state payload answer after other} served known := by
    have runs : Runs (world.monitored answeredEvents) (overWire profile (.yieldEvent payload))
      state answer after := served
    rcases Runs.call_iff.mp runs with ⟨result, middle, called, rest⟩
    rw [(runs_ofExcept.mp rest).2, called.2]
    exact known

/-- A streamed execution yields what it has read. -/
theorem wp_streamed (admission : Admission) (run : RunView String) (fuel : Nat)
    (state : σ × List Event) :
    wp (world.monitored answeredEvents) YieldsRead (streamed admission run fuel)
      (fun _ _ => True) (fun _ _ => True) state := by
  have drive : wp (world.monitored answeredEvents) YieldsRead
      (standaloneEvents admission.profile remoteRegistry run fuel)
      (fun _ _ => True) (fun _ _ => True) state :=
    wp_overWire (shows_executeRunEvents showing_wire state)
  have attempted : wp (world.monitored answeredEvents) YieldsRead
      (standaloneEvents admission.profile remoteRegistry run fuel).attempt
      (fun _ _ => True) (fun _ _ => True) state := wp_attempt.mpr drive
  apply wp_seq attempted
  intro ended after _
  cases ended with
  | ok ended => trivial
  | error error => cases error <;> trivial

end Wire

/-! ## The client reads what the drive yielded -/

section Client

variable {world : World wireSignature (Raised String) σ} {floatText : String → String}
  {history : History wireSignature (Raised String) σ}

theorem mem_yieldedBy {payload : Event} : payload ∈ yieldedBy history ↔
    ∃ earlier call later, history = earlier ++ call :: later ∧
      call.op = .yieldEvent payload := by
  rw [yieldedBy, List.mem_filterMap]
  constructor
  · rintro ⟨call, member, yielded⟩
    rcases List.append_of_mem member with ⟨earlier, later, split⟩
    refine ⟨earlier, call, later, split, ?_⟩
    cases op : call.op with
    | yieldEvent other =>
        rw [op] at yielded
        cases yielded
        rfl
    | _ =>
        rw [op] at yielded
        cases yielded
  · rintro ⟨earlier, call, later, rfl, op⟩
    refine ⟨call, by simp, ?_⟩
    rw [op]
    rfl

theorem answeredEvents_canonical (writes : Json.WritesFloats floatText)
    (decoded : ∀ call ∈ history, FromText floatText call) {known : List Event}
    (canonical : ∀ payload ∈ known, Json.Canonical floatText (.obj payload.fields)) :
    ∀ payload ∈ history.foldl answeredEvents known,
      Json.Canonical floatText (.obj payload.fields) := by
  induction history generalizing known with
  | nil => exact canonical
  | cons call history ih =>
      apply ih fun call member => decoded call (List.mem_cons_of_mem _ member)
      intro payload member
      rw [answeredEvents.eq_def] at member
      split at member
      · rename_i response _
        rcases List.mem_append.mp member with before | read
        · exact canonical payload before
        · cases listed : HostClient.eventList response with
          | error error =>
              rw [listed] at read
              cases read
          | ok events =>
              rw [listed] at read
              have here := decoded _ List.mem_cons_self _ (eventList_eq_ok listed)
              rcases here with ⟨text, loaded⟩
              cases Json.loads_canonical writes loaded with
              | arr each => exact each _ (List.mem_map_of_mem read)
      · exact canonical payload member

theorem answeredEvents_grows (earlier later : History wireSignature (Raised String) σ)
    (known : List Event) :
    earlier.foldl answeredEvents known ⊆ (earlier ++ later).foldl answeredEvents known := by
  rw [List.foldl_append]
  generalize earlier.foldl answeredEvents known = read
  induction later generalizing read with
  | nil => exact List.Subset.refl _
  | cons call later ih =>
      apply List.Subset.trans ?_ (ih _)
      rw [answeredEvents.eq_def]
      split
      · exact List.subset_append_left _ _
      · exact List.Subset.refl _

/-- The client of a streamed execution reads, from the text that was sent so far, the
events that the drive yielded, each once and in order, up to some point, and all of them
once the stream ended.  Each of them was in an answer to an earlier read of the log. -/
theorem observer_reads (writes : Json.WritesFloats floatText) {admission : Admission}
    {run : RunView String} {fuel : Nat} {state last : σ}
    {outcome : Except (Raised String) (Option Unit)}
    (runs : Runs world.recorded (streamed admission run fuel) (state, []) outcome (last, history))
    (decoded : ∀ call ∈ history, FromText floatText call) {generator : Generator Event}
    (yields : generator.items = yieldedBy history) {schedule : List BridgeAction}
    {shown : Bridge Event}
    (schedules : Schedules Bridge.act (bridge generator) schedule shown) :
    payloads floatText (sent shown.yielded) =
        some (shown.delivered.map fun payload => .obj payload.fields) ∧
      shown.delivered <+: yieldedBy history ∧
      (shown.consumer.ended = true → shown.delivered = yieldedBy history) ∧
      ∀ earlier call later payload, history = earlier ++ call :: later →
        call.op = .yieldEvent payload → payload ∈ earlier.foldl answeredEvents [] := by
  have faithful := schedules.invariant (Bridge.Faithful.initially generator)
    fun faithful acts => faithful.act acts
  have passed := faithful.passed
  have arrived := faithful.arrived
  rw [passed] at arrived
  have front : shown.delivered <+: yieldedBy history := by
    rw [← yields]
    exact Generator.items_of_entries ((List.prefix_append _ _).trans arrived)
  have before : ∀ earlier call later payload, history = earlier ++ call :: later →
      call.op = .yieldEvent payload → payload ∈ earlier.foldl answeredEvents [] := by
    intro earlier call later payload split op
    have met := Runs.monitor_guarded [] runs (wp_streamed admission run fuel (state, [])) split
    rw [op] at met
    exact met
  refine ⟨payloads_sent ?_, front, ?_, before⟩
  · intro payload member
    rcases mem_yieldedBy.mp (front.subset member) with ⟨earlier, call, later, split, op⟩
    apply answeredEvents_canonical writes decoded (fun _ absent => absurd absent List.not_mem_nil)
    rw [split]
    exact answeredEvents_grows earlier _ [] (before earlier call later payload split op)
  · intro ended
    rw [ended] at arrived
    rw [← yields]
    exact Generator.items_of_ended arrived

/-- A host that cancelled the run as it was started. -/
def cancelledText : Target → String
  | .nextSequence _ => "\x7b\"next_sequence\": 4\x7d"
  | .eventsAfter _ after =>
      if after < 4 then "[\x7b\"sequence\": 4, \"type\": \"run.cancelled\"\x7d]" else "[]"
  | _ => "\x7b\"id\": \"run-1\", \"status\": \"cancelled\"\x7d"

/-- It answers with a text, which the client decodes. -/
def serveCancelled : (op : WireOp) → Unit → Except (Raised String) op.Res × Unit
  | .request request, state =>
      let text := cancelledText request.target
      (.ok ⟨200, false, Json.loads id text, text⟩, state)
  | .refused _ _, state => (.ok (), state)
  | .now, state => (.ok 0, state)
  | .yieldEvent _, state => (.ok (), state)

theorem serveCancelled_fromText {call : Served wireSignature (Raised String) Unit}
    (served : (World.ofFn serveCancelled).serve call.before call.op call.answer call.after) :
    FromText id call := by
  rcases call with ⟨before, op, answer, after⟩
  cases op with
  | request request =>
      cases served
      exact fun body decoded => ⟨_, decoded⟩
  | _ => trivial

/-- An observer that waits out an interval, and stays to the end. -/
def patientObserver : List BridgeAction :=
  [.work, .timeout, .work, .work, .deliver, .resume, .read, .work, .resume, .work, .work,
    .deliver, .read]

theorem patientObserver_ends {T : Type} (item : T) :
    ∃ shown, Schedules Bridge.act (bridge ⟨[item], false⟩) patientObserver shown ∧
      shown.consumer.ended = true ∧ shown.yielded = [none, some item] :=
  ⟨_, rfl, rfl, rfl⟩

/-- The stream of a run that was cancelled as it was started. -/
theorem observer_reads_cancelled :
    ∃ outcome last history shown,
      Runs (World.ofFn serveCancelled).recorded
        (streamed ⟨.make none, ⟨"ollama", "qwen3:8b", none⟩, "run-1"⟩ seedHost.run 2) ((), [])
        outcome (last, history) ∧
      Schedules Bridge.act (bridge ⟨yieldedBy history, false⟩) patientObserver shown ∧
      shown.yielded = none :: (yieldedBy history).map some ∧
      (yieldedBy history).map Event.sequence = [4] ∧
      payloads id (sent shown.yielded) =
        some ((yieldedBy history).map fun payload => .obj payload.fields) := by
  rcases record_ofFn serveCancelled withYielded
    (streamed ⟨.make none, ⟨"ollama", "qwen3:8b", none⟩, "run-1"⟩ seedHost.run 2) () []
    with ⟨history, runs, collected⟩
  have sequences : (yieldedBy history).map Event.sequence = [4] := by
    have evaluated := congrArg (List.map Event.sequence) collected
    rw [foldl_yielded] at evaluated
    apply Eq.trans evaluated
    decide +kernel
  have single : ∃ item, yieldedBy history = [item] := by
    have length := congrArg List.length sequences
    rw [List.length_map] at length
    exact List.length_eq_one_iff.mp length
  rcases single with ⟨item, items⟩
  rcases patientObserver_ends item with ⟨shown, schedules, ended, yielded⟩
  rw [← items] at schedules
  have writes : Json.WritesFloats id := ⟨fun real => real, fun _ => rfl, fun _ => rfl⟩
  have decoded := fun call member => serveCancelled_fromText
    (runs.answered (fun _ absent => absurd absent List.not_mem_nil) call member)
  have reads := observer_reads writes runs decoded rfl schedules
  refine ⟨_, _, history, shown, runs, schedules, ?_, sequences, ?_⟩
  · rw [yielded, items]
    rfl
  · rw [← reads.2.2.1 ended]
    exact reads.1

end Client

/-! ## The client reads the durable log -/

section Log

variable {state after : HostState} {rules : HostRules} {clock : HostState → ℚ}

theorem HostState.Extends.trans {later : HostState} (first : state.Extends after)
    (second : after.Extends later) : state.Extends later := by
  rcases first with ⟨sameRun, sameStart, added, entries⟩
  rcases second with ⟨sameRun', sameStart', added', entries'⟩
  refine ⟨sameRun'.trans sameRun, sameStart'.trans sameStart, added ++ added', ?_⟩
  rw [entries', entries, List.append_assoc]

theorem engineWorld_ofFn (rules : HostRules) (clock : HostState → ℚ) (profile : RunProfile) :
    engineWorld (World.ofFn (rules.serve clock)) profile =
      World.ofFn (rules.remote clock profile) := by
  unfold engineWorld World.pull World.ofFn
  congr
  funext state op answer after
  exact propext runs_ofFn

theorem HostRules.OnlyAppends.serve (appends : rules.OnlyAppends) (op : WireOp) :
    state.Extends (rules.serve clock op state).2 := by
  cases op with
  | request request =>
      rcases request with ⟨target, json⟩
      cases target with
      | events runId => exact ⟨rfl, rfl, _, rfl⟩
      | invoke runId stepId => exact appends.invoke stepId state
      | runEnd runId => exact appends.epilogue _ { state with runEnds := _ }
      | _ => exact .refl _
  | _ => exact .refl _

theorem HostRules.OnlyAppends.eval (appends : rules.OnlyAppends) {α : Type} (program : Wire α) :
    state.Extends (program.eval (rules.serve clock) state).2 := by
  induction program generalizing state with
  | done value => exact .refl state
  | raise error => exact .refl state
  | call op next ih => exact (appends.serve op).trans (ih _)

theorem HostRules.OnlyAppends.remote (appends : rules.OnlyAppends) {profile : RunProfile}
    {op : EngineOp String} {answer : Except (Raised String) op.Res}
    (served : (engineWorld (World.ofFn (rules.serve clock)) profile).serve state op answer after) :
    state.Extends after := by
  have extended : state.Extends ((overWire profile op).eval (rules.serve clock) state).2 :=
    appends.eval _
  rw [runs_ofFn.mp served] at extended
  exact extended

/-- The host over HTTP keeps such a log too. -/
theorem HostRules.OnlyAppends.wireLog (appends : rules.OnlyAppends) (clock : HostState → ℚ)
    (profile : RunProfile) {runId : String} (segmentable : Segmentable runId) :
    EventLog (engineWorld (World.ofFn (rules.serve clock)) profile) runId HostState.log
      fun state => state.nextSequence where
  ordered := HostState.ordered_log
  grows {state op answer after} served := by
    rcases appends.remote served with ⟨sameRun, sameStart, added, entries⟩
    refine ⟨_, HostState.log_extends entries sameRun sameStart, ?_⟩
    intro event member
    rcases List.mem_mapIdx.mp member with ⟨index, bound, rfl⟩
    simp only [LogEntry.event]
    omega
  rises {state op answer after} served := by
    rcases appends.remote served with ⟨_, sameStart, added, entries⟩
    simp only [HostState.nextSequence, entries, sameStart, List.length_append]
    omega
  next {state next after} served := by
    have answered : rules.remote clock profile (.nextSequence runId) state = (.ok next, after) :=
      runs_ofFn.mp served
    rw [remote_nextSequence segmentable] at answered
    exact (appends.eventLog clock runId).next answered
  drained {state sequence events after} served := by
    have answered : rules.remote clock profile (.drainedEvents runId sequence) state =
        (.ok events, after) := runs_ofFn.mp served
    rw [remote_drainedEvents segmentable] at answered
    exact (appends.eventLog clock runId).drained answered

/-- An event of the host is a JSON value if its payload is. -/
theorem LogEntry.event_canonical {floatText : String → String} {entry : LogEntry}
    (canonical : ∀ payload, entry.payload = some payload → Json.Canonical floatText (.obj payload))
    (runId : String) (sequence : Nat) :
    Json.Canonical floatText (.obj (entry.event runId sequence).fields) := by
  apply Json.Canonical.obj
  · simp [LogEntry.event]
  · simp only [LogEntry.event, List.forall_mem_cons]
    refine ⟨.str _, .str _, ?_, .int _, .str _, ?_, .null, fun _ absent => ?_⟩
    · cases entry.stepId with
      | none => exact .null
      | some stepId => exact .str stepId
    · cases held : entry.payload with
      | none => exact .null
      | some payload => exact canonical payload held
    · cases absent

theorem HostState.log_canonical {floatText : String → String}
    (canonical : ∀ entry ∈ state.entries, ∀ payload, entry.payload = some payload →
      Json.Canonical floatText (.obj payload)) :
    ∀ event ∈ state.log, Json.Canonical floatText (.obj event.fields) := by
  intro event member
  rcases List.mem_mapIdx.mp member with ⟨index, bound, rfl⟩
  exact LogEntry.event_canonical (canonical _ (List.getElem_mem bound)) _ _

end Log

/-- Over a host that keeps an append-only log of JSON values: the client that stays to the
end of the stream of a drive that returned reads the durable log from the sequence that the
drive began with to its last read, which nothing that the drive appended came after. -/
theorem observer_reads_log {world : World wireSignature (Raised String) σ} {profile : RunProfile}
    {run : RunView String} {log : σ → List Event} {floor : σ → Int}
    {floatText : String → String}
    (store : EventLog (engineWorld world profile) run.id log floor) {fuel : Nat}
    (alive : run.status ∉ terminalRunStatuses) {state last : σ}
    {history : History (engineSignature String) (Raised String) σ}
    (runs : Runs (engineWorld world profile).recorded
      (executeRunEvents remoteRegistry run true fuel) (state, []) (.ok (some ())) (last, history))
    (canonical : ∀ payload ∈ log last, Json.Canonical floatText (.obj payload.fields))
    {generator : Generator Event}
    (yields : generator.items = (history.foldl (StreamView.advance log) .start).yielded)
    {schedule : List BridgeAction} {shown : Bridge Event}
    (schedules : Schedules Bridge.act (bridge generator) schedule shown)
    (ended : shown.consumer.ended = true) :
    ∃ next seen, (history.foldl (StreamView.advance log) .start).first = some next ∧
      (history.foldl (StreamView.advance log) .start).seen = some seen ∧
      (history.foldl (StreamView.advance log) .start).appendedSince = false ∧
      payloads floatText (sent shown.yielded) =
        some ((StreamView.eventsFrom next seen).map fun payload => .obj payload.fields) := by
  have ends := runs.monitor_post
    (wp_streamed_executeRunEvents store remoteRegistry true fuel alive state)
  rcases ends with ⟨next, cursor, seen, caught⟩
  rcases caught.tailed with ⟨rest, tailed⟩
  have faithful := schedules.invariant (Bridge.Faithful.initially generator)
    fun faithful acts => faithful.act acts
  have arrived := faithful.arrived
  rw [faithful.passed, ended] at arrived
  have whole : shown.delivered = StreamView.eventsFrom next seen := by
    rw [Generator.items_of_ended arrived, yields, caught.yielded]
  refine ⟨next, seen, caught.first, ?_, caught.settled, ?_⟩
  · have current := caught.current
    rw [List.append_nil] at current
    exact current
  · rw [← whole]
    apply payloads_sent
    intro payload member
    apply canonical payload
    have kept : payload ∈ seen := by
      have member : payload ∈ shown.delivered := member
      rw [whole] at member
      exact List.mem_of_mem_filter member
    rw [tailed.split]
    exact List.mem_append_left _ kept

/-- Take the items one by one, to the end. -/
def steadyObserver (items : Nat) : List BridgeAction :=
  (List.replicate items [BridgeAction.work, .work, .work, .deliver, .read, .resume]).flatten ++
    [.work, .work, .work, .deliver, .read]

theorem steadyObserver_ends {T : Type} (first second third : T) :
    ∃ shown, Schedules Bridge.act (bridge ⟨[first, second, third], false⟩) (steadyObserver 3)
      shown ∧ shown.consumer.ended = true :=
  ⟨_, rfl, rfl⟩

/-- The three events of a run of one model call. -/
theorem observer_reads_log_model_call :
    ∃ last history shown,
      Runs (engineWorld (World.ofFn (plainRules.serve fun _ => 0))
          ⟨"ollama", "qwen3:8b", none⟩).recorded
        (executeRunEvents remoteRegistry modelCallHost.run true 2) (modelCallHost, [])
        (.ok (some ())) (last, history) ∧
      Schedules Bridge.act
        (bridge ⟨(history.foldl (StreamView.advance HostState.log) .start).yielded, false⟩)
        (steadyObserver 3) shown ∧
      ∃ next seen, (history.foldl (StreamView.advance HostState.log) .start).first = some next ∧
        (history.foldl (StreamView.advance HostState.log) .start).seen = some seen ∧
        (history.foldl (StreamView.advance HostState.log) .start).appendedSince = false ∧
        payloads id (sent shown.yielded) =
          some ((StreamView.eventsFrom next seen).map fun payload => .obj payload.fields) := by
  have appends : HostRules.OnlyAppends plainRules :=
    ⟨fun _ state => .refl state, fun _ state => .refl state⟩
  have segmentable : Segmentable modelCallHost.run.id := ⟨by decide, by decide, by decide⟩
  have store := appends.wireLog (fun _ => 0) ⟨"ollama", "qwen3:8b", none⟩ segmentable
  rcases record_ofFn (plainRules.remote (fun _ => 0) ⟨"ollama", "qwen3:8b", none⟩)
    (StreamView.advance HostState.log) (executeRunEvents remoteRegistry modelCallHost.run true 2)
    modelCallHost .start with ⟨history, runs, watched⟩
  rw [← engineWorld_ofFn] at runs
  have counted : (history.foldl (StreamView.advance HostState.log) .start).yielded.length = 3 := by
    rw [watched]
    rfl
  rcases List.length_eq_three.mp counted with ⟨first, second, third, items⟩
  rcases steadyObserver_ends first second third with ⟨shown, schedules, ended⟩
  rw [← items] at schedules
  refine ⟨_, history, shown, runs, schedules, observer_reads_log store (by decide) runs
    (HostState.log_canonical fun entry member => ?_) rfl schedules ended⟩
  change entry ∈ [
    LogEntry.mk "agent.step.started" (some "step-1") (some [("type", .str "model_call")]),
    ⟨"agent.step.completed", some "step-1", some [("type", .str "model_call")]⟩,
    ⟨"agent.run.completed", none, none⟩] at member
  have typed : Json.Canonical id (.obj [("type", .str "model_call")]) :=
    .obj (by decide) fun entry member => by
      cases List.mem_singleton.mp member
      exact .str _
  rw [List.mem_cons, List.mem_cons, List.mem_singleton] at member
  rcases member with rfl | rfl | rfl <;> rintro payload ⟨⟩ <;> exact typed

end SlimxAgent
