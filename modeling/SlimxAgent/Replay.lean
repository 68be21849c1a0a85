import SlimxAgent.Book
import SlimxAgent.Interaction.Sessions
import Mathlib.Data.List.Induction
import Mathlib.Data.List.Nodup

/-!
# Replay of the event log

The statuses of the steps can be rebuilt from the log: every transition is written
together with an event that names the step and the status it entered.
-/

namespace SlimxAgent

open Interaction

variable {ι σ : Type}

/-- The event types that record a transition, with the status the step entered. -/
def transitionEvents : List (EventType × StepStatus) :=
  [(.stepStarted, .running), (.stepCompleted, .completed), (.stepFailed, .failed),
    (.stepSkipped, .skipped), (.approvalRequired, .awaitingApproval),
    (.approvalGranted, .approved)]

namespace Event

/-- The status that a step entered, if the event records a transition. -/
def status? (event : Event) : Option StepStatus :=
  event.type.asStr?.bind fun text =>
    (transitionEvents.find? fun entry => entry.1.text == text).map Prod.snd

/-- The event is about the step. -/
def names [HostId ι] (event : Event) (stepId : ι) : Bool :=
  event.agentStepId.asStr? == some (HostId.text stepId)

/-- What the event makes of a step's status. -/
def replay [HostId ι] (stepId : ι) (status : StepStatus) (event : Event) : StepStatus :=
  if event.names stepId then event.status?.getD status else status

end Event

/-- The status of a step according to the log: pending at first, then as the events
say. -/
def replayed [HostId ι] (log : List Event) (stepId : ι) : StepStatus :=
  log.foldl (Event.replay stepId) .pending

namespace Book

/-- The statuses are those of the log. -/
def Replays [HostId ι] (book : Book ι) : Prop :=
  ∀ stepId ∈ book.order, book.status stepId = replayed book.log stepId

/-- The log is behind by one transition of a step. -/
def ReplaysBut [HostId ι] (book : Book ι) (due : ι) : Prop :=
  ∀ stepId ∈ book.order, stepId ≠ due → book.status stepId = replayed book.log stepId

/-- No status is written and no transition logged; pending steps may be appended, which
the log does not name. -/
structure Unrecorded [HostId ι] (before after : Book ι) : Prop where
  added : before.order <+: after.order
  distinct : (before.order.map HostId.text).Nodup → (after.order.map HostId.text).Nodup
  status : ∀ stepId ∈ before.order, after.status stepId = before.status stepId
  fresh : ∀ stepId ∈ after.order, stepId ∉ before.order →
    after.status stepId = .pending ∧ ∀ event ∈ before.log, event.names stepId = false
  logged : ∃ events, after.log = before.log ++ events ∧ ∀ event ∈ events, event.status? = none

end Book

section Replaying

variable [HostId ι] {log : List Event} {stepId : ι}

@[simp] theorem replayed_append (log : List Event) (event : Event) (stepId : ι) :
    replayed (log ++ [event]) stepId = event.replay stepId (replayed log stepId) :=
  List.foldl_append

theorem replayed_unrecorded (log : List Event) {events : List Event}
    (unrecorded : ∀ event ∈ events, event.status? = none) (stepId : ι) :
    replayed (log ++ events) stepId = replayed log stepId := by
  induction events using List.reverseRecOn with
  | nil => rw [List.append_nil]
  | append_singleton events event ih =>
      have silent : event.status? = none := unrecorded event (by simp)
      rw [← List.append_assoc, replayed_append, ih fun earlier member =>
        unrecorded earlier (List.mem_append_left _ member)]
      simp [Event.replay, silent]

/-- A step that the log does not name is pending. -/
theorem replayed_unnamed (unnamed : ∀ event ∈ log, event.names stepId = false) :
    replayed log stepId = .pending := by
  induction log using List.reverseRecOn with
  | nil => rfl
  | append_singleton log event ih =>
      have other : event.names stepId = false := unnamed event (by simp)
      rw [replayed_append, ih fun earlier member => unnamed earlier (List.mem_append_left _ member)]
      simp [Event.replay, other]

theorem Event.Records.names {event : Event} {type : EventType} {named : ι}
    (records : event.Records type (some named)) (stepId : ι) :
    event.names stepId = (HostId.text named == HostId.text stepId) := by
  simp [Event.names, records.ofStep, Json.ofOption, Json.asStr?]

theorem Event.Records.status? {event : Event} {type : EventType} {named : Option ι}
    (records : event.Records type named) :
    event.status? = (transitionEvents.find? fun entry => entry.1 == type).map Prod.snd := by
  simp only [Event.status?, records.ofType, Json.asStr?, Option.bind_some]
  congr 2
  funext entry
  rw [Bool.eq_iff_iff, beq_iff_eq, beq_iff_eq]
  exact EventType.text_injective.eq_iff

/-- The event of a mark records its status. -/
theorem status?_of_mark {event : Event} {mark : Mark} {named : Option ι}
    (records : event.Records mark.event named) : event.status? = some mark.status := by
  rw [records.status?]
  cases mark <;> rfl

end Replaying

/-- Only the event of the step's transition is due. -/
def Book.Due [HostId ι] (book : Book ι) (stepId : ι) (status : StepStatus) : Prop :=
  book.status stepId = status ∧ book.ReplaysBut stepId

/-- A transition is written, and its event is not. -/
def Stage.Lags : Stage ι → Prop
  | .recording _ _ _ => True
  | .parked _ _ => True
  | .entered _ _ => True
  | _ => False

/-- What a stage tells of the log. -/
def Stage.Replays [HostId ι] (stage : Stage ι) (book : Book ι) : Prop :=
  match stage with
  | .recording visit mark _ => book.Due visit.step.id mark.status
  | .parked visit _ => book.Due visit.step.id .awaitingApproval
  | .entered visit _ => book.Due visit.step.id .running
  | _ => book.Replays

section Proof

variable [HostId ι] {registry : ToolRegistry} {run : RunView ι} {hooked : Bool}
  {stage : Stage ι} {book later : Book ι} {op : EngineOp ι} {before after : σ}

theorem Book.Unrecorded.replayed (silent : book.Unrecorded later) {stepId : ι}
    (here : book.status stepId = replayed book.log stepId) (member : stepId ∈ book.order) :
    later.status stepId = SlimxAgent.replayed later.log stepId := by
  rcases silent.logged with ⟨events, log, unrecorded⟩
  rw [silent.status stepId member, log, replayed_unrecorded _ unrecorded, here]

theorem Book.Unrecorded.appended (silent : book.Unrecorded later) {stepId : ι}
    (listed : stepId ∈ later.order) (new : stepId ∉ book.order) :
    later.status stepId = SlimxAgent.replayed later.log stepId := by
  rcases silent.logged with ⟨events, log, unrecorded⟩
  rcases silent.fresh stepId listed new with ⟨pending, unnamed⟩
  rw [log, replayed_unrecorded _ unrecorded, replayed_unnamed unnamed, pending]

theorem Book.Replays.unrecorded (replays : book.Replays) (silent : book.Unrecorded later) :
    later.Replays := by
  intro stepId listed
  by_cases known : stepId ∈ book.order
  · exact silent.replayed (replays stepId known) known
  · exact silent.appended listed known

theorem Book.ReplaysBut.unrecorded {due : ι} (replays : book.ReplaysBut due)
    (silent : book.Unrecorded later) : later.ReplaysBut due := by
  intro stepId listed distinct
  by_cases known : stepId ∈ book.order
  · exact silent.replayed (replays stepId known distinct) known
  · exact silent.appended listed known

theorem Book.Due.unrecorded {stepId : ι} {status : StepStatus} (due : book.Due stepId status)
    (silent : book.Unrecorded later) (listed : stepId ∈ book.order) : later.Due stepId status := by
  refine ⟨?_, due.2.unrecorded silent⟩
  rw [silent.status stepId listed]
  exact due.1

theorem Stage.Replays.unrecorded (replays : stage.Replays book) (listed : stage.Listed book)
    (silent : book.Unrecorded later) : stage.Replays later := by
  cases stage with
  | recording visit mark row | parked visit row | entered visit row =>
      exact Book.Due.unrecorded replays silent (listed _ rfl)
  | _ => exact Book.Replays.unrecorded replays silent

/-- An event that records no transition. -/
theorem Book.Replays.logs (replays : book.Replays) {event : Event} (silent : event.status? = none) :
    (book.append event).Replays := by
  intro stepId member
  change book.status stepId = SlimxAgent.replayed (book.log ++ [event]) stepId
  rw [replayed_append, replays stepId member]
  simp [Event.replay, silent]

/-- The event of a transition catches up with it. -/
theorem Stage.Replays.records {visit : Visit ι} {mark : Mark} {row : StepView ι}
    (replays : (Stage.recording visit mark row).Replays book) {event : Event}
    (records : event.Records mark.event (some visit.step.id))
    (distinct : (book.order.map HostId.text).Nodup) (listed : visit.step.id ∈ book.order) :
    (book.append event).Replays := by
  rcases replays with ⟨written, others⟩
  intro stepId member
  change book.status stepId = SlimxAgent.replayed (book.log ++ [event]) stepId
  rw [replayed_append, Event.replay, records.names, status?_of_mark records]
  by_cases same : stepId = visit.step.id
  · subst same
    simpa using written
  · have different : HostId.text visit.step.id ≠ HostId.text stepId := by
      intro text
      exact same (List.inj_on_of_nodup_map distinct member listed text.symm)
    simpa [different] using others stepId member same

variable [DecidableEq ι]

theorem Book.Replays.writes (replays : book.Replays) (stepId : ι) (status : StepStatus) :
    (book.setStatus stepId status).Due stepId status := by
  refine ⟨book.setStatus_self .., ?_⟩
  intro earlier member other
  rw [book.setStatus_of_ne other]
  exact replays earlier member

/-- What an answer does to the log and the statuses. -/
theorem Stage.Replays.answered (replays : stage.Replays book) (listed : stage.Listed book)
    (distinct : (book.order.map HostId.text).Nodup) (sound : stage.Sound)
    (asks : Asks registry run stage op) (wrote : Book.Wrote op book later) (result : op.Res) :
    (stage.next run hooked op result).Replays later := by
  cases asks with
  | streams streams served =>
      rw [next_streams streams served, wrote.streamed served]
      exact replays
  | rereads turns =>
      cases wrote
      rw [next_turns turns]
      cases stage <;> first | exact replays | cases turns
  | lists ongoing =>
      rename_i current
      cases wrote
      change (Stage.listed run current result).Replays book
      rw [Stage.listed]
      cases firstUnfinished result <;> exact replays
  | skips _ _ | parks _ _ _ | clears _ _ _ _ | enters _ _ | proceeds | refuses _ | completes =>
      cases wrote
      exact Book.Replays.writes replays ..
  | settles =>
      rcases sound with ⟨_, _, stepType, message, rfl | rfl⟩
      · cases wrote
        exact Book.Replays.writes replays ..
      · cases wrote
        exact Book.Replays.writes replays ..
  | records =>
      rename_i visit mark row
      rcases wrote with ⟨event, records, rfl⟩
      have logged := replays.records records distinct (listed _ rfl)
      cases mark <;> exact logged
  | exhausts _ _ | reports | logsPause | reportsRan _ =>
      rcases wrote with ⟨event, records, rfl⟩
      exact Book.Replays.logs replays (records.status?.trans rfl)
  | logsCompletion =>
      rcases wrote with ⟨event, records, rfl⟩
      have logged := Book.Replays.logs replays (records.status?.trans rfl)
      cases hooked <;> exact logged
  | refetches =>
      cases wrote
      cases result <;> exact replays
  | titles | shows =>
      cases wrote
      exact replays
  | failsRun =>
      cases wrote
      cases hooked <;> exact replays
  | _ =>
      cases wrote
      exact replays

/-- An exception of a handler, of the hook or of the stream. -/
theorem Stage.Replays.raised {error : Raised ι} (replays : stage.Replays book)
    (asks : Asks registry run stage op) (leaves : op.LeavesStore)
    (wrote : Book.Wrote op book later) : (stage.fail op error).Replays later := by
  cases asks with
  | streams streams served =>
      cases wrote.streamed served
      cases op <;> cases stage <;> first | exact replays | exact streams.elim
  | settles =>
      rename_i visit mark
      cases mark <;> exact leaves.elim
  | handles _ | notifies =>
      cases wrote
      exact replays
  | _ => exact leaves.elim

/-- What a drive keeps of the log. -/
structure Rebuilt (book : Book ι) (stage : Stage ι) : Prop where
  distinct : (book.order.map HostId.text).Nodup
  listed : stage.Listed book
  replays : stage.Replays book

variable {world : World (engineSignature ι) (Raised ι) σ} {course : Course ι}

theorem Rebuilt.served {book : σ → Book ι}
    (store : BookKept world run book Book.Unrecorded Book.Unrecorded)
    {answer : Except (Raised ι) op.Res} (rebuilt : Rebuilt (book before) course.stage)
    (sound : course.stage.Sound) (asks : Asks registry run course.stage op)
    (served : world.serve before op answer after) :
    Rebuilt (book after) (course.advance run hooked ⟨before, op, answer, after⟩).stage := by
  rcases store.moved served with ⟨moved, silent, wrote⟩
  have distinct := silent.distinct rebuilt.distinct
  have listed : course.stage.Listed moved := fun stepId here =>
    silent.added.subset (rebuilt.listed stepId here)
  have still : course.stage.Listed (book after) := by
    intro stepId here
    rw [wrote.order]
    exact listed stepId here
  have replays := rebuilt.replays.unrecorded rebuilt.listed silent
  cases answer with
  | ok result =>
      constructor
      · rw [wrote.order]
        exact distinct
      · exact still.answered asks result (store.answers served)
      · exact replays.answered listed distinct sound asks wrote result
  | error error =>
      constructor
      · rw [wrote.order]
        exact distinct
      · exact still.raised op error
      · exact replays.raised asks (store.succeeds served) wrote

omit [DecidableEq ι] in
/-- Where no event is due the log is complete. -/
theorem Rebuilt.complete {book : Book ι} (rebuilt : Rebuilt book stage)
    (even : ¬ stage.Lags) : book.Replays := by
  have replays := rebuilt.replays
  cases stage with
  | recording visit mark row => exact absurd trivial even
  | parked visit row => exact absurd trivial even
  | entered visit row => exact absurd trivial even
  | _ => exact replays

omit [DecidableEq ι] in
/-- Nothing is yielded while an event is due. -/
theorem even_of_yields {payload : Event} (asks : Asks registry run stage (.yieldEvent payload)) :
    ¬ stage.Lags := by
  generalize same : EngineOp.yieldEvent payload = op at asks
  cases asks with
  | streams streams _ =>
      intro lags
      cases stage <;> first | exact lags | exact streams
  | settles =>
      rename_i visit mark
      cases mark <;> cases same
  | _ => cases same

omit [DecidableEq ι] [HostId ι] in
/-- No drive ends with an event due. -/
theorem CourseEnds.even {course : Course ι} {fuel : Nat}
    {outcome : Except (Raised ι) (Option Unit)} (ends : CourseEnds run fuel outcome course) :
    ¬ course.stage.Lags := by
  rcases course with ⟨stage, passes⟩
  intro lags
  cases stage <;> first
    | exact lags
    | rcases outcome with error | _ | _ <;>
        simp [CourseEnds, Stage.Raises, Stage.Returns, Stage.turns] at ends

/-- A drive of a run whose log is complete: the log is complete at every yield and at
the end. -/
theorem replays_drive {book : σ → Book ι}
    (store : BookKept world run book Book.Unrecorded Book.Unrecorded) {fuel : Nat}
    {state last : σ} {outcome : Except (Raised ι) (Option Unit)}
    {history : History (engineSignature ι) (Raised ι) σ}
    (runs : Runs world.recorded (executeRunEvents registry run hooked fuel) (state, []) outcome
      (last, history)) (distinct : ((book state).order.map HostId.text).Nodup)
    (replays : (book state).Replays) :
    ((book last).order.map HostId.text).Nodup ∧ (book last).Replays ∧
      ∀ call ∈ history, ∀ payload, call.op = .yieldEvent payload → (book call.before).Replays := by
  have kept := course_invariant (fun here course _ => Rebuilt (book here) course.stage) runs
    (fun sound asks rebuilt served => rebuilt.served store sound asks served)
    ⟨distinct, nofun, replays⟩
  rcases kept with ⟨calls, rebuilt, ends⟩
  refine ⟨rebuilt.distinct, rebuilt.complete ends.even, ?_⟩
  intro call member payload yields
  rcases List.append_of_mem member with ⟨earlier, later, split⟩
  rcases calls earlier call later split with ⟨asks, _, before⟩
  rw [yields] at asks
  exact before.complete (even_of_yields asks)

end Proof

/-- The log and the statuses, over any sequence of drives.  Nobody but the engine writes a
step's status or logs a transition; steps may be appended, pending.  Then at every yield
of a drive and wherever one ends, by a return or by an exception, the status of every
step is that of the log. -/
theorem log_replays [HostId ι] [DecidableEq ι] {world : World (engineSignature ι) (Raised ι) σ}
    {run : RunView ι} {book : σ → Book ι}
    (store : BookKept world run book Book.Unrecorded Book.Unrecorded) {state last : σ}
    {history : History (engineSignature ι) (Raised ι) σ}
    (sessions : Sessions (Drives world run.id)
      (fun before after => (book before).Unrecorded (book after)) state history last)
    (distinct : ((book state).order.map HostId.text).Nodup) (replays : (book state).Replays) :
    (book last).Replays ∧
      ∀ call ∈ history, ∀ payload, call.op = .yieldEvent payload → (book call.before).Replays := by
  have kept := sessions.invariant (fun calls here =>
      ((book here).order.map HostId.text).Nodup ∧ (book here).Replays ∧
        ∀ call ∈ calls, ∀ payload, call.op = .yieldEvent payload → (book call.before).Replays)
    ⟨distinct, replays, fun _ member => absurd member List.not_mem_nil⟩
    (fun known silent => ⟨silent.distinct known.1, known.2.1.unrecorded silent, known.2.2⟩)
    (fun {past here calls after} known drive => by
      rcases drive with ⟨registry, other, hooked, fuel, outcome, same, runs⟩
      rcases replays_drive (store.of_id same) runs known.1 known.2.1 with ⟨still, ends, yields⟩
      refine ⟨still, ends, ?_⟩
      intro call member
      rcases List.mem_append.mp member with earlier | now
      · exact known.2.2 call earlier
      · exact yields call now)
  exact kept.2

/-- A run with a search that is not granted and two model calls. -/
def trialHost : HostState :=
  .holding ⟨"run-1", .other "planned" RunStatus.planned_unlisted, some .autoComplete, false,
    .json .null, .null, .null, .json .null⟩
    [("step-1", ⟨"web_search", "Search", .pending, false, none, none⟩),
      ("step-2", ⟨"model_call", "Ask", .pending, false, none, none⟩),
      ("step-3", ⟨"model_call", "Ask again", .pending, false, none, none⟩)]

/-- Tools of which the second fails. -/
def trialRules : HostRules :=
  ⟨fun stepId state => (if stepId = "step-2" then .failed "refused" else .completed none, state),
    fun _ state => state⟩

/-- The search is skipped and the call fails, and the log tells it. -/
theorem log_replays_trial :
    ∃ last history,
      Sessions (Drives (World.ofFn (trialRules.respond fun _ => 0)) trialHost.run.id)
        (fun before after => before.book.Unrecorded after.book) trialHost history last ∧
      last.order.map (fun stepId => (last.rows stepId).status) = [.skipped, .failed, .pending] ∧
      last.book.Replays := by
  have silent : ∀ book : Book String, book.Unrecorded book := fun book =>
    ⟨List.prefix_rfl, id, fun _ _ => rfl, fun _ listed new => absurd listed new,
      [], (List.append_nil _).symm, fun _ member => absurd member List.not_mem_nil⟩
  have store : BookKept (World.ofFn (trialRules.respond fun _ => 0)) trialHost.run HostState.book
      Book.Unrecorded Book.Unrecorded :=
    HostRules.bookKept silent (fun _ _ => silent _) fun _ _ => silent _
  rcases record_ofFn (trialRules.respond fun _ => 0) (Course.advance trialHost.run true)
    (executeRunEvents ⟨["web_search", "model_call"], by decide⟩ trialHost.run true 4) trialHost
    .start with ⟨history, runs, _⟩
  have sessions : Sessions (Drives (World.ofFn (trialRules.respond fun _ => 0)) trialHost.run.id)
      (fun before after => before.book.Unrecorded after.book) trialHost ([] ++ history) _ :=
    .session .nothing ⟨_, _, _, _, _, rfl, runs⟩
  have initially : ∀ stepId ∈ trialHost.book.order,
      trialHost.book.status stepId = replayed trialHost.book.log stepId := by
    decide
  exact ⟨_, _, sessions, by decide, (log_replays store sessions (by decide) initially).1⟩

end SlimxAgent
