import SlimxAgent.Interaction.Machine
import Mathlib.Data.List.ReduceOption
import Mathlib.Data.Option.Basic

/-!
# The SSE bridge

A drive is a synchronous generator; the service streams it from an event loop.  A worker
thread iterates the generator and publishes each item, wrapped, and then an end marker: a
publication schedules a callback on the loop, the callback puts the entry on a queue, and
the consumer yields what it reads there, or `None` when nothing came in time.

The parties share the flag that the observer is gone and whether the loop is closed, and
take their steps in any order (`Bridge.act`).
-/

namespace SlimxAgent

open Interaction

variable {T : Type}

/-- A finite generator: what it yields, and whether an exception ends it. -/
structure Generator (T : Type) where
  items : List T
  raises : Bool

/-- Where the worker thread is. -/
inductive Worker (T : Type) where
  | iterating
  | publishing (entry : Option T)
  /-- It found the flag clear and calls the loop. -/
  | scheduling (entry : Option T)
  /-- The loop was closed, and the flag is to be set. -/
  | disconnected (entry : Option T)
  | finished

/-- How the consumer left its loop. -/
inductive Exit where
  | ended
  | departed
  deriving DecidableEq

/-- Where the consumer is: it awaits an entry, stands at a `yield`, or left its loop and
has, or has not yet, set the flag. -/
inductive Consumer where
  | waiting
  | suspended
  | leaving (exit : Exit)
  | gone (exit : Exit)
  deriving DecidableEq

/-- The shared state. -/
structure Bridge (T : Type) where
  /-- What the generator has still to do. -/
  generator : Generator T
  produced : List T
  failureLogged : Bool
  worker : Worker T
  observerGone : Bool
  loopClosed : Bool
  /-- The scheduled `put_nowait` calls, oldest first. -/
  callbacks : List (Option T)
  queue : List (Option T)
  /-- The entries that `queue.get` returned. -/
  taken : List (Option T)
  consumer : Consumer
  yielded : List (Option T)

/-- The steps of the parties. -/
inductive BridgeAction where
  /-- The worker's next step. -/
  | work
  /-- The loop runs its oldest callback. -/
  | deliver
  | read
  | timeout
  /-- The caller asks for the next item. -/
  | resume
  | depart
  /-- The consumer's `finally`. -/
  | signal
  | closeLoop
  deriving DecidableEq

/-- `_bridge`, as the worker thread starts. -/
def bridge (generator : Generator T) : Bridge T where
  generator := generator
  produced := []
  failureLogged := false
  worker := .iterating
  observerGone := false
  loopClosed := false
  callbacks := []
  queue := []
  taken := []
  consumer := .waiting
  yielded := []

/-- The worker after `publish` returned: it iterates on, or that was its `finally`. -/
def Worker.published : Option T → Worker T
  | some _ => .iterating
  | none => .finished

namespace Bridge

/-- One step of `work`, with `publish` taken apart: the flag is read, the loop is called,
and if that raises the flag is set. -/
def work (state : Bridge T) : Option (Bridge T) :=
  match state.worker with
  | .iterating =>
      match state.generator.items with
      | item :: items => some { state with
          generator := { state.generator with items := items }
          produced := state.produced ++ [item]
          worker := .publishing (some item) }
      | [] => some { state with
          failureLogged := state.generator.raises
          worker := .publishing none }
  | .publishing entry =>
      if state.observerGone then some { state with worker := .published entry }
      else some { state with worker := .scheduling entry }
  | .scheduling entry =>
      if state.loopClosed then some { state with worker := .disconnected entry }
      else some { state with callbacks := state.callbacks ++ [entry], worker := .published entry }
  | .disconnected entry => some { state with observerGone := true, worker := .published entry }
  | .finished => none

/-- `queue.get` returned the entry: the end marker ends the loop, an item is yielded. -/
def receive (state : Bridge T) : Option T → Bridge T
  | none => { state with taken := state.taken ++ [none], consumer := .leaving .ended }
  | some item => { state with
      taken := state.taken ++ [some item]
      consumer := .suspended
      yielded := state.yielded ++ [some item] }

/-- A step, where it can be taken. -/
def act (action : BridgeAction) (state : Bridge T) : Option (Bridge T) :=
  match action with
  | .work => state.work
  | .deliver =>
      match state.loopClosed, state.callbacks with
      | false, entry :: callbacks =>
          some { state with callbacks := callbacks, queue := state.queue ++ [entry] }
      | _, _ => none
  | .read =>
      match state.loopClosed, state.consumer, state.queue with
      | false, .waiting, entry :: queue => some ({ state with queue := queue }.receive entry)
      | _, _, _ => none
  | .timeout =>
      match state.loopClosed, state.consumer with
      | false, .waiting =>
          some { state with consumer := .suspended, yielded := state.yielded ++ [none] }
      | _, _ => none
  | .resume =>
      match state.loopClosed, state.consumer with
      | false, .suspended => some { state with consumer := .waiting }
      | _, _ => none
  | .depart =>
      match state.consumer with
      | .waiting | .suspended => some { state with consumer := .leaving .departed }
      | _ => none
  | .signal =>
      match state.consumer with
      | .leaving exit => some { state with observerGone := true, consumer := .gone exit }
      | _ => none
  | .closeLoop => some { state with loopClosed := true, callbacks := [] }

/-- The items the consumer has yielded. -/
def delivered (state : Bridge T) : List T :=
  state.yielded.reduceOption

end Bridge

/-- The consumer left its loop at the end marker. -/
def Consumer.ended : Consumer → Bool
  | .leaving exit => exit == .ended
  | .gone exit => exit == .ended
  | _ => false

/-- The consumer is still in its loop. -/
def Consumer.stays : Consumer → Bool
  | .waiting => true
  | .suspended => true
  | _ => false

/-- What a generator makes the worker publish: its items, and the end marker. -/
def Generator.entries (generator : Generator T) : List (Option T) :=
  generator.items.map some ++ [none]

/-- The entries that the worker has still to publish. -/
def Worker.due (generator : Generator T) : Worker T → List (Option T)
  | .iterating => generator.entries
  | .publishing none | .scheduling none | .disconnected none => [none]
  | .publishing (some item) | .scheduling (some item) | .disconnected (some item) =>
      some item :: generator.entries
  | .finished => []

/-- The worker is past its last item. -/
def Worker.ending : Worker T → Bool
  | .iterating => false
  | .publishing entry => entry.isNone
  | .scheduling entry => entry.isNone
  | .disconnected entry => entry.isNone
  | .finished => true

/-- How many steps the worker may still take: at most three for an entry, and one before
each. -/
def Worker.steps (generator : Generator T) : Worker T → Nat
  | .iterating => 4 * (generator.items.length + 1)
  | .publishing entry => (if entry.isNone then 0 else 4 * (generator.items.length + 1)) + 3
  | .scheduling entry => (if entry.isNone then 0 else 4 * (generator.items.length + 1)) + 2
  | .disconnected entry => (if entry.isNone then 0 else 4 * (generator.items.length + 1)) + 1
  | .finished => 0

namespace Bridge

/-- What holds of a bridge for a generator, whatever the parties do.  While the consumer
stays and the loop is open, what it took, what is on the way and what the worker owes make
up the whole stream. -/
structure Faithful (generator : Generator T) (state : Bridge T) : Prop where
  produces : state.produced ++ state.generator.items = generator.items
  raises : state.generator.raises = generator.raises
  exhausted : state.worker.ending = true →
    state.generator.items = [] ∧ state.failureLogged = generator.raises
  connected : ∀ entry, state.worker = .disconnected entry → state.loopClosed = true
  conserved : state.consumer.stays = true → state.loopClosed = false →
    state.observerGone = false ∧
    state.taken ++ state.queue ++ state.callbacks ++ state.worker.due state.generator =
      generator.entries
  arrived : state.taken <+: generator.entries
  passed : state.taken = state.delivered.map some ++ if state.consumer.ended then [none] else []

end Bridge

section Proof

variable {generator : Generator T} {state after : Bridge T} {action : BridgeAction}

theorem Generator.entries_cons {item : T} {items : List T}
    (here : generator.items = item :: items) :
    generator.entries = some item :: { generator with items := items }.entries := by
  simp [Generator.entries, here]

/-- A prefix of the stream without its end marker. -/
theorem Generator.items_of_entries {items : List T}
    (arrived : items.map some <+: generator.entries) : items <+: generator.items := by
  rcases List.prefix_concat_iff.mp arrived with whole | front
  · have last := congrArg List.getLast? whole
    rcases items.eq_nil_or_concat with rfl | ⟨front, item, rfl⟩ <;> simp at last
  · exact (List.prefix_map_iff_of_injective (Option.some_injective T)).mp front

theorem Generator.items_of_ended {items : List T}
    (arrived : items.map some ++ [none] <+: generator.entries) : items = generator.items := by
  rcases List.prefix_concat_iff.mp arrived with whole | front
  · have same := List.append_inj_left' whole rfl
    exact (List.map_injective_iff.mpr (Option.some_injective T)) same
  · have member : none ∈ generator.items.map some := front.subset (by simp)
    simp at member

namespace Bridge.Faithful

/-- The bridge as the worker starts. -/
theorem initially (generator : Generator T) : (bridge generator).Faithful generator where
  produces := rfl
  raises := rfl
  exhausted := nofun
  connected := nofun
  conserved _ _ := ⟨rfl, rfl⟩
  arrived := List.nil_prefix
  passed := rfl

/-- The head of the queue arrives next. -/
theorem arrives (faithful : state.Faithful generator) (stays : state.consumer.stays = true)
    (running : state.loopClosed = false) {entry : Option T} {queue : List (Option T)}
    (head : state.queue = entry :: queue) : state.taken ++ [entry] <+: generator.entries := by
  have conserved := (faithful.conserved stays running).2
  rw [head] at conserved
  rw [← conserved]
  exact ⟨queue ++ state.callbacks ++ state.worker.due state.generator, by simp⟩

/-- While the consumer stays it has yielded what it took. -/
theorem yields (faithful : state.Faithful generator) (stays : state.consumer.stays = true) :
    state.taken = state.delivered.map some := by
  have passed := faithful.passed
  cases consumer : state.consumer <;>
    simp [consumer, Consumer.stays, Consumer.ended] at stays passed
  all_goals exact passed

theorem work (faithful : state.Faithful generator) (works : state.work = some after) :
    after.Faithful generator := by
  have past : ∀ entry : Option T, (Worker.published entry).ending = true → entry.isNone = true := by
    intro entry ending
    cases entry with
    | none => rfl
    | some item => cases ending
  have published : ∀ {entry : Option T} {closed : Bool} (other : Option T),
      Worker.published entry = .disconnected other → closed = true := by
    intro entry closed other here
    cases entry <;> cases here
  unfold Bridge.work at works
  cases worker : state.worker with
  | iterating =>
      cases items : state.generator.items with
      | cons item rest =>
          simp only [worker, items, Option.some.injEq] at works
          subst works
          refine ⟨?_, faithful.raises, nofun, nofun, ?_, faithful.arrived, faithful.passed⟩
          · rw [← faithful.produces, items]
            simp
          · intro stays running
            have conserved := faithful.conserved stays running
            rw [worker, Worker.due, Generator.entries_cons items] at conserved
            exact conserved
      | nil =>
          simp only [worker, items, Option.some.injEq] at works
          subst works
          refine ⟨faithful.produces, faithful.raises, ?_, nofun, ?_, faithful.arrived,
            faithful.passed⟩
          · exact fun _ => ⟨items, faithful.raises⟩
          · intro stays running
            have conserved := faithful.conserved stays running
            rw [worker, Worker.due, Generator.entries, items] at conserved
            exact conserved
  | publishing entry =>
      simp only [worker] at works
      by_cases gone : state.observerGone = true
      · rw [if_pos gone] at works
        cases works
        refine ⟨faithful.produces, faithful.raises, ?_, published, ?_, faithful.arrived,
          faithful.passed⟩
        · exact fun ending => faithful.exhausted (by rw [worker]; exact past entry ending)
        · intro stays running
          cases gone.symm.trans (faithful.conserved stays running).1
      · rw [if_neg gone] at works
        cases works
        refine ⟨faithful.produces, faithful.raises, ?_, nofun, ?_, faithful.arrived,
          faithful.passed⟩
        · exact fun ending => faithful.exhausted (by rw [worker]; exact ending)
        · intro stays running
          have conserved := faithful.conserved stays running
          rw [worker] at conserved
          cases entry <;> exact conserved
  | scheduling entry =>
      simp only [worker] at works
      by_cases closed : state.loopClosed = true
      · rw [if_pos closed] at works
        cases works
        refine ⟨faithful.produces, faithful.raises, ?_, fun _ _ => closed, ?_, faithful.arrived,
          faithful.passed⟩
        · exact fun ending => faithful.exhausted (by rw [worker]; exact ending)
        · intro _ running
          cases closed.symm.trans running
      · rw [if_neg closed] at works
        cases works
        refine ⟨faithful.produces, faithful.raises, ?_, published, ?_, faithful.arrived,
          faithful.passed⟩
        · exact fun ending => faithful.exhausted (by rw [worker]; exact past entry ending)
        · intro stays running
          have conserved := faithful.conserved stays running
          have due : state.worker.due state.generator =
              [entry] ++ (Worker.published entry).due state.generator := by
            rw [worker]
            cases entry <;> rfl
          rw [due] at conserved
          refine ⟨conserved.1, ?_⟩
          rw [← conserved.2]
          simp
  | disconnected entry =>
      have closed := faithful.connected entry worker
      simp only [worker, Option.some.injEq] at works
      subst works
      refine ⟨faithful.produces, faithful.raises, ?_, published, ?_, faithful.arrived,
        faithful.passed⟩
      · exact fun ending => faithful.exhausted (by rw [worker]; exact past entry ending)
      · intro _ running
        cases closed.symm.trans running
  | finished =>
      simp only [worker] at works
      cases works

/-- Every step of every party keeps it. -/
theorem act (faithful : state.Faithful generator) (acts : Bridge.act action state = some after) :
    after.Faithful generator := by
  cases action with
  | work => exact faithful.work acts
  | deliver =>
      simp only [Bridge.act] at acts
      split at acts
      · rename_i entry callbacks running scheduled
        cases acts
        refine ⟨faithful.produces, faithful.raises, faithful.exhausted, faithful.connected, ?_,
          faithful.arrived, faithful.passed⟩
        intro stays running
        have conserved := faithful.conserved stays running
        rw [scheduled] at conserved
        refine ⟨conserved.1, ?_⟩
        rw [← conserved.2]
        simp
      · cases acts
  | read =>
      simp only [Bridge.act] at acts
      split at acts
      · rename_i entry queue running waiting head
        have stays : state.consumer.stays = true := by rw [waiting]; rfl
        have arrives := faithful.arrives stays running head
        have yields := faithful.yields stays
        cases entry with
        | none =>
            cases acts
            refine ⟨faithful.produces, faithful.raises, faithful.exhausted,
              faithful.connected, nofun,
              arrives, ?_⟩
            simp [receive, delivered, yields, Consumer.ended]
        | some item =>
            cases acts
            refine ⟨faithful.produces, faithful.raises, faithful.exhausted, faithful.connected, ?_,
              arrives, ?_⟩
            · intro _ _
              have conserved := faithful.conserved stays running
              rw [head] at conserved
              refine ⟨conserved.1, ?_⟩
              rw [← conserved.2]
              simp [receive]
            · simp [receive, delivered, yields, Consumer.ended, List.reduceOption_append]
      · cases acts
  | timeout =>
      simp only [Bridge.act] at acts
      split at acts
      · rename_i running waiting
        have stays : state.consumer.stays = true := by rw [waiting]; rfl
        have yields := faithful.yields stays
        cases acts
        refine ⟨faithful.produces, faithful.raises, faithful.exhausted, faithful.connected,
          fun _ running => faithful.conserved stays running, faithful.arrived, ?_⟩
        simp [delivered, yields, Consumer.ended, List.reduceOption_append]
      · cases acts
  | resume =>
      simp only [Bridge.act] at acts
      split at acts
      · rename_i running suspended
        have stays : state.consumer.stays = true := by rw [suspended]; rfl
        have yields := faithful.yields stays
        cases acts
        refine ⟨faithful.produces, faithful.raises, faithful.exhausted, faithful.connected,
          fun _ running => faithful.conserved stays running, faithful.arrived, ?_⟩
        simp [delivered, yields, Consumer.ended]
      · cases acts
  | depart =>
      have departs (stays : state.consumer.stays = true) :
          ({ state with consumer := .leaving .departed } : Bridge T).Faithful generator := by
        have yields := faithful.yields stays
        refine ⟨faithful.produces, faithful.raises, faithful.exhausted, faithful.connected, nofun,
          faithful.arrived, ?_⟩
        simp [delivered, yields, Consumer.ended]
      simp only [Bridge.act] at acts
      split at acts
      · rename_i waiting
        cases acts
        exact departs (by rw [waiting]; rfl)
      · rename_i suspended
        cases acts
        exact departs (by rw [suspended]; rfl)
      · cases acts
  | signal =>
      simp only [Bridge.act] at acts
      split at acts
      · rename_i exit leaving
        cases acts
        have passed := faithful.passed
        rw [leaving] at passed
        exact ⟨faithful.produces, faithful.raises, faithful.exhausted, faithful.connected, nofun,
          faithful.arrived, passed⟩
      · cases acts
  | closeLoop =>
      cases acts
      exact ⟨faithful.produces, faithful.raises, faithful.exhausted, fun _ _ => rfl, nofun,
        faithful.arrived, faithful.passed⟩

end Bridge.Faithful

namespace Bridge

/-- Only the worker's steps change where it is. -/
theorem worker_act (acts : Bridge.act action state = some after) (other : action ≠ .work) :
    after.worker = state.worker ∧ after.generator = state.generator := by
  cases action with
  | work => exact absurd rfl other
  | closeLoop =>
      cases acts
      exact ⟨rfl, rfl⟩
  | read =>
      simp only [Bridge.act] at acts
      split at acts
      · rename_i entry queue _ _ _
        cases acts
        cases entry <;> exact ⟨rfl, rfl⟩
      · cases acts
  | depart =>
      simp only [Bridge.act] at acts
      split at acts <;> cases acts <;> exact ⟨rfl, rfl⟩
  | deliver | timeout | resume | signal =>
      simp only [Bridge.act] at acts
      split at acts
      · cases acts
        exact ⟨rfl, rfl⟩
      · cases acts

/-- The worker uses up its steps, and nobody else touches them. -/
theorem steps_act (acts : Bridge.act action state = some after) :
    after.worker.steps after.generator + (if action == .work then 1 else 0) ≤
      state.worker.steps state.generator := by
  by_cases mine : action = .work
  · subst mine
    replace acts : state.work = some after := acts
    unfold Bridge.work at acts
    cases worker : state.worker with
    | iterating =>
        cases items : state.generator.items with
        | nil | cons item rest =>
            simp only [worker, items, Option.some.injEq] at acts
            subst acts
            simp only [Worker.steps, items, List.length_nil, List.length_cons]
            grind
    | publishing entry =>
        simp only [worker] at acts
        split at acts <;> cases acts <;> cases entry <;> simp [Worker.steps, Worker.published]
    | scheduling entry =>
        simp only [worker] at acts
        split at acts <;> cases acts <;> cases entry <;> simp [Worker.steps, Worker.published]
    | disconnected entry =>
        simp only [worker, Option.some.injEq] at acts
        subst acts
        cases entry <;> simp [Worker.steps, Worker.published]
    | finished =>
        simp only [worker] at acts
        cases acts
  · have kept := worker_act acts mine
    simp [kept, mine]

/-- Until it has finished the worker can take a step. -/
theorem works_on (remains : state.worker ≠ .finished) :
    ∃ next, Bridge.act .work state = some next := by
  rw [← Option.isSome_iff_exists]
  change state.work.isSome = true
  unfold Bridge.work
  cases worker : state.worker with
  | iterating => cases state.generator.items <;> rfl
  | publishing entry => cases state.observerGone <;> rfl
  | scheduling entry => cases state.loopClosed <;> rfl
  | disconnected entry => rfl
  | finished => exact absurd worker remains

/-- Only a timeout yields `None`. -/
theorem nones_act (acts : Bridge.act action state = some after) :
    after.yielded.countP Option.isNone =
      state.yielded.countP Option.isNone + if action == .timeout then 1 else 0 := by
  cases action with
  | work =>
      replace acts : state.work = some after := acts
      unfold Bridge.work at acts
      split at acts <;> (try split at acts) <;> cases acts <;> rfl
  | closeLoop =>
      cases acts
      rfl
  | read =>
      simp only [Bridge.act] at acts
      split at acts
      · rename_i entry queue _ _ _
        cases acts
        cases entry <;> simp [receive]
      · cases acts
  | depart =>
      simp only [Bridge.act] at acts
      split at acts <;> cases acts <;> rfl
  | timeout =>
      simp only [Bridge.act] at acts
      split at acts
      · cases acts
        simp
      · cases acts
  | deliver | resume | signal =>
      simp only [Bridge.act] at acts
      split at acts
      · cases acts
        rfl
      · cases acts

end Bridge

end Proof

/-- The bridge, whatever the order of the parties' steps and wherever they stop.  What the
consumer takes from the queue is the stream from its start, and the items it yields are a
prefix of the generator's, each once and in order; once its stream ended these are all the
items, and the end marker came after them.  `None` is yielded at timeouts only.  The worker
is never stuck, and has finished after so many of its own steps, with the generator run to
its end, also when the observer left or the loop closed. -/
theorem bridge_delivers (generator : Generator T) {schedule : List BridgeAction} {last : Bridge T}
    (schedules : Schedules Bridge.act (bridge generator) schedule last) :
    last.delivered <+: generator.items ∧
    last.taken <+: generator.entries ∧
    (last.consumer.ended = true →
      last.delivered = generator.items ∧ last.taken = generator.entries) ∧
    last.yielded.countP Option.isNone = schedule.count .timeout ∧
    (last.worker ≠ .finished → ∃ next, Bridge.act .work last = some next) ∧
    (4 * (generator.items.length + 1) ≤ schedule.count .work → last.worker = .finished) ∧
    (last.worker = .finished →
      last.produced = generator.items ∧ last.failureLogged = generator.raises) := by
  have faithful := schedules.invariant (Bridge.Faithful.initially generator)
    fun faithful acts => faithful.act acts
  have passed := faithful.passed
  have arrived := faithful.arrived
  refine ⟨?_, arrived, ?_, ?_, Bridge.works_on, ?_, ?_⟩
  · apply Generator.items_of_entries
    rw [passed] at arrived
    exact (List.prefix_append _ _).trans arrived
  · intro ended
    rw [ended] at passed
    rw [passed] at arrived
    have whole := Generator.items_of_ended arrived
    refine ⟨whole, ?_⟩
    rw [passed, whole]
    rfl
  · have counted := schedules.counted (fun state => state.yielded.countP Option.isNone)
      (· == .timeout) fun acts => Bridge.nones_act acts
    simpa [bridge, List.count] using counted
  · intro worked
    have bounded := schedules.bounded (fun state => state.worker.steps state.generator)
      (· == .work) fun acts => Bridge.steps_act acts
    replace bounded : last.worker.steps last.generator + schedule.count .work ≤
        4 * (generator.items.length + 1) := bounded
    have none : last.worker.steps last.generator = 0 := by omega
    cases worker : last.worker with
    | finished => rfl
    | iterating | publishing | scheduling | disconnected =>
        rw [worker] at none
        simp [Worker.steps] at none
  · intro finished
    have exhausted := faithful.exhausted (by rw [finished]; rfl)
    have produces := faithful.produces
    rw [exhausted.1, List.append_nil] at produces
    exact ⟨produces, exhausted.2⟩

/-- An observer that waits out one interval, takes one item and leaves. -/
def briefObserver : List BridgeAction :=
  [.work, .work, .timeout, .work, .resume, .deliver, .work, .read, .work, .depart, .signal, .work,
    .work, .work]

/-- The worker runs a failing generator to its end all the same. -/
theorem bridge_delivers_brief :
    ∃ last, Schedules Bridge.act (bridge ⟨["planned", "started"], true⟩) briefObserver last ∧
      last.yielded = [none, some "planned"] ∧ last.consumer = .gone .departed ∧
      last.delivered <+: ["planned", "started"] ∧ last.produced = ["planned", "started"] ∧
      last.failureLogged = true := by
  have schedules : Schedules Bridge.act (bridge ⟨["planned", "started"], true⟩) briefObserver _ :=
    rfl
  have delivers := bridge_delivers _ schedules
  have finished := delivers.2.2.2.2.2.2 rfl
  exact ⟨_, schedules, rfl, rfl, delivers.1, finished.1, finished.2⟩

end SlimxAgent
