import SlimxAgent.Engine
import SlimxAgent.Host
import SlimxAgent.Interaction.World

/-!
# The reported-failure lookup

A drive that finds a step failed searches the log of its run for the report of that
failure.  The contract numbers events from 0 on, the search begins past 0: it overlooks a
report that is the first event, at 0, and the only one.
-/

namespace SlimxAgent

open Interaction AppendOnly

variable {ι σ : Type}

/-- The events of a run as the contract has them: sequences increase, from 0 on. -/
structure ContractLog where
  events : List Event
  ordered : Ordered Event.sequence events
  numbered : ∀ event ∈ events, 0 ≤ event.sequence

/-- The event reports the failure of the step whose id has this text. -/
structure Event.ReportsFailure (event : Event) (stepId : String) : Prop where
  failed : event.type = .str EventType.runFailed.text
  names : event.agentStepId.text = stepId

/-- The search of the engine asks this of each event. -/
theorem reportsFailureOf_eq_true [HostId ι] {stepId : ι} {event : Event} :
    reportsFailureOf stepId event = true ↔ event.ReportsFailure (HostId.text stepId) := by
  have text : event.type.asStr? = some EventType.runFailed.text ↔
      event.type = .str EventType.runFailed.text := by
    cases event.type <;> simp [Json.asStr?]
  rw [reportsFailureOf, Bool.and_eq_true, beq_iff_eq, beq_iff_eq, text]
  exact ⟨fun ⟨failed, names⟩ => ⟨failed, names⟩, fun reports => ⟨reports.failed, reports.names⟩⟩

/-- No id at all has the text of Python's `None`. -/
theorem Event.ReportsFailure.named {event : Event} {stepId : String}
    (reports : event.ReportsFailure stepId) (other : stepId ≠ "None") :
    event.agentStepId ≠ .null := by
  intro missing
  apply other
  rw [← reports.names, missing]
  rfl

namespace ContractLog

variable {log : ContractLog} {stepId : String}

def Reports (log : ContractLog) (stepId : String) : Prop :=
  ∃ event ∈ log.events, event.ReportsFailure stepId

/-- The report is the first event, at sequence 0, and there is no other. -/
def OnlyAtZero (log : ContractLog) (stepId : String) : Prop :=
  ∃ first rest, log.events = first :: rest ∧ first.sequence = 0 ∧ first.ReportsFailure stepId ∧
    ∀ event ∈ rest, ¬ event.ReportsFailure stepId

theorem OnlyAtZero.reports (only : log.OnlyAtZero stepId) : log.Reports stepId := by
  rcases only with ⟨first, rest, split, _, reports, _⟩
  exact ⟨first, split ▸ List.mem_cons_self, reports⟩

/-- Every event but the first is past sequence 0. -/
theorem positive_of_rest {first event : Event} {rest : List Event}
    (split : log.events = first :: rest) (member : event ∈ rest) : 0 < event.sequence := by
  have ordered := log.ordered
  have numbered := log.numbered first (split ▸ List.mem_cons_self)
  rw [Ordered, split, List.pairwise_cons] at ordered
  exact lt_of_le_of_lt numbered (ordered.1 event member)

/-- A report past sequence 0 is any report but one that is overlooked. -/
theorem reports_past_iff :
    (∃ event ∈ log.events, 0 < event.sequence ∧ event.ReportsFailure stepId) ↔
      log.Reports stepId ∧ ¬ log.OnlyAtZero stepId := by
  constructor
  · rintro ⟨event, member, past, reports⟩
    refine ⟨⟨event, member, reports⟩, ?_⟩
    rintro ⟨first, rest, split, zero, _, none⟩
    rw [split] at member
    cases List.mem_cons.mp member with
    | inl same =>
        rw [same, zero] at past
        exact absurd past (lt_irrefl 0)
    | inr later => exact none event later reports
  · rintro ⟨⟨event, member, reports⟩, seen⟩
    by_contra overlooked
    apply seen
    cases split : log.events with
    | nil =>
        rw [split] at member
        cases member
    | cons first rest =>
        have none : ∀ later ∈ rest, ¬ later.ReportsFailure stepId := by
          intro later behind reported
          exact overlooked ⟨later, split ▸ List.mem_cons_of_mem first behind,
            positive_of_rest split behind, reported⟩
        rw [split] at member
        cases List.mem_cons.mp member with
        | inr later => exact absurd reports (none event later)
        | inl same =>
            subst same
            have zero : event.sequence = 0 := by
              have numbered := log.numbered event (split ▸ List.mem_cons_self)
              have unseen : ¬ 0 < event.sequence := fun past =>
                overlooked ⟨event, split ▸ List.mem_cons_self, past, reports⟩
              omega
            exact ⟨event, rest, split, zero, reports, none⟩

end ContractLog

/-! ## Over a store -/

/-- The store shows exactly the events of the run past a given sequence. -/
structure ServesLog (world : World (engineSignature ι) (Raised ι) σ) (runId : ι)
    (log : σ → ContractLog) : Prop where
  succeeds : ∀ {state cursor error after},
    ¬ world.serve state (.drainedEvents runId cursor) (.error error) after
  shows : ∀ {state cursor events after},
    world.serve state (.drainedEvents runId cursor) (.ok events) after →
    ∀ event, event ∈ events ↔ event ∈ (log after).events ∧ cursor < event.sequence

section Searching

variable [HostId ι] {world : World (engineSignature ι) (Raised ι) σ} {runId stepId : ι}
  {log : σ → ContractLog}

/-- The search finds the reports past sequence 0. -/
theorem wp_runFailureReported_serves (serves : ServesLog world runId log) (state : σ) :
    wp world (fun _ _ => True) (runFailureReported runId stepId)
      (fun reported after => reported = true ↔ ∃ event ∈ (log after).events,
        0 < event.sequence ∧ event.ReportsFailure (HostId.text stepId))
      (fun _ _ => False) state := by
  rw [runFailureReported, wp_bind]
  refine wp_perform.mpr ⟨trivial, ?_, fun _ _ served => serves.succeeds served⟩
  intro events after served
  change events.any (reportsFailureOf stepId) = true ↔ _
  rw [List.any_eq_true]
  simp only [serves.shows served, reportsFailureOf_eq_true, and_assoc]

/-- The search answers, and its answer is right unless the one report is the first event,
at sequence 0.  A report without a step id counts for no step but one called `None`. -/
theorem failure_lookup_exact (serves : ServesLog world runId log) {state last : σ}
    {outcome : Except (Raised ι) Bool}
    (runs : Runs world (runFailureReported runId stepId) state outcome last) :
    ∃ reported, outcome = .ok reported ∧
      ((reported = true ↔ (log last).Reports (HostId.text stepId)) ↔
        ¬ (log last).OnlyAtZero (HostId.text stepId)) ∧
      ∀ event ∈ (log last).events, event.ReportsFailure (HostId.text stepId) →
        HostId.text stepId ≠ "None" → event.agentStepId ≠ .null := by
  have ends := runs.post (wp_runFailureReported_serves serves state)
  cases outcome with
  | error error => exact ends.elim
  | ok reported =>
      have found : reported = true ↔ (log last).Reports (HostId.text stepId) ∧
          ¬ (log last).OnlyAtZero (HostId.text stepId) :=
        Iff.trans ends ContractLog.reports_past_iff
      refine ⟨reported, rfl, ?_, fun event _ reports other => reports.named other⟩
      rw [found]
      constructor
      · exact fun exact only => (exact.mpr only.reports).2 only
      · exact fun seen => ⟨And.left, fun reports => ⟨reports, seen⟩⟩

end Searching

/-! ## A host that numbers from 0 -/

def HostState.contractLog (state : HostState) : ContractLog where
  events := state.log
  ordered := state.ordered_log
  numbered _ member := HostState.sequence_nonneg_of_mem_log member

theorem HostRules.servesLog (rules : HostRules) (clock : HostState → ℚ) (runId : String) :
    ServesLog (World.ofFn (rules.respond clock)) runId HostState.contractLog where
  succeeds served := HostRules.leavesStore_of_raised served
  shows {state cursor events after} served := by
    have answered : rules.respond clock (.drainedEvents runId cursor) state =
        (.ok events, after) := served
    cases answered
    intro event
    rw [List.mem_filter, decide_eq_true_iff]
    rfl

/-- A host whose log reports the failures of these steps, from sequence 0 on. -/
def failuresHost (steps : List String) : HostState :=
  { HostState.holding
      ⟨"run-1", .paused, none, false, .json .null, .null, .null, .json .null⟩ [] with
    firstSequence := 0
    entries := steps.map fun stepId => ⟨EventType.runFailed.text, some stepId, none⟩ }

/-- The second of two failures is found. -/
theorem failure_lookup_exact_second :
    ∃ last, Runs (World.ofFn (plainRules.respond fun _ => 0))
        (runFailureReported "run-1" "step-2") (failuresHost ["step-1", "step-2"]) (.ok true) last ∧
      ((true = true ↔ last.contractLog.Reports "step-2") ↔
        ¬ last.contractLog.OnlyAtZero "step-2") := by
  have runs : Runs (World.ofFn (plainRules.respond fun _ => 0))
      (runFailureReported "run-1" "step-2") (failuresHost ["step-1", "step-2"]) (.ok true) _ :=
    runs_ofFn.mpr (Prod.ext rfl rfl)
  rcases failure_lookup_exact (plainRules.servesLog (fun _ => 0) "run-1") runs with
    ⟨reported, same, exact, _⟩
  cases same
  exact ⟨_, runs, exact⟩

/-- The first is overlooked. -/
theorem failure_lookup_overlooks :
    ServesLog (World.ofFn (plainRules.respond fun _ => 0)) "run-1" HostState.contractLog ∧
    ∃ last, Runs (World.ofFn (plainRules.respond fun _ => 0))
        (runFailureReported "run-1" "step-1") (failuresHost ["step-1", "step-2"]) (.ok false) last ∧
      last.contractLog.Reports "step-1" := by
  have runs : Runs (World.ofFn (plainRules.respond fun _ => 0))
      (runFailureReported "run-1" "step-1") (failuresHost ["step-1", "step-2"]) (.ok false) _ :=
    runs_ofFn.mpr (Prod.ext rfl rfl)
  exact ⟨plainRules.servesLog _ _, _, runs, _, List.mem_cons_self, rfl, rfl⟩

end SlimxAgent
