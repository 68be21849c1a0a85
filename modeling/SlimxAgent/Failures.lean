import SlimxAgent.Dispatch
import SlimxAgent.Stopping
import SlimxAgent.Interaction.Sessions

/-!
# Failures are reported once

A drive ends its run as failed in three places: its step failed, or it found a step
failed that the log does not report, or one that it does.  Only the first two log
`agent.run.failed` and call the hook.  What connects the drives of a run is the log, and
that a failed step stays failed.
-/

namespace SlimxAgent

open Interaction

variable {ι σ : Type}

/-- The step whose failure an event reports, as text. -/
def Event.failure? (event : Event) : Option String :=
  if event.type.asStr? == some EventType.runFailed.text then some event.agentStepId.text else none

/-- The reported failures, oldest first. -/
def failures (log : List Event) : List String :=
  log.filterMap Event.failure?

/-- The hook is told that the run failed. -/
def EngineOp.endsFailed : EngineOp ι → Bool
  | .onRunEnd _ status => status == .failed
  | _ => false

/-- How often the hook was told so. -/
def failedEnds (history : History (engineSignature ι) (Raised ι) σ) : Nat :=
  history.countP fun call => call.op.endsFailed

namespace Book

/-- A failed step stays failed, and only the engine reports failures; steps may be
appended. -/
structure Unreset [HostId ι] (before after : Book ι) : Prop where
  added : before.order <+: after.order
  distinct : (before.order.map HostId.text).Nodup → (after.order.map HostId.text).Nodup
  failed : ∀ stepId ∈ before.order, before.status stepId = .failed → after.status stepId = .failed
  logged : ∃ events, after.log = before.log ++ events ∧ ∀ event ∈ events, event.failure? = none

/-- Event sequences start at one or later. -/
def Numbered (book : Book ι) : Prop :=
  ∀ event ∈ book.log, 1 ≤ event.sequence

end Book

/-- A drain shows what the log holds past a cursor. -/
def Journal (world : World (engineSignature ι) (Raised ι) σ) (runId : ι) (book : σ → Book ι) :
    Prop :=
  ∀ before cursor events after,
    world.serve before (.drainedEvents runId cursor) (.ok events) after →
    events = (book after).log.filter fun event => decide (cursor < event.sequence)

section Reports

variable [HostId ι]

theorem failures_append (log : List Event) (event : Event) :
    failures (log ++ [event]) = failures log ++ event.failure?.toList := by
  rw [failures, List.filterMap_append, ← failures]
  cases failure : event.failure? <;> simp [failure]

theorem failures_silent (log : List Event) {events : List Event}
    (silent : ∀ event ∈ events, event.failure? = none) :
    failures (log ++ events) = failures log := by
  rw [failures, List.filterMap_append, List.filterMap_eq_nil_iff.mpr silent, List.append_nil]
  rfl

/-- The engine's search for a report, and what is reported. -/
theorem reportsFailureOf_iff {stepId : ι} {event : Event} :
    reportsFailureOf stepId event = true ↔ event.failure? = some (HostId.text stepId) := by
  simp only [reportsFailureOf, Event.failure?, Bool.and_eq_true, beq_iff_eq]
  split
  · rename_i failed
    simp [failed]
  · rename_i other
    simp [other]

theorem any_reports {stepId : ι} {log : List Event} :
    log.any (reportsFailureOf stepId) = true ↔ HostId.text stepId ∈ failures log := by
  simp only [List.any_eq_true, failures, List.mem_filterMap, reportsFailureOf_iff]

theorem countP_reports (stepId : ι) (log : List Event) :
    log.countP (reportsFailureOf stepId) = (failures log).count (HostId.text stepId) := by
  induction log with
  | nil => rfl
  | cons event log ih =>
      rw [List.countP_cons, ih, failures, failures, List.filterMap_cons]
      cases failure : event.failure? with
      | none => simp [reportsFailureOf_iff, failure]
      | some text =>
          rw [List.count_cons]
          congr 1
          simp [reportsFailureOf_iff, failure]

theorem Event.Records.failed {event : Event} {stepId : ι}
    (records : event.Records .runFailed (some stepId)) :
    event.failure? = some (HostId.text stepId) := by
  simp [Event.failure?, records.ofType, records.ofStep, Json.asStr?, Json.ofOption, Json.text]

theorem Event.Records.silent {event : Event} {type : EventType} {stepId : Option ι}
    (records : event.Records type stepId) (other : type ≠ .runFailed) : event.failure? = none := by
  have different : type.text ≠ EventType.runFailed.text := fun same =>
    other (EventType.text_injective same)
  simp [Event.failure?, records.ofType, Json.asStr?, different]

end Reports

/-! ## What a drive reports -/

/-- The step's failure is not reported. -/
def Book.Unreported [HostId ι] (book : Book ι) (stepId : ι) : Prop :=
  HostId.text stepId ∉ failures book.log

/-- What a stage tells of its step and of the reports. -/
def Stage.Reports [HostId ι] (stage : Stage ι) (book : Book ι) : Prop :=
  match stage with
  | .visiting visit =>
      (visit.step.status = .failed → book.status visit.step.id = .failed) ∧
      (visit.step.status ≠ .failed → book.Unreported visit.step.id)
  | .looked visit reported => visit.step.id ∈ book.order ∧
      book.status visit.step.id = .failed ∧ (reported = false → book.Unreported visit.step.id)
  | .recording visit mark row => row.id = visit.step.id ∧ row.status = mark.status ∧
      (mark.status = .failed → book.status visit.step.id = .failed) ∧
      book.Unreported visit.step.id
  | .parked visit row => row.id = visit.step.id ∧ row.status = .awaitingApproval ∧
      book.Unreported visit.step.id
  | .entered visit row => row.id = visit.step.id ∧ row.status = .running ∧
      book.Unreported visit.step.id
  | .cleared visit => book.Unreported visit.step.id
  | .started visit => book.Unreported visit.step.id
  | .typed visit _ => book.Unreported visit.step.id
  | .handled visit _ => book.Unreported visit.step.id
  | .rolledBack visit _ => book.Unreported visit.step.id
  | .decided visit _ => book.Unreported visit.step.id
  | .settled visit ran => ran.id = visit.step.id ∧
      (ran.status = .failed → book.status visit.step.id = .failed) ∧
      book.Unreported visit.step.id
  | .judged visit ran => ran.id = visit.step.id ∧
      (ran.status = .failed → book.status visit.step.id = .failed) ∧
      book.Unreported visit.step.id
  | _ => True

/-- The reports whose hook is still due. -/
def Stage.unnotified : Stage ι → Nat
  | .failing _ => 1
  | .notifying status => if status = .failed then 1 else 0
  | _ => 0

/-- The reports of a run: each step once, a reported step is listed and failed, and the
hook was called for each that is not due. -/
structure Reporting [HostId ι] (book : Book ι) (stage : Stage ι) (called : Nat) : Prop where
  distinct : (book.order.map HostId.text).Nodup
  once : (failures book.log).Nodup
  known : ∀ text ∈ failures book.log, ∃ stepId ∈ book.order,
    HostId.text stepId = text ∧ book.status stepId = .failed
  counted : (failures book.log).length = called + stage.unnotified
  listed : stage.Listed book
  reports : stage.Reports book

/-- Where a drive may stand after it found a step failed. -/
def Stage.Concludes [HostId ι] (stage : Stage ι) (stepId : ι) (book : Book ι) : Prop :=
  match stage with
  | .visiting visit => visit.step.id = stepId ∧ visit.step.status = .failed
  | .looked visit reported => visit.step.id = stepId ∧
      (reported = true → HostId.text stepId ∈ failures book.log)
  | .failing _ => HostId.text stepId ∈ failures book.log
  | .notifying status => status = .failed ∧ book.runStatus = .failed ∧
      HostId.text stepId ∈ failures book.log
  | .ended _ => book.runStatus = .failed ∧ HostId.text stepId ∈ failures book.log
  | .broken _ => book.runStatus = .failed ∧ HostId.text stepId ∈ failures book.log
  | _ => False

/-- The call lists the steps, of which the first unfinished one is found failed. -/
def FindsFailed (stepId : ι) (call : Served (engineSignature ι) (Raised ι) σ) : Prop :=
  ∃ before runId steps after step, call = ⟨before, .getSteps runId, .ok steps, after⟩ ∧
    firstUnfinished steps = some step ∧ step.status = .failed ∧ step.id = stepId

/-- The run's status changes by the engine's writes only. -/
def OnlyEngineMarks (book : σ → Book ι) (call : Served (engineSignature ι) (Raised ι) σ) : Prop :=
  (book call.after).runStatus = call.op.leavesStatus (book call.before).runStatus

section Proof

variable [HostId ι] {registry : ToolRegistry} {run : RunView ι} {stage ended : Stage ι}
  {book later : Book ι} {op : EngineOp ι} {before after : σ} {called : Nat}

theorem Book.Unreset.failures (unreset : book.Unreset later) :
    SlimxAgent.failures later.log = SlimxAgent.failures book.log := by
  rcases unreset.logged with ⟨events, log, silent⟩
  rw [log, failures_silent _ silent]

theorem Stage.Reports.moves (reports : stage.Reports book) (listed : stage.Listed book)
    (unreset : book.Unreset later) : stage.Reports later := by
  have same : ∀ stepId, book.Unreported stepId → later.Unreported stepId := by
    intro stepId unreported
    rw [Book.Unreported, unreset.failures]
    exact unreported
  cases stage with
  | visiting visit =>
      exact ⟨fun failed => unreset.failed _ (listed _ rfl) (reports.1 failed),
        fun other => same _ (reports.2 other)⟩
  | looked visit reported =>
      exact ⟨unreset.added.subset reports.1, unreset.failed _ reports.1 reports.2.1,
        fun missing => same _ (reports.2.2 missing)⟩
  | recording visit mark row =>
      exact ⟨reports.1, reports.2.1,
        fun failed => unreset.failed _ (listed _ rfl) (reports.2.2.1 failed),
        same _ reports.2.2.2⟩
  | parked visit row | entered visit row => exact ⟨reports.1, reports.2.1, same _ reports.2.2⟩
  | cleared visit | started visit | typed visit _ | handled visit _ | rolledBack visit _
  | decided visit _ => exact same _ reports
  | settled visit ran | judged visit ran =>
      exact ⟨reports.1, fun failed => unreset.failed _ (listed _ rfl) (reports.2.1 failed),
        same _ reports.2.2⟩
  | _ => trivial

/-- What the host does on its own keeps the reports. -/
theorem Reporting.moves (reporting : Reporting book stage called) (unreset : book.Unreset later) :
    Reporting later stage called := by
  have same := unreset.failures
  refine ⟨unreset.distinct reporting.distinct, ?_, ?_, ?_, ?_,
    reporting.reports.moves reporting.listed unreset⟩
  · rw [same]
    exact reporting.once
  · rw [same]
    intro text reported
    rcases reporting.known text reported with ⟨stepId, listed, named, failed⟩
    exact ⟨stepId, unreset.added.subset listed, named, unreset.failed stepId listed failed⟩
  · rw [same]
    exact reporting.counted
  · intro stepId here
    exact unreset.added.subset (reporting.listed stepId here)

/-- The stage changes, and the book only in what no report depends on. -/
theorem Reporting.turn (reporting : Reporting book stage called) (order : later.order = book.order)
    (status : later.status = book.status) (log : failures later.log = failures book.log)
    {calls : Nat} (counted : calls + ended.unnotified = called + stage.unnotified)
    (listed : ended.Listed later) (reports : ended.Reports later) :
    Reporting later ended calls := by
  refine ⟨?_, ?_, ?_, ?_, listed, reports⟩
  · rw [order]
    exact reporting.distinct
  · rw [log]
    exact reporting.once
  · rw [log, order, status]
    exact reporting.known
  · rw [log, counted]
    exact reporting.counted

/-- A transition of an unreported step is written. -/
theorem Reporting.writes [DecidableEq ι] {stepId : ι} (reporting : Reporting book stage called)
    (status : StepStatus) (unreported : book.Unreported stepId)
    (notified : ended.unnotified = stage.unnotified)
    (listed : ended.Listed (book.setStatus stepId status))
    (reports : ended.Reports (book.setStatus stepId status)) :
    Reporting (book.setStatus stepId status) ended called := by
  refine ⟨reporting.distinct, reporting.once, ?_, ?_, listed, reports⟩
  · intro text reported
    rcases reporting.known text reported with ⟨member, known, named, failed⟩
    have other : member ≠ stepId := by
      rintro rfl
      exact unreported (named ▸ reported)
    exact ⟨member, known, named, by rw [book.setStatus_of_ne other]; exact failed⟩
  · rw [notified]
    exact reporting.counted

/-- What is to be recorded of it. -/
theorem Book.Unreported.records [DecidableEq ι] {visit : Visit ι} {row : StepView ι}
    (unreported : book.Unreported visit.step.id) (mark : Mark)
    (written : row.id = visit.step.id ∧ row.status = mark.status) :
    (Stage.recording visit mark row).Reports (book.setStatus visit.step.id mark.status) :=
  ⟨written.1, written.2, fun failed => (book.setStatus_self ..).trans failed, unreported⟩

/-- The failure of a step is logged. -/
theorem Reporting.report {visit : Visit ι} (reporting : Reporting book stage called)
    {event : Event} {stepId : ι} (records : event.Records .runFailed (some stepId))
    (unreported : book.Unreported stepId) (member : stepId ∈ book.order)
    (failed : book.status stepId = .failed) (notified : stage.unnotified = 0) :
    Reporting (book.append event) (.failing visit) called := by
  have grown : failures (book.append event).log = failures book.log ++ [HostId.text stepId] := by
    change failures (book.log ++ [event]) = _
    rw [failures_append, records.failed]
    rfl
  refine ⟨reporting.distinct, ?_, ?_, ?_, nofun, trivial⟩
  · rw [grown, ← List.concat_eq_append]
    exact List.Nodup.concat unreported reporting.once
  · rw [grown]
    intro text reported
    rcases List.mem_append.mp reported with earlier | now
    · exact reporting.known text earlier
    · exact ⟨stepId, member, (List.mem_singleton.mp now).symm, failed⟩
  · have counted := reporting.counted
    rw [notified] at counted
    rw [grown, List.length_append, counted]
    rfl

/-- Another event is logged. -/
theorem Reporting.logs (reporting : Reporting book stage called) {event : Event}
    (silent : event.failure? = none) {calls : Nat}
    (counted : calls + ended.unnotified = called + stage.unnotified)
    (listed : ended.Listed book) (reports : ended.Reports book) :
    Reporting (book.append event) ended calls := by
  have same : failures (book.log ++ [event]) = failures book.log := by
    rw [failures_append, silent]
    exact List.append_nil _
  have moves : book.Unreset (book.append event) :=
    ⟨List.prefix_rfl, fun distinct => distinct, fun _ _ failed => failed, [event], rfl,
      by simpa using silent⟩
  have order : (book.append event).order = book.order := rfl
  exact reporting.turn order rfl same counted listed (reports.moves listed moves)

/-- The status of the run is written. -/
theorem Reporting.marks (reporting : Reporting book stage called) (status : RunStatus)
    (counted : ended.unnotified = stage.unnotified)
    (listed : ended.Listed (book.setRunStatus status)) (reports : ended.Reports book) :
    Reporting (book.setRunStatus status) ended called := by
  have order : (book.setRunStatus status).order = book.order := rfl
  have still : ended.Reports (book.setRunStatus status) := by
    cases ended <;> exact reports
  exact reporting.turn order rfl rfl (by rw [counted]) listed still

/-- A listing selects a step whose failure is stored, or not reported. -/
theorem Reporting.lists {current : Option (RunView ι)} {steps : List (StepView ι)}
    (reporting : Reporting book (.runRead current) called)
    (listed : (Stage.listed run current steps).Listed book) (lists : book.Lists steps) :
    Reporting book (Stage.listed run current steps) called := by
  rw [Stage.listed] at listed ⊢
  cases selected : firstUnfinished steps with
  | none =>
      refine reporting.turn rfl rfl rfl rfl ?_ trivial
      intro stepId idle
      cases idle
  | some step =>
      rw [selected] at listed
      have status := (lists.selected selected).1
      refine reporting.turn rfl rfl rfl rfl listed ⟨?_, ?_⟩
      · exact fun failed => status.symm.trans failed
      · intro unfailed reported
        rcases reporting.known _ reported with ⟨stepId, member, named, failed⟩
        have one : stepId = step.id :=
          List.inj_on_of_nodup_map reporting.distinct member (lists.member selected) named
        rw [one, ← status] at failed
        exact unfailed failed

/-- The whole log was searched, so a failure that was not found is not reported. -/
theorem Reporting.looks {visit : Visit ι} {events : List Event}
    (reporting : Reporting book (.visiting visit) called) (numbered : book.Numbered)
    (read : events = book.log.filter fun event => decide (0 < event.sequence))
    (failed : visit.step.status = .failed) :
    Reporting book (.looked visit (events.any (reportsFailureOf visit.step.id))) called := by
  have whole : events = book.log := by
    rw [read, List.filter_eq_self]
    intro event member
    have one := numbered event member
    exact decide_eq_true (by omega)
  refine reporting.turn rfl rfl rfl rfl nofun
    ⟨reporting.listed _ rfl, reporting.reports.1 failed, ?_⟩
  intro missing reported
  rw [← any_reports, ← whole, missing] at reported
  cases reported

variable [DecidableEq ι] {world : World (engineSignature ι) (Raised ι) σ}

/-- What an answer does to the reports. -/
theorem Reporting.answered {book : σ → Book ι} (journal : Journal world run.id book)
    {moved later : Book ι} (reporting : Reporting moved stage called) (sound : stage.Sound)
    (asks : Asks registry run stage op) {result : op.Res}
    (served : world.serve before op (.ok result) after) (same : book after = later)
    (numbered : later.Numbered) (wrote : Book.Wrote op moved later)
    (answers : later.Answers run.id op result) :
    Reporting later (stage.next run true op result)
      (called + if op.endsFailed then 1 else 0) := by
  have listed : (stage.next run true op result).Listed later := by
    apply Stage.Listed.answered _ asks result answers
    intro stepId here
    rw [wrote.order]
    exact reporting.listed stepId here
  have reports := reporting.reports
  cases asks with
  | opens | clocks =>
      cases wrote
      exact reporting.turn rfl rfl rfl rfl listed trivial
  | begins _ =>
      cases wrote
      exact reporting.marks _ rfl listed trivial
  | streams streams streaming =>
      have quiet : op.endsFailed = false := by cases op <;> first | rfl | exact streaming.elim
      rw [next_streams streams streaming, wrote.streamed streaming, quiet]
      exact reporting
  | rereads turns =>
      cases wrote
      rw [next_turns turns] at listed ⊢
      have notified : stage.unnotified = 0 := by cases stage <;> first | rfl | cases turns
      exact reporting.turn rfl rfl rfl (by rw [notified]; rfl) listed trivial
  | lists ongoing =>
      cases wrote
      exact reporting.lists listed (answers rfl)
  | looks failed =>
      have events := journal before 0 result after served
      cases wrote
      rw [same] at events
      exact reporting.looks numbered events failed
  | skips waiting _ =>
      have unreported := reports.2 waiting.not_failed
      cases wrote
      exact reporting.writes _ unreported rfl listed (unreported.records (.skips _) answers)
  | times _ _ =>
      cases wrote
      exact reporting
  | exhausts _ _ =>
      rcases wrote with ⟨event, records, rfl⟩
      exact reporting.logs (records.silent nofun) rfl listed trivial
  | parks affordable _ _ =>
      have unreported := reports.2 affordable.not_failed
      cases wrote
      exact reporting.writes _ unreported rfl listed ⟨answers.1, answers.2, unreported⟩
  | stops _ _ _ =>
      cases wrote
      exact reporting.marks _ rfl listed trivial
  | clears affordable _ _ _ =>
      have unreported := reports.2 affordable.not_failed
      cases wrote
      exact reporting.writes _ unreported rfl listed (unreported.records (.clears _) answers)
  | enters affordable _ =>
      have unreported := reports.2 affordable.not_failed
      cases wrote
      exact reporting.writes _ unreported rfl listed ⟨answers.1, answers.2, unreported⟩
  | proceeds =>
      cases wrote
      exact reporting.writes _ reports rfl listed ⟨answers.1, answers.2, reports⟩
  | titles | shows =>
      cases wrote
      exact reporting.turn rfl rfl rfl rfl listed ⟨reports.1, reports.2.1, nofun, reports.2.2⟩
  | refuses _ =>
      cases wrote
      exact reporting.writes _ reports rfl listed (Book.Unreported.records reports _ answers)
  | types | handles _ =>
      cases wrote
      exact reporting.turn rfl rfl rfl rfl listed reports
  | completes =>
      cases wrote
      exact reporting.writes _ reports rfl listed
        (Book.Unreported.records reports (.completes _) answers)
  | settles =>
      rcases sound with ⟨_, _, stepType, message, rfl | rfl⟩
      · cases wrote
        exact reporting.writes _ reports rfl listed
          (Book.Unreported.records reports (.fails stepType message) answers)
      · cases wrote
        exact reporting.writes _ reports rfl listed
          (Book.Unreported.records reports (.drops stepType message) answers)
  | records =>
      rename_i visit mark row
      rcases wrote with ⟨event, records, rfl⟩
      rcases reports with ⟨same, written, failed, unreported⟩
      have silent : event.failure? = none := records.silent (by cases mark <;> nofun)
      cases mark with
      | skips reason | parks title reason => exact reporting.logs silent rfl listed trivial
      | clears payload | enters startedType => exact reporting.logs silent rfl listed unreported
      | completes outputRefs | fails stepType message | drops stepType reason =>
          refine reporting.logs silent rfl listed ⟨same, ?_, unreported⟩
          intro ended
          exact failed (written ▸ ended)
  | refetches =>
      cases wrote
      cases result with
      | some row =>
          refine reporting.turn rfl rfl rfl rfl listed ⟨answers.1, ?_, reports⟩
          exact fun failed => answers.2 ▸ failed
      | none =>
          refine reporting.turn rfl rfl rfl rfl listed ⟨rfl, ?_, reports⟩
          exact fun failed => absurd failed sound.2.not_failed
  | rollsBack _ | drops | fails | failsBug _ =>
      cases wrote
      exact reporting.turn rfl rfl rfl rfl listed reports
  | judges =>
      rename_i visit ran
      cases wrote
      refine reporting.turn rfl rfl rfl rfl listed ⟨reports.1, ?_, reports.2.2⟩
      intro failed
      rcases answers with stored | snapshot
      · rw [reports.1] at stored
        exact stored.symm.trans failed
      · exact reports.2.1 (snapshot.symm.trans failed)
  | reports =>
      rcases wrote with ⟨event, records, rfl⟩
      exact reporting.report records (reports.2.2 rfl) reports.1 reports.2.1 rfl
  | reportsRan failed =>
      rename_i visit ran
      rcases wrote with ⟨event, records, rfl⟩
      rcases reports with ⟨same, stored, unreported⟩
      rw [same] at records
      exact reporting.report records unreported (reporting.listed _ rfl) (stored failed) rfl
  | repeats | pauses | waits | completesRun _ =>
      cases wrote
      exact reporting.marks _ rfl listed trivial
  | finishes =>
      cases wrote
      exact reporting.turn rfl rfl rfl rfl listed trivial
  | logsPause | logsCompletion =>
      rcases wrote with ⟨event, records, rfl⟩
      exact reporting.logs (records.silent nofun) rfl listed trivial
  | failsRun =>
      cases wrote
      exact reporting.marks _ rfl listed trivial
  | notifies =>
      rename_i status
      cases wrote
      refine reporting.turn rfl rfl rfl ?_ listed trivial
      change (called + if (status == .failed) = true then 1 else 0) + 0 =
        called + if status = .failed then 1 else 0
      by_cases failed : status = .failed <;> simp [failed]

theorem Reporting.raised {moved later : Book ι} {error : Raised ι}
    (reporting : Reporting moved stage called) (asks : Asks registry run stage op)
    (leaves : op.LeavesStore) (wrote : Book.Wrote op moved later) :
    Reporting later (stage.fail op error) (called + if op.endsFailed then 1 else 0) := by
  cases asks with
  | handles _ =>
      cases wrote
      exact reporting.turn rfl rfl rfl rfl (reporting.listed.raised _ error) reporting.reports
  | notifies =>
      rename_i status
      cases wrote
      refine reporting.turn rfl rfl rfl ?_ nofun trivial
      change (called + if (status == .failed) = true then 1 else 0) + 0 =
        called + if status = .failed then 1 else 0
      by_cases failed : status = .failed <;> simp [failed]
  | streams streams streaming =>
      cases wrote.streamed streaming
      have notified : stage.unnotified = 0 := by
        cases stage with
        | ended status => rfl
        | _ => first | rfl | exact streams.elim
      cases op with
      | yieldEvent payload =>
          exact reporting.turn rfl rfl rfl (by rw [notified]; rfl) nofun trivial
      | _ => first | exact leaves.elim | exact streaming.elim
  | settles =>
      rename_i visit mark
      cases mark <;> exact leaves.elim
  | _ => exact leaves.elim

omit [HostId ι] [DecidableEq ι] in
theorem failedEnds_append (record : History (engineSignature ι) (Raised ι) σ)
    (call : Served (engineSignature ι) (Raised ι) σ) :
    failedEnds (record ++ [call]) = failedEnds record + if call.op.endsFailed then 1 else 0 := by
  rw [failedEnds, List.countP_append, List.countP_singleton]
  rfl

/-- The reports of a drive, whose log is numbered from one on. -/
theorem reporting_drive {book : σ → Book ι}
    (store : BookKept world run book Book.Unreset Book.Unreset)
    (journal : Journal world run.id book) {fuel : Nat} {state last : σ}
    {outcome : Except (Raised ι) (Option Unit)}
    {history : History (engineSignature ι) (Raised ι) σ}
    (runs : Runs world.recorded (executeRunEvents registry run true fuel) (state, []) outcome
      (last, history)) (numbered : ∀ call ∈ history, (book call.after).Numbered)
    (reporting : Reporting (book state) .opening called) :
    Reporting (book last) (courseOf run true history).stage (called + failedEnds history) ∧
    CourseEnds run fuel outcome (courseOf run true history) := by
  have kept := course_invariant (fun here course record =>
      (∀ call ∈ record, (book call.after).Numbered) →
        Reporting (book here) course.stage (called + failedEnds record)) runs
    (fun {before course record op answer after} sound asks known served => by
      intro numbered
      rcases store.moved served with ⟨moved, unreset, wrote⟩
      have earlier := known fun call member => numbered call (List.mem_append_left _ member)
      have still : (book after).Numbered :=
        numbered _ (List.mem_append_right _ (List.mem_singleton_self _))
      have moves := earlier.moves unreset
      rw [failedEnds_append, ← Nat.add_assoc]
      cases answer with
      | ok result =>
          exact moves.answered journal sound asks served rfl still wrote (store.answers served)
      | error error => exact moves.raised asks (store.succeeds served) wrote)
    (fun _ => reporting)
  exact ⟨kept.2.1 numbered, kept.2.2⟩

theorem failures_served {book : σ → Book ι}
    (store : BookKept world run book Book.Unreset Book.Unreset)
    {answer : Except (Raised ι) op.Res} (served : world.serve before op answer after)
    {text : String}
    (reported : text ∈ failures (book before).log) : text ∈ failures (book after).log := by
  rcases store.moved served with ⟨moved, unreset, wrote⟩
  rw [← unreset.failures] at reported
  cases op with
  | appendEvent runId type stepId payload commit =>
      rcases wrote with ⟨event, _, equal⟩
      rw [equal]
      change text ∈ failures (moved.log ++ [event])
      rw [failures_append]
      exact List.mem_append_left _ reported
  | setRunStatus marked status =>
      rw [show book after = moved.setRunStatus status from wrote]
      exact reported
  | setStepState stepId status message outputRefs =>
      rw [show book after = moved.setStatus stepId status from wrote]
      exact reported
  | _ =>
      rw [show book after = moved from wrote]
      exact reported

/-- What an answer does after a step was found failed. -/
theorem Stage.Concludes.answered {book : σ → Book ι} {stepId : ι}
    (store : BookKept world run book Book.Unreset Book.Unreset)
    (journal : Journal world run.id book) (concludes : stage.Concludes stepId (book before))
    (asks : Asks registry run stage op) {result : op.Res}
    (served : world.serve before op (.ok result) after)
    (marks : (book after).runStatus = op.leavesStatus (book before).runStatus) :
    (stage.next run true op result).Concludes stepId (book after) := by
  have kept : HostId.text stepId ∈ failures (book before).log →
      HostId.text stepId ∈ failures (book after).log := failures_served store served
  cases asks with
  | looks failed =>
      refine ⟨concludes.1, ?_⟩
      intro found
      rw [← concludes.1, ← any_reports]
      rw [journal before 0 result after served, List.any_filter] at found
      rcases List.any_eq_true.mp found with ⟨event, member, shown⟩
      exact List.any_eq_true.mpr ⟨event, member, (Bool.and_eq_true _ _ |>.mp shown).2⟩
  | repeats => exact ⟨marks, kept (concludes.2 rfl)⟩
  | reports =>
      rcases store.served served with ⟨moved, host, event, records, equal⟩
      change HostId.text stepId ∈ failures (book after).log
      rw [equal]
      change HostId.text stepId ∈ failures (moved.log ++ [event])
      rw [failures_append, records.failed, concludes.1]
      exact List.mem_append_right _ (List.mem_singleton_self _)
  | failsRun => exact ⟨rfl, marks, kept concludes⟩
  | notifies => exact ⟨marks.trans concludes.2.1, kept concludes.2.2⟩
  | streams streams streaming =>
      have unmarked : (book after).runStatus = (book before).runStatus := by
        rw [marks]
        cases op <;> first | rfl | exact streaming.elim
      rw [next_streams streams streaming]
      cases stage with
      | ended status => exact ⟨unmarked.trans concludes.1, kept concludes.2⟩
      | _ => first | exact concludes.elim | exact streams.elim
  | skips waiting _ => exact absurd concludes.2 waiting.not_failed
  | times affordable _ => exact absurd concludes.2 affordable.not_failed
  | exhausts admitted _ => exact absurd concludes.2 admitted.not_failed
  | parks affordable _ _ => exact absurd concludes.2 affordable.not_failed
  | stops affordable _ _ => exact absurd concludes.2 affordable.not_failed
  | clears affordable _ _ _ => exact absurd concludes.2 affordable.not_failed
  | enters affordable _ => exact absurd concludes.2 affordable.not_failed
  | rereads turns => cases stage <;> first | exact concludes.elim | cases turns
  | _ => exact concludes.elim

theorem Stage.Concludes.raised {book : σ → Book ι} {stepId : ι} {error : Raised ι}
    (store : BookKept world run book Book.Unreset Book.Unreset)
    (concludes : stage.Concludes stepId (book before)) (asks : Asks registry run stage op)
    (served : world.serve before op (.error error) after)
    (marks : (book after).runStatus = op.leavesStatus (book before).runStatus) :
    (stage.fail op error).Concludes stepId (book after) := by
  have kept : HostId.text stepId ∈ failures (book before).log →
      HostId.text stepId ∈ failures (book after).log := failures_served store served
  have leaves := store.succeeds served
  cases asks with
  | handles _ => exact concludes.elim
  | notifies => exact ⟨marks.trans concludes.2.1, kept concludes.2.2⟩
  | streams streams streaming =>
      have unmarked : (book after).runStatus = (book before).runStatus := by
        rw [marks]
        cases op <;> first | rfl | exact streaming.elim
      cases stage with
      | ended status =>
          have broken : (book after).runStatus = .failed ∧
              HostId.text stepId ∈ failures (book after).log :=
            ⟨unmarked.trans concludes.1, kept concludes.2⟩
          cases op <;> exact broken
      | _ => first | exact concludes.elim | exact streams.elim
  | settles => exact concludes.elim
  | _ => exact leaves.elim

/-- A drive that found a step failed, while nobody else writes the run's status. -/
theorem found_failed_drive {book : σ → Book ι}
    (store : BookKept world run book Book.Unreset Book.Unreset)
    (journal : Journal world run.id book) {fuel : Nat} {state last : σ}
    {outcome : Except (Raised ι) (Option Unit)}
    {history : History (engineSignature ι) (Raised ι) σ}
    (runs : Runs world.recorded (executeRunEvents registry run true fuel) (state, []) outcome
      (last, history)) {earlier later : History (engineSignature ι) (Raised ι) σ}
    {call : Served (engineSignature ι) (Raised ι) σ} {stepId : ι}
    (split : history = earlier ++ call :: later) (finds : FindsFailed stepId call)
    (only : ∀ next ∈ later, OnlyEngineMarks book next) :
    (courseOf run true history).stage.Concludes stepId (book last) ∧ dispatched later = [] := by
  have kept := course_invariant (fun here course record =>
      ∀ earlier call later stepId, record = earlier ++ call :: later → FindsFailed stepId call →
        (∀ next ∈ later, OnlyEngineMarks book next) →
        course.stage.Concludes stepId (book here)) runs
    (fun {before course record op answer after} _ asks known served => by
      intro earlier call later stepId split finds only
      rcases split_concat.mp split with ⟨rfl, rfl, rfl⟩ | ⟨rest, rfl, past⟩
      · rcases finds with ⟨_, _, steps, _, step, equal, selected, failed, rfl⟩
        cases equal
        rcases course with ⟨stage, passes⟩
        rcases asks_getSteps asks with ⟨current, rfl⟩
        change (Stage.listed run current steps).Concludes step.id _
        rw [Stage.listed, selected]
        exact ⟨rfl, failed⟩
      · have concludes := known earlier call rest stepId past finds fun next member =>
          only next (List.mem_append_left _ member)
        have marks : OnlyEngineMarks book ⟨before, op, answer, after⟩ :=
          only _ (List.mem_append_right _ (List.mem_singleton_self _))
        cases answer with
        | ok result => exact concludes.answered store journal asks served marks
        | error error => exact concludes.raised store asks served marks)
    (fun earlier call later stepId split => by simp at split)
  refine ⟨kept.2.1 earlier call later stepId split finds only, ?_⟩
  apply List.filterMap_eq_nil_iff.mpr
  intro next member
  rcases List.append_of_mem member with ⟨between, rest, rfl⟩
  have resplit : history = (earlier ++ call :: between) ++ next :: rest := by
    rw [split, List.append_assoc, List.cons_append]
  rcases kept.1 _ _ _ resplit with ⟨asks, _, known⟩
  have concludes := known earlier call between stepId rfl finds fun earlier member =>
    only earlier (List.mem_append_left _ member)
  rcases next with ⟨before, op, answer, after⟩
  cases op with
  | handle handled step =>
      rcases asks_handle asks with ⟨visit, stepType, here, _⟩
      rw [here] at concludes
      exact concludes.elim
  | _ => rfl

omit [DecidableEq ι] in
/-- Such a drive ends its run as failed. -/
theorem Stage.Concludes.ends {stepId : ι} {fuel : Nat}
    {outcome : Except (Raised ι) (Option Unit)} {course : Course ι}
    (concludes : course.stage.Concludes stepId book) (ends : CourseEnds run fuel outcome course) :
    book.runStatus = .failed ∧ HostId.text stepId ∈ SlimxAgent.failures book.log := by
  rcases course with ⟨stage, passes⟩
  rcases outcome with error | _ | _
  · cases stage with
    | visiting visit =>
        have refused : visit.Refused error := ends
        have failed : visit.step.status = .failed := concludes.2
        cases refused with
        | unknown unknown => cases failed.symm.trans unknown
        | running running _ => cases failed.symm.trans running
    | broken => exact concludes
    | looked | failing | notifying | ended => exact ends.elim
    | _ => exact concludes.elim
  · cases stage with
    | visiting | looked | failing | notifying | ended | broken => cases ends.1
    | _ => exact concludes.elim
  · cases stage with
    | ended status => exact concludes
    | visiting | looked | failing | notifying | broken => exact ends.elim
    | _ => exact concludes.elim

omit [HostId ι] [DecidableEq ι] in
/-- Where a drive ends no hook is due. -/
theorem CourseEnds.notified {fuel : Nat} {outcome : Except (Raised ι) (Option Unit)}
    {course : Course ι} (ends : CourseEnds run fuel outcome course) :
    course.stage.unnotified = 0 := by
  rcases course with ⟨stage, passes⟩
  rcases outcome with error | _ | _
  · cases stage <;> first | rfl | exact ends.elim
  · cases stage <;> first | rfl | cases ends.1
  · cases stage <;> first | rfl | exact ends.elim

/-- Drives of a run whose caller is told how it ends. -/
def HookedDrives (world : World (engineSignature ι) (Raised ι) σ) (runId : ι) (state : σ)
    (calls : History (engineSignature ι) (Raised ι) σ) (last : σ) : Prop :=
  ∃ registry run fuel outcome, run.id = runId ∧
    Runs world.recorded (executeRunEvents registry run true fuel) (state, []) outcome (last, calls)

/-- The reports of any sequence of drives. -/
theorem reporting_sessions {book : σ → Book ι}
    (store : BookKept world run book Book.Unreset Book.Unreset)
    (journal : Journal world run.id book) {state last : σ}
    {history : History (engineSignature ι) (Raised ι) σ}
    (sessions : Sessions (HookedDrives world run.id)
      (fun before after => (book before).Unreset (book after)) state history last)
    (numbered : ∀ call ∈ history, (book call.after).Numbered)
    (distinct : ((book state).order.map HostId.text).Nodup)
    (silent : failures (book state).log = []) :
    Reporting (book last) .opening (failedEnds history) := by
  have initially : Reporting (book state) .opening 0 := by
    refine ⟨distinct, ?_, ?_, ?_, nofun, trivial⟩
    · rw [silent]
      exact List.nodup_nil
    · rw [silent]
      exact fun _ reported => absurd reported List.not_mem_nil
    · rw [silent]
      rfl
  have kept := sessions.invariant (fun calls here =>
      (∀ call ∈ calls, (book call.after).Numbered) →
        Reporting (book here) .opening (failedEnds calls)) (fun _ => initially)
    (fun known unreset numbered => (known numbered).moves unreset)
    (fun {history here calls last} known drive numbered => by
      rcases drive with ⟨registry, drive, fuel, outcome, same, runs⟩
      have earlier := known fun call member => numbered call (List.mem_append_left _ member)
      rw [← same] at journal
      have driven := reporting_drive (store.of_id same) journal runs
        (fun call member => numbered call (List.mem_append_right _ member)) earlier
      have notified := driven.2.notified
      have total : failedEnds (history ++ calls) = failedEnds history + failedEnds calls :=
        List.countP_append
      rw [total]
      exact driven.1.turn rfl rfl rfl (by rw [notified]; rfl) nofun trivial)
  exact kept numbered

end Proof

/-- Failures of a run's steps are reported once, over any sequence of drives.  Step ids are
distinct as text, and neither the host nor its tools reset a failed step or report a
failure; they may append steps, mark steps failed and set the status of the run.  Then no
step's failure is reported twice, and the hook was told of a failed run as often as one was
reported.  A further drive that finds the first unfinished step failed, while nobody else
sets the status of the run, ends it as failed, with the failure of the step in the log, and
calls no handler after that. -/
theorem failure_reported_once [HostId ι] [DecidableEq ι]
    {world : World (engineSignature ι) (Raised ι) σ} {run : RunView ι} {book : σ → Book ι}
    (store : BookKept world run book Book.Unreset Book.Unreset)
    (journal : Journal world run.id book) {state last : σ}
    {history : History (engineSignature ι) (Raised ι) σ}
    (sessions : Sessions (HookedDrives world run.id)
      (fun before after => (book before).Unreset (book after)) state history last)
    (numbered : ∀ call ∈ history, (book call.after).Numbered)
    (distinct : ((book state).order.map HostId.text).Nodup)
    (silent : failures (book state).log = []) :
    (∀ stepId : ι, (book last).log.countP (reportsFailureOf stepId) ≤ 1) ∧
    (failures (book last).log).length = failedEnds history ∧
    ∀ registry drive fuel outcome after earlier call later stepId, drive.id = run.id →
      Runs world.recorded (executeRunEvents registry drive true fuel) (last, []) outcome
        (after, earlier ++ call :: later) →
      FindsFailed stepId call → (∀ next ∈ later, OnlyEngineMarks book next) →
      (book after).runStatus = .failed ∧
        (∃ event ∈ (book after).log, reportsFailureOf stepId event = true) ∧
        dispatched later = [] := by
  have reporting := reporting_sessions store journal sessions numbered distinct silent
  refine ⟨?_, ?_, ?_⟩
  · intro stepId
    rw [countP_reports]
    exact List.nodup_iff_count_le_one.mp reporting.once (HostId.text stepId)
  · exact reporting.counted
  · intro registry drive fuel outcome after earlier call later stepId same runs finds only
    rw [← same] at journal
    have ends := (course_invariant (fun _ _ _ => True) runs (fun _ _ _ _ => trivial) trivial).2.2
    have found := found_failed_drive (store.of_id same) journal runs rfl finds only
    have concluded := found.1.ends ends
    exact ⟨concluded.1, List.any_eq_true.mp (any_reports.mpr concluded.2), found.2⟩

/-- Tools that fail. -/
def faultyRules : HostRules :=
  ⟨fun _ state => (.failed "refused", state), fun _ state => state⟩

/-- The host with such tools. -/
def faultyWorld : World (engineSignature String) (Raised String) HostState :=
  World.ofFn (faultyRules.respond fun _ => 0)

/-- The host numbers its events from one on. -/
theorem HostState.numbered {state : HostState} (first : 1 ≤ state.firstSequence) :
    state.book.Numbered := by
  intro event member
  rcases List.getElem_of_mem member with ⟨index, bound, rfl⟩
  have sequence : (state.log.get ⟨index, bound⟩).sequence = state.firstSequence + index :=
    HostState.sequence_log bound
  change 1 ≤ (state.log.get ⟨index, bound⟩).sequence
  omega

/-- Whether a call finds a step failed. -/
def findsFailed? (call : Served (engineSignature ι) (Raised ι) σ) : Option ι :=
  match call with
  | ⟨_, .getSteps _, .ok steps, _⟩ =>
      ((firstUnfinished steps).filter fun step => step.status == .failed).map StepView.id
  | _ => none

theorem finds_of_findsFailed? {call : Served (engineSignature ι) (Raised ι) σ} {stepId : ι}
    (finds : findsFailed? call = some stepId) : FindsFailed stepId call := by
  rcases call with ⟨before, op, answer, after⟩
  cases op with
  | getSteps runId =>
      cases answer with
      | ok steps =>
          simp only [findsFailed?, Option.map_eq_some_iff, Option.filter_eq_some_iff,
            beq_iff_eq] at finds
          rcases finds with ⟨step, ⟨selected, failed⟩, named⟩
          exact ⟨before, runId, steps, after, step, rfl, selected, failed, named⟩
      | error error => cases finds
  | _ => cases finds

theorem unreset_refl (book : Book String) : book.Unreset book :=
  ⟨List.prefix_rfl, id, fun _ _ failed => failed, [], (List.append_nil _).symm,
    fun _ member => absurd member List.not_mem_nil⟩

theorem unreset_reopened (state : HostState) :
    state.book.Unreset (state.setStatus .running).book := by
  have log : (state.setStatus .running).book.log = state.book.log := rfl
  exact ⟨List.prefix_rfl, id, fun _ _ failed => failed, [], by rw [log, List.append_nil],
    fun _ member => absurd member List.not_mem_nil⟩

theorem bookKept_faulty : BookKept faultyWorld seedHost.run HostState.book Book.Unreset
    Book.Unreset :=
  HostRules.bookKept unreset_refl (fun _ _ => unreset_refl _) fun _ _ => unreset_refl _

theorem journal_faulty : Journal faultyWorld seedHost.run.id HostState.book := by
  intro before cursor events after served
  cases served
  rfl

theorem first_faulty {before after : HostState} {op : EngineOp String}
    {answer : Except (Raised String) op.Res} (served : faultyWorld.serve before op answer after)
    (first : 1 ≤ before.firstSequence) : 1 ≤ after.firstSequence := by
  have left : (faultyRules.respond (fun _ => 0) op before).2 = after := congrArg Prod.snd served
  rw [← left]
  cases op <;> exact first

theorem marks_faulty {before after : HostState} {op : EngineOp String}
    {answer : Except (Raised String) op.Res} (served : faultyWorld.serve before op answer after) :
    OnlyEngineMarks HostState.book ⟨before, op, answer, after⟩ := by
  have left : (faultyRules.respond (fun _ => 0) op before).2 = after := congrArg Prod.snd served
  rw [OnlyEngineMarks, ← left]
  cases op <;> rfl

/-- A drive of such a run. -/
def faultyDrive (state : HostState) : Engine String (Option Unit) :=
  executeRunEvents ⟨["model_call"], by decide⟩ state.run true 3

/-- The run after its first drive, opened again. -/
def faultyReopened : HostState :=
  ((faultyDrive seedHost).eval (faultyRules.respond fun _ => 0) seedHost).2.setStatus .running

theorem collected_map {γ δ : Type} (collect : γ → δ) (members : List γ) (past : List δ) :
    members.foldl (fun seen member => seen ++ [collect member]) past =
      past ++ members.map collect := by
  induction members generalizing past with
  | nil => simp
  | cons member members ih => simp [ih]

/-- A step fails, the run is opened again, and the next drive finds it failed. -/
theorem failure_reported_once_seed :
    ∃ history,
      Sessions (HookedDrives faultyWorld seedHost.run.id)
        (fun before after => before.book.Unreset after.book) seedHost history faultyReopened ∧
      failures faultyReopened.log = ["step-1"] ∧ failedEnds history = 1 ∧
      ∃ after earlier call later,
        Runs faultyWorld.recorded (faultyDrive faultyReopened) (faultyReopened, []) (.ok (some ()))
          (after, earlier ++ call :: later) ∧
        FindsFailed "step-1" call ∧ after.run.status = .failed ∧ dispatched later = [] := by
  rcases record_ofFn (faultyRules.respond fun _ => 0) (fun (seen : List Unit) _ => seen)
    (faultyDrive seedHost) seedHost [] with ⟨history, runs, _⟩
  rcases record_ofFn (faultyRules.respond fun _ => 0)
    (fun seen call => seen ++ [findsFailed? call]) (faultyDrive faultyReopened) faultyReopened []
    with ⟨again, reruns, seen⟩
  have sessions : Sessions (HookedDrives faultyWorld seedHost.run.id)
      (fun before after => before.book.Unreset after.book) seedHost ([] ++ history)
      faultyReopened :=
    .move (.session .nothing ⟨_, _, _, _, rfl, runs⟩) (unreset_reopened _)
  have first : 1 ≤ seedHost.firstSequence := by decide
  have numbered := (Runs.throughout runs first_faulty first
    fun _ member => absurd member List.not_mem_nil).2
  have once := failure_reported_once bookKept_faulty journal_faulty sessions
    (fun call member => HostState.numbered (numbered call member)) (by decide) rfl
  have listed : failures faultyReopened.log = ["step-1"] := by decide
  have found : some "step-1" ∈ again.map findsFailed? := by
    rw [← List.nil_append (again.map findsFailed?), ← collected_map, seen]
    decide
  rcases List.mem_map.mp found with ⟨call, member, finds⟩
  rcases List.append_of_mem member with ⟨earlier, later, rfl⟩
  have served := reruns.answered fun _ member => absurd member List.not_mem_nil
  have same : faultyReopened.run.id = seedHost.run.id := by decide
  have concluded := once.2.2 _ faultyReopened.run 3 _ _ earlier call later "step-1" same reruns
    (finds_of_findsFailed? finds)
    fun next member => marks_faulty (served next
      (List.mem_append_right _ (List.mem_cons_of_mem _ member)))
  exact ⟨_, sessions, listed, once.2.1.symm.trans (congrArg List.length listed), _, earlier, call,
    later, reruns, finds_of_findsFailed? finds, concluded.1, concluded.2.2⟩

end SlimxAgent
