import SlimxAgent.Blame

/-!
# The service edge

What an execution answers its caller, and why.  A callback that failed decides the
answer: the host's own 4xx is relayed, anything else is a bad gateway, and the callback
was the last.  Only a failed run-end hook is passed over.  Without a failed callback the
run stopped, or it was not there, or a step left running lost its grant, or the host's
answer to an invocation was not an outcome.
-/

namespace SlimxAgent

open Interaction

variable {σ : Type}

/-! ## The step last shown -/

/-- The last two callbacks read the run and listed its steps, and the step of the visit was
selected of that listing. -/
structure JustListed (run : RunView String) (past history : History wireSignature (Raised String) σ)
    (visit : Visit String) : Prop where
  shown : ∃ drive rereads lists current, history = past ++ drive ++ [rereads, lists] ∧
    ReadAs ⟨.run run.id, none⟩ readRun current rereads ∧ visit.fresh = current.getD run ∧
    ReadAs ⟨.steps run.id, none⟩ readSteps visit.steps lists
  selected : firstUnfinished visit.steps = some visit.step

/-- What the callbacks made since the drive began show of where it stands. -/
def Stage.Evident (run : RunView String) (past history : History wireSignature (Raised String) σ) :
    Stage String → Prop
  | .runRead current => userStopped current = true ∨ ∃ drive rereads,
      history = past ++ drive ++ [rereads] ∧ ReadAs ⟨.run run.id, none⟩ readRun current rereads
  | .visiting visit => visit.Admitted ∨ JustListed run past history visit
  | .broken error => ¬ engineConduct.refuses error
  | _ => True

section Evidence

variable {world : World wireSignature (Raised String) σ} {profile : RunProfile}
  {registry : ToolRegistry} {run : RunView String} {hooked : Bool} {stage : Stage String}
  {past : History wireSignature (Raised String) σ}
  {state after : σ × History wireSignature (Raised String) σ}

/-- What an operation of the engine adds to the callbacks made. -/
theorem served_grows {op : EngineOp String} {answer : Except (Raised String) op.Res}
    (served : (engineWorld world.recorded profile).serve state op answer after) :
    ∃ calls, after.2 = state.2 ++ calls := by
  have runs : Runs world.recorded (overWire profile op) state answer after := served
  exact runs.record_grows

theorem evident_hooking (status : RunStatus) :
    (Stage.hooking (ι := String) hooked status).Evident run past after.2 := by
  cases hooked <;> trivial

/-- Every answer leads to a stage that the callbacks show. -/
theorem evident_next {op : EngineOp String} {result : op.Res}
    (grown : ∃ drive, state.2 = past ++ drive) (evident : stage.Evident run past state.2)
    (asks : Asks registry run stage op)
    (served : (engineWorld world.recorded profile).serve state op (.ok result) after) :
    (stage.next run hooked op result).Evident run past after.2 := by
  cases asks with
  | streams streams served =>
      rw [next_streams streams served result]
      cases stage with
      | runRead current => exact .inl streams
      | visiting visit => exact streams.elim
      | broken error => exact streams.elim
      | _ => trivial
  | rereads turns =>
      rw [next_turns turns result]
      rcases grown with ⟨drive, equal⟩
      rcases readAs_getRun (Runs.perform_iff.mpr served) with ⟨rereads, _, _, recorded, read⟩
      rw [equal] at recorded
      exact .inr ⟨drive, rereads, recorded, read⟩
  | lists ongoing =>
      rename_i current
      change (Stage.listed run current result).Evident run past after.2
      cases selected : firstUnfinished result with
      | none =>
          rw [Stage.listed, selected]
          trivial
      | some step =>
          rw [Stage.listed, selected]
          rcases evident with stopped | ⟨drive, rereads, equal, read⟩
          · rw [ongoing] at stopped
            cases stopped
          · have lists : Runs world.recorded (overWire profile (.getSteps run.id)) state
              (.ok result) after := served
            rw [overWire_getSteps] at lists
            rcases readAs_exchange lists with ⟨lists, _, _, recorded, listed⟩
            rw [equal, List.append_assoc] at recorded
            exact .inr ⟨⟨drive, rereads, lists, current, recorded, read, rfl, listed⟩, selected⟩
  | times affordable _ => exact .inl affordable.toAdmitted
  | settles =>
      rename_i visit mark
      cases mark <;> trivial
  | records =>
      rename_i visit mark row
      cases mark <;> trivial
  | failsRun | logsCompletion => exact evident_hooking _
  | _ => trivial

/-- The exception of a callback is never the refusal of a step. -/
theorem unrefused_over_wire (dependable : Dependable world) {op : EngineOp String}
    {error : Raised String} (passes : engineConduct.passes op error)
    (served : (engineWorld world.recorded profile).serve state op (.error error) after) :
    ¬ engineConduct.refuses error := by
  rintro ⟨stepId, reason, rfl⟩
  rcases raised_over_wire dependable passes served with ⟨call, _, _, blames⟩
  cases blames

/-- An exception that is not the handler's is a callback's. -/
theorem evident_fail (dependable : Dependable world) {op : EngineOp String}
    {error : Raised String} (asks : Asks registry run stage op)
    (served : (engineWorld world.recorded profile).serve state op (.error error) after) :
    (stage.fail op error).Evident run past after.2 := by
  have unrefused : engineConduct.passes op error → ¬ engineConduct.refuses error :=
    fun passes => unrefused_over_wire dependable passes served
  cases op with
  | handle handled step =>
      rcases asks_handle asks with ⟨visit, stepType, rfl, _⟩
      trivial
  | _ => exact unrefused trivial

/-- The step that is refused is the one last listed. -/
theorem refused_evident {history : History wireSignature (Raised String) σ} {stepId reason : String}
    (evident : stage.Evident run past history)
    (raises : stage.Raises (.runningStepNotPermitted stepId reason)) :
    ∃ visit, JustListed run past history visit ∧ visit.step.id = stepId ∧
      visit.step.status = .running ∧
      permissionBlockReason visit.step visit.fresh = some reason := by
  cases stage with
  | visiting visit =>
      have refused : visit.Refused (.runningStepNotPermitted stepId reason) := raises
      cases refused with
      | running running blocked =>
          rcases evident with admitted | listed
          · rw [permissionBlockReason_eq_none.mpr admitted.permitted] at blocked
            cases blocked
          · exact ⟨visit, listed, rfl, running, blocked⟩
  | handled visit outcome =>
      cases outcome with
      | ok outputRefs => exact raises.elim
      | error error =>
          rcases raises with ⟨rfl, ends⟩
          exact ends.elim
  | broken error =>
      have same : error = .runningStepNotPermitted stepId reason := raises
      exact absurd ⟨stepId, reason, same⟩ evident
  | _ => exact raises.elim

/-- A pass reads the run: one callback more. -/
theorem countPass_le {course : Course String} {op : EngineOp String}
    {answer : Except (Raised String) op.Res} (counted : course.passes ≤ state.2.length)
    (served : (engineWorld world.recorded profile).serve state op answer after) :
    course.countPass op ≤ after.2.length := by
  rcases served_grows served with ⟨calls, grown⟩
  have plain : course.passes ≤ after.2.length := by
    rw [grown, List.length_append]
    omega
  cases op with
  | getRun runId =>
      have reads : Runs world.recorded (overWire profile (.getRun runId)) state answer after :=
        served
      rw [overWire_getRun] at reads
      rcases runs_exchange.mp reads with ⟨reply, replies, _⟩
      rcases replies_recorded replies with ⟨call, recorded, _⟩
      rw [Course.countPass, recorded, List.length_append, List.length_singleton]
      split <;> omega
  | _ => exact plain

/-- How a drive over a dependable wire ends: running out of passes takes a callback for each,
and the step that it refuses is the one last listed. -/
theorem drive_evident (dependable : Dependable world) {fuel : Nat}
    {outcome : Except (Raised String) (Option Unit)}
    (runs : Runs (engineWorld world.recorded profile) (executeRunEvents registry run hooked fuel)
      state outcome after) :
    (outcome = .ok none → fuel ≤ after.2.length) ∧
      ∀ stepId reason, outcome = .error (.runningStepNotPermitted stepId reason) →
        ∃ visit, JustListed run state.2 after.2 visit ∧ visit.step.id = stepId ∧
          visit.step.status = .running ∧
          permissionBlockReason visit.step visit.fresh = some reason := by
  rcases runs.record [] with ⟨calls, recorded⟩
  have course := course_invariant (fun before course _ =>
      (∃ drive, before.2 = state.2 ++ drive) ∧ course.passes ≤ before.2.length ∧
        course.stage.Evident run state.2 before.2) recorded
    (by
      intro before course record op answer after _ asks known served
      rcases known with ⟨grown, counted, evident⟩
      refine ⟨?_, countPass_le counted served, ?_⟩
      · rcases grown with ⟨drive, equal⟩
        rcases served_grows served with ⟨added, grown⟩
        exact ⟨drive ++ added, by rw [grown, equal, List.append_assoc]⟩
      · cases answer with
        | ok result => exact evident_next grown evident asks served
        | error error => exact evident_fail dependable asks served)
    ⟨⟨[], (List.append_nil _).symm⟩, Nat.zero_le _, trivial⟩
  rcases course.2 with ⟨⟨_, counted, evident⟩, ends⟩
  constructor
  · rintro rfl
    rw [← ends.2]
    exact counted
  · rintro stepId reason rfl
    exact refused_evident evident ends

end Evidence

theorem wp_storeAndRun_alarmed {world : World wireSignature (Raised String) σ}
    {profile : RunProfile} {registry : ToolRegistry} {runId : String} (fuel : Nat)
    {state : σ × List WireOp} (unalarmed : Unalarmed state) :
    wireWp (world.monitored raiseAlarm) profile heeds (storeAndRun registry runId fuel)
      (fun _ => HookAlarmed) Reported state := by
  apply wp_seq (wp_unalarmed (getRun_propagates trivial) unalarmed)
  intro found state unalarmed
  cases found with
  | none => exact unalarmed.hook
  | some run =>
      apply wp_seq (wp_executeRun_alarmed fuel unalarmed)
      intro final state hook
      exact hook

/-- The run was not there: its read was the only callback, and was answered so. -/
def OnlyNotFound (runId : String) (history : History wireSignature (Raised String) σ) : Prop :=
  ∃ before response after, response.statusCode = 404 ∧
    history = [⟨before, .request ⟨.run runId, none⟩, .ok response, after⟩]

/-- Why an execution answers as it does.  It is for the run that its first callback read.  That
run stopped when its drive returned on the callbacks made, and the answer shows it as the last
callback read it; a step was refused when it was listed last, running and without its grant. -/
inductive AnsweredFor (world : World wireSignature (Raised String) σ) (profile : RunProfile)
    (runId : String) (fuel : Nat) (history : History wireSignature (Raised String) σ) :
    ServiceAnswer → Prop where
  | stopped {first final : Served wireSignature (Raised String) σ}
      {drive : History wireSignature (Raised String) σ} {run : RunView String}
      {reread : Option (RunView String)} :
      ReadAs ⟨.run runId, none⟩ readRun (some run) first →
      Runs (engineWorld world.recorded profile) (executeRunEvents remoteRegistry run true fuel)
        (first.after, [first]) (.ok (some ())) (final.before, drive) →
      history = drive ++ [final] → ReadAs ⟨.run run.id, none⟩ readRun reread final →
      AnsweredFor world profile runId fuel history
        (.stopped (reread.getD run).id (reread.getD run).status)
  | notFound : OnlyNotFound runId history →
      AnsweredFor world profile runId fuel history (.raised 404 "Agent run not found")
  | notPermitted {first : Served wireSignature (Raised String) σ} {run : RunView String}
      {visit : Visit String} {reason : String} :
      ReadAs ⟨.run runId, none⟩ readRun (some run) first → JustListed run [first] history visit →
      visit.step.status = .running →
      permissionBlockReason visit.step visit.fresh = some reason →
      AnsweredFor world profile runId fuel history
        (notPermittedHttpError (.runningStepNotPermitted visit.step.id reason))
  | noOutcome {earlier : History wireSignature (Raised String) σ}
      {call : Served wireSignature (Raised String) σ} {message : String} :
      history = earlier ++ [call] → NoOutcome message call →
      AnsweredFor world profile runId fuel history
        (.raised 502 (boundedDetail message maxDetailChars))

theorem readRun_none {response : Response} (absent : readRun response = .ok none) :
    response.statusCode = 404 := by
  by_cases missing : response.statusCode = 404
  · exact missing
  · exfalso
    have present : ¬ (response.statusCode = 404 ∧ true = true) := fun both => missing both.1
    rw [readRun] at absent
    rcases bind_eq_ok.mp absent with ⟨found, optional, read⟩
    cases found with
    | some data =>
        rcases bind_eq_ok.mp read with ⟨run, _, same⟩
        cases same
    | none =>
        rw [HostClient.optionalObject] at optional
        rcases bind_eq_ok.mp optional with ⟨answer, answered, made⟩
        cases answer with
        | notFound =>
            rw [requestAnswer, if_neg present] at answered
            split at answered
            · cases answered
            · split at answered
              · cases answered
              · split at answered <;> cases answered
        | body value =>
            rcases bind_eq_ok.mp made with ⟨data, _, same⟩
            cases same

/-- How an execution ends: its run was read, its drive left, and the run read again. -/
inductive Executed (world : World wireSignature (Raised String) σ) (profile : RunProfile)
    (runId : String) (fuel : Nat) (last : σ) (history : History wireSignature (Raised String) σ) :
    Except (Raised String) (Option (Option (RunView String))) → Prop where
  | unread {error : Raised String} : ¬ engineConduct.refuses error →
      Executed world profile runId fuel last history (.error error)
  | absent {call : Served wireSignature (Raised String) σ} : history = [call] →
      ReadAs ⟨.run runId, none⟩ readRun none call →
      Executed world profile runId fuel last history (.ok (some none))
  | raised {first : Served wireSignature (Raised String) σ} {run : RunView String}
      {error : Raised String} : ReadAs ⟨.run runId, none⟩ readRun (some run) first →
      Runs (engineWorld world.recorded profile) (executeRunEvents remoteRegistry run true fuel)
        (first.after, [first]) (.error error) (last, history) →
      Executed world profile runId fuel last history (.error error)
  | running {first : Served wireSignature (Raised String) σ} {run : RunView String} :
      ReadAs ⟨.run runId, none⟩ readRun (some run) first →
      Runs (engineWorld world.recorded profile) (executeRunEvents remoteRegistry run true fuel)
        (first.after, [first]) (.ok none) (last, history) →
      Executed world profile runId fuel last history (.ok none)
  | returned {first final : Served wireSignature (Raised String) σ}
      {drive : History wireSignature (Raised String) σ} {run : RunView String}
      {reread : Option (RunView String)} :
      ReadAs ⟨.run runId, none⟩ readRun (some run) first →
      Runs (engineWorld world.recorded profile) (executeRunEvents remoteRegistry run true fuel)
        (first.after, [first]) (.ok (some ())) (final.before, drive) →
      history = drive ++ [final] → ReadAs ⟨.run run.id, none⟩ readRun reread final →
      Executed world profile runId fuel last history (.ok (some (some (reread.getD run))))

section Execution

variable {world : World wireSignature (Raised String) σ} {profile : RunProfile}
  {runId : String} {fuel : Nat} {state last : σ}
  {history : History wireSignature (Raised String) σ}

end Execution

section Answers

variable {world : World wireSignature (Raised String) σ} {profile : RunProfile} {runId : String}
  {fuel : Nat} {state last : σ} {history : History wireSignature (Raised String) σ}

/-- What a drive returned or refused, as it is answered. -/
theorem Executed.answers (dependable : Dependable world)
    {ended : Except (Raised String) (Option (Option (RunView String)))}
    (executed : Executed world profile runId fuel last history ended) :
    (∀ returned, ended = .ok returned → returned = none ∧ fuel ≤ history.length ∨
      ∃ answer, answerOf ended = .ok (some answer) ∧
        AnsweredFor world profile runId fuel history answer) ∧
    ∀ stepId reason, ended = .error (.runningStepNotPermitted stepId reason) →
      AnsweredFor world profile runId fuel history
        (notPermittedHttpError (.runningStepNotPermitted stepId reason)) := by
  constructor
  · intro returned same
    cases executed with
    | unread _ | raised _ _ => cases same
    | absent only shown =>
        rcases shown with ⟨before, response, after, rfl, parsed⟩
        exact .inr ⟨_, rfl, .notFound ⟨before, response, after, readRun_none parsed, only⟩⟩
    | running shown drives =>
        cases same
        exact .inl ⟨rfl, (drive_evident dependable drives).1 rfl⟩
    | returned shown drives whole reread =>
        exact .inr ⟨_, rfl, .stopped shown drives whole reread⟩
  · intro stepId reason same
    cases executed with
    | unread unrefused =>
        cases same
        exact absurd ⟨stepId, reason, rfl⟩ unrefused
    | raised shown drives =>
        rcases (drive_evident dependable drives).2 stepId reason (Except.error.inj same ▸ rfl) with
          ⟨visit, listed, rfl, running, blocked⟩
        exact .notPermitted shown listed running blocked
    | _ => cases same

end Answers

end SlimxAgent
