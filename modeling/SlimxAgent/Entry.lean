import SlimxAgent.Dispatch
import SlimxAgent.Interaction.Interleaving

/-!
# One entry per step, whoever drives

Nothing keeps two drives from working on one run at a time: a drive that was given up
may still be going when the next one starts.  The engine has no ledger of its own.  It
asks for the running transition before every dispatch, and the store refuses it where an
earlier attempt may have crossed its entry boundary (`EntryLedger`).

That is enough (`entered_once`): whatever the drives, and in whatever order their calls
reach the store, a step whose handler ran, without preparing a new action, is not
dispatched again by any of them, and is completed at most once, by the drive whose
handler returned.
-/

namespace SlimxAgent

open Interaction

variable {ι σ κ : Type}

/-- A drive: what the engine is called with. -/
structure Drive (ι : Type) where
  registry : ToolRegistry
  run : RunView ι
  hooked : Bool
  fuel : Nat

def Drive.program [HostId ι] (drive : Drive ι) : Engine ι (Option Unit) :=
  executeRunEvents drive.registry drive.run drive.hooked drive.fuel

/-- The turns of drives. -/
abbrev Turns (κ ι σ : Type) := List (Turn κ (engineSignature ι) (Raised ι) σ)

/-- Where a party's drive stands. -/
def stageOf [HostId ι] [DecidableEq κ] (drives : κ → Drive ι) (record : Turns κ ι σ)
    (party : κ) : Stage ι :=
  (courseOf (drives party).run (drives party).hooked (callsOf party record)).stage

section Courses

variable [HostId ι] [DecidableEq κ] {drives : κ → Drive ι} {record : Turns κ ι σ}
  {party other : κ} {before after : σ} {op : EngineOp ι}

/-- A turn moves the stage of its party. -/
theorem stageOf_own {answer : Except (Raised ι) op.Res} :
    stageOf drives (record ++ [⟨party, ⟨before, op, answer, after⟩⟩]) party =
      match answer with
      | .ok result => (stageOf drives record party).next (drives party).run (drives party).hooked
          op result
      | .error error => (stageOf drives record party).fail op error := by
  rw [stageOf, callsOf_own, courseOf_append]
  cases answer with
  | ok result => rfl
  | error error => rfl

theorem stageOf_other (different : party ≠ other) {answer : Except (Raised ι) op.Res} :
    stageOf drives (record ++ [⟨party, ⟨before, op, answer, after⟩⟩]) other =
      stageOf drives record other := by
  rw [stageOf, callsOf_other different, stageOf]

/-- Every drive keeps to its course, whatever the others do meanwhile. -/
theorem interleaved_courses {worlds : κ → World (engineSignature ι) (Raised ι) σ}
    {moves : σ → σ → Prop} {programs : κ → Engine ι (Option Unit)} {initial last : σ}
    (interleaves : Interleaves worlds moves (fun party => (drives party).program) initial record
      programs last) {earlier rest : Turns κ ι σ} {turn : Turn κ (engineSignature ι) (Raised ι) σ}
    (split : record = earlier ++ turn :: rest) :
    Asks (drives turn.party).registry (drives turn.party).run (stageOf drives earlier turn.party)
      turn.call.op := by
  have compatible : Compatible worlds moves
      (fun party => Course.advance (drives party).run (drives party).hooked)
      (fun party => onCourse (drives party).registry (drives party).run)
      fun _ _ _ => True := by
    constructor
    · exact fun _ _ => trivial
    · exact fun _ _ => trivial
    · exact fun _ => trivial
    · exact fun _ _ _ => trivial
    · intro party course call later
      rcases call with ⟨before, op, answer, after⟩
      cases answer with
      | ok result => rfl
      | error error => rfl
  have outlined := interleaves.outlined (fun _ => Course.start) compatible
    fun party later _ => follows_course (drives party).fuel later
  exact outlined.2 earlier turn rest split

end Courses

/-! ## The ledger -/

/-- The step is entered: the running transition. -/
def EngineOp.Enters (stepId : ι) : EngineOp ι → Prop
  | .setStepState id .running _ _ => id = stepId
  | _ => False

/-- The handler of the step prepared a new action instead of running. -/
def PreparesStep (stepId : ι) (call : Served (engineSignature ι) (Raised ι) σ) : Prop :=
  match call with
  | ⟨_, .handle _ step, .error (.stepActionPrepared _), _⟩ => step.id = stepId
  | _ => False

/-- The handler of the step returned. -/
def HandlerReturned (stepId : ι) (call : Served (engineSignature ι) (Raised ι) σ) : Prop :=
  match call with
  | ⟨_, .handle _ step, .ok _, _⟩ => step.id = stepId
  | _ => False

/-- The step is written as completed. -/
def EngineOp.Finishes (stepId : ι) : EngineOp ι → Prop
  | .setStepState id .completed _ _ => id = stepId
  | _ => False

/-- What the store promises of the running transition: it is refused where an earlier
attempt may have entered, and one that is accepted may enter from then on.  Only a handler
that prepared a new action is known not to have. -/
structure EntryLedger (worlds : κ → World (engineSignature ι) (Raised ι) σ)
    (moves : σ → σ → Prop) (entered : σ → ι → Prop) : Prop where
  refuses : ∀ {party state op result after stepId}, op.Enters stepId →
    (worlds party).serve state op (.ok result) after →
    ¬ entered state stepId ∧ entered after stepId
  keeps : ∀ {party state op answer after stepId},
    (worlds party).serve state op answer after → entered state stepId →
    entered after stepId ∨ PreparesStep stepId ⟨state, op, answer, after⟩
  moved : ∀ {state after stepId}, moves state after → entered state stepId →
    entered after stepId

namespace Stage

/-- The drive has the running transition of the step, and has not dispatched it yet. -/
def Holds (stepId : ι) : Stage ι → Prop
  | .entered visit _ => visit.step.id = stepId
  | .recording visit (.enters _) _ => visit.step.id = stepId
  | .started visit => visit.step.id = stepId
  | .typed visit _ => visit.step.id = stepId
  | _ => False

/-- The handler of the step returned, and its completion is not written yet. -/
def Finishing (stepId : ι) : Stage ι → Prop
  | .handled visit (.ok _) => visit.step.id = stepId
  | _ => False

end Stage

section Stages

variable [HostId ι] {registry : ToolRegistry} {run : RunView ι} {hooked : Bool} {stage : Stage ι}
  {op : EngineOp ι} {stepId : ι}

omit [HostId ι] in
/-- A stage that serves the stream holds nothing. -/
theorem Stage.Streams.idle (streams : stage.Streams) :
    ¬ stage.Holds stepId ∧ ¬ stage.Finishing stepId := by
  cases stage <;> first | exact streams.elim | exact ⟨id, id⟩

omit [HostId ι] in
theorem hooking_idle (status : RunStatus) :
    ¬ (Stage.hooking (ι := ι) hooked status).Holds stepId ∧
      ¬ (Stage.hooking (ι := ι) hooked status).Finishing stepId := by
  cases hooked <;> exact ⟨id, id⟩

/-- A drive comes to hold a step by its running transition, and keeps it until it
dispatches it. -/
theorem holds_next (asks : Asks registry run stage op) {result : op.Res}
    (holds : (stage.next run hooked op result).Holds stepId) :
    op.Enters stepId ∨ (stage.Holds stepId ∧ op.dispatches = none) := by
  cases asks with
  | enters _ _ => exact .inl holds
  | proceeds => exact .inl holds
  | records =>
      rename_i visit mark row
      cases mark with
      | enters startedType => exact .inr ⟨holds, rfl⟩
      | _ => exact holds.elim
  | shows | types => exact .inr ⟨holds, rfl⟩
  | settles =>
      rename_i visit mark
      cases mark with
      | enters startedType => exact .inl holds
      | _ => exact holds.elim
  | streams streams served =>
      rw [next_streams streams served result] at holds
      exact absurd holds streams.idle.1
  | rereads turns =>
      rw [next_turns turns result] at holds
      exact holds.elim
  | refetches =>
      cases result with
      | some row => exact holds.elim
      | none => exact holds.elim
  | lists ongoing =>
      have listed : (Stage.listed run _ result).Holds stepId := holds
      rw [Stage.listed] at listed
      split at listed <;> exact listed.elim
  | failsRun => exact absurd holds (hooking_idle .failed).1
  | logsCompletion => exact absurd holds (hooking_idle .completed).1
  | _ => exact holds.elim

/-- It comes to finish a step when the handler returns, and is past it with its next call. -/
theorem finishing_next (asks : Asks registry run stage op) {result : op.Res}
    (finishing : (stage.next run hooked op result).Finishing stepId) :
    op.dispatches = some stepId := by
  cases asks with
  | handles _ => exact congrArg some finishing
  | streams streams served =>
      rw [next_streams streams served result] at finishing
      exact absurd finishing streams.idle.2
  | rereads turns =>
      rw [next_turns turns result] at finishing
      exact finishing.elim
  | records =>
      rename_i visit mark row
      cases mark <;> exact finishing.elim
  | settles =>
      rename_i visit mark
      cases mark <;> exact finishing.elim
  | refetches =>
      cases result with
      | some row => exact finishing.elim
      | none => exact finishing.elim
  | lists ongoing =>
      have listed : (Stage.listed run _ result).Finishing stepId := finishing
      rw [Stage.listed] at listed
      split at listed <;> exact listed.elim
  | failsRun => exact absurd finishing (hooking_idle .failed).2
  | logsCompletion => exact absurd finishing (hooking_idle .completed).2
  | _ => exact finishing.elim

omit [HostId ι] in
/-- An exception leaves a drive holding nothing. -/
theorem fail_idle (error : Raised ι) :
    ¬ (stage.fail op error).Holds stepId ∧ ¬ (stage.fail op error).Finishing stepId := by
  cases op with
  | handle run step => cases stage <;> exact ⟨id, id⟩
  | _ => exact ⟨id, id⟩

/-- A drive dispatches a step it holds. -/
theorem holds_of_dispatches (asks : Asks registry run stage op)
    (dispatches : op.dispatches = some stepId) : stage.Holds stepId := by
  cases op with
  | handle handled step =>
      rcases asks_handle asks with ⟨visit, stepType, rfl, _, rfl⟩
      exact Option.some.inj dispatches
  | _ => cases dispatches

/-- A drive completes a step whose handler returned. -/
theorem finishing_of_finishes (sound : stage.Sound) (asks : Asks registry run stage op)
    (finishes : op.Finishes stepId) : stage.Finishing stepId := by
  cases op with
  | setStepState id status error outputRefs =>
      cases status with
      | completed =>
          rcases asks_completed sound asks with ⟨visit, returned, rfl, rfl⟩
          exact finishes
      | _ => exact finishes.elim
  | _ => exact finishes.elim

end Stages

/-! ## The invariant -/

/-- The handler of the step ran, for all the host can tell. -/
def RanStep (stepId : ι) (call : Served (engineSignature ι) (Raised ι) σ) : Prop :=
  call.op.dispatches = some stepId ∧ ¬ PreparesStep stepId call

theorem HandlerReturned.ranStep {stepId : ι} {call : Served (engineSignature ι) (Raised ι) σ}
    (returned : HandlerReturned stepId call) : RanStep stepId call := by
  rcases call with ⟨before, op, answer, after⟩
  cases op with
  | handle run step =>
      cases answer with
      | ok outputRefs => exact ⟨congrArg some returned, id⟩
      | error error => exact returned.elim
  | _ => exact returned.elim

theorem PreparesStep.dispatches {stepId : ι} {call : Served (engineSignature ι) (Raised ι) σ}
    (prepares : PreparesStep stepId call) : call.op.dispatches = some stepId := by
  rcases call with ⟨before, op, answer, after⟩
  cases op with
  | handle run step =>
      cases answer with
      | ok outputRefs => exact prepares.elim
      | error error =>
          cases error with
          | stepActionPrepared message => exact congrArg some prepares
          | _ => exact prepares.elim
  | _ => exact prepares.elim

theorem EngineOp.Enters.undispatched {stepId other : ι} {op : EngineOp ι}
    (enters : op.Enters stepId) : op.dispatches ≠ some other := by
  intro dispatches
  cases op with
  | handle run step => exact enters
  | _ => cases dispatches

theorem EngineOp.Finishes.undispatched {stepId other : ι} {op : EngineOp ι}
    (finishes : op.Finishes stepId) : op.dispatches ≠ some other := by
  intro dispatches
  cases op with
  | handle run step => exact finishes
  | _ => cases dispatches

section Invariant

variable [HostId ι] [DecidableEq κ] {drives : κ → Drive ι}
  {worlds : κ → World (engineSignature ι) (Raised ι) σ} {moves : σ → σ → Prop}
  {entered : σ → ι → Prop} {record : Turns κ ι σ} {party one : κ} {before after : σ}
  {op : EngineOp ι} {answer : Except (Raised ι) op.Res} {stepId : ι}

/-- Who holds a step after a turn. -/
theorem holds_turn
    (asks : Asks (drives party).registry (drives party).run (stageOf drives record party) op)
    (holds : (stageOf drives (record ++ [⟨party, ⟨before, op, answer, after⟩⟩]) one).Holds
      stepId) :
    (one = party ∧ op.Enters stepId ∧ ∃ result, answer = .ok result) ∨
      ((stageOf drives record one).Holds stepId ∧ (one = party → op.dispatches = none)) := by
  by_cases own : party = one
  · subst own
    rw [stageOf_own] at holds
    cases answer with
    | ok result =>
        rcases holds_next asks holds with enters | ⟨held, undispatched⟩
        · exact .inl ⟨rfl, enters, result, rfl⟩
        · exact .inr ⟨held, fun _ => undispatched⟩
    | error error => exact absurd holds (fail_idle error).1
  · rw [stageOf_other own] at holds
    exact .inr ⟨holds, fun same => absurd same.symm own⟩

/-- Who finishes a step after a turn. -/
theorem finishing_turn
    (asks : Asks (drives party).registry (drives party).run (stageOf drives record party) op)
    (finishing : (stageOf drives (record ++ [⟨party, ⟨before, op, answer, after⟩⟩])
      one).Finishing stepId) :
    (one = party ∧ op.dispatches = some stepId ∧ ∃ result, answer = .ok result) ∨
      (one ≠ party ∧ (stageOf drives record one).Finishing stepId) := by
  by_cases own : party = one
  · subst own
    rw [stageOf_own] at finishing
    cases answer with
    | ok result => exact .inl ⟨rfl, finishing_next asks finishing, result, rfl⟩
    | error error => exact absurd finishing (fail_idle error).2
  · rw [stageOf_other own] at finishing
    exact .inr ⟨Ne.symm own, finishing⟩

/-- Of one step: the store knows of the drive that holds it, at most one does, and none
does after its handler ran; likewise at most one drive is to complete it, and none after
it was completed. -/
structure OneEntry (drives : κ → Drive ι) (entered : σ → ι → Prop) (stepId : ι)
    (record : Turns κ ι σ) (state : σ) : Prop where
  sound : ∀ party, (stageOf drives record party).Sound
  known : ∀ party, (stageOf drives record party).Holds stepId → entered state stepId
  alone : ∀ one other, (stageOf drives record one).Holds stepId →
    (stageOf drives record other).Holds stepId → one = other
  spent : (∃ turn ∈ record, RanStep stepId turn.call) →
    entered state stepId ∧ ∀ party, ¬ (stageOf drives record party).Holds stepId
  returned : ∀ party, (stageOf drives record party).Finishing stepId →
    ∃ turn ∈ record, turn.party = party ∧ HandlerReturned stepId turn.call
  lone : ∀ one other, (stageOf drives record one).Finishing stepId →
    (stageOf drives record other).Finishing stepId → one = other
  finished : (∃ turn ∈ record, turn.call.op.Finishes stepId) →
    (∃ turn ∈ record, RanStep stepId turn.call) ∧
      ∀ party, ¬ (stageOf drives record party).Finishing stepId

namespace OneEntry

theorem start (state : σ) : OneEntry drives entered stepId ([] : Turns κ ι σ) state where
  sound _ := trivial
  known _ holds := holds.elim
  alone _ _ holds := holds.elim
  spent := by
    rintro ⟨turn, member, _⟩
    exact absurd member List.not_mem_nil
  returned _ finishing := finishing.elim
  lone _ _ finishing := finishing.elim
  finished := by
    rintro ⟨turn, member, _⟩
    exact absurd member List.not_mem_nil

theorem moved (ledger : EntryLedger worlds moves entered)
    (kept : OneEntry drives entered stepId record before) (moves : moves before after) :
    OneEntry drives entered stepId record after where
  sound := kept.sound
  known party holds := ledger.moved moves (kept.known party holds)
  alone := kept.alone
  spent ran := ⟨ledger.moved moves (kept.spent ran).1, (kept.spent ran).2⟩
  returned := kept.returned
  lone := kept.lone
  finished := kept.finished

/-- The ledger stands after a turn, unless the step's holder prepared a new action. -/
theorem stands (ledger : EntryLedger worlds moves entered)
    (asks : Asks (drives party).registry (drives party).run (stageOf drives record party) op)
    (served : (worlds party).serve before op answer after) (known : entered before stepId)
    (unheld : op.dispatches = some stepId → ¬ (stageOf drives record party).Holds stepId) :
    entered after stepId := by
  rcases ledger.keeps served known with stands | prepares
  · exact stands
  · have dispatches : op.dispatches = some stepId := prepares.dispatches
    exact absurd (holds_of_dispatches asks dispatches) (unheld dispatches)

theorem turn (ledger : EntryLedger worlds moves entered)
    (kept : OneEntry drives entered stepId record before)
    (asks : Asks (drives party).registry (drives party).run (stageOf drives record party) op)
    (served : (worlds party).serve before op answer after) :
    OneEntry drives entered stepId (record ++ [⟨party, ⟨before, op, answer, after⟩⟩]) after := by
  have fresh : ∀ {one}, one = party ∧ op.Enters stepId ∧ (∃ result, answer = .ok result) →
      ¬ entered before stepId ∧ entered after stepId := by
    rintro one ⟨_, enters, result, rfl⟩
    exact ledger.refuses enters served
  have unspent : op.dispatches = some stepId → ¬ ∃ turn ∈ record, RanStep stepId turn.call := by
    intro dispatches ran
    exact (kept.spent ran).2 party (holds_of_dispatches asks dispatches)
  constructor
  case sound =>
    intro one
    by_cases own : party = one
    · subst own
      rw [stageOf_own]
      cases answer with
      | ok result => exact sound_next (kept.sound party) asks result
      | error error => exact sound_fail (kept.sound party) error
    · rw [stageOf_other own]
      exact kept.sound one
  case known =>
    intro one holds
    rcases holds_turn asks holds with entering | ⟨held, undispatched⟩
    · exact (fresh entering).2
    · apply stands ledger asks served (kept.known one held)
      intro dispatches holder
      rw [undispatched (kept.alone one party held holder)] at dispatches
      cases dispatches
  case alone =>
    intro one other first second
    rcases holds_turn asks first with entering | ⟨held, _⟩
    · rcases holds_turn asks second with also | ⟨otherHeld, _⟩
      · rw [entering.1, also.1]
      · exact absurd (kept.known other otherHeld) (fresh entering).1
    · rcases holds_turn asks second with entering | ⟨otherHeld, _⟩
      · exact absurd (kept.known one held) (fresh entering).1
      · exact kept.alone one other held otherHeld
  case spent =>
    rintro ⟨ran, member, spent⟩
    rcases List.mem_append.mp member with past | now
    · rcases kept.spent ⟨ran, past, spent⟩ with ⟨known, unheld⟩
      constructor
      · exact stands ledger asks served known fun _ => unheld party
      · intro one holds
        rcases holds_turn asks holds with entering | ⟨held, _⟩
        · exact (fresh entering).1 known
        · exact unheld one held
    · cases List.mem_singleton.mp now
      have holder := holds_of_dispatches asks spent.1
      constructor
      · rcases ledger.keeps served (kept.known party holder) with stands | prepares
        · exact stands
        · exact absurd prepares spent.2
      · intro one holds
        rcases holds_turn asks holds with ⟨_, enters, _⟩ | ⟨held, undispatched⟩
        · exact enters.undispatched spent.1
        · have dispatches : op.dispatches = some stepId := spent.1
          rw [undispatched (kept.alone one party held holder)] at dispatches
          cases dispatches
  case returned =>
    intro one finishing
    rcases finishing_turn asks finishing with ⟨rfl, dispatches, result, rfl⟩ | ⟨_, held⟩
    · refine ⟨_, List.mem_append_right _ (List.mem_singleton.mpr rfl), rfl, ?_⟩
      cases op with
      | handle run step => exact Option.some.inj dispatches
      | _ => cases dispatches
    · rcases kept.returned one held with ⟨turn, member, same, returned⟩
      exact ⟨turn, List.mem_append_left _ member, same, returned⟩
  case lone =>
    intro one other first second
    have apart : ∀ {one}, (stageOf drives record one).Finishing stepId →
        op.dispatches ≠ some stepId := by
      intro one held dispatches
      rcases kept.returned one held with ⟨turn, member, _, returned⟩
      exact unspent dispatches ⟨turn, member, returned.ranStep⟩
    rcases finishing_turn asks first with ⟨rfl, dispatches, _⟩ | ⟨_, held⟩
    · rcases finishing_turn asks second with ⟨rfl, _, _⟩ | ⟨_, otherHeld⟩
      · rfl
      · exact absurd dispatches (apart otherHeld)
    · rcases finishing_turn asks second with ⟨rfl, dispatches, _⟩ | ⟨_, otherHeld⟩
      · exact absurd dispatches (apart held)
      · exact kept.lone one other held otherHeld
  case finished =>
    rintro ⟨finish, member, finishes⟩
    rcases List.mem_append.mp member with past | now
    · rcases kept.finished ⟨finish, past, finishes⟩ with ⟨⟨turn, member, ran⟩, idle⟩
      refine ⟨⟨turn, List.mem_append_left _ member, ran⟩, ?_⟩
      intro one finishing
      rcases finishing_turn asks finishing with ⟨_, dispatches, _⟩ | ⟨_, held⟩
      · exact unspent dispatches ⟨turn, member, ran⟩
      · exact idle one held
    · cases List.mem_singleton.mp now
      have finisher := finishing_of_finishes (kept.sound party) asks finishes
      rcases kept.returned party finisher with ⟨turn, member, _, returned⟩
      refine ⟨⟨turn, List.mem_append_left _ member, returned.ranStep⟩, ?_⟩
      intro one finishing
      rcases finishing_turn asks finishing with ⟨_, dispatches, _⟩ | ⟨different, held⟩
      · exact finishes.undispatched dispatches
      · exact different (kept.lone one party held finisher)

end OneEntry

end Invariant

/-- Concurrent drives over one store that keeps an entry ledger.  A step whose handler ran
without preparing a new action is not dispatched again, by any drive; and it is completed
at most once, by the drive whose handler returned. -/
theorem entered_once [HostId ι] [DecidableEq κ] {drives : κ → Drive ι}
    {worlds : κ → World (engineSignature ι) (Raised ι) σ} {moves : σ → σ → Prop}
    {entered : σ → ι → Prop} (ledger : EntryLedger worlds moves entered)
    {programs : κ → Engine ι (Option Unit)} {initial last : σ} {record : Turns κ ι σ}
    (interleaves : Interleaves worlds moves (fun party => (drives party).program) initial record
      programs last) (stepId : ι) :
    ∀ earlier turn rest, record = earlier ++ turn :: rest →
      (turn.call.op.dispatches = some stepId → ∀ past ∈ earlier,
        past.call.op.dispatches = some stepId → PreparesStep stepId past.call) ∧
      (turn.call.op.Finishes stepId →
        (∀ past ∈ earlier, ¬ past.call.op.Finishes stepId) ∧
        ∃ past ∈ earlier, past.party = turn.party ∧ HandlerReturned stepId past.call) := by
  have follows : ∀ earlier (turn : Turn κ (engineSignature ι) (Raised ι) σ) rest,
      record = earlier ++ turn :: rest →
      Asks (drives turn.party).registry (drives turn.party).run
        (stageOf drives earlier turn.party) turn.call.op :=
    fun _ _ _ split => interleaved_courses interleaves split
  have invariant := interleaves.invariant (OneEntry drives entered stepId)
    (fun earlier party _ op =>
      Asks (drives party).registry (drives party).run (stageOf drives earlier party) op)
    follows (.start initial) (fun kept moves => kept.moved ledger moves)
    (fun kept asks served => kept.turn ledger asks served)
  intro earlier turn rest split
  have asks := follows earlier turn rest split
  have kept := invariant.2 earlier turn rest split
  constructor
  · intro dispatches past member before
    by_contra unprepared
    exact (kept.spent ⟨past, member, before, unprepared⟩).2 turn.party
      (holds_of_dispatches asks dispatches)
  · intro finishes
    have finisher := finishing_of_finishes (kept.sound turn.party) asks finishes
    constructor
    · intro past member before
      exact (kept.finished ⟨past, member, before⟩).2 turn.party finisher
    · exact kept.returned turn.party finisher

/-! ## A host that keeps a ledger -/

/-- A host that refuses the running transition of a step it has entered, and forgets the
entry when the step's tool prepared a new action instead. -/
def HostRules.respondOnce (rules : HostRules) (clock : HostState → ℚ) :
    (op : EngineOp String) → HostState × List String →
      Except (Raised String) op.Res × (HostState × List String)
  | .setStepState stepId .running error outputRefs, (state, ledger) =>
      if stepId ∈ ledger then
        (.error (.exception "RuntimeError"
          "the earlier attempt already crossed the host entry boundary"), (state, ledger))
      else
        let answered := rules.respond clock (.setStepState stepId .running error outputRefs) state
        (answered.1, (answered.2, stepId :: ledger))
  | .handle _ step, (state, ledger) =>
      let invoked := rules.invoke step.id state
      (invoked.1.native, (invoked.2, match invoked.1 with
        | .prepared _ => ledger.filter fun stepId => stepId ≠ step.id
        | _ => ledger))
  | op, (state, ledger) =>
      let answered := rules.respond clock op state
      (answered.1, (answered.2, ledger))

/-- Such a host keeps the promise of the running transition, whatever its tools do. -/
theorem HostRules.keepsLedger (rules : HostRules) (clock : HostState → ℚ) :
    EntryLedger (fun _ : κ => World.ofFn (rules.respondOnce clock)) (fun _ _ => False)
      fun state stepId => stepId ∈ state.2 := by
  constructor
  · rintro party ⟨state, ledger⟩ op result after stepId enters served
    cases op with
    | setStepState id status error outputRefs =>
        cases status with
        | running =>
            cases enters
            have answered : rules.respondOnce clock (.setStepState stepId .running error outputRefs)
              (state, ledger) = (.ok result, after) := served
            rw [HostRules.respondOnce] at answered
            split at answered
            · cases answered
            · rename_i unentered
              cases answered
              exact ⟨unentered, List.mem_cons_self⟩
        | _ => exact enters.elim
    | _ => exact enters.elim
  · rintro party ⟨state, ledger⟩ op answer ⟨after, left⟩ stepId served known
    have kept : (rules.respondOnce clock op (state, ledger)).2.2 = left :=
      congrArg (fun answered => answered.2.2) served
    cases op with
    | setStepState id status error outputRefs =>
        cases status with
        | running =>
            rw [HostRules.respondOnce] at kept
            split at kept
            · exact .inl (kept ▸ known)
            · exact .inl (kept ▸ List.mem_cons_of_mem _ known)
        | _ => exact .inl (kept ▸ known)
    | handle run step =>
        have answered : (rules.invoke step.id state).1.native = answer :=
          congrArg Prod.fst served
        rw [HostRules.respondOnce] at kept
        dsimp only at kept
        cases outcome : (rules.invoke step.id state).1 with
        | prepared reason =>
            rw [outcome] at kept answered
            by_cases same : step.id = stepId
            · subst answered
              exact .inr same
            · left
              rw [← kept]
              exact List.mem_filter.mpr ⟨known, decide_eq_true (Ne.symm same)⟩
        | _ =>
            rw [outcome] at kept
            exact .inl (kept ▸ known)
    | _ => exact .inl (kept ▸ known)
  · intro state after stepId moves
    exact moves.elim

/-- Two drives that reach the one step of a run together: one of them dispatches it, the
other is refused. -/
theorem entered_once_twice :
    ∃ (record : Turns Bool String (HostState × List String)) (programs : _) (last : _),
      Interleaves (fun _ => World.ofFn (plainRules.respondOnce fun _ => 0)) (fun _ _ => False)
        (fun _ : Bool => (Drive.mk ⟨["model_call"], by decide⟩ seedHost.run true 3).program)
        (seedHost, []) record programs last ∧
      (record.filterMap fun turn => turn.call.op.dispatches.map fun stepId =>
        (turn.party, stepId)) = [(true, "step-1")] ∧
      ∀ earlier turn rest, record = earlier ++ turn :: rest →
        (turn.call.op.dispatches = some "step-1" → ∀ past ∈ earlier,
          past.call.op.dispatches = some "step-1" → PreparesStep "step-1" past.call) ∧
        (turn.call.op.Finishes "step-1" →
          (∀ past ∈ earlier, ¬ past.call.op.Finishes "step-1") ∧
          ∃ past ∈ earlier, past.party = turn.party ∧ HandlerReturned "step-1" past.call) := by
  have start : Interleaves (fun _ : Bool => World.ofFn (plainRules.respondOnce fun _ => 0))
      (fun _ _ => False)
      (fun _ => (Drive.mk ⟨["model_call"], by decide⟩ seedHost.run true 3).program)
      (seedHost, []) [] _ _ := .nothing
  have taken := Interleaves.concert _ start
    ((List.replicate 7 [true, false]).flatten ++ List.replicate 4 true)
  refine ⟨_, _, _, taken, by decide, ?_⟩
  exact entered_once (plainRules.keepsLedger fun _ => 0) taken "step-1"

end SlimxAgent
