import SlimxAgent.Pauses

/-!
# Pauses are transparent

A host that opens the run again after each pause and drives it on.  However often that
happens, the rows, the log and the calls of the hook are in the end those of one drive
without pauses.
-/

namespace SlimxAgent

open Interaction

namespace PausableHost

/-- The run is paused, and a handler did it. -/
def PausedByHandler (state : PausableHost) : Prop :=
  state.paused = true ∧ state.host.run.status = .paused

/-- The host opens the run again. -/
def reopened (state : PausableHost) (status : RunStatus) : PausableHost :=
  ⟨state.host.setStatus status, false⟩

end PausableHost

/-- The host drives the run, and opens it again and drives it on as long as a handler's
pause is what ended the drive. -/
inductive Redriven (tools : FixedTools) (clock : HostState → ℚ) (registry : ToolRegistry)
    (hooked : Bool) (pauses : PauseSchedule) : PausableHost → PausableHost → Prop where
  | stops {state last : PausableHost} {outcome : Except (Raised String) (Option Unit)}
      (fuel : Nat) :
      tools.drive clock registry hooked pauses fuel state = (outcome, last) → outcome ≠ .ok none →
      ¬ last.PausedByHandler → Redriven tools clock registry hooked pauses state last
  | reopens {state middle last : PausableHost} {outcome : Except (Raised String) (Option Unit)}
      (fuel : Nat) (status : RunStatus) :
      tools.drive clock registry hooked pauses fuel state = (outcome, middle) → outcome ≠ .ok none →
      middle.PausedByHandler → status ∉ terminalRunStatuses →
      Redriven tools clock registry hooked pauses (middle.reopened status) last →
      Redriven tools clock registry hooked pauses state last

section Drives

variable {tools : FixedTools} {clock : HostState → ℚ} {registry : ToolRegistry} {hooked : Bool}
  {pauses : PauseSchedule} {run : RunView String} {state : PausableHost}

/-! ## The loop of a drive -/

/-- What follows the loop. -/
def afterLoop (run : RunView String) (hooked : Bool) : LoopExit → Engine String (Option Unit)
  | .returned => return some ()
  | .allDone cursor => do
      completeRun run hooked cursor
      return some ()

theorem driveOn_succ (registry : ToolRegistry) (run : RunView String) (hooked : Bool)
    (driveStarted : ℚ) (fuel : Nat) (cursor : Int) :
    driveOn registry run hooked driveStarted (fuel + 1) cursor = (do
      match ← loopPass registry run hooked driveStarted cursor with
      | .inl again => driveOn registry run hooked driveStarted fuel again
      | .inr exit => afterLoop run hooked exit) := by
  rw [driveOn, Program.iterate, Program.bind_assoc]
  congr
  funext decided
  rcases decided with again | _ | cursor <;> rfl

theorem afterLoop_unpausing (run : RunView String) (hooked : Bool) (exit : LoopExit) :
    (afterLoop run hooked exit).Propagates EngineOp.Unpausing := by
  cases exit with
  | returned => trivial
  | allDone cursor =>
      apply Program.Propagates.bind
      · exact completeRun_propagates trivial ⟨nofun, trivial, trivial⟩
          ⟨fun _ => trivial, fun _ => trivial⟩ hooked cursor
      · intro _
        trivial

/-- How the loop of a drive ends, without pauses and with them: alike, or the one goes on
where the other has stopped for a pause. -/
inductive DriveEnds (tools : FixedTools) (clock : HostState → ℚ) (registry : ToolRegistry)
    (run : RunView String) (hooked : Bool) (driveStarted : ℚ) (state : PausableHost) (fuel : Nat)
    (cursor : Int) : Except (Raised String) (Option Unit) × PausableHost → Prop where
  | alike {outcome : Except (Raised String) (Option Unit)} {calm last : PausableHost} :
      (driveOn registry run hooked driveStarted fuel cursor).eval (tools.respond clock noPauses)
        state = (outcome, calm) → last.host = calm.host → ¬ last.PausedByHandler →
      DriveEnds tools clock registry run hooked driveStarted state fuel cursor (outcome, last)
  | stopped {later : PausableHost} {outcome : Except (Raised String) (Option Unit)}
      (taken left : Nat) :
      fuel = taken + 1 + left → Underway run later →
      (∀ more, (driveOn registry run hooked driveStarted (taken + 1 + more) cursor).eval
          (tools.respond clock noPauses) state =
        (driveOn registry run hooked driveStarted more (later.host.nextSequence - 1)).eval
          (tools.respond clock noPauses) later) →
      outcome = .ok (if left = 0 then none else some ()) →
      DriveEnds tools clock registry run hooked driveStarted state fuel cursor
        (outcome, later.shadow)

theorem eval_driveOn_ok {driveStarted : ℚ} {cursor : Int} {decided : Int ⊕ LoopExit}
    {middle : PausableHost}
    (passes : (loopPass registry run hooked driveStarted cursor).eval (tools.respond clock pauses)
      state = (.ok decided, middle)) (fuel : Nat) :
    (driveOn registry run hooked driveStarted (fuel + 1) cursor).eval (tools.respond clock pauses)
        state =
      (match decided with
        | .inl again => driveOn registry run hooked driveStarted fuel again
        | .inr exit => afterLoop run hooked exit).eval (tools.respond clock pauses) middle := by
  rw [driveOn_succ, eval_bind, passes]

theorem eval_driveOn_error {driveStarted : ℚ} {cursor : Int} {error : Raised String}
    {middle : PausableHost}
    (passes : (loopPass registry run hooked driveStarted cursor).eval (tools.respond clock pauses)
      state = (.error error, middle)) (fuel : Nat) :
    (driveOn registry run hooked driveStarted (fuel + 1) cursor).eval (tools.respond clock pauses)
      state = (.error error, middle) := by
  rw [driveOn_succ, eval_bind, passes]

theorem unpaused_notPaused (opened : state.paused = false) : ¬ state.PausedByHandler := by
  rintro ⟨paused, _⟩
  rw [opened] at paused
  cases paused

theorem driveOn_ends (underway : Underway run state) (registry : ToolRegistry) (hooked : Bool)
    (driveStarted : ℚ) (fuel : Nat) :
    DriveEnds tools clock registry run hooked driveStarted state fuel (state.host.nextSequence - 1)
      ((driveOn registry run hooked driveStarted fuel (state.host.nextSequence - 1)).eval
        (tools.respond clock pauses) state) := by
  induction fuel generalizing state with
  | zero => exact .alike rfl rfl (unpaused_notPaused underway.opened)
  | succ fuel ih =>
      have inside : state.host.Within (state.host.nextSequence - 1) := by
        rw [HostState.Within, HostState.nextSequence]
        omega
      have pass := @loopPass_ends tools clock pauses state run _ underway inside registry hooked
        driveStarted
      generalize calmed : (loopPass registry run hooked driveStarted _).eval
        (tools.respond clock noPauses) state = calm at pass
      generalize disturbs : (loopPass registry run hooked driveStarted _).eval
        (tools.respond clock pauses) state = disturbed at pass
      have steps (taken more : Nat) : taken + 1 + 1 + more = taken + 1 + more + 1 :=
        Nat.add_right_comm ..
      cases pass with
      | onward going =>
          have rest := ih going
          rw [eval_driveOn_ok disturbs]
          dsimp only
          generalize (driveOn registry run hooked driveStarted fuel _).eval
            (tools.respond clock pauses) _ = ends at rest ⊢
          cases rest with
          | alike calm same stands =>
              exact .alike ((eval_driveOn_ok calmed fuel).trans calm) same stands
          | stopped taken left spent stopped onwards outcome =>
              refine .stopped (taken + 1) left (by omega) stopped (fun more => ?_) outcome
              rw [steps]
              exact (eval_driveOn_ok calmed _).trans (onwards more)
      | paused going =>
          rename_i later
          have onwards (more : Nat) :
              (driveOn registry run hooked driveStarted (0 + 1 + more)
                  (state.host.nextSequence - 1)).eval
                  (tools.respond clock noPauses) state =
                (driveOn registry run hooked driveStarted more (later.host.nextSequence - 1)).eval
                  (tools.respond clock noPauses) later := by
            rw [Nat.zero_add, Nat.add_comm]
            exact eval_driveOn_ok calmed more
          rw [eval_driveOn_ok disturbs]
          dsimp only
          -- The next pass reads the pause, if there is one.
          cases fuel with
          | zero => exact .stopped 0 0 rfl going onwards rfl
          | succ fuel =>
              rw [eval_driveOn_ok (eval_loopPass_shadow going registry hooked driveStarted)]
              exact .stopped 0 (fuel + 1) (by omega) going onwards rfl
      | ended never opened =>
          rename_i outcome later
          rcases outcome with error | again | exit
          · rw [eval_driveOn_error disturbs]
            exact .alike (eval_driveOn_error calmed fuel) rfl (unpaused_notPaused opened)
          · exact absurd rfl (never again)
          · have quiet := (afterLoop_unpausing run hooked exit).mono fun _ =>
              EngineOp.Unpausing.undisturbed
            have same := @eval_undisturbed tools clock pauses _ _ quiet later
            have stays := @eval_paused tools clock _ _ _ quiet opened
            rw [eval_driveOn_ok disturbs, same]
            exact .alike (eval_driveOn_ok calmed fuel) rfl (unpaused_notPaused stays)
      | overwritten never opened survives =>
          rename_i outcome later
          rcases outcome with error | again | exit
          · rw [eval_driveOn_error disturbs]
            exact .alike (eval_driveOn_error calmed fuel) rfl fun paused => survives paused.2
          · exact absurd rfl (never again)
          · have unpausing := afterLoop_unpausing run hooked exit
            have quiet := unpausing.mono fun _ => EngineOp.Unpausing.undisturbed
            have same := @eval_flagged tools clock pauses _ _ quiet later
            have stays := @eval_unpausing tools clock _ _ _ unpausing survives
            rw [eval_driveOn_ok disturbs, same]
            exact .alike (eval_driveOn_ok calmed fuel) rfl fun paused => stays paused.2

/-! ## Whole drives -/

/-- Runs that differ in their status at most, without a wall budget. -/
def SameButStatus (run other : RunView String) : Prop :=
  other = { run with status := other.status } ∧ wallBudget run.budgetMaxWallSeconds = none

/-- What is read of the run; without a wall budget. -/
def ReadsAlike (current other : Option (RunView String)) : Prop :=
  current = other ∧ ∀ run, current = some run → wallBudget run.budgetMaxWallSeconds = none

/-- The passes of two drives make the same of what they read. -/
theorem SameButStatus.reading {other : RunView String} (same : SameButStatus run other)
    (driveStarted otherStarted : ℚ) {current otherCurrent : Option (RunView String)}
    (read : ReadsAlike current otherCurrent) :
    SameReading run other driveStarted otherStarted current otherCurrent := by
  rcases same with ⟨status, unlimited⟩
  rcases read with ⟨rfl, limits⟩
  cases current with
  | some current =>
      refine ⟨rfl, ⟨rfl, rfl, rfl, rfl, fun _ => rfl, fun _ => rfl, fun _ _ => rfl⟩, ?_⟩
      intro steps
      change budgetExhaustedReason current steps _ = budgetExhaustedReason current steps _
      rw [budgetExhaustedReason_unlimited (limits current rfl),
        budgetExhaustedReason_unlimited (limits current rfl)]
  | none =>
      rw [status]
      refine ⟨rfl, ⟨rfl, rfl, rfl, rfl, fun _ => rfl, fun _ => rfl, fun _ _ => rfl⟩, ?_⟩
      intro steps
      change budgetExhaustedReason { run with status := other.status } steps _ =
        budgetExhaustedReason run steps _
      rw [budgetExhaustedReason_unlimited unlimited, budgetExhaustedReason_unlimited]
      exact unlimited

/-- One state, and its run has no wall budget. -/
def OneUnlimited (state twin : PausableHost) : Prop :=
  state = twin ∧ wallBudget state.host.run.budgetMaxWallSeconds = none

/-- The store and the tools do not look at the run they are handed. -/
theorem respond_alike {op other : EngineOp String} {results : op.Res → other.Res → Prop}
    {twin : PausableHost} (together : OneUnlimited state twin)
    (paired : RunTwins (fun _ _ => True) ReadsAlike op other results) :
    AnswersAlike results (tools.respond clock noPauses op state).1
        (tools.respond clock noPauses other twin).1 ∧
      OneUnlimited (tools.respond clock noPauses op state).2
        (tools.respond clock noPauses other twin).2 := by
  rcases together with ⟨rfl, unlimited⟩
  cases paired with
  | same free =>
      refine ⟨.same _, rfl, ?_⟩
      rw [(respond_onward op state free).run]
      exact unlimited
  | getRun runId =>
      refine ⟨.ok ⟨rfl, ?_⟩, rfl, unlimited⟩
      intro run read
      change (if runId = state.host.run.id then some state.host.run else none) = some run at read
      split at read <;> cases read
      exact unlimited
  | setRunStatus status _ => exact ⟨.ok trivial, rfl, unlimited⟩
  | handle step _ => exact ⟨.same _, rfl, unlimited⟩
  | onRunEnd status _ =>
      refine ⟨.ok rfl, rfl, ?_⟩
      change wallBudget (tools.epilogue status _).run.budgetMaxWallSeconds = none
      rw [tools.epilogue_run]
      exact unlimited

/-- The loop does not depend on the status that the run was handed over with, nor on when
the drive started. -/
theorem eval_driveOn_same {other : RunView String} (same : SameButStatus run other)
    (unlimited : wallBudget state.host.run.budgetMaxWallSeconds = none)
    (registry : ToolRegistry) (hooked : Bool) (driveStarted otherStarted : ℚ) (fuel : Nat)
    (cursor : Int) :
    (driveOn registry run hooked driveStarted fuel cursor).eval
        (tools.respond clock noPauses) state =
      (driveOn registry other hooked otherStarted fuel cursor).eval (tools.respond clock noPauses)
        state := by
  have id : other.id = run.id := by rw [same.1]
  have lockstep : Lockstep (RunTwins (fun _ _ => True) ReadsAlike) Eq
      (driveOn registry run hooked driveStarted fuel cursor)
      (driveOn registry other hooked otherStarted fuel cursor) :=
    lockstep_driveOn id trivial (fun _ _ read => same.reading driveStarted otherStarted read)
      registry hooked fuel cursor
  have ends : AnswersAlike Eq
      ((driveOn registry run hooked driveStarted fuel cursor).eval (tools.respond clock noPauses)
        state).1
      ((driveOn registry other hooked otherStarted fuel cursor).eval (tools.respond clock noPauses)
        state).1 ∧
      OneUnlimited
        ((driveOn registry run hooked driveStarted fuel cursor).eval (tools.respond clock noPauses)
          state).2
        ((driveOn registry other hooked otherStarted fuel cursor).eval
          (tools.respond clock noPauses)
          state).2 := by
    apply lockstep.eval
    · intro left right op otherOp results together paired
      exact respond_alike together paired
    · exact ⟨rfl, unlimited⟩
  exact Prod.ext ends.1.equal ends.2.1

/-- A drive of a run that is over returns at once. -/
theorem drive_over (terminal : state.host.run.status ∈ terminalRunStatuses) (fuel : Nat) :
    tools.drive clock registry hooked pauses fuel state = (.ok (some ()), state) := by
  rw [FixedTools.drive, executeRunEvents_driveOn, eval_bind]
  change (if state.host.run.status ∈ terminalRunStatuses then _ else _ : Engine String _).eval
    _ _ = _
  rw [if_pos terminal]
  rfl

/-- A drive finds nothing to yield when it starts. -/
theorem drive_starts (alive : state.host.run.status ∉ terminalRunStatuses) (fuel : Nat) :
    tools.drive clock registry hooked pauses fuel state =
      (driveOn registry state.host.run hooked (clock (state.host.setStatus .running)) fuel
        (state.host.nextSequence - 1)).eval (tools.respond clock pauses)
          ⟨state.host.setStatus .running, state.paused⟩ := by
  let started : PausableHost := ⟨state.host.setStatus .running, state.paused⟩
  have drains : (drain state.host.run.id (started.host.nextSequence - 1)).eval
      (tools.respond clock pauses) started =
        (.ok (started.host.nextSequence - 1 : Int), started) := by
    rw [eval_undisturbed (drain_propagates (undisturbed_drain state.host.run.id) _),
      eval_drain_caughtUp]
  rw [FixedTools.drive, executeRunEvents_driveOn, eval_bind]
  change (if state.host.run.status ∈ terminalRunStatuses then _ else _ : Engine String _).eval
    _ _ = _
  rw [if_neg alive]
  change (drain state.host.run.id (started.host.nextSequence - 1) >>= fun cursor =>
    now >>= fun driveStarted =>
      driveOn registry state.host.run hooked driveStarted fuel cursor).eval
      (tools.respond clock pauses) started = _
  rw [eval_bind, drains]
  rfl

theorem underway_started (opened : state.paused = false)
    (unlimited : wallBudget state.host.run.budgetMaxWallSeconds = none) :
    Underway state.host.run ⟨state.host.setStatus .running, state.paused⟩ where
  running := rfl
  drives := rfl
  unlimited := unlimited
  opened := opened

/-- The drive after a pause goes on where the one without pauses would. -/
theorem drive_reopened {later : PausableHost} (underway : Underway run later) {status : RunStatus}
    (alive : status ∉ terminalRunStatuses) (driveStarted : ℚ) (fuel : Nat) :
    tools.drive clock registry hooked noPauses fuel (later.shadow.reopened status) =
      (driveOn registry run hooked driveStarted fuel (later.host.nextSequence - 1)).eval
        (tools.respond clock noPauses) later := by
  have same : SameButStatus run { later.host.run with status := status } := by
    refine ⟨by rw [underway.drives], ?_⟩
    rw [underway.drives]
    exact underway.unlimited
  have restarted :
      (⟨(later.shadow.reopened status).host.setStatus .running, false⟩ : PausableHost) =
      later := by
    change (⟨later.host.setStatus .running, false⟩ : PausableHost) = later
    rw [← underway.opened, ← underway.running]
    rfl
  rw [drive_starts alive]
  change (driveOn registry { later.host.run with status := status } hooked _ fuel
    (later.host.nextSequence - 1)).eval (tools.respond clock noPauses)
      ⟨(later.shadow.reopened status).host.setStatus .running, false⟩ = _
  rw [restarted]
  exact (eval_driveOn_same same underway.unlimited registry hooked driveStarted _ fuel _).symm

/-- A drive that has ended ends alike with more fuel. -/
theorem drive_more {fuel : Nat} (more : Nat)
    (ends : (tools.drive clock registry hooked pauses fuel state).1 ≠ .ok none) :
    tools.drive clock registry hooked pauses (fuel + more) state =
      tools.drive clock registry hooked pauses fuel state := by
  by_cases terminal : state.host.run.status ∈ terminalRunStatuses
  · rw [drive_over terminal, drive_over terminal]
  · rw [drive_starts terminal] at ends ⊢
    rw [drive_starts terminal]
    rw [driveOn, eval_bind] at ends ⊢
    rw [driveOn, eval_bind]
    rw [eval_iterate_more]
    intro unfinished
    rcases looped : (Program.iterate _ fuel _).eval _ _ with ⟨outcome, middle⟩
    rw [looped] at ends unfinished
    cases unfinished
    exact ends rfl

theorem drive_unique {fuel more : Nat}
    (ends : (tools.drive clock registry hooked pauses fuel state).1 ≠ .ok none)
    (others : (tools.drive clock registry hooked pauses more state).1 ≠ .ok none) :
    tools.drive clock registry hooked pauses fuel state =
      tools.drive clock registry hooked pauses more state := by
  rw [← drive_more more ends, Nat.add_comm, drive_more fuel others]

/-- How a drive ends, without pauses and with them. -/
theorem drive_ends (opened : state.paused = false)
    (unlimited : wallBudget state.host.run.budgetMaxWallSeconds = none)
    (alive : state.host.run.status ∉ terminalRunStatuses) (registry : ToolRegistry)
    (hooked : Bool) (fuel : Nat) :
    DriveEnds tools clock registry state.host.run hooked (clock (state.host.setStatus .running))
      ⟨state.host.setStatus .running, state.paused⟩ fuel (state.host.nextSequence - 1)
      (tools.drive clock registry hooked pauses fuel state) := by
  rw [drive_starts alive]
  exact driveOn_ends (underway_started opened unlimited) registry hooked _ fuel

/-- Where the drives with pauses end, the one without ends too, and alike. -/
theorem Redriven.calm {final : PausableHost}
    (redriven : Redriven tools clock registry hooked pauses state final)
    (opened : state.paused = false)
    (unlimited : wallBudget state.host.run.budgetMaxWallSeconds = none) :
    ∃ fuel, (tools.drive clock registry hooked noPauses fuel state).1 ≠ .ok none ∧
      (tools.drive clock registry hooked noPauses fuel state).2.host = final.host := by
  induction redriven with
  | @stops state last outcome fuel drives ends stands =>
      refine ⟨fuel, ?_⟩
      by_cases terminal : state.host.run.status ∈ terminalRunStatuses
      · rw [drive_over terminal] at drives ⊢
        cases drives
        exact ⟨ends, rfl⟩
      · have course := @drive_ends tools clock pauses state opened unlimited terminal registry
          hooked
          fuel
        rw [drives] at course
        rw [drive_starts terminal]
        cases course with
        | alike calm same _ =>
            rw [calm]
            exact ⟨ends, same.symm⟩
        | stopped taken left _ _ _ returned =>
            cases left with
            | zero => exact absurd returned ends
            | succ left => exact absurd ⟨rfl, rfl⟩ stands
  | @reopens state middle last outcome fuel status drives ends stopped alive rest ih =>
      by_cases terminal : state.host.run.status ∈ terminalRunStatuses
      · rw [drive_over terminal] at drives
        cases drives
        exact absurd stopped (unpaused_notPaused opened)
      · have course := @drive_ends tools clock pauses state opened unlimited terminal registry
          hooked
          fuel
        rw [drives] at course
        cases course with
        | alike _ _ stands => exact absurd stopped stands
        | stopped taken left _ underway onwards _ =>
            rcases ih rfl underway.unlimited with ⟨more, restEnds, reaches⟩
            refine ⟨taken + 1 + more, ?_⟩
            rw [drive_starts terminal, onwards more]
            rw [drive_reopened underway alive] at restEnds reaches
            exact ⟨restEnds, reaches⟩

/-- Where the drive without pauses ends, those with pauses do. -/
theorem redriven_of_ends (fuel : Nat) (opened : state.paused = false)
    (unlimited : wallBudget state.host.run.budgetMaxWallSeconds = none)
    (ends : (tools.drive clock registry hooked noPauses fuel state).1 ≠ .ok none) :
    ∃ final, Redriven tools clock registry hooked pauses state final := by
  -- The fuel that is left after a pause is less.
  induction fuel using Nat.strong_induction_on generalizing state with
  | _ fuel ih =>
      by_cases terminal : state.host.run.status ∈ terminalRunStatuses
      · exact ⟨state, .stops fuel (drive_over terminal fuel) nofun (unpaused_notPaused opened)⟩
      · have course := @drive_ends tools clock pauses state opened unlimited terminal registry
          hooked
          fuel
        rw [drive_starts terminal] at ends
        rcases drives : tools.drive clock registry hooked pauses fuel state with ⟨outcome, last⟩
        rw [drives] at course
        cases course with
        | alike calm same stands =>
            rw [calm] at ends
            exact ⟨last, .stops fuel drives ends stands⟩
        | @stopped later _ taken left spent underway onwards returned =>
            subst spent
            rw [onwards left] at ends
            cases left with
            | zero => exact absurd rfl ends
            | succ left =>
                have alive : RunStatus.paused ∉ terminalRunStatuses := by decide
                have resumes := @drive_reopened tools clock registry hooked _ _ underway _ alive
                  (clock (state.host.setStatus .running)) (left + 1)
                rw [← resumes] at ends
                have limits : wallBudget
                    (later.shadow.reopened .paused).host.run.budgetMaxWallSeconds = none :=
                  underway.unlimited
                rcases ih (left + 1) (by omega) rfl limits ends with ⟨final, rest⟩
                have carriesOn : outcome ≠ .ok none := by
                  rw [returned]
                  exact nofun
                exact ⟨final, .reopens _ .paused drives carriesOn ⟨rfl, rfl⟩ alive rest⟩

end Drives

/-- Pauses are transparent.  A host that opens the run again after each pause comes to an
end just where one drive without pauses does, and then its rows, its log, its run and the
calls of its hook are those of that drive. -/
theorem pauses_transparent (tools : FixedTools) (clock : HostState → ℚ) (registry : ToolRegistry)
    (hooked : Bool) (pauses : PauseSchedule) {state : PausableHost} (opened : state.paused = false)
    (unlimited : wallBudget state.host.run.budgetMaxWallSeconds = none) :
    ((∃ final, Redriven tools clock registry hooked pauses state final) ↔
      ∃ fuel, (tools.drive clock registry hooked noPauses fuel state).1 ≠ .ok none) ∧
    ∀ final fuel, Redriven tools clock registry hooked pauses state final →
      (tools.drive clock registry hooked noPauses fuel state).1 ≠ .ok none →
        final.host = (tools.drive clock registry hooked noPauses fuel state).2.host := by
  refine ⟨⟨?_, ?_⟩, ?_⟩
  · rintro ⟨final, redriven⟩
    rcases redriven.calm opened unlimited with ⟨fuel, ends, _⟩
    exact ⟨fuel, ends⟩
  · rintro ⟨fuel, ends⟩
    exact redriven_of_ends fuel opened unlimited ends
  · intro final fuel redriven ends
    rcases redriven.calm opened unlimited with ⟨more, others, reaches⟩
    rw [drive_unique ends others]
    exact reaches.symm

/-- A tool that does not apply to the first step and completes the others. -/
def twoStepTools : FixedTools where
  handler step :=
    if step.id = "step-1" then .error (.stepNotApplicable "nothing to do") else .ok none
  settles := by
    intro step error raised
    split at raised <;> cases raised
    trivial
  appended _ := []
  epilogue _ state := state
  epilogue_run _ _ := rfl

def twoStepHost : PausableHost where
  host := .holding ⟨"run-1", .running, none, true, .json .null, .null,
    .null, .json .null⟩
    [("step-1", ⟨"model_call", "Ask", .pending, false, none, none⟩),
      ("step-2", ⟨"model_call", "Ask again", .pending, false, none, none⟩)]
  paused := false

/-- Both steps run with a pause. -/
theorem pauses_transparent_two_steps :
    ∃ final, Redriven twoStepTools (fun _ => 0) ⟨["model_call"], by decide⟩ true (fun _ _ => true)
        twoStepHost final ∧
      final.host.run.status = .completed ∧ final.host.runEnds = [.completed] ∧
      final.host.entries.map LogEntry.type = ["agent.step.started", "agent.step.skipped",
        "agent.step.started", "agent.step.completed", "agent.run.completed"] := by
  have transparent := @pauses_transparent twoStepTools (fun _ => 0) ⟨["model_call"], by decide⟩ true
    (fun _ _ => true) twoStepHost rfl rfl
  have ends : (twoStepTools.drive (fun _ => 0) ⟨["model_call"], by decide⟩ true noPauses 3
      twoStepHost).1 ≠ .ok none := nofun
  rcases transparent.1.mpr ⟨3, ends⟩ with ⟨final, redriven⟩
  have same := transparent.2 final 3 redriven ends
  refine ⟨final, redriven, ?_⟩
  rw [same]
  decide

end SlimxAgent
