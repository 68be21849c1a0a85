import SlimxAgent.RunCheck
import SlimxAgent.Interaction.Relaying
import Mathlib.Algebra.Order.Ring.Rat

/-!
# The code of the check runner

`_run_bounded_check` as it is written: the clock, the command, a loop within a `try`, the
wait for the group's leader, and the `finally`.  Its calls are a schedule of the machine
(`BoundedCheck`), which says what was captured; what the verdict rests on is read off the
calls before the `finally`.
-/

namespace SlimxAgent

open Interaction

/-! ## System calls -/

/-- The kinds of `OSError` that the code tells apart. -/
inductive OsErrorKind where
  | processLookup
  | permission
  | other
  deriving DecidableEq

/-- What a system call raises. -/
inductive OsRaised where
  | osError (kind : OsErrorKind) (strerror : Option String)
  | exception (typeName : String)
  deriving DecidableEq

/-- The arguments of `Popen`: the command, its directory and its environment.  There is no
shell and no input, and the command leads a session of its own. -/
structure Spawn where
  argv : List String
  cwd : String
  env : List (String × String)
  deriving DecidableEq

/-- The system calls of a check. -/
inductive OsOp where
  | realpath (path : String)
  | isdir (path : String)
  | monotonic
  /-- The answer is the process id. -/
  | popen (spawn : Spawn)
  /-- The selector, with the pipe registered. -/
  | register
  | select (timeout : ℚ)
  | read (size : Nat)
  /-- `waitid` without reaping and without waiting: whether the process has exited. -/
  | waitid (pid : Int)
  | sleep (seconds : ℚ)
  | killpg (pgid : Int)
  | close
  | wait
  deriving DecidableEq

@[reducible] def OsOp.Res : OsOp → Type
  | .realpath _ => String
  | .isdir _ => Bool
  | .monotonic => ℚ
  | .popen _ => Int
  | .register => Unit
  | .select _ => Bool
  | .read _ => List UInt8
  | .waitid _ => Bool
  | .sleep _ => Unit
  | .killpg _ => Unit
  | .close => Unit
  | .wait => Int

@[reducible] def osSignature : Signature := ⟨OsOp, OsOp.Res⟩

/-- Code over the system calls. -/
abbrev Os (α : Type) := Program osSignature OsRaised α

namespace Os

def monotonic : Os ℚ := @Program.perform osSignature _ .monotonic

def popen (spawn : Spawn) : Os Int := @Program.perform osSignature _ (.popen spawn)

def register : Os Unit := @Program.perform osSignature _ .register

def select (timeout : ℚ) : Os Bool := @Program.perform osSignature _ (.select timeout)

def read (size : Nat) : Os (List UInt8) := @Program.perform osSignature _ (.read size)

def waitid (pid : Int) : Os Bool := @Program.perform osSignature _ (.waitid pid)

def sleep (seconds : ℚ) : Os Unit := @Program.perform osSignature _ (.sleep seconds)

def killpg (pgid : Int) : Os Unit := @Program.perform osSignature _ (.killpg pgid)

def close : Os Unit := @Program.perform osSignature _ .close

def wait : Os Int := @Program.perform osSignature _ .wait

end Os

/-! ## The runner -/

def readChunkBytes : Nat := 65536

/-- One pass of the loop; it ends with what was captured, and whether the time is up. -/
def readOnce (outputCap : Int) (deadline : ℚ) (capture : Capture) :
    Os (Capture ⊕ Capture × Bool) := do
  let now ← Os.monotonic
  let remaining := deadline - now
  if remaining ≤ 0 then return .inr (capture, true)
  else do
    let ready ← Os.select remaining
    if !ready then return .inl capture
    else do
      let chunk ← Os.read readChunkBytes
      if chunk = [] then return .inr (capture, false)
      else return .inl (capture.read outputCap chunk)

/-- One pass of `_group_leader_exited_by`. -/
def leaderExitedOnce (pid : Int) (deadline : ℚ) (_ : Unit) : Os (Unit ⊕ Bool) := do
  let exited ← Os.waitid pid
  if exited then return .inr true
  else do
    let now ← Os.monotonic
    if deadline ≤ now then return .inr false
    else do
      Os.sleep (1 / 100)
      return .inl ()

def groupLeaderExitedBy (pid : Int) (deadline : ℚ) (fuel : Nat) : Os (Option Bool) :=
  Program.iterate (leaderExitedOnce pid deadline) fuel ()

/-- The body of the `try`; `none` is a check that is still running. -/
def observed (outputCap : Int) (pid : Int) (deadline : ℚ) (fuel : Nat) :
    Os (Option (Capture × Bool)) := do
  Os.register
  match ← Program.iterate (readOnce outputCap deadline) fuel ⟨[], false⟩ with
  | none => return none
  | some (capture, true) => return some (capture, true)
  | some (capture, false) => do
      let exited ← groupLeaderExitedBy pid deadline fuel
      return exited.map fun exited => (capture, !exited)

/-- The group may be gone, or beyond the service's rights. -/
def killProcessGroup (pgid : Int) : Os Unit := do
  match ← (Os.killpg pgid).attempt with
  | .ok () => return ()
  | .error (.osError .processLookup _) => return ()
  | .error (.osError .permission _) => return ()
  | .error error => .raise error

/-- The `finally`; it ends with the return code. -/
def cleanUp (pid : Int) : Os Int := do
  killProcessGroup pid
  Os.close
  Os.wait

/-- The environment of a command; `path` is the service's own, if it has one. -/
def scrubbedEnv (path : Option String) : List (String × String) :=
  [("PATH", path.getD "/usr/bin:/bin"), ("HOME", "/tmp")]

/-- The `try` with its `finally`. -/
def supervised (outputCap : Int) (pid : Int) (deadline : ℚ) (fuel : Nat) :
    Os (Option CheckResult) := do
  match ← (observed outputCap pid deadline fuel).attempt with
  | .ok none => return none
  | .ok (some (capture, timedOut)) => do
      let returncode ← cleanUp pid
      return some {
        exitCode := if timedOut then none else some returncode
        timedOut := timedOut
        output := capture.retained
        truncated := capture.truncated }
  | .error error => do
      let _ ← cleanUp pid
      .raise error

def runBoundedCheck (path : Option String) (argv : List String) (cwd : String)
    (timeoutSeconds : ℚ) (outputCap : Int) (fuel : Nat) : Os (Option CheckResult) := do
  let started ← Os.monotonic
  let pid ← Os.popen ⟨argv, cwd, scrubbedEnv path⟩
  supervised outputCap pid (started + timeoutSeconds) fuel

/-! ## The machine sees the calls -/

variable {σ : Type}

/-- What the machine makes of a call: an exception within the `try` interrupts it, and the
`finally` goes on where the group could not be killed. -/
def checkAction? (call : Served osSignature OsRaised σ) : Option CheckAction :=
  match call with
  | ⟨_, .monotonic, .ok reading, _⟩ => some (.monotonic reading)
  | ⟨_, .monotonic, .error _, _⟩ => some .raise
  | ⟨_, .register, .error _, _⟩ => some .raise
  | ⟨_, .select _, .ok ready, _⟩ => some (.select ready)
  | ⟨_, .select _, .error _, _⟩ => some .raise
  | ⟨_, .read _, .ok chunk, _⟩ => some (.read chunk)
  | ⟨_, .read _, .error _, _⟩ => some .raise
  | ⟨_, .waitid _, .ok exited, _⟩ => some (.waitid exited)
  | ⟨_, .waitid _, .error _, _⟩ => some .raise
  | ⟨_, .sleep _, .ok _, _⟩ => some .sleep
  | ⟨_, .sleep _, .error _, _⟩ => some .raise
  | ⟨_, .killpg _, _, _⟩ => some .killpg
  | ⟨_, .close, _, _⟩ => some .close
  | ⟨_, .wait, .ok returncode, _⟩ => some (.wait returncode)
  | _ => none

def checkActions (history : History osSignature OsRaised σ) : List CheckAction :=
  history.filterMap checkAction?

/-- Where the machine is after a call. -/
def follow (outputCap : Int) (deadline : ℚ) (machine : Option BoundedCheck)
    (call : Served osSignature OsRaised σ) : Option BoundedCheck :=
  match checkAction? call with
  | some action => machine.bind (BoundedCheck.act outputCap deadline action)
  | none => machine

/-- A call of the check of this process. -/
def OsOp.Concerns (pid : Int) : OsOp → Prop
  | .waitid other => other = pid
  | .killpg other => other = pid
  | .popen _ => False
  | .realpath _ => False
  | .isdir _ => False
  | _ => True

/-- A call within the `try`. -/
def OsOp.Watches (pid : Int) : OsOp → Prop
  | .monotonic => True
  | .register => True
  | .select _ => True
  | .read _ => True
  | .waitid other => other = pid
  | .sleep _ => True
  | _ => False

theorem OsOp.Watches.concerns {pid : Int} {op : OsOp} (watches : op.Watches pid) :
    op.Concerns pid := by
  cases op <;> first | exact watches | trivial

section Follow

variable {world : World osSignature OsRaised σ} {outputCap : Int} {deadline : ℚ} {pid : Int}
  {history : History osSignature OsRaised σ} {machine last : BoundedCheck} {fuel : Nat}
  {capture : Capture}

theorem follow_none : history.foldl (follow outputCap deadline) none = none := by
  induction history with
  | nil => rfl
  | cons call history ih =>
      rw [List.foldl_cons, follow]
      cases checkAction? call <;> exact ih

/-- The machine took the calls as a schedule. -/
theorem schedules_of_follow
    (followed : history.foldl (follow outputCap deadline) (some machine) = some last) :
    Schedules (BoundedCheck.act outputCap deadline) machine (checkActions history) last := by
  induction history generalizing machine with
  | nil =>
      cases followed
      exact Schedules.nil_iff.mpr rfl
  | cons call history ih =>
      rw [List.foldl_cons, follow] at followed
      rw [checkActions, List.filterMap_cons]
      cases action : checkAction? call with
      | none =>
          rw [action] at followed
          exact ih followed
      | some action' =>
          rw [action] at followed
          change history.foldl (follow outputCap deadline)
            (BoundedCheck.act outputCap deadline action' machine) = some last at followed
          cases acts : BoundedCheck.act outputCap deadline action' machine with
          | none =>
              rw [acts, follow_none] at followed
              cases followed
          | some next =>
              rw [acts] at followed
              exact Schedules.cons_iff.mpr ⟨next, acts, ih followed⟩

/-- The machine is within the `try`, at this place. -/
def InTry (place : CheckPlace) (capture : Capture) (state : σ × Option BoundedCheck) : Prop :=
  state.2 = some ⟨capture, false, false, place⟩

/-- The machine is before the `finally`, with an exception. -/
def Interrupted (_ : OsRaised) (state : σ × Option BoundedCheck) : Prop :=
  ∃ capture timedOut, state.2 = some ⟨capture, timedOut, true, .killing⟩

/-- One call within the `try`. -/
theorem wp_within {op : osSignature.Op} {place : CheckPlace} {state : σ × Option BoundedCheck}
    {onReturn : osSignature.Res op → σ × Option BoundedCheck → Prop} (watches : op.Watches pid)
    (here : InTry place capture state)
    (raises : ∀ error after, follow outputCap deadline (some ⟨capture, false, false, place⟩)
      ⟨state.1, op, .error error, after⟩ = some ⟨capture, false, true, .killing⟩)
    (returns : ∀ result after tracked,
      tracked = follow outputCap deadline (some ⟨capture, false, false, place⟩)
        ⟨state.1, op, .ok result, after⟩ → onReturn result (after, tracked)) :
    wp (world.monitored (follow outputCap deadline)) (fun _ op => op.Watches pid)
      (Program.perform op) onReturn Interrupted state := by
  rcases state with ⟨state, tracked⟩
  cases here
  apply wp_perform_monitored watches
  · intro result after _
    exact returns result after _ rfl
  · intro error after _
    exact ⟨capture, false, raises error after⟩

/-- The machine once the loop has ended. -/
def ReadOut : Capture × Bool → σ × Option BoundedCheck → Prop
  | (capture, true), state => state.2 = some ⟨capture, true, false, .killing⟩
  | (capture, false), state => InTry .waiting capture state

theorem wp_readOnce {state : σ × Option BoundedCheck} (here : InTry .looping capture state) :
    wp (world.monitored (follow outputCap deadline)) (fun _ op => op.Watches pid)
      (readOnce outputCap deadline capture) (Sum.elim (InTry .looping) ReadOut) Interrupted
      state := by
  rw [readOnce, wp_bind]
  refine wp_within trivial here (fun _ _ => rfl) ?_
  intro now after tracked looked
  by_cases up : deadline - now ≤ 0
  · dsimp only
    rw [if_pos up]
    exact looked.trans (if_pos up)
  · have selecting : InTry .selecting capture (after, tracked) := looked.trans (if_neg up)
    dsimp only
    rw [if_neg up, wp_bind]
    refine wp_within trivial selecting (fun _ _ => rfl) ?_
    intro ready after tracked selected
    cases ready with
    | false => exact selected
    | true =>
        have reading : InTry .reading capture (after, tracked) := selected
        change wp _ _ (Os.read readChunkBytes >>= _) _ _ _
        rw [wp_bind]
        refine wp_within trivial reading (fun _ _ => rfl) ?_
        intro chunk after tracked got
        by_cases ended : chunk = []
        · rw [if_pos ended]
          exact got.trans (if_pos ended)
        · rw [if_neg ended]
          exact got.trans (if_neg ended)

/-- The machine once the leader was waited for. -/
def LeaderSeen (capture : Capture) (exited : Bool) (state : σ × Option BoundedCheck) : Prop :=
  state.2 = some ⟨capture, !exited, false, .killing⟩

theorem wp_leaderExitedOnce {state : σ × Option BoundedCheck}
    (here : InTry .waiting capture state) :
    wp (world.monitored (follow outputCap deadline)) (fun _ op => op.Watches pid)
      (leaderExitedOnce pid deadline ())
      (Sum.elim (fun _ => InTry .waiting capture) (LeaderSeen capture)) Interrupted state := by
  rw [leaderExitedOnce, wp_bind]
  refine wp_within rfl here (fun _ _ => rfl) ?_
  intro exited after tracked waited
  cases exited with
  | true => exact waited
  | false =>
      have expiring : InTry .expiring capture (after, tracked) := waited
      change wp _ _ (Os.monotonic >>= _) _ _ _
      rw [wp_bind]
      refine wp_within trivial expiring (fun _ _ => rfl) ?_
      intro now after tracked looked
      by_cases up : deadline ≤ now
      · dsimp only
        rw [if_pos up]
        exact looked.trans (if_pos up)
      · have sleeping : InTry .sleeping capture (after, tracked) := looked.trans (if_neg up)
        dsimp only
        rw [if_neg up, wp_bind]
        refine wp_within trivial sleeping (fun _ _ => rfl) ?_
        exact fun _ _ _ slept => slept

/-- The machine once the `try` has ended, or while the check is still running. -/
def Watched : Option (Capture × Bool) → σ × Option BoundedCheck → Prop
  | none, _ => True
  | some (capture, timedOut), state => state.2 = some ⟨capture, timedOut, false, .killing⟩

theorem wp_observed {state : σ} :
    wp (world.monitored (follow outputCap deadline)) (fun _ op => op.Watches pid)
      (observed outputCap pid deadline fuel) Watched Interrupted (state, some boundedCheck) := by
  have looping : InTry .looping ⟨[], false⟩ (state, some boundedCheck) := rfl
  rw [observed, wp_bind]
  refine wp_within trivial looping (fun _ _ => rfl) ?_
  intro _ after tracked registered
  have looping : InTry .looping ⟨[], false⟩ (after, tracked) := registered
  have reads : wp (world.monitored (follow outputCap deadline)) (fun _ op => op.Watches pid)
      (Program.iterate (readOnce outputCap deadline) fuel ⟨[], false⟩)
      (fun ended state => ended.elim True (ReadOut · state))
      Interrupted (after, tracked) := by
    apply wp_iterate_counted fun _ => InTry .looping
    · exact fun _ _ _ here => wp_readOnce here
    · exact fun _ _ _ => trivial
    · exact looping
  apply wp_seq reads
  intro ended after read
  cases ended with
  | none => trivial
  | some ended =>
      rcases ended with ⟨capture, timedOut⟩
      cases timedOut with
      | true => exact read
      | false =>
          have waits : wp (world.monitored (follow outputCap deadline))
              (fun _ op => op.Watches pid) (groupLeaderExitedBy pid deadline fuel)
              (fun exited state => exited.elim True (LeaderSeen capture · state)) Interrupted
              after := by
            apply wp_iterate_counted fun _ _ => InTry .waiting capture
            · exact fun _ _ _ here => wp_leaderExitedOnce here
            · exact fun _ _ _ => trivial
            · exact read
          apply wp_seq waits
          intro exited after seen
          cases exited with
          | none => trivial
          | some exited => exact seen

end Follow

/-! ## What a verdict rests on -/

namespace BoundedCheck

variable {outputCap : Int} {deadline : ℚ} {action : CheckAction} {past schedule : List CheckAction}
  {state after : BoundedCheck} {timedOut : Bool}

/-- The clock has not shown the deadline. -/
def InTime (deadline : ℚ) (past : List CheckAction) : Prop :=
  ∀ reading, .monotonic reading ∈ past → reading < deadline

/-- The last call before the `finally` showed that the time was up, or that the leader had
exited; then every writer had closed the pipe, all of it in time. -/
def Decided (deadline : ℚ) (past : List CheckAction) : Bool → Prop
  | true => ∃ reading, past.getLast? = some (.monotonic reading) ∧ deadline ≤ reading
  | false => past.getLast? = some (.waitid true) ∧ .read [] ∈ past ∧ InTime deadline past

/-- What has been decided at a place within the `try`, and where it has ended. -/
def Deciding (deadline : ℚ) (past : List CheckAction) (state : BoundedCheck) : Prop :=
  match state.place with
  | .looping | .selecting | .reading => state.timedOut = false ∧ InTime deadline past
  | .waiting | .expiring | .sleeping =>
      state.timedOut = false ∧ InTime deadline past ∧ .read [] ∈ past
  | .killing => state.raising = true ∨ Decided deadline past state.timedOut
  | _ => True

theorem InTime.append (inTime : InTime deadline past)
    (early : ∀ reading, action = .monotonic reading → reading < deadline) :
    InTime deadline (past ++ [action]) := by
  intro reading member
  rcases List.mem_append.mp member with before | last
  · exact inTime reading before
  · exact early reading (List.mem_singleton.mp last).symm

/-- A call that is not of the clock. -/
theorem InTime.quiet (inTime : InTime deadline past)
    (other : ∀ reading, action ≠ .monotonic reading) : InTime deadline (past ++ [action]) :=
  inTime.append fun reading same => absurd same (other reading)

theorem getLast?_append_singleton : (past ++ [action]).getLast? = some action :=
  List.getLast?_concat

theorem Deciding.act (deciding : Deciding deadline past state)
    (acts : BoundedCheck.act outputCap deadline action state = some after) :
    Deciding deadline (past ++ [action]) after := by
  rcases state with ⟨captured, timedOut, raising, place⟩
  cases action with
  | monotonic reading =>
      cases place with
      | looping =>
          rcases deciding with ⟨running, inTime⟩
          simp only [BoundedCheck.act] at acts
          split at acts <;> cases acts
          · rename_i up
            exact .inr ⟨reading, getLast?_append_singleton, sub_nonpos.mp up⟩
          · rename_i left
            refine ⟨running, inTime.append ?_⟩
            rintro _ ⟨⟩
            exact sub_pos.mp (not_le.mp left)
      | expiring =>
          rcases deciding with ⟨running, inTime, closed⟩
          simp only [BoundedCheck.act] at acts
          split at acts <;> cases acts
          · rename_i up
            exact .inr ⟨reading, getLast?_append_singleton, up⟩
          · rename_i left
            refine ⟨running, inTime.append ?_, List.mem_append_left _ closed⟩
            rintro _ ⟨⟩
            exact not_le.mp left
      | _ => cases acts
  | select ready =>
      cases place with
      | selecting =>
          cases acts
          have kept : InTime deadline (past ++ [.select ready]) := deciding.2.quiet (by simp)
          cases ready <;> exact ⟨deciding.1, kept⟩
      | _ => cases acts
  | read chunk =>
      cases place with
      | reading =>
          simp only [BoundedCheck.act] at acts
          have kept : InTime deadline (past ++ [.read chunk]) := deciding.2.quiet (by simp)
          split at acts <;> cases acts
          · rename_i ended
            refine ⟨deciding.1, kept, ?_⟩
            rw [ended]
            exact List.mem_append_right _ (List.mem_singleton_self _)
          · exact ⟨deciding.1, kept⟩
      | _ => cases acts
  | waitid exited =>
      cases place with
      | waiting =>
          cases acts
          rcases deciding with ⟨running, inTime, closed⟩
          have kept : InTime deadline (past ++ [.waitid exited]) := inTime.quiet (by simp)
          cases exited with
          | true =>
              right
              cases running
              exact ⟨getLast?_append_singleton, List.mem_append_left _ closed, kept⟩
          | false => exact ⟨running, kept, List.mem_append_left _ closed⟩
      | _ => cases acts
  | sleep =>
      cases place with
      | sleeping =>
          cases acts
          rcases deciding with ⟨running, inTime, closed⟩
          exact ⟨running, inTime.quiet (by simp), List.mem_append_left _ closed⟩
      | _ => cases acts
  | killpg =>
      cases place with
      | killing =>
          cases acts
          trivial
      | _ => cases acts
  | close =>
      cases place with
      | closing =>
          cases acts
          trivial
      | _ => cases acts
  | wait returncode =>
      cases place with
      | reaping =>
          simp only [BoundedCheck.act] at acts
          split at acts <;> cases acts <;> trivial
      | _ => cases acts
  | raise =>
      cases place with
      | looping | selecting | reading | waiting | expiring | sleeping =>
          cases acts
          exact .inl rfl
      | _ => cases acts

end BoundedCheck

/-! ## The record of a check -/

/-- The group was killed, or is gone, or is beyond the service's rights. -/
def Suppressed : Except OsRaised Unit → Prop
  | .ok () => True
  | .error (.osError kind _) => kind ≠ .other
  | .error (.exception _) => False

/-- The calls of the `finally`, with the return code or the exception of the last of them. -/
inductive CleanedUp (pid : Int) : History osSignature OsRaised σ → Except OsRaised Int → Prop where
  | unkilled {before after : σ} {error : OsRaised} : ¬ Suppressed (.error error) →
      CleanedUp pid [⟨before, .killpg pid, .error error, after⟩] (.error error)
  | unclosed {before middle after : σ} {killed : Except OsRaised Unit} {error : OsRaised} :
      Suppressed killed →
      CleanedUp pid
        [⟨before, .killpg pid, killed, middle⟩, ⟨middle, .close, .error error, after⟩]
        (.error error)
  | reaped {before middle last after : σ} {killed : Except OsRaised Unit}
      {reaped : Except OsRaised Int} : Suppressed killed →
      CleanedUp pid
        [⟨before, .killpg pid, killed, middle⟩, ⟨middle, .close, .ok (), last⟩,
          ⟨last, .wait, reaped, after⟩] reaped

/-- How the `try` ends: with what its calls decided, or with the exception of the last of
them. -/
inductive TryEnds (deadline : ℚ) (calls : History osSignature OsRaised σ) :
    Except OsRaised Bool → Prop where
  | decided {timedOut : Bool} : BoundedCheck.Decided deadline (checkActions calls) timedOut →
      TryEnds deadline calls (.ok timedOut)
  | raised {earlier : History osSignature OsRaised σ} {before after : σ} {op : OsOp}
      {error : OsRaised} : calls = earlier ++ [⟨before, op, .error error, after⟩] →
      TryEnds deadline calls (.error error)

/-- What a check comes to that read these bytes. -/
def resultOf (outputCap : Int) (bytes : List UInt8) (returncode : Int) (timedOut : Bool) :
    CheckResult where
  exitCode := if timedOut then none else some returncode
  timedOut := timedOut
  output := bytes.take outputCap.toNat
  truncated := decide (outputCap.toNat < bytes.length)

/-- What the calls of a started check come to: it is still running after as many rounds as it
was followed for; or the `try` has ended, and the `finally` after it. -/
inductive CheckEnds (outputCap : Int) (deadline : ℚ) (pid : Int) (fuel : Nat) :
    History osSignature OsRaised σ → Except OsRaised (Option CheckResult) → Prop where
  | running {calls : History osSignature OsRaised σ} : (∀ call ∈ calls, call.op.Watches pid) →
      fuel ≤ calls.length → CheckEnds outputCap deadline pid fuel calls (.ok none)
  | ended {calls cleaning : History osSignature OsRaised σ} {tried : Except OsRaised Bool}
      {returncode : Int} : (∀ call ∈ calls, call.op.Watches pid) →
      TryEnds deadline calls tried → CleanedUp pid cleaning (.ok returncode) →
      CheckEnds outputCap deadline pid fuel (calls ++ cleaning)
        (tried.map fun timedOut =>
          some (resultOf outputCap (bytesRead (checkActions calls)) returncode timedOut))
  | uncleaned {calls cleaning : History osSignature OsRaised σ} {tried : Except OsRaised Bool}
      {error : OsRaised} : (∀ call ∈ calls, call.op.Watches pid) →
      TryEnds deadline calls tried → CleanedUp pid cleaning (.error error) →
      CheckEnds outputCap deadline pid fuel (calls ++ cleaning) (.error error)

/-- The record of a check: its clock, its command, and the calls of that process. -/
inductive CheckRecord (path : Option String) (argv : List String) (cwd : String)
    (timeoutSeconds : ℚ) (outputCap : Int) (fuel : Nat) :
    History osSignature OsRaised σ → Except OsRaised (Option CheckResult) → Prop where
  | noClock {before after : σ} {error : OsRaised} :
      CheckRecord path argv cwd timeoutSeconds outputCap fuel
        [⟨before, .monotonic, .error error, after⟩] (.error error)
  | noProcess {before middle after : σ} {started : ℚ} {error : OsRaised} :
      CheckRecord path argv cwd timeoutSeconds outputCap fuel
        [⟨before, .monotonic, .ok started, middle⟩,
          ⟨middle, .popen ⟨argv, cwd, scrubbedEnv path⟩, .error error, after⟩] (.error error)
  | process {before middle after : σ} {started : ℚ} {pid : Int}
      {calls : History osSignature OsRaised σ}
      {outcome : Except OsRaised (Option CheckResult)} :
      CheckEnds outputCap (started + timeoutSeconds) pid fuel calls outcome →
      CheckRecord path argv cwd timeoutSeconds outputCap fuel
        (⟨before, .monotonic, .ok started, middle⟩ ::
          ⟨middle, .popen ⟨argv, cwd, scrubbedEnv path⟩, .ok pid, after⟩ :: calls) outcome

section Record

variable {world : World osSignature OsRaised σ} {outputCap : Int} {deadline : ℚ} {pid : Int}
  {fuel : Nat} {state last : σ} {history : History osSignature OsRaised σ}

theorem CleanedUp.concerns {outcome : Except OsRaised Int}
    (cleaned : CleanedUp pid history outcome) : ∀ call ∈ history, call.op.Concerns pid := by
  cases cleaned <;> simp [OsOp.Concerns]

/-- All calls of a started check concern its process. -/
theorem CheckEnds.concerns {outcome : Except OsRaised (Option CheckResult)}
    (ends : CheckEnds outputCap deadline pid fuel history outcome) :
    ∀ call ∈ history, call.op.Concerns pid := by
  cases ends with
  | running watching => exact fun call member => (watching call member).concerns
  | ended watching _ cleaned | uncleaned watching _ cleaned =>
      intro call member
      rcases List.mem_append.mp member with within | after
      · exact (watching call within).concerns
      · exact cleaned.concerns call after

theorem killProcessGroup_record {outcome : Except OsRaised Unit}
    (runs : Runs world.recorded (killProcessGroup pid) (state, []) outcome (last, history)) :
    ∃ killed, history = [⟨state, .killpg pid, killed, last⟩] ∧
      (Suppressed killed ∧ outcome = .ok () ∨ ¬ Suppressed killed ∧ outcome = killed) := by
  rcases Runs.record_bind runs with ⟨killed, _, _, _, rfl, tries, answered⟩ | ⟨_, _, tries⟩
  · rcases Runs.attempt_iff.mp tries with ⟨inner, same, called⟩
    cases same
    rcases Runs.record_perform called with ⟨_, rfl⟩
    cases killed with
    | ok =>
        rcases Runs.ok_iff.mp answered with ⟨rfl, ended⟩
        cases ended
        exact ⟨_, rfl, .inl ⟨trivial, rfl⟩⟩
    | error error =>
        cases error with
        | osError kind strerror =>
            cases kind with
            | processLookup | permission =>
                rcases Runs.ok_iff.mp answered with ⟨rfl, ended⟩
                cases ended
                exact ⟨_, rfl, .inl ⟨by simp [Suppressed], rfl⟩⟩
            | other =>
                rcases Runs.raise_iff.mp answered with ⟨rfl, ended⟩
                cases ended
                exact ⟨_, rfl, .inr ⟨by simp [Suppressed], rfl⟩⟩
        | exception typeName =>
            rcases Runs.raise_iff.mp answered with ⟨rfl, ended⟩
            cases ended
            exact ⟨_, rfl, .inr ⟨id, rfl⟩⟩
  · rcases Runs.attempt_iff.mp tries with ⟨_, same, _⟩
    cases same

/-- The `finally`. -/
theorem cleanUp_record {outcome : Except OsRaised Int}
    (runs : Runs world.recorded (cleanUp pid) (state, []) outcome (last, history)) :
    CleanedUp pid history outcome := by
  rcases Runs.record_bind runs with ⟨_, middle, _, _, rfl, kills, rest⟩ | ⟨error, rfl, kills⟩
  · rcases killProcessGroup_record kills with ⟨killed, rfl, ⟨suppressed, _⟩ | ⟨loud, raised⟩⟩
    · rcases Runs.record_bind rest with ⟨_, _, _, _, rfl, closed, waits⟩ | ⟨error, rfl, closed⟩
      · rcases Runs.record_perform closed with ⟨_, rfl⟩
        rcases Runs.record_perform waits with ⟨_, rfl⟩
        exact .reaped suppressed
      · rcases Runs.record_perform closed with ⟨_, rfl⟩
        exact .unclosed suppressed
    · cases raised
      exact absurd trivial loud
  · rcases killProcessGroup_record kills with ⟨killed, rfl, ⟨_, same⟩ | ⟨loud, rfl⟩⟩
    · cases same
    · exact .unkilled loud

/-! ### The `try` -/

theorem readOnce_relays {capture : Capture} :
    (readOnce outputCap deadline capture).Relays .plain := by
  apply Program.Relays.perform fun _ => trivial
  intro now _
  dsimp only
  split
  · trivial
  · apply Program.Relays.perform fun _ => trivial
    intro ready _
    split
    · trivial
    · apply Program.Relays.perform fun _ => trivial
      intro chunk _
      split <;> trivial

theorem groupLeaderExitedBy_relays : (groupLeaderExitedBy pid deadline fuel).Relays .plain := by
  apply Program.Relays.iterate
  intro _
  apply Program.Relays.perform fun _ => trivial
  intro exited _
  split
  · trivial
  · apply Program.Relays.perform fun _ => trivial
    intro now _
    split
    · trivial
    · exact Program.Relays.perform (fun _ => trivial) fun _ _ => trivial

/-- The `try` raises what its last call raised. -/
theorem observed_relays : (observed outputCap pid deadline fuel).Relays .plain := by
  apply Program.Relays.perform fun _ => trivial
  intro _ _
  apply Program.Relays.bind (Program.Relays.iterate (fun _ => readOnce_relays) _ _)
  intro ended
  split
  · trivial
  · trivial
  · exact Program.Relays.bind groupLeaderExitedBy_relays fun _ => trivial

/-- Every round of either loop begins with a call. -/
theorem observed_rounds
    (runs : Runs world.recorded (observed outputCap pid deadline fuel) (state, []) (.ok none)
      (last, history)) : fuel ≤ history.length := by
  rcases Runs.record_bind runs with ⟨_, _, _, _, rfl, _, rest⟩ | ⟨_, same, _⟩
  · rcases Runs.record_bind rest with ⟨ended, _, _, _, rfl, reads, rest⟩ | ⟨_, same, _⟩
    · rw [List.length_append, List.length_append]
      rcases ended with _ | ⟨capture, _ | _⟩
      · have rounds := Runs.iterate_counted (fun state => state.2.length)
          (fun round => Runs.record_lengthens round) reads
        dsimp only [List.length_nil] at rounds
        omega
      · rcases Runs.record_bind rest with ⟨exited, _, _, _, rfl, waits, answered⟩ | ⟨_, same, _⟩
        · rw [List.length_append]
          cases exited with
          | none =>
              have rounds := Runs.iterate_counted (fun state => state.2.length)
                (fun round => Runs.record_lengthens round) waits
              dsimp only [List.length_nil] at rounds
              omega
          | some exited => cases (Runs.ok_iff.mp answered).1
        · cases same
      · cases (Runs.ok_iff.mp rest).1
    · cases same
  · cases same

/-- The `try` that has ended. -/
theorem tryEnds_of_watched
    {machine : BoundedCheck} (followed : history.foldl (follow outputCap deadline)
      (some boundedCheck) = some machine) (place : machine.place = .killing)
    (calm : machine.raising = false) :
    TryEnds deadline history (.ok machine.timedOut) ∧
      machine.captured.retained =
        (bytesRead (checkActions history)).take outputCap.toNat ∧
      machine.captured.truncated =
        decide (outputCap.toNat < (bytesRead (checkActions history)).length) := by
  have schedules := schedules_of_follow followed
  have captures := BoundedCheck.captures schedules
  have deciding : BoundedCheck.Deciding deadline (checkActions history) machine :=
    schedules.tracks (BoundedCheck.Deciding deadline)
      ⟨rfl, fun _ absent => absurd absent List.not_mem_nil⟩ BoundedCheck.Deciding.act
  rw [BoundedCheck.Deciding, place] at deciding
  refine ⟨.decided (deciding.resolve_left ?_), captures.keeps.retained, ?_⟩
  · rw [calm]
    exact Bool.false_ne_true
  · rw [Bool.eq_iff_iff, captures.keeps.truncated, decide_eq_true_iff]

/-- A check that was started. -/
theorem supervised_record {outcome : Except OsRaised (Option CheckResult)}
    (runs : Runs world.recorded (supervised outputCap pid deadline fuel) (state, []) outcome
      (last, history)) : CheckEnds outputCap deadline pid fuel history outcome := by
  rcases Runs.record_bind runs with ⟨tried, middle, calls, cleaning, rfl, tries, rest⟩ |
    ⟨_, _, tries⟩
  · rcases Runs.attempt_iff.mp tries with ⟨inner, same, observes⟩
    cases same
    have observing : wp (world.monitored (follow outputCap deadline))
        (fun _ op => op.Watches pid) (observed outputCap pid deadline fuel) Watched Interrupted
        (state, some boundedCheck) := wp_observed
    have watching : ∀ call ∈ calls, call.op.Watches pid := by
      intro call member
      rcases List.append_of_mem member with ⟨earlier, later, split⟩
      exact Runs.monitor_guarded (some boundedCheck) observes observing split
    have ends := observes.monitor_post observing
    cases tried with
    | error error =>
        rcases observes.relayed observed_relays (fun _ => trivial) rfl with
          refused | ⟨earlier, ⟨before, op, answer, after⟩, split, told, _⟩
        · exact refused.elim
        dsimp only at told
        subst told
        have raised : TryEnds deadline calls (.error error) := .raised split
        rcases Runs.record_bind rest with ⟨returncode, _, _, _, rfl, cleans, raises⟩ |
          ⟨error, rfl, cleans⟩
        · rcases Runs.raise_iff.mp raises with ⟨rfl, ended⟩
          cases ended
          rw [List.append_nil]
          exact .ended watching raised (cleanUp_record cleans)
        · exact .uncleaned watching raised (cleanUp_record cleans)
    | ok watched =>
        cases watched with
        | none =>
            rcases Runs.ok_iff.mp rest with ⟨rfl, ended⟩
            cases ended
            rw [List.append_nil]
            exact .running watching (observed_rounds observes)
        | some watched =>
            rcases watched with ⟨capture, timedOut⟩
            rcases tryEnds_of_watched ends rfl rfl with ⟨decided, retained, truncated⟩
            rcases Runs.record_bind rest with ⟨returncode, _, _, _, rfl, cleans, returns⟩ |
              ⟨error, rfl, cleans⟩
            · rcases Runs.ok_iff.mp returns with ⟨rfl, ended⟩
              cases ended
              rw [List.append_nil]
              have ended : CheckEnds outputCap deadline pid fuel (calls ++ _) _ :=
                .ended watching decided (cleanUp_record cleans)
              rw [Except.map, resultOf, ← retained, ← truncated] at ended
              exact ended
            · exact .uncleaned watching decided (cleanUp_record cleans)
  · rcases Runs.attempt_iff.mp tries with ⟨_, same, _⟩
    cases same

/-- The record of the runner. -/
theorem runBoundedCheck_record {path : Option String} {argv : List String} {cwd : String}
    {timeoutSeconds : ℚ} {outcome : Except OsRaised (Option CheckResult)}
    (runs : Runs world.recorded
      (runBoundedCheck path argv cwd timeoutSeconds outputCap fuel) (state, []) outcome
      (last, history)) :
    CheckRecord path argv cwd timeoutSeconds outputCap fuel history outcome := by
  rcases Runs.record_bind runs with ⟨started, middle, _, _, rfl, clock, rest⟩ |
    ⟨error, rfl, clock⟩
  · rcases Runs.record_perform clock with ⟨_, rfl⟩
    rcases Runs.record_bind rest with ⟨pid, after, _, calls, rfl, spawn, watched⟩ |
      ⟨error, rfl, spawn⟩
    · rcases Runs.record_perform spawn with ⟨_, rfl⟩
      exact .process (supervised_record watched)
    · rcases Runs.record_perform spawn with ⟨_, rfl⟩
      exact .noProcess
  · rcases Runs.record_perform clock with ⟨_, rfl⟩
    exact .noClock

end Record

end SlimxAgent
