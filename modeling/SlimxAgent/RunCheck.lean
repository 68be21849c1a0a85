import SlimxAgent.Interaction.Machine
import Mathlib.Data.Rat.Defs
import Mathlib.Algebra.Order.Ring.Int

/-!
# The bounded check runner

The service runs one check command with a deadline and a cap on the output that it keeps.
The runner is a machine whose actions are the answers to its system calls, in the order in
which they come: what the clock shows, whether the pipe is readable, the bytes of a read,
whether the group's leader has exited.  What is kept of the output does not depend on how
the reads cut it (`Captures`).
-/

namespace SlimxAgent

open Interaction

/-- The limits of a request, as its body is validated. -/
structure RunCheckBody where
  timeoutSeconds : ℚ
  outputCap : Int
  timeoutPositive : 0 < timeoutSeconds
  timeoutBounded : timeoutSeconds ≤ 600
  capPositive : 1 ≤ outputCap
  capBounded : outputCap ≤ 100000

structure CheckResult where
  exitCode : Option Int
  timedOut : Bool
  output : List UInt8
  truncated : Bool
  deriving DecidableEq

/-- The output kept so far, and whether some was not. -/
structure Capture where
  retained : List UInt8
  truncated : Bool
  deriving DecidableEq

/-- The end of a pass of the loop, after a read of some bytes. -/
def Capture.read (capture : Capture) (outputCap : Int) (chunk : List UInt8) : Capture :=
  let room := outputCap - capture.retained.length
  { retained := if 0 < room then capture.retained ++ chunk.take room.toNat else capture.retained
    truncated := if max room 0 < chunk.length then true else capture.truncated }

/-- The next call of the runner: of its loop, of its wait for the leader, or of its
`finally`. -/
inductive CheckPlace where
  | looping
  | selecting
  | reading
  /-- At `waitid`, every writer having closed the pipe. -/
  | waiting
  | expiring
  | sleeping
  | killing
  | closing
  | reaping
  | returned (result : CheckResult)
  | raised
  deriving DecidableEq

structure BoundedCheck where
  captured : Capture
  timedOut : Bool
  /-- An exception passes through the `finally`. -/
  raising : Bool
  place : CheckPlace
  deriving DecidableEq

/-- A call and its answer. -/
inductive CheckAction where
  | monotonic (reading : ℚ)
  | select (ready : Bool)
  | read (chunk : List UInt8)
  | waitid (exited : Bool)
  | sleep
  | killpg
  | close
  | wait (returncode : Int)
  /-- The call inside the `try` raises. -/
  | raise

/-- `_run_bounded_check`, once the command was started. -/
def boundedCheck : BoundedCheck where
  captured := ⟨[], false⟩
  timedOut := false
  raising := false
  place := .looping

namespace BoundedCheck

/-- Through the `finally` with an exception. -/
def interrupt (state : BoundedCheck) : BoundedCheck :=
  { state with raising := true, place := .killing }

/-- What the runner does with an answer that it may get. -/
def act (outputCap : Int) (deadline : ℚ) (action : CheckAction) (state : BoundedCheck) :
    Option BoundedCheck :=
  match state.place, action with
  | .looping, .monotonic reading =>
      let remaining := deadline - reading
      if remaining ≤ 0 then some { state with timedOut := true, place := .killing }
      else some { state with place := .selecting }
  | .selecting, .select ready => some { state with place := if ready then .reading else .looping }
  | .reading, .read chunk =>
      if chunk = [] then some { state with place := .waiting }
      else some { state with captured := state.captured.read outputCap chunk, place := .looping }
  | .waiting, .waitid exited => some { state with place := if exited then .killing else .expiring }
  | .expiring, .monotonic reading =>
      if deadline ≤ reading then some { state with timedOut := true, place := .killing }
      else some { state with place := .sleeping }
  | .sleeping, .sleep => some { state with place := .waiting }
  | .killing, .killpg => some { state with place := .closing }
  | .closing, .close => some { state with place := .reaping }
  | .reaping, .wait returncode =>
      if state.raising then some { state with place := .raised }
      else some { state with
        place := .returned
          { exitCode := if state.timedOut then none else some returncode
            timedOut := state.timedOut
            output := state.captured.retained
            truncated := state.captured.truncated } }
  | .looping, .raise => some state.interrupt
  | .selecting, .raise => some state.interrupt
  | .reading, .raise => some state.interrupt
  | .waiting, .raise => some state.interrupt
  | .expiring, .raise => some state.interrupt
  | .sleeping, .raise => some state.interrupt
  | _, _ => none

end BoundedCheck

/-- The bytes of a call. -/
def CheckAction.bytes : CheckAction → List UInt8
  | .read chunk => chunk
  | _ => []

/-- The runner has returned. -/
def CheckPlace.over : CheckPlace → Bool
  | .returned _ => true
  | _ => false

/-- All the bytes that were read. -/
def bytesRead (schedule : List CheckAction) : List UInt8 :=
  schedule.flatMap CheckAction.bytes

/-! ## What is kept -/

/-- The capture keeps the first of these bytes, up to the cap. -/
structure Capture.Keeps (outputCap : Int) (bytes : List UInt8) (capture : Capture) : Prop where
  retained : capture.retained = bytes.take outputCap.toNat
  truncated : capture.truncated = true ↔ outputCap.toNat < bytes.length

namespace Capture.Keeps

variable {outputCap : Int} {bytes chunk : List UInt8} {capture other : Capture}

theorem start (outputCap : Int) : (Capture.mk [] false).Keeps outputCap [] where
  retained := by simp
  truncated := by simp

/-- A further chunk is kept as far as there is room. -/
theorem read (keeps : capture.Keeps outputCap bytes) (some : chunk ≠ []) :
    (capture.read outputCap chunk).Keeps outputCap (bytes ++ chunk) := by
  have positive := List.length_pos_iff.mpr some
  have kept : capture.retained.length = min outputCap.toNat bytes.length := by
    rw [keeps.retained, List.length_take]
  rw [Capture.read]
  by_cases room : 0 < outputCap - capture.retained.length
  · -- Everything was kept so far.
    have fits : bytes.take outputCap.toNat = bytes := by
      apply List.take_of_length_le
      omega
    have whole : capture.retained = bytes := keeps.retained.trans fits
    have left : (outputCap - capture.retained.length).toNat = outputCap.toNat - bytes.length := by
      rw [whole]
      omega
    have complete : capture.truncated = false := by
      rw [← Bool.not_eq_true, keeps.truncated]
      omega
    constructor
    · rw [if_pos room, left, whole, List.take_append, fits]
    · rw [List.length_append]
      dsimp only
      split
      · simp only [true_iff]
        omega
      · rw [complete]
        simp only [Bool.false_eq_true, false_iff]
        omega
  · -- There was no room.
    constructor
    · rw [if_neg room, keeps.retained, List.take_append_of_le_length]
      omega
    · have dropped : max (outputCap - capture.retained.length) 0 < (chunk.length : Int) := by
        omega
      rw [List.length_append]
      dsimp only
      rw [if_pos dropped]
      simp only [true_iff]
      omega

/-- With a cap that is no negative number. -/
theorem exact (keeps : capture.Keeps outputCap bytes) (admitted : 0 ≤ outputCap) :
    capture.retained = bytes.take (min outputCap bytes.length).toNat ∧
      (capture.retained.length : Int) ≤ outputCap ∧
      (capture.truncated = true ↔ outputCap < bytes.length) := by
  refine ⟨?_, ?_, ?_⟩
  · rw [keeps.retained, List.take_eq_take_iff]
    omega
  · rw [keeps.retained, List.length_take]
    omega
  · rw [keeps.truncated]
    omega

/-- The same bytes are kept alike. -/
theorem unique (keeps : capture.Keeps outputCap bytes) (same : other.Keeps outputCap bytes) :
    capture = other := by
  have flags : capture.truncated = other.truncated :=
    Bool.eq_iff_iff.mpr (keeps.truncated.trans same.truncated.symm)
  cases capture
  cases other
  cases keeps.retained.trans same.retained.symm
  cases flags
  rfl

end Capture.Keeps

/-! ## The runner -/

namespace BoundedCheck

variable {outputCap : Int} {deadline : ℚ} {action : CheckAction} {past schedule : List CheckAction}
  {state after : BoundedCheck}

/-- What a call does: read output, go on, or return. -/
inductive Effect (outputCap : Int) (state : BoundedCheck) : CheckAction → BoundedCheck → Prop where
  | reads {chunk : List UInt8} : chunk ≠ [] → state.place = .reading →
      Effect outputCap state (.read chunk)
        { state with captured := state.captured.read outputCap chunk, place := .looping }
  | goesOn {action : CheckAction} {after : BoundedCheck} : action.bytes = [] →
      after.place.over = false → after.captured = state.captured →
      Effect outputCap state action after
  | returns {returncode : Int} {exitCode : Option Int} :
      Effect outputCap state (.wait returncode) { state with
        place := .returned
          ⟨exitCode, state.timedOut, state.captured.retained, state.captured.truncated⟩ }

/-- Every call does one of these. -/
theorem act_effect (acts : act outputCap deadline action state = some after) :
    Effect outputCap state action after := by
  cases action with
  | monotonic reading =>
      cases here : state.place with
      | looping | expiring =>
          simp only [act, here] at acts
          split at acts <;>
            (cases acts; exact .goesOn rfl rfl rfl)
      | _ => simp [act, here] at acts
  | select ready =>
      cases here : state.place with
      | selecting =>
          simp only [act, here] at acts
          cases acts
          refine .goesOn rfl ?_ rfl
          cases ready <;> rfl
      | _ => simp [act, here] at acts
  | read chunk =>
      cases here : state.place with
      | reading =>
          simp only [act, here] at acts
          split at acts
          · rename_i ended
            cases acts
            exact .goesOn ended rfl rfl
          · rename_i some
            cases acts
            exact .reads some here
      | _ => simp [act, here] at acts
  | waitid exited =>
      cases here : state.place with
      | waiting =>
          simp only [act, here] at acts
          cases acts
          refine .goesOn rfl ?_ rfl
          cases exited <;> rfl
      | _ => simp [act, here] at acts
  | sleep =>
      cases here : state.place with
      | sleeping =>
          simp only [act, here] at acts
          cases acts
          exact .goesOn rfl rfl rfl
      | _ => simp [act, here] at acts
  | killpg =>
      cases here : state.place with
      | killing =>
          simp only [act, here] at acts
          cases acts
          exact .goesOn rfl rfl rfl
      | _ => simp [act, here] at acts
  | close =>
      cases here : state.place with
      | closing =>
          simp only [act, here] at acts
          cases acts
          exact .goesOn rfl rfl rfl
      | _ => simp [act, here] at acts
  | wait returncode =>
      cases here : state.place with
      | reaping =>
          simp only [act, here] at acts
          split at acts <;> cases acts
          · exact .goesOn rfl rfl rfl
          · exact .returns
      | _ => simp [act, here] at acts
  | raise =>
      cases here : state.place with
      | looping | selecting | reading | waiting | expiring | sleeping =>
          simp only [act, here] at acts
          cases acts
          exact .goesOn rfl rfl rfl
      | _ => simp [act, here] at acts

/-- What holds of the runner after these calls. -/
structure Captures (outputCap : Int) (past : List CheckAction) (state : BoundedCheck) : Prop where
  keeps : state.captured.Keeps outputCap (bytesRead past)
  returns : ∀ result, state.place = .returned result →
    result.output = state.captured.retained ∧ result.truncated = state.captured.truncated

theorem Captures.start (outputCap : Int) : Captures outputCap [] boundedCheck where
  keeps := .start outputCap
  returns := nofun

theorem bytesRead_append (past : List CheckAction) (action : CheckAction) :
    bytesRead (past ++ [action]) = bytesRead past ++ action.bytes := by
  rw [bytesRead, List.flatMap_append, List.flatMap_singleton]
  rfl

/-- A call that reads nothing leaves what was captured. -/
theorem Captures.silent (captures : Captures outputCap past state) (silent : action.bytes = [])
    (same : after.captured = state.captured) :
    after.captured.Keeps outputCap (bytesRead (past ++ [action])) := by
  rw [bytesRead_append, silent, List.append_nil, same]
  exact captures.keeps

/-- Every call keeps it. -/
theorem Captures.act (captures : Captures outputCap past state)
    (acts : BoundedCheck.act outputCap deadline action state = some after) :
    Captures outputCap (past ++ [action]) after := by
  cases act_effect acts with
  | reads some here =>
      refine ⟨?_, nofun⟩
      rw [bytesRead_append]
      exact captures.keeps.read some
  | goesOn silent within same =>
      refine ⟨captures.silent silent same, ?_⟩
      intro result returned
      rw [returned] at within
      cases within
  | returns =>
      refine ⟨captures.silent rfl rfl, ?_⟩
      rintro result ⟨⟩
      exact ⟨rfl, rfl⟩

theorem captures (schedules : Schedules (act outputCap deadline) boundedCheck schedule state) :
    Captures outputCap schedule state :=
  schedules.tracks (Captures outputCap) (Captures.start outputCap) Captures.act

end BoundedCheck

/-- At every moment of a check the output kept is the beginning of all that was read, up to
the cap, and it is marked as truncated exactly when more was read; so it does not depend on
how the reads cut the output. -/
theorem output_capture_exact {outputCap : Int} (admitted : 0 ≤ outputCap) {deadline : ℚ}
    {schedule : List CheckAction} {state : BoundedCheck}
    (schedules : Schedules (BoundedCheck.act outputCap deadline) boundedCheck schedule state) :
    (state.captured.retained =
        (bytesRead schedule).take (min outputCap (bytesRead schedule).length).toNat ∧
      (state.captured.retained.length : Int) ≤ outputCap ∧
      (state.captured.truncated = true ↔ outputCap < (bytesRead schedule).length)) ∧
    (∀ result, state.place = .returned result →
      result.output = state.captured.retained ∧ result.truncated = state.captured.truncated) ∧
    ∀ otherDeadline other last,
      Schedules (BoundedCheck.act outputCap otherDeadline) boundedCheck other last →
      bytesRead other = bytesRead schedule → last.captured = state.captured := by
  have captures := BoundedCheck.captures schedules
  refine ⟨captures.keeps.exact admitted, captures.returns, ?_⟩
  intro otherDeadline other last alike same
  have keeps := (BoundedCheck.captures alike).keeps
  rw [same] at keeps
  exact keeps.unique captures.keeps

/-- A check that prints three bytes in two writes and exits. -/
def shortCheck : List CheckAction :=
  [.monotonic 0, .select true, .read [104, 105], .monotonic 0, .select false, .monotonic 1,
    .select true, .read [33], .monotonic 1, .select true, .read [], .waitid true, .killpg, .close,
    .wait 0]

/-- With a cap of two bytes. -/
theorem output_capture_exact_short :
    ∃ state, Schedules (BoundedCheck.act 2 10) boundedCheck shortCheck state ∧
      state.place = .returned ⟨some 0, false, [104, 105], true⟩ ∧
      state.captured.retained =
        (bytesRead shortCheck).take (min 2 (bytesRead shortCheck).length : Int).toNat ∧
      (state.captured.truncated = true ↔ 2 < ((bytesRead shortCheck).length : Int)) := by
  have schedules : Schedules (BoundedCheck.act 2 10) boundedCheck shortCheck
      ⟨⟨[104, 105], true⟩, false, false, .returned ⟨some 0, false, [104, 105], true⟩⟩ := by
    unfold Schedules
    decide +kernel
  have exact := (output_capture_exact (by decide) schedules).1
  exact ⟨_, schedules, rfl, exact.1, exact.2.2⟩

end SlimxAgent
