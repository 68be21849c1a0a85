import Mathlib.Data.List.Basic
import Mathlib.Order.Lattice

/-!
# Append-only logs read through a cursor

A log holds entries in strictly increasing key order, and only grows.  A reader
keeps a cursor: everything up to it has been read, everything past it has not.
`Tailed` is that split; it survives what others append (`Tailed.grows`) and moves
by one entry at a time (`Tailed.advance`).
-/

namespace AppendOnly

variable {α κ : Type} [LinearOrder κ] {key : α → κ}

/-- Keys increase strictly. -/
def Ordered (key : α → κ) (log : List α) : Prop :=
  log.Pairwise fun earlier later => key earlier < key later

theorem Ordered.left {front back : List α} (ordered : Ordered key (front ++ back)) :
    Ordered key front :=
  (List.pairwise_append.mp ordered).1

theorem Ordered.across {front back : List α} (ordered : Ordered key (front ++ back))
    {earlier later : α} (before : earlier ∈ front) (behind : later ∈ back) :
    key earlier < key later :=
  (List.pairwise_append.mp ordered).2.2 earlier before later behind

/-- A reader with the cursor at `cursor` has read `read` of the log and not yet
`unread`.  Later entries have keys from `floor` on. -/
structure Tailed (key : α → κ) (log : List α) (floor cursor : κ) (read unread : List α) :
    Prop where
  split : log = read ++ unread
  below : ∀ entry ∈ read, key entry ≤ cursor
  above : ∀ entry ∈ unread, cursor < key entry
  /-- No later entry falls behind the cursor. -/
  ahead : cursor < floor ∨ ∃ entry ∈ read, key entry = cursor

namespace Tailed

variable {log added read unread : List α} {floor raised cursor : κ}

/-- What others append is unread. -/
theorem grows (tailed : Tailed key log floor cursor read unread)
    (ordered : Ordered key (log ++ added)) (bounded : ∀ entry ∈ added, floor ≤ key entry)
    (rises : floor ≤ raised) : Tailed key (log ++ added) raised cursor read (unread ++ added) where
  split := by rw [tailed.split, List.append_assoc]
  below := tailed.below
  above := by
    intro entry member
    cases List.mem_append.mp member with
    | inl old => exact tailed.above entry old
    | inr new =>
        cases tailed.ahead with
        | inl free => exact lt_of_lt_of_le free (bounded entry new)
        | inr reached =>
            obtain ⟨last, known, equal⟩ := reached
            rw [← equal]
            apply ordered.across ?_ new
            rw [tailed.split]
            exact List.mem_append_left unread known
  ahead := by
    cases tailed.ahead with
    | inl free => exact .inl (lt_of_lt_of_le free rises)
    | inr reached => exact .inr reached

/-- Read one entry: the cursor moves to its key. -/
theorem advance {entry : α} (tailed : Tailed key log floor cursor read (entry :: unread))
    (ordered : Ordered key log) :
    Tailed key log floor (key entry) (read ++ [entry]) unread := by
  have split : log = (read ++ [entry]) ++ unread := by
    rw [tailed.split, List.append_assoc, List.singleton_append]
  constructor
  · exact split
  · intro earlier member
    cases List.mem_append.mp member with
    | inl known =>
        have passed := tailed.above entry List.mem_cons_self
        exact le_of_lt (lt_of_le_of_lt (tailed.below earlier known) passed)
    | inr same =>
        rw [List.mem_singleton.mp same]
  · intro later member
    rw [split] at ordered
    exact ordered.across (List.mem_append_right read (List.mem_singleton_self entry)) member
  · exact .inr ⟨entry, List.mem_append_right read (List.mem_singleton_self entry), rfl⟩

/-- The entries past the cursor are the unread ones. -/
theorem filter_past (tailed : Tailed key log floor cursor read unread) :
    log.filter (fun entry => decide (cursor < key entry)) = unread := by
  rw [tailed.split, List.filter_append]
  have none : read.filter (fun entry => decide (cursor < key entry)) = [] := by
    rw [List.filter_eq_nil_iff]
    intro entry member
    simpa using tailed.below entry member
  have all : unread.filter (fun entry => decide (cursor < key entry)) = unread := by
    rw [List.filter_eq_self]
    intro entry member
    simpa using tailed.above entry member
  rw [none, all, List.nil_append]

end Tailed

end AppendOnly
