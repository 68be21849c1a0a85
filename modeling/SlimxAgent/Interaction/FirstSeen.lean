import Mathlib.Data.List.Basic

/-!
# First occurrences

The admitted items of a list, each once, in the order in which they first occur.  A loop
that has seen some of the items adds an item (`Selects.adds`) or passes over it
(`Selects.passes`).  There is only one such list (`Selects.unique`), so what a selection is
selected from may be the selection itself (`Selects.self`).
-/

namespace FirstSeen

variable {α : Type} [DecidableEq α] {admits : α → Prop} {items keys others : List α} {item : α}

/-- The keys are the admitted items, in the order in which they first occur. -/
structure Selects (admits : α → Prop) (items keys : List α) : Prop where
  mem_iff : ∀ key, key ∈ keys ↔ admits key ∧ key ∈ items
  ordered : keys.Pairwise fun earlier later => items.idxOf earlier < items.idxOf later

namespace Selects

theorem nil : Selects admits [] [] where
  mem_iff := by simp
  ordered := .nil

theorem distinct (selects : Selects admits items keys) : keys.Nodup := by
  apply selects.ordered.imp
  rintro earlier later before rfl
  exact Nat.lt_irrefl _ before

/-- Later items leave the order of earlier ones. -/
theorem ordered_append (selects : Selects admits items keys) (added : List α) :
    keys.Pairwise fun earlier later =>
      (items ++ added).idxOf earlier < (items ++ added).idxOf later := by
  apply selects.ordered.imp_of_mem
  intro earlier later first second before
  rw [List.idxOf_append_of_mem ((selects.mem_iff earlier).mp first).2,
    List.idxOf_append_of_mem ((selects.mem_iff later).mp second).2]
  exact before

/-- An item that is not admitted, or was seen before, adds nothing. -/
theorem passes (selects : Selects admits items keys) (known : admits item → item ∈ keys) :
    Selects admits (items ++ [item]) keys where
  mem_iff key := by
    rw [selects.mem_iff, List.mem_append, List.mem_singleton]
    constructor
    · exact fun ⟨admitted, member⟩ => ⟨admitted, .inl member⟩
    · rintro ⟨admitted, member | rfl⟩
      · exact ⟨admitted, member⟩
      · exact (selects.mem_iff key).mp (known admitted)
  ordered := selects.ordered_append [item]

/-- An admitted item that was not seen before comes last. -/
theorem adds (selects : Selects admits items keys) (admitted : admits item)
    (fresh : item ∉ keys) : Selects admits (items ++ [item]) (keys ++ [item]) where
  mem_iff key := by
    rw [List.mem_append, List.mem_append, List.mem_singleton, selects.mem_iff]
    constructor
    · rintro (⟨holds, member⟩ | rfl)
      · exact ⟨holds, .inl member⟩
      · exact ⟨admitted, .inr rfl⟩
    · rintro ⟨holds, member | rfl⟩
      · exact .inl ⟨holds, member⟩
      · exact .inr rfl
  ordered := by
    have unlisted : item ∉ items := fun member =>
      fresh ((selects.mem_iff item).mpr ⟨admitted, member⟩)
    refine List.pairwise_append.mpr ⟨selects.ordered_append [item], List.pairwise_singleton .., ?_⟩
    intro earlier member later last
    rw [List.mem_singleton.mp last, List.idxOf_append_of_notMem unlisted,
      List.idxOf_append_of_mem ((selects.mem_iff earlier).mp member).2]
    exact Nat.lt_add_right _ (List.idxOf_lt_length_of_mem ((selects.mem_iff earlier).mp member).2)

theorem unique (selects : Selects admits items keys) (same : Selects admits items others) :
    keys = others := by
  have members : keys.Perm others := by
    apply (List.perm_ext_iff_of_nodup selects.distinct same.distinct).mpr
    intro key
    rw [selects.mem_iff, same.mem_iff]
  refine members.eq_of_pairwise ?_ selects.ordered same.ordered
  intro earlier later _ _ before behind
  exact absurd behind (Nat.lt_asymm before)

/-- A selection is its own. -/
theorem self (selects : Selects admits items keys) : Selects admits keys keys where
  mem_iff key := ⟨fun member => ⟨((selects.mem_iff key).mp member).1, member⟩, And.right⟩
  ordered := by
    rw [List.pairwise_iff_getElem]
    intro first second firstBound secondBound before
    rw [selects.distinct.idxOf_getElem, selects.distinct.idxOf_getElem]
    exact before

end Selects

end FirstSeen
