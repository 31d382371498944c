import Mathlib

/-!
# Canonical lists

`sortedDistinct` sorts a list and removes repetitions, so its result depends on the set of values only.
The second part is about sorting by a key: a list has only one order if no two members share a key.
-/

namespace Sorted

variable {α : Type*}

def sortedDistinct [DecidableEq α] (below : α → α → Prop) [DecidableRel below]
    (values : List α) : List α :=
  (values.insertionSort below).destutter (· ≠ ·)

variable {left right : List α}

/-- A sorted list without repetitions is determined by its members. -/
theorem eq_of_sorted {below : α → α → Prop} [Std.Antisymm below] (leftSorted : left.Pairwise below)
    (rightSorted : right.Pairwise below) (leftNodup : left.Nodup) (rightNodup : right.Nodup)
    (same : ∀ value, value ∈ left ↔ value ∈ right) : left = right :=
  List.Perm.eq_of_pairwise (fun _ _ _ _ => antisymm) leftSorted rightSorted
    ((List.perm_ext_iff_of_nodup leftNodup rightNodup).mpr same)

section SortedDistinct

variable [DecidableEq α] {below : α → α → Prop} [DecidableRel below]
variable [Std.Total below] [IsTrans α below] [Std.Antisymm below]

theorem sortedDistinct_eq_dedup (values : List α) :
    sortedDistinct below values = (values.insertionSort below).dedup :=
  (List.pairwise_insertionSort below values).destutter_eq_dedup

@[simp] theorem mem_sortedDistinct {values : List α} {value : α} :
    value ∈ sortedDistinct below values ↔ value ∈ values := by
  rw [sortedDistinct_eq_dedup, List.mem_dedup, (List.perm_insertionSort below values).mem_iff]

theorem nodup_sortedDistinct (values : List α) : (sortedDistinct below values).Nodup := by
  rw [sortedDistinct_eq_dedup]
  exact List.nodup_dedup _

theorem pairwise_sortedDistinct (values : List α) :
    (sortedDistinct below values).Pairwise below := by
  rw [sortedDistinct_eq_dedup]
  exact (List.pairwise_insertionSort below values).sublist (List.dedup_sublist _)

theorem sortedDistinct_congr {left right : List α} (same : ∀ value, value ∈ left ↔ value ∈ right) :
    sortedDistinct below left = sortedDistinct below right := by
  refine eq_of_sorted (pairwise_sortedDistinct left) (pairwise_sortedDistinct right)
    (nodup_sortedDistinct left) (nodup_sortedDistinct right) ?_
  intro value
  rw [mem_sortedDistinct, mem_sortedDistinct, same]

theorem sortedDistinct_filter (keep : α → Bool) (values : List α) :
    sortedDistinct below (values.filter keep) = (sortedDistinct below values).filter keep := by
  refine eq_of_sorted (pairwise_sortedDistinct _)
    ((pairwise_sortedDistinct values).sublist List.filter_sublist) (nodup_sortedDistinct _)
    ((nodup_sortedDistinct values).sublist List.filter_sublist) ?_
  intro value
  simp only [mem_sortedDistinct, List.mem_filter]

end SortedDistinct

/-! ### Sorting by a key -/

section Keys

variable {β : Type*} [LinearOrder β]

def byKey (key : α → β) (left right : α) : Prop := key left ≤ key right

instance (key : α → β) : DecidableRel (byKey key) := fun left right =>
  inferInstanceAs (Decidable (key left ≤ key right))

instance (key : α → β) : Std.Total (byKey key) :=
  ⟨fun left right => le_total (key left) (key right)⟩

instance (key : α → β) : IsTrans α (byKey key) :=
  ⟨fun _ _ _ first second => le_trans first second⟩

variable {key : α → β}

/-- Keys that tell values apart order them strictly. -/
theorem antisymm_byKey (injective : Function.Injective key) : Std.Antisymm (byKey key) :=
  ⟨fun _ _ below above => injective (le_antisymm below above)⟩

/-- The first values of a sorted list are not above the later ones. -/
theorem key_le_of_mem_take_of_not_mem_take {values : List α} (sorted : values.Pairwise (byKey key))
    {count : ℕ} {first later : α} (early : first ∈ values.take count) (member : later ∈ values)
    (late : later ∉ values.take count) : key first ≤ key later := by
  rw [← List.take_append_drop count values] at sorted member
  have dropped := (List.mem_append.mp member).resolve_left late
  exact (List.pairwise_append.mp sorted).2.2 first early later dropped

end Keys

end Sorted
