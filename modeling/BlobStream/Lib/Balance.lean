import Mathlib

/-!
# Balanced loads

Loads of finitely many owners are balanced when no two differ by more than one. Giving the next item to
an owner with the least load keeps them balanced, and balanced loads are the floor or the ceiling of
the average.
-/

namespace Balance

open Finset

variable {α : Type*} {owners : Finset α} {load : α → ℕ}

/-- No two loads differ by more than one. -/
def WithinOne (owners : Finset α) (load : α → ℕ) : Prop :=
  ∀ first ∈ owners, ∀ second ∈ owners, load first ≤ load second + 1

def ceilDiv (total count : ℕ) : ℕ := (total + count - 1) / count

theorem WithinOne.congr {other : α → ℕ} (balanced : WithinOne owners load)
    (same : ∀ owner ∈ owners, other owner = load owner) : WithinOne owners other := by
  intro first inFirst second inSecond
  rw [same first inFirst, same second inSecond]
  exact balanced first inFirst second inSecond

theorem WithinOne.increment [DecidableEq α] (balanced : WithinOne owners load) {owner : α}
    (least : ∀ other ∈ owners, load owner ≤ load other) :
    WithinOne owners (Function.update load owner (load owner + 1)) := by
  intro first inFirst second inSecond
  have apart := balanced first inFirst second inSecond
  by_cases isFirst : first = owner
  · subst isFirst
    have low := least second inSecond
    by_cases isSecond : second = first
    · subst isSecond
      exact Nat.le_succ _
    · rw [Function.update_self, Function.update_of_ne isSecond]
      omega
  · rw [Function.update_of_ne isFirst]
    by_cases isSecond : second = owner
    · subst isSecond
      rw [Function.update_self]
      omega
    · rwa [Function.update_of_ne isSecond]

variable {total : ℕ}

/-- Balanced loads are the floor or the ceiling of the average. -/
theorem WithinOne.floor_or_ceil (balanced : WithinOne owners load) {owner : α}
    (member : owner ∈ owners) (sum : ∑ other ∈ owners, load other = total) :
    load owner = total / owners.card ∨ load owner = ceilDiv total owners.card := by
  -- Some owner has the least load, and every other has that or one more.
  obtain ⟨lowest, inLowest, least⟩ := exists_min_image owners load ⟨owner, member⟩
  have positive : 0 < owners.card := card_pos.mpr ⟨owner, member⟩
  have below : owners.card * load lowest ≤ total := by
    rw [← sum, ← smul_eq_mul]
    exact card_nsmul_le_sum owners load (load lowest) least
  have above : total < owners.card * (load lowest + 1) := by
    rw [← sum, ← smul_eq_mul, ← sum_const]
    exact sum_lt_sum (fun other inOther => balanced other inOther lowest inLowest)
      ⟨lowest, inLowest, Nat.lt_succ_self _⟩
  have floor : total / owners.card = load lowest := by
    rw [Nat.div_eq_of_lt_le]
    · rwa [Nat.mul_comm]
    · rwa [Nat.mul_comm]
  have low := least owner member
  have high := balanced owner member lowest inLowest
  rcases Nat.lt_or_ge (load lowest) (load owner) with higher | same
  · right
    have more : owners.card * load lowest + 1 ≤ total := by
      rw [← sum]
      have strict : ∑ _other ∈ owners, load lowest < ∑ other ∈ owners, load other :=
        sum_lt_sum least ⟨owner, member, higher⟩
      rw [sum_const, smul_eq_mul] at strict
      omega
    have isNext : load owner = load lowest + 1 := by omega
    rw [isNext, ceilDiv]
    refine (Nat.div_eq_of_lt_le ?_ ?_).symm
    · have expand : (load lowest + 1) * owners.card = owners.card * load lowest + owners.card := by
        ring
      omega
    · have expand : (load lowest + 1 + 1) * owners.card
          = owners.card * (load lowest + 1) + owners.card := by ring
      omega
  · left
    omega

theorem sum_count [DecidableEq α] {items : List α} (inside : ∀ item ∈ items, item ∈ owners) :
    ∑ owner ∈ owners, items.count owner = items.length := by
  induction items with
  | nil => simp
  | cons item rest ih =>
    have tail := ih fun other member => inside other (List.mem_cons_of_mem item member)
    have head := inside item List.mem_cons_self
    simp only [List.count_cons, beq_iff_eq, sum_add_distrib, tail, sum_ite_eq, head, if_true,
      List.length_cons]

theorem sum_countP [DecidableEq α] {ι : Type*} {owner : ι → Option α} {items : List ι}
    (inside : ∀ item ∈ items, ∀ value, owner item = some value → value ∈ owners) :
    ∑ value ∈ owners, items.countP (owner · = some value)
      = items.countP fun item => (owner item).isSome := by
  have counted : ∑ value ∈ owners, (items.filterMap owner).count value
      = (items.filterMap owner).length := by
    apply sum_count
    intro value member
    obtain ⟨item, inItems, isOwner⟩ := List.mem_filterMap.mp member
    exact inside item inItems value isOwner
  simpa only [List.count_filterMap, List.length_filterMap_eq_countP, beq_eq_decide] using counted

/-- The floor of the average, and one more for the chosen owners. -/
def share [DecidableEq α] (total count : ℕ) (chosen : Finset α) (owner : α) : ℕ :=
  total / count + if owner ∈ chosen then 1 else 0

/-- With as many chosen owners as the division leaves over, the shares are the total. -/
theorem sum_share [DecidableEq α] {chosen : Finset α} (inside : chosen ⊆ owners)
    (residue : chosen.card = total % owners.card) :
    ∑ owner ∈ owners, share total owners.card chosen owner = total := by
  simp only [share, sum_add_distrib, sum_const, smul_eq_mul, sum_ite_mem,
    inter_eq_right.mpr inside, residue, mul_one]
  exact Nat.div_add_mod total owners.card

/-- The floor of the average for everyone, and one more for owners that are lowest in rank. -/
def Rounded [DecidableEq α] (owners : Finset α) (rank load : α → ℕ) (total : ℕ) : Prop :=
  ∃ chosen ⊆ owners, chosen.card = total % owners.card
    ∧ (∀ owner ∈ owners, load owner = share total owners.card chosen owner)
    ∧ ∀ owner ∈ chosen, ∀ other ∈ owners, rank other < rank owner → other ∈ chosen

theorem Rounded.withinOne [DecidableEq α] {rank : α → ℕ} (rounded : Rounded owners rank load total) :
    WithinOne owners load := by
  obtain ⟨chosen, -, -, loads, -⟩ := rounded
  intro first inFirst second inSecond
  rw [loads first inFirst, loads second inSecond, share, share]
  split <;> split <;> omega

theorem Rounded.congr [DecidableEq α] {rank other : α → ℕ}
    (rounded : Rounded owners rank load total) (same : ∀ owner ∈ owners, other owner = load owner) :
    Rounded owners rank other total := by
  obtain ⟨chosen, inside, residue, loads, lowest⟩ := rounded
  refine ⟨chosen, inside, residue, ?_, lowest⟩
  intro owner member
  rw [same owner member, loads owner member]

end Balance
