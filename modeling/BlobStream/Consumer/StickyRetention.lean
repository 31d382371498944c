import BlobStream.Consumer.StickyPlacement
import BlobStream.Lib.Balance
import BlobStream.Lib.Loop

/-!
# Sticky placement keeps what balance allows

`Placed` relates the slots that are left to the loads so far. The pass over the survivors ends with the
smaller of capacity and previous load for every owner, and the pass over the gaps only adds entries.
It never runs out of slots, because all capacities together are the inventory.
-/

namespace BlobStream.Consumer.Sticky

open Sorted Balance

/-! ### Groups -/

variable {partitions : List VirtualPartitionId} {count : Nat}
variable {partition : VirtualPartitionId}

theorem mem_logicalGroup {logicalId : Nat} :
    partition ∈ (logicalGroup partitions count logicalId).2
      ↔ partition ∈ partitions ∧ partition % count = logicalId := by
  rw [logicalGroup, mem_sortedDistinct, List.mem_filter, decide_eq_true_eq]

theorem logicalGroups_perm (partitions : List VirtualPartitionId) (count : Nat) :
    (logicalGroups partitions count).Perm
      ((sortedDistinct (· ≤ ·) (partitions.map (· % count))).map (logicalGroup partitions count)) :=
  List.perm_insertionSort _ _

theorem mem_groupedPartitions :
    partition ∈ groupedPartitions (logicalGroups partitions count) ↔ partition ∈ partitions := by
  simp only [groupedPartitions, List.mem_flatMap, (logicalGroups_perm partitions count).mem_iff,
    List.mem_map, mem_sortedDistinct]
  constructor
  · rintro ⟨_, ⟨logicalId, -, rfl⟩, member⟩
    exact (mem_logicalGroup.mp member).1
  · intro member
    exact ⟨_, ⟨partition % count, ⟨partition, member, rfl⟩, rfl⟩, mem_logicalGroup.mpr ⟨member, rfl⟩⟩

theorem nodup_groupedPartitions (partitions : List VirtualPartitionId) (count : Nat) :
    (groupedPartitions (logicalGroups partitions count)).Nodup := by
  rw [groupedPartitions, ((logicalGroups_perm partitions count).flatMap_right Prod.snd).nodup_iff,
    List.flatMap_map, List.nodup_flatMap]
  constructor
  · intro logicalId _
    exact nodup_sortedDistinct _
  · have distinct : (sortedDistinct (· ≤ ·) (partitions.map (· % count))).Nodup :=
      nodup_sortedDistinct _
    refine distinct.imp ?_
    intro first second differ partition inFirst inSecond
    have isFirst := (mem_logicalGroup.mp inFirst).2
    have isSecond := (mem_logicalGroup.mp inSecond).2
    exact differ (isFirst.symm.trans isSecond)

theorem groupedPartitions_perm (partitions : List VirtualPartitionId) (count : Nat) :
    (groupedPartitions (logicalGroups partitions count)).Perm
      (sortedDistinct (· ≤ ·) partitions) := by
  refine (List.perm_ext_iff_of_nodup (nodup_groupedPartitions partitions count)
    (nodup_sortedDistinct _)).mpr ?_
  intro partition
  rw [mem_groupedPartitions, mem_sortedDistinct]

/-! ### Capacities -/

def offered (owners : List String) (slots : String → Nat) : Capacities := fun owner =>
  if owner ∈ owners then some (slots owner) else none

theorem foldlM_addSlot {owners chosen : List String} (slots : String → Nat) (distinct : chosen.Nodup)
    (inside : ∀ owner ∈ chosen, owner ∈ owners) :
    chosen.foldlM addSlot (offered owners slots)
      = some (offered owners fun owner => slots owner + if owner ∈ chosen then 1 else 0) := by
  induction chosen generalizing slots with
  | nil => simp
  | cons first rest ih =>
    obtain ⟨fresh, distinctRest⟩ := List.nodup_cons.mp distinct
    have known : offered owners slots first = some (slots first) :=
      if_pos (inside first List.mem_cons_self)
    have added : addSlot (offered owners slots) first
        = some (offered owners (Function.update slots first (slots first + 1))) := by
      rw [addSlot, known, Option.map_some, Option.some.injEq]
      funext owner
      by_cases same : owner = first
      · subst same
        rw [Function.update_self, offered, if_pos (inside owner List.mem_cons_self),
          Function.update_self]
      · rw [Function.update_of_ne same, offered, offered, Function.update_of_ne same]
    rw [List.foldlM_cons, added, Option.bind_eq_bind, Option.bind_some,
      ih _ distinctRest fun owner member => inside owner (List.mem_cons_of_mem first member)]
    congr 2
    funext owner
    by_cases same : owner = first
    · subst same
      simp [fresh]
    · simp [same]

section Quotas

variable (owners : List String) (inventory : List VirtualPartitionId)
variable (previous : AssignmentMap) (residualPreference : Option (String → Option Nat))

def ceilingOwners : List String :=
  (residualOwners owners residualPreference (ownerLoad inventory previous)).take
    (inventory.length % owners.length)

def quota : String → Nat :=
  share inventory.length owners.length
    (ceilingOwners owners inventory previous residualPreference).toFinset

variable {owners inventory previous residualPreference} {owner : String}

theorem ceilingOwners_subset
    (chosen : owner ∈ ceilingOwners owners inventory previous residualPreference) :
    owner ∈ owners :=
  (List.perm_insertionSort _ _).mem_iff.mp (List.mem_of_mem_take chosen)

theorem nodup_ceilingOwners (distinct : owners.Nodup) :
    (ceilingOwners owners inventory previous residualPreference).Nodup :=
  ((List.perm_insertionSort _ _).nodup_iff.mpr distinct).sublist (List.take_sublist _ _)

theorem length_ceilingOwners (some_owner : owners ≠ []) :
    (ceilingOwners owners inventory previous residualPreference).length
      = inventory.length % owners.length := by
  rw [ceilingOwners, residualOwners, List.length_take, List.length_insertionSort]
  exact Nat.min_eq_left (Nat.mod_lt _ (List.length_pos_of_ne_nil some_owner)).le

theorem quota_perm {left right : List VirtualPartitionId} (perm : left.Perm right) :
    quota owners left previous residualPreference
      = quota owners right previous residualPreference := by
  have sameLoad : ownerLoad left previous = ownerLoad right previous := by
    funext owner
    exact perm.countP_eq _
  rw [quota, quota, ceilingOwners, ceilingOwners, sameLoad, perm.length_eq]

theorem sum_quota (distinct : owners.Nodup) (some_owner : owners ≠ []) :
    ∑ owner ∈ owners.toFinset, quota owners inventory previous residualPreference owner
      = inventory.length := by
  have size : owners.toFinset.card = owners.length := List.toFinset_card_of_nodup distinct
  rw [quota, ← size]
  apply sum_share
  · intro owner member
    exact List.mem_toFinset.mpr (ceilingOwners_subset (List.mem_toFinset.mp member))
  · rw [List.toFinset_card_of_nodup (nodup_ceilingOwners distinct),
      length_ceilingOwners some_owner, size]

theorem colocatedInputs_eq (distinct : owners.Nodup) (some_owner : owners ≠ [])
    (some_partition : partitions ≠ []) (positive : 0 < count) :
    colocatedInputs owners partitions previous count residualPreference
      = some (logicalGroups partitions count, offered owners (quota owners
          (groupedPartitions (logicalGroups partitions count)) previous residualPreference)) := by
  have total : ((logicalGroups partitions count).map fun group => group.2.length).sum
      = (groupedPartitions (logicalGroups partitions count)).length := by
    rw [groupedPartitions, List.length_flatMap]
  set inventory := groupedPartitions (logicalGroups partitions count)
  have chosen : (ceilingOwners owners inventory previous residualPreference).Nodup :=
    nodup_ceilingOwners distinct
  have slots := foldlM_addSlot (fun _ => inventory.length / owners.length) chosen fun _ =>
    ceilingOwners_subset
  have notEmpty : (owners.isEmpty || partitions.isEmpty) = false := by
    simp [some_owner, some_partition]
  rw [colocatedInputs, if_neg (by simp [notEmpty]), if_neg positive.ne']
  simp only [total]
  rw [ceilingOwners] at slots
  have average : (fun owner => if owner ∈ owners then some (inventory.length / owners.length)
      else none) = offered owners fun _ => inventory.length / owners.length := rfl
  have rounded : quota owners inventory previous residualPreference = fun owner =>
      inventory.length / owners.length
        + if owner ∈ ceilingOwners owners inventory previous residualPreference then 1 else 0 := by
    funext owner
    simp only [quota, share, List.mem_toFinset]
  rw [average, slots, Option.bind_eq_bind, Option.bind_some, rounded, ceilingOwners]
  rfl

end Quotas

variable {owners : List String} {slots : String → Nat} {inventory : List VirtualPartitionId}
variable {owner : String}

/-! ### Placing one partition -/

section Placing

/-- The slots that are left are the capacities without the loads so far. -/
structure Placed (owners : List String) (slots : String → Nat)
    (inventory : List VirtualPartitionId) (placement : Placement) : Prop where
  remaining : placement.capacity
    = offered owners fun owner => slots owner - ownerLoad inventory placement.assignment owner
  within : ∀ owner ∈ owners, ownerLoad inventory placement.assignment owner ≤ slots owner
  inside : ∀ partition owner, placement.assignment partition = some owner →
    partition ∈ inventory ∧ owner ∈ owners

variable {partition : VirtualPartitionId} {placement : Placement}
variable {assignment : AssignmentMap}

theorem ownerLoad_update (distinct : inventory.Nodup) (member : partition ∈ inventory)
    (unassigned : assignment partition = none) (owner other : String) :
    ownerLoad inventory (Function.update assignment partition (some owner)) other
      = ownerLoad inventory assignment other + if other = owner then 1 else 0 := by
  obtain ⟨before, after, rfl⟩ := List.append_of_mem member
  obtain ⟨-, distinctAfter, apart⟩ := List.nodup_append.mp distinct
  have notBefore : ∀ item ∈ before, item ≠ partition := fun item inBefore =>
    apart item inBefore partition List.mem_cons_self
  have notAfter : ∀ item ∈ after, item ≠ partition := by
    rintro item inAfter rfl
    exact (List.nodup_cons.mp distinctAfter).1 inAfter
  have same : ∀ items : List VirtualPartitionId, (∀ item ∈ items, item ≠ partition) →
      items.countP (Function.update assignment partition (some owner) · = some other)
        = items.countP (assignment · = some other) := by
    intro items others
    apply List.countP_congr
    intro item inItems
    rw [Function.update_of_ne (others item inItems)]
  have head : decide (some owner = some other) = decide (other = owner) := by
    simp only [Option.some.injEq, eq_comm]
  simp only [ownerLoad, List.countP_append, List.countP_cons, same before notBefore,
    same after notAfter, Function.update_self, unassigned, reduceCtorEq, decide_false, head,
    decide_eq_true_eq, Bool.false_eq_true, if_false, Nat.add_zero, Nat.add_assoc]

theorem Placed.take (placed : Placed owners slots inventory placement)
    (distinct : inventory.Nodup) (member : partition ∈ inventory)
    (unassigned : placement.assignment partition = none) (isOwner : owner ∈ owners)
    (free : ownerLoad inventory placement.assignment owner < slots owner) :
    ∃ next, placement.take partition owner = some next
      ∧ next.assignment = Function.update placement.assignment partition (some owner)
      ∧ Placed owners slots inventory next := by
  have loads := ownerLoad_update distinct member unassigned owner
  obtain ⟨left, isLeft⟩ : ∃ left, slots owner - ownerLoad inventory placement.assignment owner
      = left + 1 := ⟨_, (Nat.sub_add_cancel (Nat.sub_pos_of_lt free)).symm⟩
  have available : placement.capacity owner = some (left + 1) := by
    rw [placed.remaining, offered, if_pos isOwner, isLeft]
  refine ⟨_, by rw [Placement.take, available], rfl, ?_, ?_, ?_⟩
  · funext other
    by_cases same : other = owner
    · subst same
      have load := loads other
      rw [if_pos rfl] at load
      simp only [Function.update_self, offered, if_pos isOwner, load]
      congr 1
      omega
    · have load := loads other
      rw [if_neg same] at load
      simp only [Function.update_of_ne same, offered, load, placed.remaining, Nat.add_zero]
  · intro other isOther
    have low := placed.within other isOther
    simp only [loads]
    split
    · next same =>
      subst same
      exact free
    · exact low
  · intro item holder
    by_cases same : item = partition
    · subst same
      simp only [Function.update_self, Option.some.injEq]
      rintro rfl
      exact ⟨member, isOwner⟩
    · simp only [Function.update_of_ne same]
      exact placed.inside item holder

theorem Placed.take_eq_none (placed : Placed owners slots inventory placement)
    (refused : ¬ (owner ∈ owners ∧ ownerLoad inventory placement.assignment owner < slots owner)) :
    placement.take partition owner = none := by
  by_cases isOwner : owner ∈ owners
  · have full : slots owner - ownerLoad inventory placement.assignment owner = 0 := by
      have busy : ¬ ownerLoad inventory placement.assignment owner < slots owner := fun free =>
        refused ⟨isOwner, free⟩
      omega
    rw [Placement.take, placed.remaining, offered, if_pos isOwner, full]
  · rw [Placement.take, placed.remaining, offered, if_neg isOwner]

/-! ### The pass over the survivors -/

/-- After the partitions `done`, every owner holds the smaller of its capacity and what it owned. -/
structure Reserved (owners : List String) (slots : String → Nat)
    (inventory : List VirtualPartitionId) (previous : AssignmentMap)
    (done : List VirtualPartitionId) (placement : Placement) : Prop where
  placed : Placed owners slots inventory placement
  loads : ∀ owner ∈ owners, ownerLoad inventory placement.assignment owner
    = min (slots owner) (ownerLoad done previous owner)
  survivors : ∀ partition owner, placement.assignment partition = some owner →
    partition ∈ done ∧ previous partition = some owner

theorem ownerLoad_append_singleton (done : List VirtualPartitionId) (previous : AssignmentMap)
    (partition : VirtualPartitionId) (owner : String) :
    ownerLoad (done ++ [partition]) previous owner
      = ownerLoad done previous owner + if previous partition = some owner then 1 else 0 := by
  simp only [ownerLoad, List.countP_append, List.countP_singleton, decide_eq_true_eq]

theorem Reserved.retain {previous : AssignmentMap} {done : List VirtualPartitionId}
    (reserved : Reserved owners slots inventory previous done placement)
    (distinct : inventory.Nodup) (member : partition ∈ inventory) (fresh : partition ∉ done) :
    Reserved owners slots inventory previous (done ++ [partition])
      (placement.retain previous partition) := by
  have wider : ∀ item holder, placement.assignment item = some holder →
      item ∈ done ++ [partition] ∧ previous item = some holder := by
    intro item holder held
    obtain ⟨before, owned⟩ := reserved.survivors item holder held
    exact ⟨List.mem_append_left _ before, owned⟩
  have unassigned : placement.assignment partition = none := by
    cases held : placement.assignment partition with
    | none => rfl
    | some holder => exact absurd (reserved.survivors partition holder held).1 fresh
  cases owned : previous partition with
  | none =>
    -- A new partition reserves nothing.
    have skipped : placement.retain previous partition = placement := by
      rw [Placement.retain, owned]
      rfl
    rw [skipped]
    refine ⟨reserved.placed, ?_, wider⟩
    intro owner isOwner
    rw [ownerLoad_append_singleton, owned, if_neg (by simp), Nat.add_zero]
    exact reserved.loads owner isOwner
  | some owner =>
    by_cases free : owner ∈ owners ∧ ownerLoad inventory placement.assignment owner < slots owner
    · obtain ⟨next, taken, entries, placed⟩ :=
        reserved.placed.take distinct member unassigned free.1 free.2
      have kept : placement.retain previous partition = next := by
        rw [Placement.retain, owned, Option.bind_some, taken, Option.getD_some]
      rw [kept]
      refine ⟨placed, ?_, ?_⟩
      · intro other isOther
        rw [entries, ownerLoad_update distinct member unassigned, ownerLoad_append_singleton, owned]
        have load := reserved.loads other isOther
        by_cases same : other = owner
        · subst same
          rw [if_pos rfl, if_pos rfl]
          have room := free.2
          omega
        · rw [if_neg same, if_neg (by simpa using Ne.symm same)]
          omega
      · intro item holder held
        rw [entries] at held
        by_cases same : item = partition
        · subst same
          rw [Function.update_self] at held
          exact ⟨by simp, owned.trans held⟩
        · rw [Function.update_of_ne same] at held
          exact wider item holder held
    · -- The previous owner has left, or it has no slot for this one.
      have skipped : placement.retain previous partition = placement := by
        rw [Placement.retain, owned, Option.bind_some, reserved.placed.take_eq_none free,
          Option.getD_none]
      rw [skipped]
      refine ⟨reserved.placed, ?_, wider⟩
      intro other isOther
      rw [ownerLoad_append_singleton, owned]
      have load := reserved.loads other isOther
      by_cases same : other = owner
      · subst same
        have full : ¬ ownerLoad inventory placement.assignment other < slots other := fun room =>
          free ⟨isOther, room⟩
        rw [if_pos rfl]
        omega
      · rw [if_neg (by simpa using Ne.symm same), Nat.add_zero]
        exact load

theorem reserved_foldl (previous : AssignmentMap) (distinct : inventory.Nodup) :
    Reserved owners slots inventory previous inventory
      (inventory.foldl (Placement.retain previous) ⟨fun _ => none, offered owners slots⟩) := by
  have none_loaded : ∀ owner, ownerLoad inventory (fun _ => none) owner = 0 := by
    intro owner
    simp [ownerLoad]
  have start : Reserved owners slots inventory previous [] ⟨fun _ => none, offered owners slots⟩ := by
    refine ⟨⟨?_, ?_, ?_⟩, ?_, ?_⟩
    · simp only [none_loaded, Nat.sub_zero]
    · simp only [none_loaded, Nat.zero_le, implies_true]
    · simp
    · simp only [none_loaded]
      simp [ownerLoad]
    · simp
  obtain ⟨done, split, reserved⟩ := Loop.foldl_invariant
    (fun rest placement => ∃ done, inventory = done ++ rest
      ∧ Reserved owners slots inventory previous done placement)
    (fun partition rest placement ⟨done, split, reserved⟩ => by
      have fresh : partition ∉ done := by
        rw [split] at distinct
        exact fun earlier => (List.nodup_append.mp distinct).2.2 partition earlier partition
          List.mem_cons_self rfl
      have member : partition ∈ inventory := by
        rw [split]
        exact List.mem_append_right done List.mem_cons_self
      exact ⟨done ++ [partition], by rw [split, List.append_assoc, List.singleton_append],
        reserved.retain distinct member fresh⟩)
    ⟨[], rfl, start⟩
  rw [List.append_nil] at split
  exact split ▸ reserved

/-! ### The pass over the gaps -/

/-- While a partition has no owner, some owner has a free slot. -/
theorem Placed.exists_free (placed : Placed owners slots inventory placement)
    (covered : ∑ owner ∈ owners.toFinset, slots owner = inventory.length)
    (member : partition ∈ inventory) (unassigned : placement.assignment partition = none) :
    ∃ owner ∈ owners, ownerLoad inventory placement.assignment owner < slots owner := by
  by_contra full
  have assigned : inventory.countP (fun item => (placement.assignment item).isSome)
      = inventory.length := by
    have counted : ∑ owner ∈ owners.toFinset, ownerLoad inventory placement.assignment owner
        = inventory.countP fun item => (placement.assignment item).isSome := by
      apply sum_countP
      intro item _ owner held
      exact List.mem_toFinset.mpr (placed.inside item owner held).2
    rw [← counted, ← covered]
    refine Finset.sum_congr rfl ?_
    intro owner isOwner
    have isOwner := List.mem_toFinset.mp isOwner
    refine le_antisymm (placed.within owner isOwner) ?_
    exact Nat.le_of_not_lt fun room => full ⟨owner, isOwner, room⟩
  have held := List.countP_eq_length.mp assigned partition member
  rw [unassigned] at held
  exact Bool.false_ne_true held

theorem Placed.largestRemaining (placed : Placed owners slots inventory placement)
    (room : ∃ owner ∈ owners, ownerLoad inventory placement.assignment owner < slots owner) :
    ∃ owner, largestRemaining owners placement = some owner ∧ owner ∈ owners
      ∧ ownerLoad inventory placement.assignment owner < slots owner := by
  obtain ⟨free, isFree, below⟩ := room
  have remaining : (owners.mapM fun owner => (placement.capacity owner).map (owner, ·))
      = some (owners.map fun owner =>
        (owner, slots owner - ownerLoad inventory placement.assignment owner)) := by
    apply Loop.mapM_total
    intro owner isOwner
    rw [placed.remaining, offered, if_pos isOwner, Option.map_some]
  have candidate : (free, slots free - ownerLoad inventory placement.assignment free)
      ∈ (owners.map fun owner =>
        (owner, slots owner - ownerLoad inventory placement.assignment owner)).filter fun entry =>
          0 < entry.2 :=
    List.mem_filter.mpr ⟨List.mem_map_of_mem isFree, decide_eq_true (Nat.sub_pos_of_lt below)⟩
  rw [Sticky.largestRemaining, remaining, Option.bind_eq_bind, Option.bind_some]
  cases chosen : List.argmin (fun entry : String × Nat =>
      (toLex (OrderDual.toDual entry.2, entry.1) : ℕᵒᵈ ×ₗ String)) _ with
  | none => exact absurd (List.argmin_eq_none.mp chosen) (List.ne_nil_of_mem candidate)
  | some entry =>
    obtain ⟨inEntries, positive⟩ := List.mem_filter.mp (List.argmin_mem chosen)
    obtain ⟨owner, isOwner, rfl⟩ := List.mem_map.mp inEntries
    exact ⟨owner, rfl, isOwner, Nat.lt_of_sub_pos (of_decide_eq_true positive)⟩

/-- Entries of `before` are entries of `after`. -/
def Extends (before after : AssignmentMap) : Prop :=
  ∀ partition owner, before partition = some owner → after partition = some owner

theorem extends_update (unassigned : assignment partition = none) (owner : String) :
    Extends assignment (Function.update assignment partition (some owner)) := by
  intro item holder held
  have other : item ≠ partition := by
    rintro rfl
    exact absurd (unassigned.symm.trans held) (by simp)
  rwa [Function.update_of_ne other]

/-- The gaps `missing` are still open, and the owner of a whole group has slots for all of them. -/
structure Filling (owners : List String) (slots : String → Nat)
    (inventory : List VirtualPartitionId) (before : AssignmentMap) (group : List VirtualPartitionId)
    (wholeOwner : Option String) (missing : List VirtualPartitionId) (placement : Placement) :
    Prop where
  placed : Placed owners slots inventory placement
  kept : Extends before placement.assignment
  distinct : missing.Nodup
  isOpen : ∀ partition ∈ missing, partition ∈ inventory ∧ placement.assignment partition = none
  filled : ∀ partition ∈ group, partition ∉ missing → placement.assignment partition ≠ none
  fits : ∀ owner, wholeOwner = some owner → owner ∈ owners
    ∧ ownerLoad inventory placement.assignment owner + missing.length ≤ slots owner

theorem Filling.turn (covered : ∑ owner ∈ owners.toFinset, slots owner = inventory.length)
    (distinct : inventory.Nodup) {before : AssignmentMap} {group : List VirtualPartitionId}
    {wholeOwner : Option String} {missing : List VirtualPartitionId}
    (filling : Filling owners slots inventory before group wholeOwner
      (partition :: missing) placement) :
    ∃ next, fillPartition owners wholeOwner placement partition = some next
      ∧ Filling owners slots inventory before group wholeOwner missing next := by
  obtain ⟨member, unassigned⟩ := filling.isOpen partition List.mem_cons_self
  obtain ⟨fresh, distinctRest⟩ := List.nodup_cons.mp filling.distinct
  -- The whole owner has a slot by the count of gaps, any other one because slots are left at all.
  obtain ⟨owner, chosen, isOwner, free⟩ : ∃ owner,
      wholeOwner.or (largestRemaining owners placement) = some owner
      ∧ owner ∈ owners ∧ ownerLoad inventory placement.assignment owner < slots owner := by
    cases whole : wholeOwner with
    | none =>
      rw [Option.none_or]
      exact filling.placed.largestRemaining (filling.placed.exists_free covered member unassigned)
    | some owner =>
      obtain ⟨isOwner, room⟩ := filling.fits owner whole
      rw [List.length_cons] at room
      exact ⟨owner, rfl, isOwner, by omega⟩
  obtain ⟨next, taken, entries, placed⟩ :=
    filling.placed.take distinct member unassigned isOwner free
  have later := extends_update unassigned owner
  refine ⟨next, ?_, placed, ?_, distinctRest, ?_, ?_, ?_⟩
  · rw [fillPartition, chosen]
    exact taken
  · rw [entries]
    exact fun item holder held => later item holder (filling.kept item holder held)
  · intro item inMissing
    obtain ⟨inInventory, stillOpen⟩ := filling.isOpen item (List.mem_cons_of_mem _ inMissing)
    refine ⟨inInventory, ?_⟩
    rw [entries, Function.update_of_ne]
    · exact stillOpen
    · rintro rfl
      exact fresh inMissing
  · intro item inGroup notMissing
    rw [entries]
    by_cases same : item = partition
    · subst same
      simp
    · rw [Function.update_of_ne same]
      exact filling.filled item inGroup fun inList =>
        (List.mem_cons.mp inList).elim same notMissing
  · intro whole isWhole
    obtain ⟨wholeIsOwner, room⟩ := filling.fits whole isWhole
    refine ⟨wholeIsOwner, ?_⟩
    rw [entries, ownerLoad_update distinct member unassigned]
    rw [List.length_cons] at room
    split <;> omega

/-- One group: its gaps are closed, and nothing that was placed moves. -/
theorem Placed.fillGroup (placed : Placed owners slots inventory placement)
    (covered : ∑ owner ∈ owners.toFinset, slots owner = inventory.length)
    (distinct : inventory.Nodup) {group : Nat × List VirtualPartitionId}
    (distinctGroup : group.2.Nodup) (inside : ∀ partition ∈ group.2, partition ∈ inventory) :
    ∃ next, fillGroup owners placement group = some next ∧ Placed owners slots inventory next
      ∧ Extends placement.assignment next.assignment
      ∧ ∀ partition ∈ group.2, next.assignment partition ≠ none := by
  let missing := group.2.filter fun partition => (placement.assignment partition).isNone
  have tested : ∀ owner ∈ owners, ∃ answer,
      fitsWhole placement group.2 missing owner = some answer := by
    intro owner isOwner
    rw [fitsWhole, placed.remaining, offered, if_pos isOwner]
    exact ⟨_, rfl⟩
  obtain ⟨wholeOwner, found, fits⟩ := Loop.findM?_total tested
  have start : Filling owners slots inventory placement.assignment group.2 wholeOwner missing
      placement := by
    refine ⟨placed, fun _ _ held => held, distinctGroup.sublist List.filter_sublist, ?_, ?_, ?_⟩
    · intro partition inMissing
      obtain ⟨inGroup, isNone⟩ := List.mem_filter.mp inMissing
      exact ⟨inside partition inGroup, Option.isNone_iff_eq_none.mp isNone⟩
    · intro partition inGroup notMissing isNone
      exact notMissing (List.mem_filter.mpr ⟨inGroup, Option.isNone_iff_eq_none.mpr isNone⟩)
    · intro owner isWhole
      obtain ⟨isOwner, passed⟩ := fits owner isWhole
      refine ⟨isOwner, ?_⟩
      rw [fitsWhole, placed.remaining, offered, if_pos isOwner, Option.map_some,
        Option.some.injEq, Bool.and_eq_true, decide_eq_true_eq] at passed
      have low := placed.within owner isOwner
      have room := passed.1
      omega
  obtain ⟨next, computed, filling⟩ := Loop.foldlM_invariant
    (Filling owners slots inventory placement.assignment group.2 wholeOwner)
    (fun _ _ _ filling => filling.turn covered distinct) start
  refine ⟨next, ?_, filling.placed, filling.kept, ?_⟩
  · rw [Sticky.fillGroup, found]
    exact computed
  · intro partition inGroup
    exact filling.filled partition inGroup List.not_mem_nil

/-- The pass over all groups closes every gap. -/
theorem Placed.fillGroups {groups : LogicalGroups}
    (placed : Placed owners slots (groupedPartitions groups) placement)
    (covered : ∑ owner ∈ owners.toFinset, slots owner = (groupedPartitions groups).length)
    (distinct : (groupedPartitions groups).Nodup) :
    ∃ result, groups.foldlM (Sticky.fillGroup owners) placement = some result
      ∧ Placed owners slots (groupedPartitions groups) result
      ∧ Extends placement.assignment result.assignment
      ∧ ∀ partition ∈ groupedPartitions groups, result.assignment partition ≠ none := by
  obtain ⟨distinctGroups, -⟩ := List.nodup_flatMap.mp distinct
  obtain ⟨result, computed, -, final, kept, closed⟩ := Loop.foldlM_invariant
    (fun rest state => (∀ group ∈ rest, group ∈ groups)
      ∧ Placed owners slots (groupedPartitions groups) state
      ∧ Extends placement.assignment state.assignment
      ∧ ∀ partition ∈ groupedPartitions groups, partition ∉ groupedPartitions rest →
          state.assignment partition ≠ none)
    (fun group rest state ⟨listed, current, kept, closed⟩ => by
      have isGroup := listed group List.mem_cons_self
      obtain ⟨next, stepped, nextPlaced, wider, filled⟩ := current.fillGroup covered distinct
        (distinctGroups group isGroup)
        (fun partition inGroup => List.mem_flatMap.mpr ⟨group, isGroup, inGroup⟩)
      refine ⟨next, stepped, fun other inRest => listed other (List.mem_cons_of_mem group inRest),
        nextPlaced, fun item holder held => wider item holder (kept item holder held), ?_⟩
      intro partition member notLater isNone
      by_cases inGroup : partition ∈ group.2
      · exact filled partition inGroup isNone
      · have earlier : partition ∉ groupedPartitions (group :: rest) := by
          rw [groupedPartitions, List.flatMap_cons, List.mem_append]
          exact fun either => either.elim inGroup notLater
        obtain ⟨holder, held⟩ := Option.ne_none_iff_exists'.mp (closed partition member earlier)
        exact absurd (isNone.symm.trans (wider partition holder held)) (by simp))
    ⟨fun _ member => member, placed, fun _ _ held => held, fun _ member notIn => absurd member notIn⟩
  exact ⟨result, computed, final, kept, fun partition member => closed partition member
    List.not_mem_nil⟩

end Placing

/-! ### A complete layer -/

section Layer

variable {previous assignment : AssignmentMap}

def retained (previous assignment : AssignmentMap) : AssignmentMap := fun partition =>
  if assignment partition = previous partition then assignment partition else none

theorem retained_eq_some {partition : VirtualPartitionId} :
    retained previous assignment partition = some owner
      ↔ assignment partition = some owner ∧ previous partition = some owner := by
  rw [retained]
  split
  · next same =>
    rw [← same, and_self]
  · next differ =>
    simp only [reduceCtorEq, false_iff]
    rintro ⟨now, before⟩
    exact differ (now.trans before.symm)

/-- Partitions of the inventory that had an owner and get another one. -/
def movedSurvivors (inventory : List VirtualPartitionId) (previous assignment : AssignmentMap) : Nat :=
  inventory.countP fun partition =>
    (previous partition).isSome && assignment partition ≠ previous partition

/-- A complete layer with the given capacities that keeps what it can. -/
structure StickyLayer (owners : List String) (slots : String → Nat)
    (inventory : List VirtualPartitionId) (previous assignment : AssignmentMap) : Prop where
  complete : ∀ partition ∈ inventory, ∃ owner ∈ owners, assignment partition = some owner
  inside : ∀ partition owner, assignment partition = some owner → partition ∈ inventory
  loads : ∀ owner ∈ owners, ownerLoad inventory assignment owner = slots owner
  kept : ∀ owner ∈ owners, ownerLoad inventory (retained previous assignment) owner
    = min (slots owner) (ownerLoad inventory previous owner)

theorem StickyLayer.perm {other : List VirtualPartitionId} (perm : inventory.Perm other)
    (layer : StickyLayer owners slots inventory previous assignment) :
    StickyLayer owners slots other previous assignment := by
  have sameLoad : ∀ map, ownerLoad other map = ownerLoad inventory map := fun map =>
    funext fun owner => (perm.countP_eq _).symm
  refine ⟨?_, ?_, ?_, ?_⟩
  · exact fun partition member => layer.complete partition (perm.mem_iff.mpr member)
  · exact fun partition owner held => perm.mem_iff.mp (layer.inside partition owner held)
  · simpa only [sameLoad] using layer.loads
  · simpa only [sameLoad] using layer.kept

theorem ownerLoad_le_of_imp {left right : AssignmentMap}
    (wider : ∀ partition, left partition = some owner → right partition = some owner) :
    ownerLoad inventory left owner ≤ ownerLoad inventory right owner := by
  apply List.countP_mono_left
  intro partition _ held
  exact decide_eq_true (wider partition (of_decide_eq_true held))

theorem retainedColocatedCandidate_spec {groups : LogicalGroups} (previous : AssignmentMap)
    (covered : ∑ owner ∈ owners.toFinset, slots owner = (groupedPartitions groups).length)
    (distinct : (groupedPartitions groups).Nodup) :
    ∃ assignment, retainedColocatedCandidate owners groups previous (offered owners slots)
        = some assignment
      ∧ StickyLayer owners slots (groupedPartitions groups) previous assignment := by
  have reserved : Reserved owners slots (groupedPartitions groups) previous _ _ :=
    reserved_foldl previous distinct
  obtain ⟨result, computed, placed, kept, closed⟩ := reserved.placed.fillGroups covered distinct
  refine ⟨result.assignment, ?_, ?_, ?_, ?_, ?_⟩
  · rw [retainedColocatedCandidate, computed]
    rfl
  · intro partition member
    obtain ⟨owner, held⟩ := Option.ne_none_iff_exists'.mp (closed partition member)
    exact ⟨owner, (placed.inside partition owner held).2, held⟩
  · exact fun partition owner held => (placed.inside partition owner held).1
  · -- Loads stay within the capacities and both sum up to the inventory.
    have total : ∑ owner ∈ owners.toFinset,
        ownerLoad (groupedPartitions groups) result.assignment owner
          = ∑ owner ∈ owners.toFinset, slots owner := by
      have counted : ∑ owner ∈ owners.toFinset,
          ownerLoad (groupedPartitions groups) result.assignment owner
            = (groupedPartitions groups).countP fun item => (result.assignment item).isSome :=
        sum_countP fun partition _ owner held =>
          List.mem_toFinset.mpr (placed.inside partition owner held).2
      have all : (groupedPartitions groups).countP (fun item => (result.assignment item).isSome)
          = (groupedPartitions groups).length := by
        rw [List.countP_eq_length]
        exact fun partition member => Option.isSome_iff_ne_none.mpr (closed partition member)
      rw [covered, ← all, counted]
    intro owner isOwner
    exact (Finset.sum_eq_sum_iff_of_le fun owner isOwner =>
      placed.within owner (List.mem_toFinset.mp isOwner)).mp total owner
        (List.mem_toFinset.mpr isOwner)
  · intro owner isOwner
    -- What was reserved is kept, and no more could be.
    have atLeast : ownerLoad (groupedPartitions groups) _ owner
        ≤ ownerLoad (groupedPartitions groups) (retained previous result.assignment) owner :=
      ownerLoad_le_of_imp fun partition held => retained_eq_some.mpr
        ⟨kept partition owner held, (reserved.survivors partition owner held).2⟩
    have withinLoad : ownerLoad (groupedPartitions groups) (retained previous result.assignment) owner
        ≤ ownerLoad (groupedPartitions groups) result.assignment owner :=
      ownerLoad_le_of_imp fun partition held => (retained_eq_some.mp held).1
    have withinPrevious :
        ownerLoad (groupedPartitions groups) (retained previous result.assignment) owner
          ≤ ownerLoad (groupedPartitions groups) previous owner :=
      ownerLoad_le_of_imp fun partition held => (retained_eq_some.mp held).2
    have load := reserved.loads owner isOwner
    have bound := placed.within owner isOwner
    omega

theorem assignStickyGroups_spec (partitions : List VirtualPartitionId) {count : Nat}
    (distinct : owners.Nodup) (some_owner : owners ≠ []) (positive : 0 < count)
    (previous : AssignmentMap) (residualPreference : Option (String → Option Nat)) :
    ∃ assignment,
      assignStickyGroups owners partitions previous count residualPreference = some assignment
      ∧ StickyLayer owners
          (quota owners (sortedDistinct (· ≤ ·) partitions) previous residualPreference)
          (sortedDistinct (· ≤ ·) partitions) previous assignment := by
  by_cases none_left : partitions = []
  · subst none_left
    refine ⟨fun _ => none, by simp [assignStickyGroups], ?_, ?_, ?_, ?_⟩ <;>
      simp [sortedDistinct, ownerLoad, quota, share, ceilingOwners]
  · have perm := groupedPartitions_perm partitions count
    obtain ⟨assignment, computed, layer⟩ := retainedColocatedCandidate_spec previous
      (sum_quota distinct some_owner)
      (nodup_groupedPartitions partitions count)
    have notEmpty : (owners.isEmpty || partitions.isEmpty) = false := by
      simp [some_owner, none_left]
    refine ⟨assignment, ?_, ?_⟩
    · rw [assignStickyGroups, if_neg (by simp [notEmpty]),
        colocatedInputs_eq distinct some_owner none_left positive]
      exact computed
    · rw [← quota_perm perm]
      exact layer.perm perm

theorem movedSurvivors_add_retained (inventory : List VirtualPartitionId)
    (previous assignment : AssignmentMap) :
    movedSurvivors inventory previous assignment
        + inventory.countP (fun partition => (retained previous assignment partition).isSome)
      = inventory.countP fun partition => (previous partition).isSome := by
  induction inventory with
  | nil => rfl
  | cons partition rest ih =>
    simp only [movedSurvivors, List.countP_cons] at ih ⊢
    have head : (if ((previous partition).isSome
          && decide (assignment partition ≠ previous partition)) = true then 1 else 0)
        + (if (retained previous assignment partition).isSome = true then 1 else 0)
        = if (previous partition).isSome = true then 1 else 0 := by
      rw [retained]
      by_cases same : assignment partition = previous partition
      · simp [same]
      · simp [same]
    omega

/-- With the same capacities, an assignment that keeps more for every owner moves fewer survivors. -/
theorem movedSurvivors_le {other : AssignmentMap} (some_owners : ∀ partition ∈ inventory,
      ∃ owner ∈ owners, assignment partition = some owner)
    (otherOwners : ∀ partition ∈ inventory, ∃ owner ∈ owners, other partition = some owner)
    (more : ∀ owner ∈ owners, ownerLoad inventory (retained previous other) owner
      ≤ ownerLoad inventory (retained previous assignment) owner) :
    movedSurvivors inventory previous assignment ≤ movedSurvivors inventory previous other := by
  have total : ∀ map : AssignmentMap,
      (∀ partition ∈ inventory, ∃ owner ∈ owners, map partition = some owner) →
      ∑ owner ∈ owners.toFinset, ownerLoad inventory (retained previous map) owner
        = inventory.countP fun partition => (retained previous map partition).isSome := by
    intro map owned
    apply sum_countP
    intro partition member owner held
    obtain ⟨holder, isOwner, isHeld⟩ := owned partition member
    have same := (retained_eq_some.mp held).1
    rw [isHeld, Option.some.injEq] at same
    exact List.mem_toFinset.mpr (same ▸ isOwner)
  have sums : inventory.countP (fun partition => (retained previous other partition).isSome)
      ≤ inventory.countP fun partition => (retained previous assignment partition).isSome := by
    rw [← total other otherOwners, ← total assignment some_owners]
    exact Finset.sum_le_sum fun owner isOwner => more owner (List.mem_toFinset.mp isOwner)
  have now := movedSurvivors_add_retained inventory previous assignment
  have instead := movedSurvivors_add_retained inventory previous other
  omega

end Layer

/-- A layer meets its capacities exactly and keeps as much as they allow. -/
theorem assignStickyGroups_retains (owners : List String) (partitions : List VirtualPartitionId)
    (previous : AssignmentMap) (logicalPartitionCount : Nat)
    (residualPreference : Option (String → Option Nat)) (canonical : owners.Nodup)
    (positive : 0 < logicalPartitionCount) :
    let inventory := sortedDistinct (· ≤ ·) partitions
    ∃ assignment,
      assignStickyGroups owners partitions previous logicalPartitionCount residualPreference
          = some assignment
      ∧ (owners ≠ [] →
          (∀ partition ∈ partitions, ∃ owner ∈ owners, assignment partition = some owner)
          ∧ ∃ ceilings : List String, ceilings.Nodup ∧ (∀ owner ∈ ceilings, owner ∈ owners)
            ∧ ceilings.length = inventory.length % owners.length
            ∧ ∀ owner ∈ owners, ownerLoad inventory assignment owner
                = inventory.length / owners.length + if owner ∈ ceilings then 1 else 0)
      ∧ (owners ≠ [] → partitions ≠ [] → ∃ groups capacity,
          colocatedInputs owners partitions previous logicalPartitionCount residualPreference
            = some (groups, capacity)
          ∧ ∀ owner ∈ owners, capacity owner = some (ownerLoad inventory assignment owner))
      ∧ (∀ owner ∈ owners, ownerLoad inventory (retained previous assignment) owner
          = min (ownerLoad inventory assignment owner) (ownerLoad inventory previous owner))
      ∧ ∀ other : AssignmentMap,
          (∀ partition ∈ partitions, ∃ owner ∈ owners, other partition = some owner) →
          (∀ owner ∈ owners,
            ownerLoad inventory other owner ≤ ownerLoad inventory assignment owner) →
          movedSurvivors inventory previous assignment
            ≤ movedSurvivors inventory previous other := by
  intro inventory
  by_cases some_owner : owners = []
  · -- Without owners nothing is placed, and no assignment is complete unless nothing is to place.
    subst some_owner
    refine ⟨fun _ => none, by simp [assignStickyGroups], by simp, by simp, by simp, ?_⟩
    intro other complete _
    have empty : partitions = [] := by
      apply List.eq_nil_iff_forall_not_mem.mpr
      intro partition member
      obtain ⟨owner, isOwner, -⟩ := complete partition member
      exact List.not_mem_nil isOwner
    subst empty
    exact le_refl 0
  · obtain ⟨assignment, computed, layer⟩ := assignStickyGroups_spec partitions
      canonical some_owner positive previous residualPreference
    have loads : ∀ owner ∈ owners, quota owners inventory previous residualPreference owner
        = ownerLoad inventory assignment owner := fun owner isOwner => (layer.loads owner isOwner).symm
    refine ⟨assignment, computed, fun _ => ⟨?_, ?_⟩, ?_, ?_, ?_⟩
    · intro partition member
      exact layer.complete partition (mem_sortedDistinct.mpr member)
    · refine ⟨ceilingOwners owners inventory previous residualPreference,
        nodup_ceilingOwners canonical, fun _ chosen => ceilingOwners_subset chosen,
        length_ceilingOwners some_owner, ?_⟩
      intro owner isOwner
      rw [← loads owner isOwner, quota, share]
      simp only [List.mem_toFinset]
    · intro _ some_partition
      refine ⟨_, _, colocatedInputs_eq canonical some_owner some_partition positive, ?_⟩
      intro owner isOwner
      rw [offered, if_pos isOwner, quota_perm (groupedPartitions_perm partitions _),
        loads owner isOwner]
    · intro owner isOwner
      rw [layer.kept owner isOwner, loads owner isOwner]
    · intro other complete sameLoads
      refine movedSurvivors_le layer.complete
        (fun partition member => complete partition (mem_sortedDistinct.mp member)) ?_
      intro owner isOwner
      have withinLoad : ownerLoad inventory (retained previous other) owner
          ≤ ownerLoad inventory other owner :=
        ownerLoad_le_of_imp fun partition held => (retained_eq_some.mp held).1
      have withinPrevious : ownerLoad inventory (retained previous other) owner
          ≤ ownerLoad inventory previous owner :=
        ownerLoad_le_of_imp fun partition held => (retained_eq_some.mp held).2
      rw [layer.kept owner isOwner, loads owner isOwner]
      exact le_min (withinLoad.trans (sameLoads owner isOwner)) withinPrevious

/-- Seven partitions, of which `a` held five: it keeps four. -/
theorem assignStickyGroups_retains_four_of_five :
    ["a", "b"].Nodup ∧ 0 < 3 ∧ ∃ assignment,
      assignStickyGroups ["a", "b"] [0, 1, 2, 3, 4, 5, 6]
          (fun partition => if partition < 5 then some "a" else none) 3 none = some assignment
      ∧ ∀ owner ∈ ["a", "b"],
        ownerLoad [0, 1, 2, 3, 4, 5, 6] (retained
            (fun partition => if partition < 5 then some "a" else none) assignment) owner
          = min (ownerLoad [0, 1, 2, 3, 4, 5, 6] assignment owner)
            (ownerLoad [0, 1, 2, 3, 4, 5, 6]
              (fun partition => if partition < 5 then some "a" else none) owner) := by
  obtain ⟨assignment, computed, -, -, kept, -⟩ := assignStickyGroups_retains ["a", "b"]
    [0, 1, 2, 3, 4, 5, 6] (fun partition => if partition < 5 then some "a" else none) 3 none
    (by decide) (by decide)
  exact ⟨by decide, by decide, assignment, computed, kept⟩

end BlobStream.Consumer.Sticky
