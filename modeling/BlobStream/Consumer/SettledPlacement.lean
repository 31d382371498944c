import BlobStream.Consumer.TopologyPlacement

/-!
# Settled placements

A placement is settled when it is complete and every owner's load is the rounded average, where the
ceilings go to the owners that are preferred. Every computed placement is settled, at each of its
layers and after any repair. This is all that the validity of a plan and the stability of replanning
need to know about the placement.
-/

namespace BlobStream.Consumer.Sticky

open GroupMembership Sorted Balance

/-! ### One layer -/

variable {previous : AssignmentMap}

section Layers

variable {owners : List String} {rank : String → Nat} {inventory : List VirtualPartitionId}
  {assignment other : AssignmentMap}

def preferenceRank (preference : Option (String → Option Nat)) (owner : String) : Nat :=
  (preference.bind (· owner)).getD 0

structure LayerSettled (owners : List String) (rank : String → Nat)
    (inventory : List VirtualPartitionId) (assignment : AssignmentMap) : Prop where
  complete : ∀ partition ∈ inventory, ∃ owner ∈ owners, assignment partition = some owner
  rounded : Rounded owners.toFinset rank (ownerLoad inventory assignment) inventory.length

theorem ownerLoad_congr (same : ∀ partition ∈ inventory, other partition = assignment partition)
    (owner : String) : ownerLoad inventory other owner = ownerLoad inventory assignment owner := by
  apply List.countP_congr
  intro partition member
  rw [same partition member]

theorem LayerSettled.congr (settled : LayerSettled owners rank inventory assignment)
    (same : ∀ partition ∈ inventory, other partition = assignment partition) :
    LayerSettled owners rank inventory other := by
  refine ⟨?_, settled.rounded.congr fun owner _ => ownerLoad_congr same owner⟩
  intro partition member
  rw [same partition member]
  exact settled.complete partition member

variable {preference : Option (String → Option Nat)}

/-- Owners of a lower rank are offered a residual slot first. -/
theorem ceilingOwners_lowest {owner better : String}
    (chosen : owner ∈ ceilingOwners owners inventory previous preference)
    (isOwner : better ∈ owners)
    (lower : preferenceRank preference better < preferenceRank preference owner) :
    better ∈ ceilingOwners owners inventory previous preference := by
  by_contra notChosen
  have sorted := List.pairwise_insertionSort
    (byKey (residualKey preference (ownerLoad inventory previous))) owners
  have order := key_le_of_mem_take_of_not_mem_take sorted chosen
    ((List.perm_insertionSort _ _).mem_iff.mpr isOwner) notChosen
  rcases Prod.Lex.toLex_le_toLex.mp order with higher | ⟨same, -⟩
  · exact absurd (lt_trans lower higher) (lt_irrefl _)
  · exact absurd lower (not_lt.mpr (le_of_eq same))

theorem StickyLayer.settled (distinct : owners.Nodup) (some_owner : owners ≠ [])
    (layer : StickyLayer owners (quota owners inventory previous preference) inventory previous
      assignment) : LayerSettled owners (preferenceRank preference) inventory assignment := by
  have size : owners.toFinset.card = owners.length := List.toFinset_card_of_nodup distinct
  refine ⟨layer.complete, (ceilingOwners owners inventory previous preference).toFinset,
    ?_, ?_, ?_, ?_⟩
  · intro owner chosen
    exact List.mem_toFinset.mpr (ceilingOwners_subset (List.mem_toFinset.mp chosen))
  · rw [List.toFinset_card_of_nodup (nodup_ceilingOwners distinct),
      length_ceilingOwners some_owner, size]
  · intro owner isOwner
    rw [layer.loads owner (List.mem_toFinset.mp isOwner), quota, size]
  · intro owner chosen better isOwner lower
    exact List.mem_toFinset.mpr (ceilingOwners_lowest (List.mem_toFinset.mp chosen)
      (List.mem_toFinset.mp isOwner) lower)

theorem LayerSettled.exchanged (settled : LayerSettled owners rank inventory assignment)
    (exchanged : Exchanged inventory (workerDomains owners) assignment other) :
    LayerSettled owners rank inventory other := by
  refine ⟨?_, settled.rounded.congr fun owner _ => exchanged.loads owner⟩
  intro partition member
  obtain ⟨owner, isOwner, assigned⟩ := settled.complete partition member
  have takesPart : (domainOf (workerDomains owners) other partition).isSome := by
    rw [exchanged.participants, domainOf, assigned, Option.bind_some, workerDomains,
      if_pos isOwner]
    rfl
  obtain ⟨domain, located⟩ := Option.isSome_iff_exists.mp takesPart
  obtain ⟨holder, held, isDomain⟩ := Option.bind_eq_some_iff.mp located
  refine ⟨holder, ?_, held⟩
  by_contra notOwner
  rw [workerDomains, if_neg notOwner] at isDomain
  cases isDomain

end Layers

/-! ### Flat placement -/

variable {count : Nat}

section Flat

variable {partitions : List VirtualPartitionId} {assignment : AssignmentMap}

theorem assignedPartitions_eq (complete : ∀ partition ∈ partitions, (assignment partition).isSome) :
    assignedPartitions partitions assignment = sortedDistinct (· ≤ ·) partitions := by
  rw [assignedPartitions, List.filter_eq_self]
  intro partition member
  exact complete partition (mem_sortedDistinct.mp member)

/-- A layer of repair exchanges owners within its domains. -/
theorem repairLayer_spec (positive : 0 < count)
    (complete : ∀ partition ∈ partitions, (assignment partition).isSome) (baseline : AssignmentMap)
    (budget : Nat) (domains : Domains) :
    ∃ result, repairLayer partitions baseline count budget assignment domains = some result
      ∧ Exchanged (sortedDistinct (· ≤ ·) partitions) domains assignment result := by
  have distinct : (sortedDistinct (· ≤ ·) partitions).Nodup := nodup_sortedDistinct partitions
  rw [repairLayer, assignedPartitions_eq complete]
  obtain ⟨result, computed, _, _, _, sound⟩ :=
    consolidate_spec distinct positive assignment baseline domains budget
  exact ⟨result, computed, sound.exchanged⟩

/-- Nothing outside the inventory is assigned. -/
def Within (partitions : List VirtualPartitionId) (assignment : AssignmentMap) : Prop :=
  ∀ partition, (assignment partition).isSome → partition ∈ partitions

theorem Exchanged.within {inventory : List VirtualPartitionId} {domains : Domains}
    {other : AssignmentMap} (exchanged : Exchanged inventory domains assignment other)
    (within : Within partitions assignment) : Within partitions other := by
  intro partition assigned
  rw [exchanged.isSome_eq] at assigned
  exact within partition assigned

theorem cooperativeStickyAssignment_settled (members : List String)
    (partitions : List VirtualPartitionId) (previous : AssignmentMap) (localMemberId : String)
    (repairPercent : Nat) (positive : 0 < count)
    (some_member : canonicalMembers members localMemberId ≠ []) :
    ∃ assignment, cooperativeStickyAssignment members partitions previous localMemberId count
        repairPercent = some assignment
      ∧ LayerSettled (canonicalMembers members localMemberId) (fun _ => 0)
          (sortedDistinct (· ≤ ·) partitions) assignment
      ∧ Within partitions assignment := by
  have distinct := nodup_canonicalMembers members localMemberId
  obtain ⟨baseline, placed, layer⟩ :=
    assignStickyGroups_spec partitions distinct some_member positive previous none
  have settled : LayerSettled (canonicalMembers members localMemberId) (fun _ => 0)
      (sortedDistinct (· ≤ ·) partitions) baseline :=
    layer.settled distinct some_member
  have within : Within partitions baseline := by
    intro partition assigned
    obtain ⟨owner, held⟩ := Option.isSome_iff_exists.mp assigned
    exact mem_sortedDistinct.mp (layer.inside partition owner held)
  have complete : ∀ partition ∈ partitions, (baseline partition).isSome := by
    intro partition member
    obtain ⟨owner, -, held⟩ := layer.complete partition (mem_sortedDistinct.mpr member)
    simp [held]
  simp only [cooperativeStickyAssignment, placed, Option.bind_eq_bind, Option.bind_some]
  split
  · obtain ⟨result, repaired, exchanged⟩ := repairLayer_spec positive complete baseline
      (movementBudget (assignedPartitions partitions baseline).length repairPercent)
      (workerDomains (canonicalMembers members localMemberId))
    exact ⟨result, repaired, settled.exchanged exchanged, exchanged.within within⟩
  · exact ⟨baseline, rfl, settled, within⟩

end Flat

/-! ### Pods and workers -/

section Topology

variable {members : List ConsumerGroupMember}

def OnePod (members : List ConsumerGroupMember) : Prop :=
  ∀ first ∈ members, ∀ second ∈ members, first.memberId = second.memberId →
    first.podId = second.podId

variable {podId : String}

theorem mem_podIds :
    podId ∈ podIds members ↔ ∃ member ∈ members, member.podId = some podId := by
  rw [podIds, mem_sortedDistinct, List.mem_filterMap]

theorem nodup_podIds (members : List ConsumerGroupMember) : (podIds members).Nodup :=
  nodup_sortedDistinct _

variable {worker : String}

theorem mem_podWorkers :
    worker ∈ podWorkers members podId
      ↔ ∃ member ∈ members, member.podId = some podId ∧ member.memberId = worker := by
  simp only [podWorkers, mem_sortedDistinct, List.mem_map, List.mem_filter, decide_eq_true_eq,
    and_assoc]

theorem nodup_podWorkers (members : List ConsumerGroupMember) (podId : String) :
    (podWorkers members podId).Nodup :=
  nodup_sortedDistinct _

theorem podWorkers_ne_nil (isPod : podId ∈ podIds members) :
    podWorkers members podId ≠ [] := by
  obtain ⟨member, isMember, inPod⟩ := mem_podIds.mp isPod
  exact List.ne_nil_of_mem (mem_podWorkers.mpr ⟨member, isMember, inPod, rfl⟩)

theorem podIds_ne_nil (allPods : ∀ member ∈ members, member.podId.isSome)
    (some_member : members ≠ []) : podIds members ≠ [] := by
  obtain ⟨member, isMember⟩ := List.exists_mem_of_ne_nil _ some_member
  obtain ⟨podId, inPod⟩ := Option.isSome_iff_exists.mp (allPods member isMember)
  exact List.ne_nil_of_mem (mem_podIds.mpr ⟨member, isMember, inPod⟩)

theorem podIds_of_podWorkers (isWorker : worker ∈ podWorkers members podId) :
    podId ∈ podIds members := by
  obtain ⟨member, isMember, inPod, -⟩ := mem_podWorkers.mp isWorker
  exact mem_podIds.mpr ⟨member, isMember, inPod⟩

theorem recordedPod_eq_some (onePod : OnePod members) :
    recordedPod members worker = some podId ↔ worker ∈ podWorkers members podId := by
  rw [mem_podWorkers, recordedPod]
  constructor
  · intro recorded
    obtain ⟨member, isMember, accepted⟩ := List.exists_of_findSome?_eq_some recorded
    split at accepted
    · next isWorker =>
      exact ⟨member, List.mem_reverse.mp isMember, accepted, isWorker⟩
    · cases accepted
  · rintro ⟨member, isMember, inPod, rfl⟩
    cases found : members.reverse.findSome? fun other =>
        if other.memberId = member.memberId then other.podId else none with
    | none =>
      have missing := List.findSome?_eq_none_iff.mp found member (List.mem_reverse.mpr isMember)
      rw [if_pos rfl, inPod] at missing
      cases missing
    | some other =>
      obtain ⟨record, isRecord, accepted⟩ := List.exists_of_findSome?_eq_some found
      split at accepted
      · next same =>
        have agree := onePod record (List.mem_reverse.mp isRecord) member isMember same
        rw [accepted, inPod] at agree
        exact agree
      · cases accepted

theorem mapM_memberPods (onePod : OnePod members)
    (allPods : ∀ member ∈ members, member.podId.isSome)
    (previousMembers : List ConsumerGroupMember) :
    (members.mapM fun member => memberPods members previousMembers member.memberId)
      = some (members.map fun member => member.podId.getD "") := by
  apply Loop.mapM_total
  intro member isMember
  obtain ⟨podId, inPod⟩ := Option.isSome_iff_exists.mp (allPods member isMember)
  have recorded : recordedPod members member.memberId = some podId :=
    (recordedPod_eq_some onePod).mpr (mem_podWorkers.mpr ⟨member, isMember, inPod, rfl⟩)
  rw [memberPods, recorded, Option.some_or, inPod, Option.getD_some]

/-- The pod of the worker of each partition. -/
def podMap (members : List ConsumerGroupMember) (assignment : AssignmentMap) : AssignmentMap :=
  fun partition => (assignment partition).bind (recordedPod members)

/-- Settled over the pods, and in each pod over its workers. -/
structure TopologySettled (members : List ConsumerGroupMember) (inventory : List VirtualPartitionId)
    (assignment : AssignmentMap) : Prop where
  pods : LayerSettled (podIds members) (preferenceRank (residualPreference members)) inventory
    (podMap members assignment)
  workers : ∀ podId ∈ podIds members, LayerSettled (podWorkers members podId) (fun _ => 0)
    (inventory.filter fun partition => podMap members assignment partition = some podId) assignment

theorem podLoad_eq_sum (onePod : OnePod members) (inventory : List VirtualPartitionId)
    (assignment : AssignmentMap) (podId : String) :
    ownerLoad inventory (podMap members assignment) podId
      = ∑ worker ∈ (podWorkers members podId).toFinset, ownerLoad inventory assignment worker := by
  -- Count the partitions by worker, after dropping the ones of other pods.
  let ofPod : AssignmentMap := fun partition =>
    if podMap members assignment partition = some podId then assignment partition else none
  have sameWorker : ∀ worker ∈ podWorkers members podId, ∀ partition,
      ofPod partition = some worker ↔ assignment partition = some worker := by
    intro worker isWorker partition
    simp only [ofPod]
    split
    · exact Iff.rfl
    · next otherPod =>
      constructor
      · exact fun impossible => nomatch impossible
      · intro assigned
        refine absurd ?_ otherPod
        rw [podMap, assigned]
        exact (recordedPod_eq_some onePod).mpr isWorker
  have counted : ∑ worker ∈ (podWorkers members podId).toFinset, ownerLoad inventory ofPod worker
      = inventory.countP fun partition => (ofPod partition).isSome := by
    apply sum_countP
    intro partition _ worker held
    simp only [ofPod] at held
    split at held
    · next inPod =>
      rw [podMap, held] at inPod
      exact List.mem_toFinset.mpr ((recordedPod_eq_some onePod).mp inPod)
    · cases held
  have perWorker : ∀ worker ∈ (podWorkers members podId).toFinset,
      ownerLoad inventory ofPod worker = ownerLoad inventory assignment worker := by
    intro worker isWorker
    apply List.countP_congr
    intro partition _
    simp only [decide_eq_true_eq]
    exact sameWorker worker (List.mem_toFinset.mp isWorker) partition
  rw [← Finset.sum_congr rfl perWorker, counted]
  apply List.countP_congr
  intro partition _
  simp only [ofPod, decide_eq_true_eq]
  split
  · next inPod =>
    obtain ⟨worker, assigned, -⟩ := Option.bind_eq_some_iff.mp inPod
    simp [inPod, assigned]
  · next otherPod => simp [otherPod]

theorem ownerLoad_filter_pod (onePod : OnePod members) (inventory : List VirtualPartitionId)
    (assignment : AssignmentMap) (isWorker : worker ∈ podWorkers members podId) :
    ownerLoad (inventory.filter fun partition => podMap members assignment partition = some podId)
        assignment worker = ownerLoad inventory assignment worker := by
  rw [ownerLoad, ownerLoad, List.countP_filter]
  apply List.countP_congr
  intro partition _
  simp only [Bool.and_eq_true, decide_eq_true_eq, and_iff_left_iff_imp]
  intro assigned
  rw [podMap, assigned]
  exact (recordedPod_eq_some onePod).mpr isWorker

theorem TopologySettled.exchanged (onePod : OnePod members) {inventory : List VirtualPartitionId}
    {assignment other : AssignmentMap} {domains : Domains}
    (settled : TopologySettled members inventory assignment)
    (exchanged : Exchanged inventory domains assignment other)
    (active : ∀ worker, (domains worker).isSome → ∃ podId, worker ∈ podWorkers members podId) :
    TopologySettled members inventory other := by
  have podLoads : ∀ podId, ownerLoad inventory (podMap members other) podId
      = ownerLoad inventory (podMap members assignment) podId := by
    intro podId
    rw [podLoad_eq_sum onePod, podLoad_eq_sum onePod]
    exact Finset.sum_congr rfl fun worker _ => exchanged.loads worker
  refine ⟨⟨?_, settled.pods.rounded.congr fun podId _ => podLoads podId⟩, ?_⟩
  · intro partition member
    cases located : domainOf domains assignment partition with
    | none =>
      rw [podMap, exchanged.outside partition located]
      exact settled.pods.complete partition member
    | some domain =>
      have takesPart := exchanged.participants partition
      rw [located, Option.isSome_some] at takesPart
      obtain ⟨otherDomain, known⟩ := Option.isSome_iff_exists.mp takesPart
      obtain ⟨worker, assigned, isDomain⟩ := Option.bind_eq_some_iff.mp known
      obtain ⟨podId, isWorker⟩ := active worker (by simp [isDomain])
      refine ⟨podId, podIds_of_podWorkers isWorker, ?_⟩
      rw [podMap, assigned]
      exact (recordedPod_eq_some onePod).mpr isWorker
  · intro podId isPod
    have before := settled.workers podId isPod
    refine ⟨?_, ?_⟩
    · intro partition member
      have inPod := of_decide_eq_true (List.mem_filter.mp member).2
      obtain ⟨worker, assigned, recorded⟩ := Option.bind_eq_some_iff.mp inPod
      exact ⟨worker, (recordedPod_eq_some onePod).mp recorded, assigned⟩
    · have total : (inventory.filter fun partition =>
          podMap members other partition = some podId).length
          = (inventory.filter fun partition =>
            podMap members assignment partition = some podId).length := by
        rw [← List.countP_eq_length_filter, ← List.countP_eq_length_filter]
        exact podLoads podId
      rw [total]
      refine before.rounded.congr fun worker isWorker => ?_
      have isWorker := List.mem_toFinset.mp isWorker
      rw [ownerLoad_filter_pod onePod _ _ isWorker, ownerLoad_filter_pod onePod _ _ isWorker]
      exact exchanged.loads worker

def podInventory (partitions : List VirtualPartitionId) (partitionPods : AssignmentMap)
    (podId : String) : List VirtualPartitionId :=
  (sortedDistinct (· ≤ ·) partitions).filter fun partition => partitionPods partition = some podId

/-- The workers of the pods in `done` have taken what their pods got. -/
def PlacedPods (partitionPods : AssignmentMap) (workers : String → AssignmentMap)
    (done : List String) (placed : AssignmentMap) : Prop :=
  ∀ partition, placed partition = (partitionPods partition).bind fun podId =>
    if podId ∈ done then workers podId partition else none

variable {workers : String → AssignmentMap}

/-- The next pod adds the owners of its own partitions. -/
theorem PlacedPods.add {partitionPods placed : AssignmentMap} {done : List String}
    (isPlaced : PlacedPods partitionPods workers done placed) (fresh : podId ∉ done)
    (inside : ∀ partition, (workers podId partition).isSome → partitionPods partition = some podId) :
    PlacedPods partitionPods workers (done ++ [podId]) fun partition =>
      (workers podId partition).or (placed partition) := by
  intro partition
  simp only [isPlaced partition]
  by_cases atPod : partitionPods partition = some podId
  · simp [atPod, fresh]
  · have elsewhere : workers podId partition = none := by
      cases given : workers podId partition with
      | none => rfl
      | some worker => exact absurd (inside partition (by simp [given])) atPod
    rw [elsewhere, Option.none_or]
    cases located : partitionPods partition with
    | none => rfl
    | some home =>
      have other : home ≠ podId := by
        rintro rfl
        exact atPod located
      simp [other]

/-- Stage 2 runs through: every partition gets the owner that its pod computes. -/
theorem placeWorkers_foldlM {partitions : List VirtualPartitionId} {partitionPods : AssignmentMap}
    (computed : ∀ podId ∈ podIds members, assignStickyGroups (podWorkers members podId)
      (partitions.filter fun partition => partitionPods partition = some podId) previous count none
        = some (workers podId))
    (inside : ∀ podId ∈ podIds members, ∀ partition, (workers podId partition).isSome →
      partitionPods partition = some podId)
    (known : ∀ partition podId, partitionPods partition = some podId → podId ∈ podIds members) :
    (podIds members).foldlM (placeWorkers members partitions previous partitionPods count)
        (fun _ => none)
      = some fun partition => (partitionPods partition).bind fun podId => workers podId partition := by
  have loop : ∃ result, (podIds members).foldlM
        (placeWorkers members partitions previous partitionPods count) (fun _ => none) = some result
      ∧ ∃ done, podIds members = done ++ [] ∧ PlacedPods partitionPods workers done result := by
    refine Loop.foldlM_invariant (fun rest placed => ∃ done, podIds members = done ++ rest
      ∧ PlacedPods partitionPods workers done placed) ?_ ⟨[], rfl, ?_⟩
    · rintro podId rest placed ⟨done, split, isPlaced⟩
      have isPod : podId ∈ podIds members := by
        rw [split]
        exact List.mem_append_right done List.mem_cons_self
      have fresh : podId ∉ done := by
        have distinct := nodup_podIds members
        rw [split] at distinct
        exact fun earlier => (List.nodup_append.mp distinct).2.2 podId earlier podId
          List.mem_cons_self rfl
      refine ⟨fun partition => (workers podId partition).or (placed partition), ?_,
        done ++ [podId], ?_, isPlaced.add fresh (inside podId isPod)⟩
      · rw [placeWorkers, computed podId isPod]
        rfl
      · rw [split, List.append_assoc, List.singleton_append]
    · intro partition
      cases partitionPods partition with
      | none => rfl
      | some podId => simp
  obtain ⟨result, folded, done, split, placed⟩ := loop
  rw [List.append_nil] at split
  rw [folded, Option.some.injEq]
  funext partition
  rw [placed partition]
  cases located : partitionPods partition with
  | none => rfl
  | some podId =>
    rw [Option.bind_some, Option.bind_some, if_pos (split ▸ known partition podId located)]

theorem topologyBaseline_spec (previousMembers : List ConsumerGroupMember)
    (partitions : List VirtualPartitionId) (previous : AssignmentMap)
    (positive : 0 < count) (some_pod : podIds members ≠ []) :
    ∃ (partitionPods : AssignmentMap) (workers : String → AssignmentMap),
      StickyLayer (podIds members) (quota (podIds members) (sortedDistinct (· ≤ ·) partitions)
          (fun partition => (previous partition).bind (memberPods members previousMembers))
          (residualPreference members)) (sortedDistinct (· ≤ ·) partitions)
        (fun partition => (previous partition).bind (memberPods members previousMembers))
        partitionPods
      ∧ (∀ podId ∈ podIds members, StickyLayer (podWorkers members podId)
          (quota (podWorkers members podId) (podInventory partitions partitionPods podId) previous
            none)
          (podInventory partitions partitionPods podId) previous (workers podId))
      ∧ topologyBaseline members previousMembers partitions previous count
        = some fun partition => (partitionPods partition).bind fun podId =>
            workers podId partition := by
  obtain ⟨partitionPods, placed, pods⟩ := assignStickyGroups_spec partitions (nodup_podIds members)
    some_pod positive (fun partition => (previous partition).bind
      (memberPods members previousMembers)) (residualPreference members)
  let workers : String → AssignmentMap := fun podId =>
    (assignStickyGroups (podWorkers members podId)
      (partitions.filter fun partition => partitionPods partition = some podId) previous count
        none).getD fun _ => none
  have layers : ∀ podId ∈ podIds members,
      assignStickyGroups (podWorkers members podId)
        (partitions.filter fun partition => partitionPods partition = some podId) previous count none
          = some (workers podId)
      ∧ StickyLayer (podWorkers members podId)
          (quota (podWorkers members podId) (podInventory partitions partitionPods podId) previous
            none)
          (podInventory partitions partitionPods podId) previous (workers podId) := by
    intro podId isPod
    obtain ⟨assignment, computed, layer⟩ := assignStickyGroups_spec
      (partitions.filter fun partition => partitionPods partition = some podId)
      (nodup_podWorkers members podId) (podWorkers_ne_nil isPod) positive previous none
    have same : workers podId = assignment := by
      simp only [workers, computed, Option.getD_some]
    rw [same]
    refine ⟨computed, ?_⟩
    rw [sortedDistinct_filter] at layer
    exact layer
  refine ⟨partitionPods, workers, pods, fun podId isPod => (layers podId isPod).2, ?_⟩
  rw [topologyBaseline, placed, Option.bind_eq_bind, Option.bind_some]
  apply placeWorkers_foldlM (fun podId isPod => (layers podId isPod).1)
  · intro podId isPod partition assigned
    obtain ⟨worker, held⟩ := Option.isSome_iff_exists.mp assigned
    have member := (layers podId isPod).2.inside partition worker held
    exact of_decide_eq_true (List.mem_filter.mp member).2
  · intro partition podId located
    obtain ⟨owner, isOwner, same⟩ := pods.complete partition (pods.inside partition podId located)
    rw [located, Option.some.injEq] at same
    exact same ▸ isOwner

theorem topologyBaseline_settled (onePod : OnePod members)
    (previousMembers : List ConsumerGroupMember) (partitions : List VirtualPartitionId)
    (previous : AssignmentMap) (positive : 0 < count) (some_pod : podIds members ≠ []) :
    ∃ assignment, topologyBaseline members previousMembers partitions previous count = some assignment
      ∧ TopologySettled members (sortedDistinct (· ≤ ·) partitions) assignment
      ∧ Within partitions assignment := by
  obtain ⟨partitionPods, workers, pods, layers, computed⟩ :=
    topologyBaseline_spec previousMembers partitions previous positive some_pod
  refine ⟨_, computed, ?_, ?_⟩
  · have samePods : podMap members (fun partition =>
        (partitionPods partition).bind fun podId => workers podId partition) = partitionPods := by
      funext partition
      cases located : partitionPods partition with
      | none => rw [podMap, located, Option.bind_none, Option.bind_none]
      | some podId =>
        have member := pods.inside partition podId located
        obtain ⟨owner, isPod, same⟩ := pods.complete partition member
        rw [located, Option.some.injEq] at same
        obtain ⟨worker, isWorker, assigned⟩ := (layers podId (same ▸ isPod)).complete partition
          (List.mem_filter.mpr ⟨member, decide_eq_true located⟩)
        rw [podMap, located, Option.bind_some, assigned, Option.bind_some]
        exact (recordedPod_eq_some onePod).mpr isWorker
    refine ⟨?_, ?_⟩
    · rw [samePods]
      exact pods.settled (nodup_podIds members) some_pod
    · intro podId isPod
      rw [samePods]
      have settled := (layers podId isPod).settled (nodup_podWorkers members podId)
        (podWorkers_ne_nil isPod)
      refine LayerSettled.congr settled ?_
      intro partition member
      have located := of_decide_eq_true (List.mem_filter.mp member).2
      rw [located, Option.bind_some]
  · intro partition assigned
    obtain ⟨worker, held⟩ := Option.isSome_iff_exists.mp assigned
    obtain ⟨podId, located, -⟩ := Option.bind_eq_some_iff.mp held
    exact mem_sortedDistinct.mp (pods.inside partition podId located)

theorem withTopology_settled (onePod : OnePod members)
    (allPods : ∀ member ∈ members, member.podId.isSome) (some_member : members ≠ [])
    (previousMembers : List ConsumerGroupMember) (partitions : List VirtualPartitionId)
    (previous : AssignmentMap) (repairPercent : Nat) (positive : 0 < count) :
    ∃ assignment, cooperativeStickyAssignmentWithTopology members previousMembers partitions previous
        count repairPercent = some assignment
      ∧ TopologySettled members (sortedDistinct (· ≤ ·) partitions) assignment
      ∧ Within partitions assignment := by
  have some_pod := podIds_ne_nil allPods some_member
  have podsKnown : (members.any fun member => member.podId.isNone) = false := by
    rw [List.any_eq_false]
    intro member isMember
    simp [Option.isSome_iff_ne_none.mp (allPods member isMember)]
  have workerOf : ∀ member ∈ members, ∃ podId, member.memberId ∈ podWorkers members podId := by
    intro member isMember
    obtain ⟨podId, inPod⟩ := Option.isSome_iff_exists.mp (allPods member isMember)
    exact ⟨podId, mem_podWorkers.mpr ⟨member, isMember, inPod, rfl⟩⟩
  have assignedAll : ∀ assignment,
      TopologySettled members (sortedDistinct (· ≤ ·) partitions) assignment →
      ∀ partition ∈ partitions, (assignment partition).isSome := by
    intro assignment settled partition member
    obtain ⟨podId, -, located⟩ := settled.pods.complete partition (mem_sortedDistinct.mpr member)
    obtain ⟨worker, assigned, -⟩ := Option.bind_eq_some_iff.mp located
    simp [assigned]
  obtain ⟨baseline, placed, settled, within⟩ :=
    topologyBaseline_settled onePod previousMembers partitions previous positive some_pod
  rw [cooperativeStickyAssignmentWithTopology, if_neg (by simp [podsKnown])]
  simp only [placed, Option.bind_eq_bind, Option.bind_some]
  split
  · have lookups := mapM_memberPods onePod allPods previousMembers
    obtain ⟨repaired, podRepair, exchanged⟩ := repairLayer_spec positive
      (assignedAll baseline settled) baseline
      (movementBudget (assignedPartitions partitions baseline).length repairPercent)
      (fun worker => if worker ∈ members.map ConsumerGroupMember.memberId then
        memberPods members previousMembers worker else none)
    have podSettled : TopologySettled members (sortedDistinct (· ≤ ·) partitions) repaired := by
      refine settled.exchanged onePod exchanged ?_
      intro worker isActive
      split at isActive
      · next listed =>
        obtain ⟨member, isMember, rfl⟩ := List.mem_map.mp listed
        exact workerOf member isMember
      · cases isActive
    have loop : ∃ result, (podIds members).foldlM (fun assignment podId =>
          repairLayer partitions baseline count
            (movementBudget (assignedPartitions partitions baseline).length repairPercent) assignment
            (workerDomains (podWorkers members podId))) repaired = some result
        ∧ TopologySettled members (sortedDistinct (· ≤ ·) partitions) result
        ∧ Within partitions result := by
      refine Loop.foldlM_invariant (fun _ assignment => TopologySettled members
        (sortedDistinct (· ≤ ·) partitions) assignment ∧ Within partitions assignment) ?_
        ⟨podSettled, exchanged.within within⟩
      rintro podId rest assignment ⟨current, inside⟩
      obtain ⟨next, computed, moved⟩ := repairLayer_spec positive (assignedAll assignment current)
        baseline (movementBudget (assignedPartitions partitions baseline).length repairPercent)
        (workerDomains (podWorkers members podId))
      refine ⟨next, computed, current.exchanged onePod moved ?_, moved.within inside⟩
      intro worker isActive
      rw [workerDomains] at isActive
      split at isActive
      · next isWorker => exact ⟨podId, isWorker⟩
      · cases isActive
    obtain ⟨result, workerRepair, resultSettled, resultWithin⟩ := loop
    refine ⟨result, ?_, resultSettled, resultWithin⟩
    simp only [lookups, podRepair, Option.bind_some, workerRepair]
  · exact ⟨baseline, rfl, settled, within⟩

end Topology

end BlobStream.Consumer.Sticky
