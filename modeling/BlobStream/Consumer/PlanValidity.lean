import BlobStream.Consumer.SettledPlacement

/-!
# Every computed plan is valid

The check that every member applies looks at the plan in passes. Completeness gives the passes over
the assignments, canonical members the pass over the topology, and rounded averages the balance at
every level.
-/

namespace BlobStream.Consumer.Sticky

open GroupMembership Sorted Balance

/-! ### The passes of the check -/

theorem imbalance_eq_none {loads : List Nat}
    (balanced : ∀ first ∈ loads, ∀ second ∈ loads, first ≤ second + 1) : imbalance loads = none := by
  cases loads with
  | nil => rfl
  | cons load rest =>
    obtain ⟨lowest, isLowest⟩ : ∃ lowest, (load :: rest).min? = some lowest := ⟨_, rfl⟩
    obtain ⟨highest, isHighest⟩ : ∃ highest, (load :: rest).max? = some highest := ⟨_, rfl⟩
    have apart := balanced highest (List.max?_mem isHighest) lowest (List.min?_mem isLowest)
    simp only [imbalance, isLowest, isHighest, Option.getD_some]
    rw [if_neg]
    omega

variable {members : List String}

theorem assignmentsError_eq_none {assignments : List ConsumerGroupAssignment}
    (owners : ∀ assignment ∈ assignments, assignment.memberId ∈ members)
    (distinct : (assignments.map ConsumerGroupAssignment.virtualPartitionId).Nodup)
    {seen : List VirtualPartitionId}
    (fresh : ∀ assignment ∈ assignments, assignment.virtualPartitionId ∉ seen) :
    assignmentsError members seen assignments = none := by
  induction assignments generalizing seen with
  | nil => rfl
  | cons assignment rest ih =>
    rw [List.map_cons, List.nodup_cons] at distinct
    rw [assignmentsError, if_neg (not_not.mpr (owners assignment List.mem_cons_self)),
      if_neg (fresh assignment List.mem_cons_self)]
    apply ih (fun other member => owners other (List.mem_cons_of_mem _ member)) distinct.2
    intro other member repeated
    rcases List.mem_cons.mp repeated with same | earlier
    · exact distinct.1 (same ▸ List.mem_map_of_mem member)
    · exact fresh other (List.mem_cons_of_mem _ member) earlier

variable {topology : List ConsumerGroupMember}

theorem topologyError_eq_none (pods : ∀ member ∈ topology, member.podId.isSome)
    (distinct : (topology.map ConsumerGroupMember.memberId).Nodup) {seen : List String}
    (fresh : ∀ member ∈ topology, member.memberId ∉ seen) : topologyError seen topology = none := by
  induction topology generalizing seen with
  | nil => rfl
  | cons member rest ih =>
    rw [List.map_cons, List.nodup_cons] at distinct
    have hasPod := pods member List.mem_cons_self
    rw [topologyError, if_neg (by simp [Option.isSome_iff_ne_none.mp hasPod]),
      if_neg (fresh member List.mem_cons_self)]
    apply ih (fun other inRest => pods other (List.mem_cons_of_mem _ inRest)) distinct.2
    intro other inRest repeated
    rcases List.mem_cons.mp repeated with same | earlier
    · exact distinct.1 (same ▸ List.mem_map_of_mem inRest)
    · exact fresh other (List.mem_cons_of_mem _ inRest) earlier

/-! ### The plan of a complete placement -/

/-- The plan writes down a complete placement over its members. -/
structure Writes (plan : ConsumerGroupAssignmentPlan) (partitions : List VirtualPartitionId)
    (assignment : AssignmentMap) : Prop where
  entries : plan.assignments = (sortedDistinct (· ≤ ·) partitions).filterMap fun partition =>
    (assignment partition).map fun memberId => ⟨partition, memberId⟩
  planner : plan.plannerMemberId ∈ plan.members
  distinct : plan.members.Nodup
  complete : ∀ partition ∈ partitions, ∃ owner ∈ plan.members, assignment partition = some owner

section Plan

variable {plan : ConsumerGroupAssignmentPlan} {partitions : List VirtualPartitionId}
  {assignment : AssignmentMap}

section

variable (writes : Writes plan partitions assignment)

include writes

theorem Writes.countP (test : String → Bool) :
    plan.assignments.countP (fun entry => test entry.memberId)
      = (sortedDistinct (· ≤ ·) partitions).countP fun partition =>
          (assignment partition).any test := by
  rw [writes.entries, List.countP_filterMap]
  apply List.countP_congr
  intro partition _
  cases assignment partition with
  | none => simp
  | some owner => simp

theorem Writes.memberLoad (memberId : String) :
    memberLoad plan memberId
      = ownerLoad (sortedDistinct (· ≤ ·) partitions) assignment memberId := by
  rw [Consumer.memberLoad, writes.countP fun owner => decide (owner = memberId), ownerLoad]
  apply List.countP_congr
  intro partition _
  cases assignment partition with
  | none => simp
  | some owner => simp

theorem Writes.assigned :
    plan.assignments.map ConsumerGroupAssignment.virtualPartitionId
      = sortedDistinct (· ≤ ·) partitions := by
  have all : ∀ partition ∈ sortedDistinct (· ≤ ·) partitions,
      ((assignment partition).map fun memberId =>
        (⟨partition, memberId⟩ : ConsumerGroupAssignment)).map
          ConsumerGroupAssignment.virtualPartitionId = some partition := by
    intro partition member
    obtain ⟨owner, -, assigned⟩ := writes.complete partition (mem_sortedDistinct.mp member)
    rw [assigned]
    rfl
  rw [writes.entries, List.map_filterMap, List.filterMap_congr all, List.filterMap_some]

theorem Writes.assignmentsError : assignmentsError plan.members [] plan.assignments = none := by
  apply assignmentsError_eq_none
  · intro entry inPlan
    rw [writes.entries] at inPlan
    obtain ⟨partition, member, written⟩ := List.mem_filterMap.mp inPlan
    obtain ⟨owner, isOwner, assigned⟩ := writes.complete partition (mem_sortedDistinct.mp member)
    rw [assigned, Option.map_some, Option.some.injEq] at written
    exact written ▸ isOwner
  · rw [writes.assigned]
    exact nodup_sortedDistinct _
  · simp

theorem Writes.find_missing :
    (sortedDistinct (· ≤ ·) partitions).find?
      (· ∉ plan.assignments.map ConsumerGroupAssignment.virtualPartitionId) = none := by
  rw [writes.assigned, List.find?_eq_none]
  intro partition member
  simpa using member

theorem Writes.length : plan.assignments.length = (sortedDistinct (· ≤ ·) partitions).length := by
  rw [← writes.assigned, List.length_map]

/-- A flat plan is valid when its members' loads are balanced. -/
theorem Writes.valid_flat (flat : plan.memberTopology = none)
    (balanced : WithinOne plan.members.toFinset
      (ownerLoad (sortedDistinct (· ≤ ·) partitions) assignment)) :
    assignmentPlanValidationError plan partitions = none := by
  have loads : imbalance (plan.members.map (Consumer.memberLoad plan)) = none := by
    apply imbalance_eq_none
    intro first inFirst second inSecond
    obtain ⟨firstMember, isFirst, rfl⟩ := List.mem_map.mp inFirst
    obtain ⟨secondMember, isSecond, rfl⟩ := List.mem_map.mp inSecond
    rw [writes.memberLoad, writes.memberLoad]
    exact balanced firstMember (List.mem_toFinset.mpr isFirst) secondMember
      (List.mem_toFinset.mpr isSecond)
  have some_member : plan.members.isEmpty = false := by
    simpa using List.ne_nil_of_mem writes.planner
  simp only [assignmentPlanValidationError, some_member, writes.planner, writes.length,
    writes.assignmentsError, writes.find_missing, flat, loads, not_true_eq_false, ne_eq,
    Bool.false_eq_true, if_false]

end

/-- The first record of a member names its pod. -/
theorem find_podId (onePod : OnePod topology) (memberId : String) :
    (topology.find? (·.memberId = memberId)).bind ConsumerGroupMember.podId
      = recordedPod topology memberId := by
  apply Option.ext
  intro podId
  rw [recordedPod_eq_some onePod, mem_podWorkers]
  constructor
  · intro isPod
    obtain ⟨record, found, inPod⟩ := Option.bind_eq_some_iff.mp isPod
    have isRecord := List.find?_some found
    exact ⟨record, List.mem_of_find?_eq_some found, inPod, of_decide_eq_true isRecord⟩
  · rintro ⟨member, isMember, inPod, rfl⟩
    cases found : topology.find? (·.memberId = member.memberId) with
    | none =>
      have absent := List.find?_eq_none.mp found member isMember
      simp at absent
    | some record =>
      have isRecord := List.find?_some found
      rw [Option.bind_some, onePod record (List.mem_of_find?_eq_some found) member isMember
        (of_decide_eq_true isRecord)]
      exact inPod

/-- Settled placements are balanced over pods and inside every pod. -/
theorem Writes.podBalanceError (writes : Writes plan partitions assignment) (onePod : OnePod topology)
    (active : ∀ memberId ∈ plan.members, ∃ podId, memberId ∈ podWorkers topology podId)
    (settled : TopologySettled topology (sortedDistinct (· ≤ ·) partitions) assignment) :
    podBalanceError plan topology = none := by
  have isPod : ∀ pod ∈ (plan.members.map (recordedPod topology)).dedup,
      ∃ podId ∈ podIds topology, pod = some podId := by
    intro pod inPods
    obtain ⟨memberId, isMember, rfl⟩ := List.mem_map.mp (List.mem_dedup.mp inPods)
    obtain ⟨podId, isWorker⟩ := active memberId isMember
    exact ⟨podId, podIds_of_podWorkers isWorker, (recordedPod_eq_some onePod).mpr isWorker⟩
  have podLoad : ∀ podId, plan.assignments.countP
      (fun entry => recordedPod topology entry.memberId = some podId)
        = ownerLoad (sortedDistinct (· ≤ ·) partitions) (podMap topology assignment) podId := by
    intro podId
    rw [writes.countP fun memberId => decide (recordedPod topology memberId = some podId), ownerLoad]
    apply List.countP_congr
    intro partition _
    rw [podMap]
    cases assignment partition with
    | none => simp
    | some owner => simp
  simp only [Consumer.podBalanceError, find_podId onePod]
  rw [Option.or_eq_none_iff, List.findSome?_eq_none_iff]
  refine ⟨imbalance_eq_none ?_, ?_⟩
  · intro first inFirst second inSecond
    obtain ⟨firstPod, isFirst, rfl⟩ := List.mem_map.mp inFirst
    obtain ⟨secondPod, isSecond, rfl⟩ := List.mem_map.mp inSecond
    obtain ⟨firstId, firstListed, rfl⟩ := isPod firstPod isFirst
    obtain ⟨secondId, secondListed, rfl⟩ := isPod secondPod isSecond
    rw [podLoad, podLoad]
    exact settled.pods.rounded.withinOne firstId (List.mem_toFinset.mpr firstListed) secondId
      (List.mem_toFinset.mpr secondListed)
  · intro pod inPods
    obtain ⟨podId, listed, rfl⟩ := isPod pod inPods
    apply imbalance_eq_none
    intro first inFirst second inSecond
    obtain ⟨firstMember, isFirst, rfl⟩ := List.mem_map.mp inFirst
    obtain ⟨secondMember, isSecond, rfl⟩ := List.mem_map.mp inSecond
    have firstWorker := (recordedPod_eq_some onePod).mp
      (of_decide_eq_true (List.mem_filter.mp isFirst).2)
    have secondWorker := (recordedPod_eq_some onePod).mp
      (of_decide_eq_true (List.mem_filter.mp isSecond).2)
    have balanced := (settled.workers podId listed).rounded.withinOne firstMember
      (List.mem_toFinset.mpr firstWorker) secondMember (List.mem_toFinset.mpr secondWorker)
    rw [ownerLoad_filter_pod onePod _ _ firstWorker, ownerLoad_filter_pod onePod _ _ secondWorker]
      at balanced
    rw [writes.memberLoad, writes.memberLoad]
    exact balanced

/-- A plan over pods is valid when its placement is settled. -/
theorem Writes.valid_topology (writes : Writes plan partitions assignment)
    (isTopology : plan.memberTopology = some topology)
    (ids : topology.map ConsumerGroupMember.memberId = plan.members)
    (pods : ∀ member ∈ topology, member.podId.isSome) (onePod : OnePod topology)
    (settled : TopologySettled topology (sortedDistinct (· ≤ ·) partitions) assignment) :
    assignmentPlanValidationError plan partitions = none := by
  have some_member : plan.members.isEmpty = false := by
    simpa using List.ne_nil_of_mem writes.planner
  have recorded : topologyError [] topology = none := by
    apply topologyError_eq_none pods
    · rw [ids]
      exact writes.distinct
    · simp
  have sameLength : topology.length = plan.members.length := by
    rw [← ids, List.length_map]
  have balance : Consumer.podBalanceError plan topology = none := by
    apply writes.podBalanceError onePod _ settled
    intro memberId isMember
    rw [← ids] at isMember
    obtain ⟨member, inTopology, rfl⟩ := List.mem_map.mp isMember
    obtain ⟨podId, inPod⟩ := Option.isSome_iff_exists.mp (pods member inTopology)
    exact ⟨podId, mem_podWorkers.mpr ⟨member, inTopology, inPod, rfl⟩⟩
  simp only [assignmentPlanValidationError, some_member, writes.planner, writes.length,
    writes.assignmentsError, writes.find_missing, isTopology, recorded, sameLength, ids,
    writes.distinct.dedup, balance, not_true_eq_false, ne_eq, Bool.false_eq_true, if_false]
  rw [if_neg]
  simp

end Plan

/-! ### Computed plans -/

/-- A topology lists the members in their order, each with a pod. -/
theorem canonicalMemberTopology_spec {activeMembers : List ConsumerGroupMember}
    {localMemberId : String} {localPodId localClusterId : Option String}
    (known : canonicalMemberTopology members activeMembers localMemberId localPodId localClusterId
      = some topology) :
    topology.map ConsumerGroupMember.memberId = members
      ∧ ∀ member ∈ topology, member.podId.isSome := by
  induction members generalizing topology with
  | nil =>
    obtain rfl : [] = topology := Option.some.inj known
    exact ⟨rfl, by simp⟩
  | cons memberId rest ih =>
    rw [canonicalMemberTopology, List.mapM_cons] at known
    simp only [Option.bind_eq_bind, Option.bind_eq_some_iff, Option.map_eq_some_iff,
      Option.pure_def, Option.some.injEq] at known
    obtain ⟨_, ⟨⟨podId, clusterId⟩, -, rfl⟩, later, restKnown, rfl⟩ := known
    obtain ⟨ids, pods⟩ := ih restKnown
    refine ⟨by rw [List.map_cons, ids], ?_⟩
    intro member inTopology
    rcases List.mem_cons.mp inTopology with rfl | inLater
    · rfl
    · exact pods member inLater

theorem onePod_of_nodup
    (distinct : (topology.map ConsumerGroupMember.memberId).Nodup) : OnePod topology := by
  intro first inFirst second inSecond same
  rw [List.inj_on_of_nodup_map distinct inFirst inSecond same]

/-- Every computed plan is accepted by the check. -/
theorem computed_plan_valid (members : List String) (partitions : List VirtualPartitionId)
    (previous : AssignmentMap) (previousTopology activeMembers : List ConsumerGroupMember)
    (localMemberId : String) (localPodId localClusterId : Option String)
    (logicalPartitionCount repairPercent version : Nat) (publishedTsMs : Int)
    (named : isBlank localMemberId = false) (positive : 0 < logicalPartitionCount) :
    (∃ assignment,
      cooperativeStickyAssignment members partitions previous localMemberId logicalPartitionCount
          repairPercent = some assignment
      ∧ assignmentPlanValidationError (assignmentPlan version members partitions assignment none
          localMemberId publishedTsMs) partitions = none)
    ∧ ∀ topology, canonicalMemberTopology (canonicalMembersWithLocal members localMemberId)
        activeMembers localMemberId localPodId localClusterId = some topology →
      ∃ assignment,
        cooperativeStickyAssignmentWithTopology topology previousTopology partitions previous
            logicalPartitionCount repairPercent = some assignment
        ∧ assignmentPlanValidationError (assignmentPlan version members partitions assignment
            (some topology) localMemberId publishedTsMs) partitions = none := by
  have isMember := local_mem_canonicalMembers members named
  have distinct := nodup_canonicalMembers members localMemberId
  constructor
  · obtain ⟨assignment, computed, settled, -⟩ := cooperativeStickyAssignment_settled members
      partitions previous localMemberId repairPercent positive (List.ne_nil_of_mem isMember)
    have writes : Writes (assignmentPlan version members partitions assignment none localMemberId
        publishedTsMs) partitions assignment := ⟨rfl, isMember, distinct, fun partition member =>
      settled.complete partition (mem_sortedDistinct.mpr member)⟩
    exact ⟨assignment, computed, writes.valid_flat rfl settled.rounded.withinOne⟩
  · intro topology known
    rw [canonicalMembersWithLocal_eq named] at known
    obtain ⟨ids, pods⟩ := canonicalMemberTopology_spec known
    have onePod : OnePod topology := onePod_of_nodup (ids ▸ distinct)
    have some_record : topology ≠ [] := by
      rintro rfl
      rw [← ids] at isMember
      exact List.not_mem_nil isMember
    obtain ⟨assignment, computed, settled, -⟩ := withTopology_settled onePod pods some_record
      previousTopology partitions previous repairPercent positive
    have writes : Writes (assignmentPlan version members partitions assignment (some topology)
        localMemberId publishedTsMs) partitions assignment := by
      refine ⟨rfl, isMember, distinct, ?_⟩
      intro partition member
      obtain ⟨podId, -, located⟩ := settled.pods.complete partition (mem_sortedDistinct.mpr member)
      obtain ⟨worker, assigned, recorded⟩ := Option.bind_eq_some_iff.mp located
      refine ⟨worker, ?_, assigned⟩
      obtain ⟨record, isRecord, -, rfl⟩ := mem_podWorkers.mp ((recordedPod_eq_some onePod).mp recorded)
      show record.memberId ∈ canonicalMembers members localMemberId
      rw [← ids]
      exact List.mem_map_of_mem isRecord
    exact ⟨assignment, computed, writes.valid_topology rfl ids pods onePod settled⟩

/-- Two members in two pods, with a previous owner that has left. -/
theorem computed_plan_valid_two_pods :
    isBlank "a" = false ∧ 0 < 4
      ∧ canonicalMemberTopology (canonicalMembersWithLocal ["b"] "a")
          [⟨"b", some "pod-b", none⟩] "a" (some "pod-a") none
        = some [⟨"a", some "pod-a", none⟩, ⟨"b", some "pod-b", none⟩]
      ∧ ∃ assignment, cooperativeStickyAssignmentWithTopology
          [⟨"a", some "pod-a", none⟩, ⟨"b", some "pod-b", none⟩] [] [0, 4, 1, 1]
          (fun _ => some "gone") 4 50 = some assignment
        ∧ assignmentPlanValidationError (assignmentPlan 1 ["b"] [0, 4, 1, 1] assignment
          (some [⟨"a", some "pod-a", none⟩, ⟨"b", some "pod-b", none⟩]) "a" 0) [0, 4, 1, 1]
            = none := by
  have known : canonicalMemberTopology (canonicalMembersWithLocal ["b"] "a")
      [⟨"b", some "pod-b", none⟩] "a" (some "pod-a") none
        = some [⟨"a", some "pod-a", none⟩, ⟨"b", some "pod-b", none⟩] := by decide +kernel
  exact ⟨by decide, by decide, known, (computed_plan_valid ["b"] [0, 4, 1, 1] (fun _ => some "gone") []
    [⟨"b", some "pod-b", none⟩] "a" (some "pod-a") none 4 50 1 0 (by decide) (by decide)).2 _ known⟩

end BlobStream.Consumer.Sticky
