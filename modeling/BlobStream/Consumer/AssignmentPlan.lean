import BlobStream.Lib.SortedDistinct
import BlobStream.Store.Membership

/-!
# Assignment plans

How a planner writes down a computed assignment, and the check every member applies to a plan before
it accepts it.
-/

namespace BlobStream.Consumer

open GroupMembership Sorted

/-! ### Canonical inputs -/

/-- `char::is_whitespace`, the Unicode White_Space property. -/
def isWhitespace (char : Char) : Bool :=
  let code := char.toNat
  (9 ≤ code ∧ code ≤ 13) ∨ code = 0x20 ∨ code = 0x85 ∨ code = 0xA0 ∨ code = 0x1680
    ∨ (0x2000 ≤ code ∧ code ≤ 0x200A) ∨ code = 0x2028 ∨ code = 0x2029 ∨ code = 0x202F
    ∨ code = 0x205F ∨ code = 0x3000

def isBlank (text : String) : Bool := text.toList.all isWhitespace

def canonicalMembers (members : List String) (localMemberId : String) : List String :=
  let named := members.filter fun member => !isBlank member
  let complete :=
    if !isBlank localMemberId && localMemberId ∉ named then named ++ [localMemberId] else named
  sortedDistinct (· ≤ ·) complete

theorem nodup_canonicalMembers (members : List String) (localMemberId : String) :
    (canonicalMembers members localMemberId).Nodup :=
  nodup_sortedDistinct _

variable {localMemberId : String}

/-- A named local member is always part of the group. -/
theorem local_mem_canonicalMembers (members : List String) (named : isBlank localMemberId = false) :
    localMemberId ∈ canonicalMembers members localMemberId := by
  simp only [canonicalMembers, mem_sortedDistinct, named, Bool.not_false, Bool.true_and,
    decide_eq_true_eq]
  split
  · simp
  · next present => exact not_not.mp present

/-- The coordinator's own version adds the local member even if its id is blank. -/
def canonicalMembersWithLocal (members : List String) (localMemberId : String) : List String :=
  let named := members.filter fun member => !isBlank member
  sortedDistinct (· ≤ ·) (if localMemberId ∉ named then named ++ [localMemberId] else named)

theorem canonicalMembersWithLocal_eq (named : isBlank localMemberId = false) (members : List String) :
    canonicalMembersWithLocal members localMemberId = canonicalMembers members localMemberId := by
  simp only [canonicalMembersWithLocal, canonicalMembers, named, Bool.not_false, Bool.true_and,
    decide_eq_true_eq]

/-- The pod and cluster recorded for a member; the local configuration wins for this process. -/
def topologyOf (activeMembers : List ConsumerGroupMember) (localMemberId : String)
    (localPodId localClusterId : Option String) (memberId : String) :
    Option (String × Option String) :=
  match localPodId with
  | some podId =>
    if memberId = localMemberId then some (podId, localClusterId)
    else recorded
  | none => recorded
where
  /-- Later rows of the listing replace earlier ones. -/
  recorded : Option (String × Option String) :=
    activeMembers.reverse.findSome? fun member =>
      if member.memberId = memberId then member.podId.map (·, member.clusterId) else none

/-- A pod for every member, or no topology at all. -/
def canonicalMemberTopology (members : List String) (activeMembers : List ConsumerGroupMember)
    (localMemberId : String) (localPodId localClusterId : Option String) :
    Option (List ConsumerGroupMember) :=
  members.mapM fun memberId =>
    (topologyOf activeMembers localMemberId localPodId localClusterId memberId).map
      fun (podId, clusterId) => ⟨memberId, some podId, clusterId⟩

/-! ### Writing a plan -/

abbrev AssignmentMap := VirtualPartitionId → Option String

def planAssignmentMap (plan : ConsumerGroupAssignmentPlan) : AssignmentMap := fun partition =>
  plan.assignments.reverse.findSome? fun assignment =>
    if assignment.virtualPartitionId = partition then some assignment.memberId else none

def assignmentPlan (version : Nat) (members : List String) (partitions : List VirtualPartitionId)
    (assignments : AssignmentMap) (memberTopology : Option (List ConsumerGroupMember))
    (localMemberId : String) (publishedTsMs : Int) : ConsumerGroupAssignmentPlan where
  version := version
  plannerMemberId := localMemberId
  members := canonicalMembers members localMemberId
  memberTopology := memberTopology
  colocateLogicalPartitions := true
  assignments := (sortedDistinct (· ≤ ·) partitions).filterMap fun partition =>
    (assignments partition).map fun memberId => ⟨partition, memberId⟩
  publishedTsMs := publishedTsMs

/-! ### Checking a plan -/

inductive AssignmentPlanValidationError
  | emptyMembers
  | plannerNotMember
  | assignmentCountMismatch (expected actual : Nat)
  | assignmentOwnerNotMember (memberId : String)
  | duplicatePartitionAssignment (virtualPartitionId : VirtualPartitionId)
  | missingExpectedPartition (virtualPartitionId : VirtualPartitionId)
  | topologyMembersMismatch
  | topologyMemberWithoutPod (memberId : String)
  | imbalancedLoad (minLoad maxLoad : Nat)
deriving DecidableEq, Repr

/-- The pass over the assignments: owners are members and no partition repeats. -/
def assignmentsError (members : List String) :
    List VirtualPartitionId → List ConsumerGroupAssignment → Option AssignmentPlanValidationError
  | _, [] => none
  | seen, assignment :: rest =>
    if assignment.memberId ∉ members then some (.assignmentOwnerNotMember assignment.memberId)
    else if assignment.virtualPartitionId ∈ seen then
      some (.duplicatePartitionAssignment assignment.virtualPartitionId)
    else assignmentsError members (assignment.virtualPartitionId :: seen) rest

/-- Loads that differ by more than one. -/
def imbalance (loads : List Nat) : Option AssignmentPlanValidationError :=
  let minLoad := loads.min?.getD 0
  let maxLoad := loads.max?.getD 0
  if 1 < maxLoad - minLoad then some (.imbalancedLoad minLoad maxLoad) else none

def memberLoad (plan : ConsumerGroupAssignmentPlan) (memberId : String) : Nat :=
  plan.assignments.countP (·.memberId = memberId)

/-- The pass over the topology: every record has a pod and no member repeats. -/
def topologyError : List String → List ConsumerGroupMember → Option AssignmentPlanValidationError
  | _, [] => none
  | seen, member :: rest =>
    if member.podId.isNone then some (.topologyMemberWithoutPod member.memberId)
    else if member.memberId ∈ seen then some .topologyMembersMismatch
    else topologyError (member.memberId :: seen) rest

/-- Balance of whole pods first, then of the members inside each pod. -/
def podBalanceError (plan : ConsumerGroupAssignmentPlan) (topology : List ConsumerGroupMember) :
    Option AssignmentPlanValidationError :=
  let podOf (memberId : String) : Option String :=
    (topology.find? (·.memberId = memberId)).bind ConsumerGroupMember.podId
  let pods := (plan.members.map podOf).dedup
  let podLoads := pods.map fun pod => plan.assignments.countP fun assignment =>
    podOf assignment.memberId = pod
  (imbalance podLoads).or (pods.findSome? fun pod =>
    imbalance ((plan.members.filter fun memberId => podOf memberId = pod).map (memberLoad plan)))

def assignmentPlanValidationError (plan : ConsumerGroupAssignmentPlan)
    (partitions : List VirtualPartitionId) : Option AssignmentPlanValidationError :=
  let expected := sortedDistinct (· ≤ ·) partitions
  let assigned := plan.assignments.map ConsumerGroupAssignment.virtualPartitionId
  if plan.members.isEmpty then some .emptyMembers
  else if plan.plannerMemberId ∉ plan.members then some .plannerNotMember
  else if plan.assignments.length ≠ expected.length then
    some (.assignmentCountMismatch expected.length plan.assignments.length)
  else match assignmentsError plan.members [] plan.assignments with
  | some error => some error
  | none =>
    match expected.find? (· ∉ assigned) with
    | some partition => some (.missingExpectedPartition partition)
    | none =>
      match plan.memberTopology with
      | none => imbalance (plan.members.map (memberLoad plan))
      | some topology =>
        if topology.length ≠ plan.members.length then some .topologyMembersMismatch
        else match topologyError [] topology with
        | some error => some error
        | none =>
          let recorded := topology.map ConsumerGroupMember.memberId
          if recorded.length ≠ plan.members.dedup.length ∨ ¬ ∀ member ∈ plan.members, member ∈ recorded
          then some .topologyMembersMismatch
          else podBalanceError plan topology

end BlobStream.Consumer
