import BlobStream.Consumer.PlacementRepair

/-!
# Cooperative sticky assignment

The desired owner of every partition: flat over the members, or over pods first and over the workers of
each pod second when every member has a pod. Optional repair follows a complete placement.
-/

namespace BlobStream.Consumer.Sticky

open GroupMembership Sorted

def assignedPartitions (partitions : List VirtualPartitionId) (assignment : AssignmentMap) :
    List VirtualPartitionId :=
  (sortedDistinct (· ≤ ·) partitions).filter fun partition => (assignment partition).isSome

def workerDomains (workers : List String) : Domains := fun worker =>
  if worker ∈ workers then some worker else none

def repairLayer (partitions : List VirtualPartitionId) (baseline : AssignmentMap)
    (logicalPartitionCount budget : Nat) (assignment : AssignmentMap) (domains : Domains) :
    Option AssignmentMap :=
  consolidate (assignedPartitions partitions assignment) assignment baseline domains
    logicalPartitionCount budget

def cooperativeStickyAssignment (members : List String) (partitions : List VirtualPartitionId)
    (previous : AssignmentMap) (localMemberId : String) (logicalPartitionCount repairPercent : Nat) :
    Option AssignmentMap := do
  let owners := canonicalMembers members localMemberId
  let assignment ← assignStickyGroups owners partitions previous logicalPartitionCount none
  let budget := movementBudget (assignedPartitions partitions assignment).length repairPercent
  if 0 < budget then
    repairLayer partitions assignment logicalPartitionCount budget assignment (workerDomains owners)
  else return assignment

/-! ### Pods and clusters -/

/-- The pod a listing records for a member; later records replace earlier ones. -/
def recordedPod (members : List ConsumerGroupMember) (memberId : String) : Option String :=
  members.reverse.findSome? fun member =>
    if member.memberId = memberId then member.podId else none

/-- Current records first, records of the accepted plan for members that have left. -/
def memberPods (members previousMembers : List ConsumerGroupMember) (memberId : String) :
    Option String :=
  (recordedPod members memberId).or (recordedPod previousMembers memberId)

def podIds (members : List ConsumerGroupMember) : List String :=
  sortedDistinct (· ≤ ·) (members.filterMap ConsumerGroupMember.podId)

def podWorkers (members : List ConsumerGroupMember) (podId : String) : List String :=
  sortedDistinct (· ≤ ·) ((members.filter (·.podId = some podId)).map ConsumerGroupMember.memberId)

/-- The cluster of each pod seen so far, and whether every record agrees with them. -/
structure ClusterView where
  podClusters : String → Option String := fun _ => none
  complete : Bool := true

def ClusterView.add (view : ClusterView) (member : ConsumerGroupMember) : ClusterView :=
  match member.podId with
  | none => view
  | some podId =>
    match member.clusterId, view.podClusters podId with
    | some clusterId, some existing =>
      if clusterId = existing then view else { view with complete := false }
    | some clusterId, none =>
      { view with podClusters := Function.update view.podClusters podId (some clusterId) }
    | none, _ => { view with complete := false }

def clusterView (members : List ConsumerGroupMember) : ClusterView :=
  members.foldl ClusterView.add {}

def podClusterCount (podClusters : String → Option String) (pods : List String) (podId : String) :
    Nat :=
  ((podClusters podId).map fun clusterId =>
    pods.countP fun pod => podClusters pod = some clusterId).getD 0

/-- Smaller clusters are preferred, if the cluster of every pod is known. -/
def residualPreference (members : List ConsumerGroupMember) : Option (String → Option Nat) :=
  let view := clusterView members
  let pods := podIds members
  if view.complete then some fun podId =>
    if podId ∈ pods then some (podClusterCount view.podClusters pods podId) else none
  else none

/-! ### Pods first, workers second -/

def placeWorkers (members : List ConsumerGroupMember) (partitions : List VirtualPartitionId)
    (previous partitionPods : AssignmentMap) (logicalPartitionCount : Nat) (placed : AssignmentMap)
    (podId : String) : Option AssignmentMap := do
  let podPartitions := partitions.filter fun partition => partitionPods partition = some podId
  let workers ← assignStickyGroups (podWorkers members podId) podPartitions previous
    logicalPartitionCount none
  return fun partition => (workers partition).or (placed partition)

def topologyBaseline (members previousMembers : List ConsumerGroupMember)
    (partitions : List VirtualPartitionId) (previous : AssignmentMap) (logicalPartitionCount : Nat) :
    Option AssignmentMap := do
  let previousPods : AssignmentMap := fun partition =>
    (previous partition).bind (memberPods members previousMembers)
  let partitionPods ← assignStickyGroups (podIds members) partitions previousPods
    logicalPartitionCount (residualPreference members)
  (podIds members).foldlM (placeWorkers members partitions previous partitionPods
    logicalPartitionCount) fun _ => none

def cooperativeStickyAssignmentWithTopology (members previousMembers : List ConsumerGroupMember)
    (partitions : List VirtualPartitionId) (previous : AssignmentMap)
    (logicalPartitionCount repairPercent : Nat) : Option AssignmentMap :=
  if members.any fun member => member.podId.isNone then
    let memberIds := members.map ConsumerGroupMember.memberId
    cooperativeStickyAssignment memberIds partitions previous (memberIds.head?.getD "")
      logicalPartitionCount repairPercent
  else do
    let baseline ← topologyBaseline members previousMembers partitions previous logicalPartitionCount
    let budget := movementBudget (assignedPartitions partitions baseline).length repairPercent
    if 0 < budget then
      -- The pod of every active member is looked up while the domains are built.
      let _ ← members.mapM fun member => memberPods members previousMembers member.memberId
      let activePods : Domains := fun worker =>
        if worker ∈ members.map ConsumerGroupMember.memberId then
          memberPods members previousMembers worker
        else none
      let repaired ← repairLayer partitions baseline logicalPartitionCount budget baseline activePods
      (podIds members).foldlM (fun assignment podId =>
        repairLayer partitions baseline logicalPartitionCount budget assignment
          (workerDomains (podWorkers members podId))) repaired
    else return baseline

end BlobStream.Consumer.Sticky
