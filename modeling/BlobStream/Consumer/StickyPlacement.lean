import BlobStream.Consumer.AssignmentPlan

/-!
# Sticky placement

One layer of the desired ownership of a consumer group: logical groups of partitions, exact capacities
of the owners, the partitions that stay where they were, and the gaps that are filled afterwards.
A lookup, an `expect` or a subtraction that would panic is `none`.
-/

namespace BlobStream.Consumer.Sticky

open Sorted

abbrev LogicalGroups := List (Nat × List VirtualPartitionId)

/-- Larger groups first, logical ids between groups of one size. -/
def groupKey (group : Nat × List VirtualPartitionId) : ℕᵒᵈ ×ₗ ℕ :=
  toLex (OrderDual.toDual group.2.length, group.1)

def logicalGroup (partitions : List VirtualPartitionId) (logicalPartitionCount logicalId : Nat) :
    Nat × List VirtualPartitionId :=
  (logicalId, sortedDistinct (· ≤ ·)
    (partitions.filter (· % logicalPartitionCount = logicalId)))

/-- The groups of all logical ids, in the order in which they are considered. -/
def logicalGroups (partitions : List VirtualPartitionId) (logicalPartitionCount : Nat) :
    LogicalGroups :=
  let logicalIds := sortedDistinct (· ≤ ·) (partitions.map (· % logicalPartitionCount))
  (logicalIds.map (logicalGroup partitions logicalPartitionCount)).insertionSort (byKey groupKey)

def groupedPartitions (groups : LogicalGroups) : List VirtualPartitionId :=
  groups.flatMap Prod.snd

def ownerLoad (partitions : List VirtualPartitionId) (assignment : AssignmentMap) (owner : String) :
    Nat :=
  partitions.countP (assignment · = some owner)

abbrev Capacities := String → Option Nat

/-- The cluster preference first, more surviving inventory second, ids last. -/
def residualKey (residualPreference : Option (String → Option Nat)) (previousLoad : String → Nat)
    (owner : String) : ℕ ×ₗ ℕᵒᵈ ×ₗ String :=
  toLex ((residualPreference.bind (· owner)).getD 0,
    toLex (OrderDual.toDual (previousLoad owner), owner))

/-- Owners in the order in which they are offered the slots left over by the division. -/
def residualOwners (owners : List String) (residualPreference : Option (String → Option Nat))
    (previousLoad : String → Nat) : List String :=
  owners.insertionSort (byKey (residualKey residualPreference previousLoad))

/-- One more slot for an owner; a lookup that finds nothing panics. -/
def addSlot (capacity : Capacities) (owner : String) : Option Capacities :=
  (capacity owner).map fun slots => Function.update capacity owner (some (slots + 1))

/-- The groups and exact capacities of one layer. A logical count of zero panics. -/
def colocatedInputs (owners : List String) (partitions : List VirtualPartitionId)
    (previous : AssignmentMap) (logicalPartitionCount : Nat)
    (residualPreference : Option (String → Option Nat)) : Option (LogicalGroups × Capacities) :=
  if owners.isEmpty || partitions.isEmpty then some ([], fun _ => none)
  else if logicalPartitionCount = 0 then none
  else do
    let groups := logicalGroups partitions logicalPartitionCount
    let total := (groups.map fun group => group.2.length).sum
    let average : Capacities := fun owner =>
      if owner ∈ owners then some (total / owners.length) else none
    let previousLoad := ownerLoad (groupedPartitions groups) previous
    let residual := residualOwners owners residualPreference previousLoad
    let capacity ← (residual.take (total % owners.length)).foldlM addSlot average
    return (groups, capacity)

/-! ### Placing the partitions -/

structure Placement where
  assignment : AssignmentMap
  capacity : Capacities

/-- The partition takes one of the owner's slots; an owner without one panics. -/
def Placement.take (placement : Placement) (partition : VirtualPartitionId) (owner : String) :
    Option Placement :=
  match placement.capacity owner with
  | some (slots + 1) => some
    { assignment := Function.update placement.assignment partition (some owner)
      capacity := Function.update placement.capacity owner (some slots) }
  | _ => none

/-- A partition whose previous owner has a slot left stays there. -/
def Placement.retain (previous : AssignmentMap) (placement : Placement)
    (partition : VirtualPartitionId) : Placement :=
  ((previous partition).bind (placement.take partition)).getD placement

/-- Whether the owner can take every missing partition and already holds the rest of the group. -/
def fitsWhole (placement : Placement) (group missing : List VirtualPartitionId) (owner : String) :
    Option Bool :=
  (placement.capacity owner).map fun slots =>
    missing.length ≤ slots && group.all fun partition =>
      (placement.assignment partition).all (· = owner)

/-- The owner with most slots left, and the smallest id among those. -/
def largestRemaining (owners : List String) (placement : Placement) : Option String := do
  let remaining ← owners.mapM fun owner => (placement.capacity owner).map (owner, ·)
  let (owner, _) ← (remaining.filter fun entry => 0 < entry.2).argmin fun entry =>
    (toLex (OrderDual.toDual entry.2, entry.1) : ℕᵒᵈ ×ₗ String)
  return owner

def fillPartition (owners : List String) (wholeOwner : Option String) (placement : Placement)
    (partition : VirtualPartitionId) : Option Placement := do
  let owner ← wholeOwner.or (largestRemaining owners placement)
  placement.take partition owner

def fillGroup (owners : List String) (placement : Placement)
    (group : Nat × List VirtualPartitionId) : Option Placement := do
  let missing := group.2.filter fun partition => (placement.assignment partition).isNone
  let wholeOwner ← owners.findM? (fitsWhole placement group.2 missing)
  missing.foldlM (fillPartition owners wholeOwner) placement

/-- Every survivor reserves its slot first; then the gaps are filled group by group. -/
def retainedColocatedCandidate (owners : List String) (groups : LogicalGroups)
    (previous : AssignmentMap) (capacity : Capacities) : Option AssignmentMap := do
  let reserved := (groupedPartitions groups).foldl (Placement.retain previous)
    ⟨fun _ => none, capacity⟩
  let filled ← groups.foldlM (fillGroup owners) reserved
  return filled.assignment

def assignStickyGroups (owners : List String) (partitions : List VirtualPartitionId)
    (previous : AssignmentMap) (logicalPartitionCount : Nat)
    (residualPreference : Option (String → Option Nat)) : Option AssignmentMap :=
  if owners.isEmpty || partitions.isEmpty then some fun _ => none
  else do
    let (groups, capacity) ← colocatedInputs owners partitions previous logicalPartitionCount
      residualPreference
    retainedColocatedCandidate owners groups previous capacity

end BlobStream.Consumer.Sticky
