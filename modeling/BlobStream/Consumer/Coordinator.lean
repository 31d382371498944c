import BlobStream.Consumer.AssignmentPlan
import BlobStream.Store.ConsumerLeases

/-!
# Coordinator of one consumer group member

A coordinator keeps a copy of every lease it was granted. Its operations make one store call per
partition and bring the copies up to date with the answers: a rebalance and a heartbeat after all
their calls were answered, a release after each call.
-/

namespace BlobStream.Consumer

open GroupMembership ConsumerLeases

abbrev OwnedLeases := AList fun _ : VirtualPartitionId => ConsumerGroupLease

structure Coordinator where
  /-- Version of the assignment plan this member follows. -/
  generation : Nat := 0
  owned : OwnedLeases := ∅

structure RecoveredCursor where
  committedCursor : CommittedCursor
  committedTsMs : Option Int
deriving DecidableEq, Repr

/-! ### Rebalance -/

/-- Desired owners; without an accepted plan nobody owns anything. -/
def desiredAssignment (plan : Option ConsumerGroupAssignmentPlan) : AssignmentMap :=
  match plan with
  | some plan => planAssignmentMap plan
  | none => fun _ => none

/-- A member follows the plan it accepts. -/
def Coordinator.accept (coordinator : Coordinator) (plan : Option ConsumerGroupAssignmentPlan) :
    Coordinator :=
  match plan with
  | some plan => { coordinator with generation := plan.version }
  | none => coordinator

/-- The member holds the partition for the plan it follows. -/
def Coordinator.holdsCurrent (coordinator : Coordinator) (partition : VirtualPartitionId) : Bool :=
  match coordinator.owned.lookup partition with
  | some lease => lease.generation = coordinator.generation
  | none => false

/-- Partitions the plan gives to this member and that it does not hold for this plan. -/
def Coordinator.partitionsToClaim (coordinator : Coordinator) (memberId : String)
    (desired : AssignmentMap) (partitions : List VirtualPartitionId) : List VirtualPartitionId :=
  partitions.filter fun partition =>
    desired partition = some memberId && !coordinator.holdsCurrent partition

/-- What a rebalance gathers from the answers to its claims. -/
structure ClaimProgress where
  owned : OwnedLeases
  ownedPartitions : List VirtualPartitionId
  recoveredCursors : List (VirtualPartitionId × RecoveredCursor) := []
  retryError : Option String := none

/-- One answer; only partitions the store granted are tracked. -/
def ClaimProgress.apply (progress : ClaimProgress) (partition : VirtualPartitionId) :
    Except String ConsumerGroupAssignmentOutcome → ClaimProgress
  | .error error => { progress with retryError := progress.retryError.or (some error) }
  | .ok (.assigned lease _ _) =>
    { progress with
      owned := progress.owned.insert partition lease
      ownedPartitions :=
        if partition ∈ progress.ownedPartitions then progress.ownedPartitions
        else progress.ownedPartitions ++ [partition]
      recoveredCursors := progress.recoveredCursors ++
        (lease.committedCursor.map fun cursor =>
          (partition, (⟨cursor, lease.committedTsMs⟩ : RecoveredCursor))).toList }
  | .ok (.heldByOther _) =>
    { progress with
      owned := progress.owned.erase partition
      ownedPartitions := progress.ownedPartitions.filter (· ≠ partition) }

structure RebalanceReport where
  ownedPartitions : List VirtualPartitionId
  activePartitionLeaseExpirationDeadlineMs : Option Int
  recoveredCursors : List (VirtualPartitionId × RecoveredCursor)
  retryError : Option String
deriving DecidableEq, Repr

abbrev ClaimOutcome := VirtualPartitionId × Except String ConsumerGroupAssignmentOutcome

/-- Bring the copies up to date with the answers to the claims, in the order of their completion. -/
def Coordinator.finishRebalance (coordinator : Coordinator) (memberId : String)
    (desired : AssignmentMap) (outcomes : List ClaimOutcome) : Coordinator × RebalanceReport :=
  let start : ClaimProgress :=
    { owned := coordinator.owned
      ownedPartitions := coordinator.owned.keys.filter fun partition =>
        desired partition = some memberId && coordinator.holdsCurrent partition }
  let progress := outcomes.foldl (fun progress outcome => progress.apply outcome.1 outcome.2) start
  let owned := progress.ownedPartitions.insertionSort (· ≤ ·)
  ({ coordinator with owned := progress.owned },
    { ownedPartitions := owned
      activePartitionLeaseExpirationDeadlineMs :=
        (owned.filterMap fun partition =>
          (progress.owned.lookup partition).map (·.leaseExpirationTsMs)).min?
      recoveredCursors := progress.recoveredCursors
      retryError := progress.retryError })

/-! ### Heartbeats and commits -/

inductive LeaseMaintenanceOperation
  | heartbeat
  | commitCursor
deriving DecidableEq, Repr

inductive LeaseMaintenanceOutcome
  | renewed (lease : ConsumerGroupLease)
  | heldByOther (lease : ConsumerGroupLease)
  | expired
deriving DecidableEq, Repr

abbrev StagedCursors := AList fun _ : VirtualPartitionId => CommittedCursor

/-- Partitions and generations an operation addresses: every lease is renewed, but only leases with
a staged cursor are committed. -/
def Coordinator.partitionsToMaintain (coordinator : Coordinator) (cursors : StagedCursors) :
    LeaseMaintenanceOperation → List (VirtualPartitionId × Nat)
  | .heartbeat => coordinator.owned.entries.map fun entry => (entry.1, entry.2.generation)
  | .commitCursor => cursors.keys.filterMap fun partition =>
    (coordinator.owned.lookup partition).map fun lease => (partition, lease.generation)

def maintenanceOfHeartbeat : ConsumerGroupHeartbeatOutcome → LeaseMaintenanceOutcome
  | .renewed lease => .renewed lease
  | .heldByOther lease => .heldByOther lease
  | .expired => .expired

def maintenanceOfCommit : ConsumerGroupCommitOutcome → LeaseMaintenanceOutcome
  | .committed lease => .renewed lease
  | .heldByOther lease => .heldByOther lease
  | .expired => .expired

structure HeartbeatReport where
  renewedPartitions : List VirtualPartitionId
  fencedPartitions : List VirtualPartitionId
deriving DecidableEq, Repr

abbrev MaintenanceOutcome := VirtualPartitionId × Except String LeaseMaintenanceOutcome

/-- One answer: a lease that is no longer this member's is dropped. -/
def maintainLease (owned : OwnedLeases) (outcome : MaintenanceOutcome) : OwnedLeases :=
  match outcome.2 with
  | .error _ => owned
  | .ok (.renewed lease) => owned.insert outcome.1 lease
  | .ok (.heldByOther _) => owned.erase outcome.1
  | .ok .expired => owned.erase outcome.1

/-- Every answer is taken into account before an error of another partition is returned. -/
def Coordinator.finishMaintenance (coordinator : Coordinator) (outcomes : List MaintenanceOutcome) :
    Coordinator × Except String HeartbeatReport :=
  let renewed := outcomes.filterMap fun outcome =>
    match outcome.2 with
    | .ok (.renewed _) => some outcome.1
    | _ => none
  let fenced := outcomes.filterMap fun outcome =>
    match outcome.2 with
    | .ok (.heldByOther _) | .ok .expired => some outcome.1
    | _ => none
  let failed := outcomes.findSome? fun outcome =>
    match outcome.2 with
    | .error error => some error
    | .ok _ => none
  ({ coordinator with owned := outcomes.foldl maintainLease coordinator.owned },
    match failed with
    | some error => .error error
    | none => .ok
      { renewedPartitions := renewed.insertionSort (· ≤ ·)
        fencedPartitions := fenced.insertionSort (· ≤ ·) })

/-! ### Release -/

/-- Whatever the store answers, the released lease is dropped. -/
def Coordinator.finishRelease (coordinator : Coordinator) (partition : VirtualPartitionId) :
    Coordinator :=
  { coordinator with owned := coordinator.owned.erase partition }

end BlobStream.Consumer
