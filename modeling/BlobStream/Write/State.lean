import BlobStream.Write.Buffer

/-!
# Local write state of a broker

`SeqAllocator` hands out sequence numbers from a reservation made in the lease store,
`PartitionState` is everything a broker keeps for one virtual partition, and `WriteState` holds the
local assignment together with the partition states, all behind one mutex.
-/

namespace BlobStream.Write

open Word
open ProducerLeases (ProducerLeaseFence ProducerSequenceProgress)

/-! ### Sequence allocation -/

structure SeqAllocator where
  reservation : Option SeqRange := none
  nextSeq : Nat := 0
  lastHandedOutSeq : Option Nat := none
deriving DecidableEq, Repr

namespace SeqAllocator

def hasReservation (allocator : SeqAllocator) : Bool := allocator.reservation.isSome

def remainingCapacity (allocator : SeqAllocator) : Nat :=
  match allocator.reservation with
  | none => 0
  | some reservation =>
    match checkedSub reservation.end allocator.nextSeq with
    | none => 0
    | some remaining => saturatingAdd u64Max remaining 1

def canAllocate (allocator : SeqAllocator) (count : Nat) : Bool :=
  match allocator.reservation with
  | none => false
  | some reservation =>
    if count = 0 then false
    else saturatingAdd u64Max allocator.nextSeq (count - 1) ≤ reservation.end

def allocate (allocator : SeqAllocator) (count : Nat) : Option (SeqRange × SeqAllocator) :=
  if !allocator.canAllocate count then none
  else match checkedAdd u64Max allocator.nextSeq (count - 1) with
    | none => none
    | some last =>
      some (⟨allocator.nextSeq, last⟩,
        { allocator with
          nextSeq := saturatingAdd u64Max last 1
          lastHandedOutSeq := some last })

def sequenceProgress (allocator : SeqAllocator) : ProducerSequenceProgress where
  leaseSequenceStart := allocator.reservation.map SeqRange.start
  lastHandedOutSeq := allocator.lastHandedOutSeq

/-- The range continues the reservation without a gap. -/
def adjacent (reservation range : SeqRange) : Bool :=
  checkedAdd u64Max reservation.end 1 = some range.start

def installOrExtendReservation (allocator : SeqAllocator) (range : SeqRange) : SeqAllocator :=
  match allocator.reservation with
  | none => { allocator with nextSeq := range.start, reservation := some range }
  | some reservation =>
    if adjacent reservation range then
      { allocator with reservation := some { reservation with «end» := range.end } }
    else { allocator with nextSeq := range.start, reservation := some range }

theorem allocate_eq_some {allocator next : SeqAllocator} {count : Nat} {range : SeqRange}
    (allocated : allocator.allocate count = some (range, next)) :
    ∃ reservation, allocator.reservation = some reservation ∧ 0 < count
      ∧ range.end ≤ reservation.end ∧ range.end ≤ u64Max
      ∧ range = ⟨allocator.nextSeq, allocator.nextSeq + (count - 1)⟩
      ∧ next = { allocator with
          nextSeq := saturatingAdd u64Max range.end 1
          lastHandedOutSeq := some range.end } := by
  unfold allocate at allocated
  split at allocated
  · simp at allocated
  next possible =>
    simp only [Bool.not_eq_true', Bool.not_eq_false, canAllocate] at possible
    split at possible
    · simp at possible
    next reservation reserved =>
      split at possible
      · simp at possible
      next positive =>
        split at allocated
        · simp at allocated
        next last lastEq =>
          obtain ⟨sum, bound⟩ := checkedAdd_eq_some.mp lastEq
          simp only [decide_eq_true_eq, saturatingAdd, sum] at possible
          cases allocated
          refine ⟨reservation, reserved, by omega, ?_, bound, by rw [sum], rfl⟩
          show last ≤ reservation.end
          omega

/-- A new range extends the reservation it is adjacent to, and replaces any other. -/
theorem installOrExtendReservation_cases (allocator : SeqAllocator) (range : SeqRange) :
    (∃ reservation, allocator.reservation = some reservation ∧ adjacent reservation range = true
      ∧ allocator.installOrExtendReservation range
        = { allocator with reservation := some { reservation with «end» := range.end } })
    ∨ allocator.installOrExtendReservation range
      = { allocator with nextSeq := range.start, reservation := some range } := by
  unfold installOrExtendReservation
  split
  · exact Or.inr rfl
  next reservation reserved =>
    split
    next continues => exact Or.inl ⟨reservation, reserved, continues, rfl⟩
    next => exact Or.inr rfl

end SeqAllocator

/-! ### One virtual partition -/

structure PartitionState where
  buffer : BufferState := {}
  seqAllocator : SeqAllocator := {}
  adaptiveReservationSize : Option Nat := none
  recordsAllocatedSinceLeaseMaintenance : Nat := 0
  leaseExpirationAt : Option Int := none
  leaseFence : Option ProducerLeaseFence := none
  publicationTail : Option PublicationChannel := none
  /-- Epochs taken and not completed. The source saturates at the largest `usize`, which that many
  epochs in memory cannot reach. -/
  outstandingFlushes : Nat := 0
  allocationInFlight : Bool := false
  allocationStartedAt : Option Int := none
  draining : Bool := false
deriving DecidableEq, Repr

namespace PartitionState

def needsLease (state : PartitionState) (now : Int) : Bool :=
  match state.leaseExpirationAt with
  | none => true
  | some expiration => expiration ≤ now

def isDrained (state : PartitionState) : Bool :=
  state.outstandingFlushes = 0 ∧ !state.allocationInFlight ∧ state.buffer.batches.isEmpty

/-- The current reservation target, and the state that now remembers it. -/
def reservationTarget (state : PartitionState) (baseReservationSize : Nat) :
    Nat × PartitionState :=
  let target := state.adaptiveReservationSize.getD baseReservationSize
  (target, { state with adaptiveReservationSize := some target })

def doubleReservationTarget (state : PartitionState) (baseReservationSize : Nat) :
    Nat × PartitionState :=
  let previous := (state.reservationTarget baseReservationSize).1
  let target := min (saturatingMul u64Max previous 2) u32Max
  (target, { state with adaptiveReservationSize := some target })

def resetSequenceAllocation (state : PartitionState) : PartitionState :=
  { state with
    seqAllocator := {}
    adaptiveReservationSize := none
    recordsAllocatedSinceLeaseMaintenance := 0 }

/-- A terminal release fences the old lease and drops what was reserved under it. -/
def terminallyReleased (state : PartitionState) : PartitionState :=
  { state with leaseExpirationAt := none, leaseFence := none }.resetSequenceAllocation

end PartitionState

/-! ### The whole broker -/

structure LocalAssignment where
  active : Bool := false
  generation : Nat := 0
  partitions : Finset PartitionKey := ∅
deriving DecidableEq

structure WriteState where
  assignment : LocalAssignment := {}
  partitions : PartitionKey → Option PartitionState := fun _ => none

namespace WriteState

def setPartition (state : WriteState) (key : PartitionKey) (value : Option PartitionState) :
    WriteState :=
  { state with partitions := Function.update state.partitions key value }

/-- The generation advances only when the set of partitions changes. -/
def publishAssignment (state : WriteState) (partitions : Finset PartitionKey) : WriteState :=
  { state with
    assignment :=
      { active := true
        generation :=
          if state.assignment.partitions ≠ partitions then
            saturatingAdd u64Max state.assignment.generation 1
          else state.assignment.generation
        partitions := partitions } }

def assignmentGenerationForPartition (state : WriteState) (key : PartitionKey) : Option Nat :=
  if state.assignment.active ∧ key ∈ state.assignment.partitions then
    some state.assignment.generation
  else none

def assignmentGenerationIsCurrent (state : WriteState) (key : PartitionKey)
    (assignmentGeneration : Nat) : Bool :=
  state.assignmentGenerationForPartition key = some assignmentGeneration

/-- `partition_state_mut`: a partition without state starts from the default one. -/
def partitionState (state : WriteState) (key : PartitionKey) : PartitionState :=
  (state.partitions key).getD {}

def clearTerminallyReleasedPartition (state : WriteState) (key : PartitionKey) : WriteState :=
  match state.partitions key with
  | none => state
  | some partition =>
    let cleared := partition.terminallyReleased
    -- An unassigned drained partition is retired; any other keeps its fenced state.
    if (state.assignmentGenerationForPartition key).isNone ∧ cleared.draining
        ∧ cleared.isDrained then
      state.setPartition key none
    else state.setPartition key (some cleared)

@[simp] theorem setPartition_self (state : WriteState) (key : PartitionKey)
    (value : Option PartitionState) : (state.setPartition key value).partitions key = value := by
  simp [setPartition]

@[simp] theorem setPartition_of_ne (state : WriteState) {key other : PartitionKey}
    (value : Option PartitionState) (different : other ≠ key) :
    (state.setPartition key value).partitions other = state.partitions other := by
  simp [setPartition, different]

@[simp] theorem generation_setPartition (state : WriteState) (key other : PartitionKey)
    (value : Option PartitionState) :
    (state.setPartition key value).assignmentGenerationForPartition other
      = state.assignmentGenerationForPartition other := rfl

end WriteState

end BlobStream.Write
