import BlobStream.Consumer.Reader
import BlobStream.Consumer.SharedState

/-!
# Prefetch worker

The worker owns the reader. In a loop it applies the commands of the driver, admits the batches it
holds back to the delivery queue as far as the byte budget goes, and reads. Reading is asynchronous:
fences are published while a pass is in flight, and its output is filtered when it arrives.
-/

namespace BlobStream.Consumer

open Word

/-! ### Capacity -/

/-- Payload bytes one pass may decode. -/
structure ReadCapacity where
  remainingPayloadBytes : Nat
  oversizedBatchAllowed : Bool
deriving DecidableEq, Repr

/-! ### State -/

/-- Mutations of the reader, in the order the driver sent them. -/
inductive ReaderCommand
  | hydrateCursors (recovered : List (VirtualPartitionId × RecoveredCursor)) (now : Int)
  | setAssignment (assignment : List VirtualPartitionId) (now : Int) (releaseDeliveryFence : Bool)
      (readEpoch : ReadEpoch)
  | suspendReadPartitions (partitions : List VirtualPartitionId) (readEpoch : ReadEpoch)
  | seek (partition : VirtualPartitionId) (target : ConsumerSeekTarget) (now : Int)
deriving DecidableEq, Repr

structure PendingBatches (R : Type) where
  batches : List (ConsumerBatch R) := []
  bytes : Nat := 0
deriving DecidableEq, Repr

inductive WorkerPhase
  /-- Between two commands. -/
  | commands
  /-- The reader has its new assignment, the fences it retires are still there. -/
  | assigning (readEpoch : ReadEpoch) (releaseDeliveryFence : Bool)
  /-- The command queue was found empty. -/
  | admitting
  /-- Pending batches were all admitted. -/
  | admitted
  /-- A read pass is in flight. -/
  | reading (capacity : ReadCapacity)
  | stopped
deriving DecidableEq, Repr

structure Worker (R : Type) where
  reader : Reader := {}
  pending : PendingBatches R := {}
  phase : WorkerPhase := .commands

/-! ### Pending batches -/

namespace PendingBatches

variable {R : Type} [Payload R]

/-- `retain_pending_batches`. -/
def retain (keep : VirtualPartitionId → Bool) (pending : PendingBatches R) : PendingBatches R where
  batches := pending.batches.filter fun batch => keep batch.virtualPartitionId
  bytes := (pending.batches.filter fun batch => !keep batch.virtualPartitionId).foldl
    (fun bytes batch => bytes - prefetchedBatchBytes batch) pending.bytes

/-- Output of a read pass. -/
def extend (pending : PendingBatches R) (batches : List (ConsumerBatch R)) : PendingBatches R where
  batches := pending.batches ++ batches
  bytes := saturatingAdd u64Max pending.bytes (batches.map prefetchedBatchBytes).sum

/-- Move batches to the delivery queue until the budget is used up. One batch may cross the budget,
so that an oversized batch is delivered. -/
def admitFrom (prefetchMaxBytes : Nat) :
    List (ConsumerBatch R) → Nat → SharedState R → SharedState R × PendingBatches R
  | [], bytes, shared => (shared, ⟨[], bytes⟩)
  | batch :: rest, bytes, shared =>
    let batchBytes := prefetchedBatchBytes batch
    if !shared.readAllowed batch.virtualPartitionId then
      admitFrom prefetchMaxBytes rest (bytes - batchBytes) shared
    else
      let retained := shared.deliveryState.retainedBytes
      if prefetchMaxBytes < saturatingAdd u64Max retained batchBytes ∧ 0 < retained then
        (shared, ⟨batch :: rest, bytes⟩)
      else
        admitFrom prefetchMaxBytes rest (bytes - batchBytes)
          { shared with deliveryState := { shared.deliveryState with
              batches := shared.deliveryState.batches ++ [batch]
              bufferedBytes :=
                saturatingAdd u64Max shared.deliveryState.bufferedBytes batchBytes } }

def admitPendingBatches (prefetchMaxBytes : Nat) (pending : PendingBatches R) (shared : SharedState R) :
    SharedState R × PendingBatches R :=
  admitFrom prefetchMaxBytes pending.batches pending.bytes shared

theorem mem_retain {keep : VirtualPartitionId → Bool} {pending : PendingBatches R}
    {batch : ConsumerBatch R} :
    batch ∈ (pending.retain keep).batches ↔
      batch ∈ pending.batches ∧ keep batch.virtualPartitionId = true :=
  List.mem_filter

/-- Admission changes the queue only: it appends batches of partitions that may be read. -/
structure Admitted (pending : List (ConsumerBatch R)) (before after : SharedState R)
    (left : List (ConsumerBatch R)) : Prop where
  activePartitions : after.activePartitions = before.activePartitions
  readEpoch : after.readEpoch = before.readEpoch
  readFencedPartitions : after.readFencedPartitions = before.readFencedPartitions
  deliveryFenceEpoch : after.deliveryFenceEpoch = before.deliveryFenceEpoch
  pendingRevocation : after.deliveryState.pendingRevocation = before.deliveryState.pendingRevocation
  revocationInProgress :
    after.deliveryState.revocationInProgress = before.deliveryState.revocationInProgress
  held : ∀ batch ∈ after.deliveryState.held, batch ∈ before.deliveryState.held
    ∨ ∃ admitted ∈ pending, batch = admitted.buffered
      ∧ before.readAllowed admitted.virtualPartitionId = true
  left : ∀ batch ∈ left, batch ∈ pending

theorem admitFrom_spec (prefetchMaxBytes : Nat) (batches : List (ConsumerBatch R)) (bytes : Nat)
    (shared : SharedState R) :
    Admitted batches shared (admitFrom prefetchMaxBytes batches bytes shared).1
      (admitFrom prefetchMaxBytes batches bytes shared).2.batches := by
  induction batches generalizing bytes shared with
  | nil => exact ⟨rfl, rfl, rfl, rfl, rfl, rfl, fun _ held => .inl held, fun _ left => left⟩
  | cons batch rest ih =>
    unfold admitFrom
    dsimp only
    split
    next =>
      obtain ⟨active, epoch, fences, delivery, pending, flag, held, left⟩ :=
        ih (bytes - prefetchedBatchBytes batch) shared
      refine ⟨active, epoch, fences, delivery, pending, flag, fun held' member => ?_,
        fun other member => List.mem_cons_of_mem _ (left other member)⟩
      rcases held held' member with old | ⟨admitted, listed, facts⟩
      · exact .inl old
      · exact .inr ⟨admitted, List.mem_cons_of_mem _ listed, facts⟩
    next allowed =>
      split
      · exact ⟨rfl, rfl, rfl, rfl, rfl, rfl, fun _ held => .inl held, fun _ left => left⟩
      · obtain ⟨active, epoch, fences, delivery, pending, flag, held, left⟩ :=
          ih (bytes - prefetchedBatchBytes batch) { shared with
            deliveryState := { shared.deliveryState with
              batches := shared.deliveryState.batches ++ [batch]
              bufferedBytes := saturatingAdd u64Max shared.deliveryState.bufferedBytes
                (prefetchedBatchBytes batch) } }
        refine ⟨active, epoch, fences, delivery, pending, flag, fun held' member => ?_,
          fun other member => List.mem_cons_of_mem _ (left other member)⟩
        rcases held held' member with old | ⟨admitted, listed, facts⟩
        · simp only [DeliveryState.held, List.map_append, List.map_cons, List.map_nil,
            List.mem_append, List.mem_singleton] at old ⊢
          rcases old with current | queued | rfl
          · exact .inl (.inl current)
          · exact .inl (.inr queued)
          · exact .inr ⟨batch, List.mem_cons_self, rfl, by simpa using allowed⟩
        · exact .inr ⟨admitted, List.mem_cons_of_mem _ listed, facts⟩

theorem admit_spec (prefetchMaxBytes : Nat) (pending : PendingBatches R) (shared : SharedState R) :
    Admitted pending.batches shared (pending.admitPendingBatches prefetchMaxBytes shared).1
      (pending.admitPendingBatches prefetchMaxBytes shared).2.batches :=
  admitFrom_spec prefetchMaxBytes pending.batches pending.bytes shared

end PendingBatches

/-! ### Commands -/

namespace Worker

variable {R : Type} [Payload R] (config : ReaderConfig) (worker : Worker R)

/-- Capacity that queued, pending and partly delivered records leave. -/
def readCapacity (prefetchMaxBytes : Nat) (shared : SharedState R) : Option ReadCapacity :=
  let retained := saturatingAdd u64Max shared.deliveryState.retainedBytes worker.pending.bytes
  if retained < prefetchMaxBytes then some ⟨prefetchMaxBytes - retained, retained = 0⟩ else none

def hydrateCursors (settings : ReadSettings)
    (recovered : List (VirtualPartitionId × RecoveredCursor)) (now : Int) : Worker R :=
  { worker with
    reader := recovered.foldl (fun reader entry =>
      reader.hydrateCursorWithSource config settings entry.1 entry.2.committedCursor
        entry.2.committedTsMs now) worker.reader }

/-- The partitions of an assignment that no newer fence and no other revocation excludes. -/
def allowedAssignment (shared : SharedState R) (assignment : List VirtualPartitionId)
    (releaseDeliveryFence : Bool) (readEpoch : ReadEpoch) : List VirtualPartitionId :=
  assignment.filter fun partition =>
    shared.assignmentReadAllowed partition readEpoch releaseDeliveryFence

/-- Give the reader its assignment; the fences are retired in a second step. -/
def setAssignment (shared : SharedState R) (assignment : List VirtualPartitionId) (now : Int)
    (releaseDeliveryFence : Bool) (readEpoch : ReadEpoch) : Worker R :=
  let allowed := allowedAssignment shared assignment releaseDeliveryFence readEpoch
  { reader := worker.reader.setAssignedVirtualPartitions config allowed now
    pending := worker.pending.retain (· ∈ allowed)
    phase := .assigning readEpoch releaseDeliveryFence }

/-- Suspend the partitions whose fence is still the one the command was sent for. -/
def suspendReadPartitions (shared : SharedState R) (partitions : List VirtualPartitionId)
    (readEpoch : ReadEpoch) : Worker R :=
  let revoked := partitions.filter fun partition =>
    shared.readFencedPartitions.lookup partition = some readEpoch
  { worker with
    reader := worker.reader.suspendReadPartitions revoked
    pending := worker.pending.retain (· ∉ revoked) }

def seek (settings : ReadSettings) (partition : VirtualPartitionId) (target : ConsumerSeekTarget)
    (now : Int) : Worker R :=
  { worker with
    reader := worker.reader.seek config settings partition target now
    pending := worker.pending.retain (· ≠ partition) }

/-- Output of a pass without the partitions that were fenced while it was in flight. -/
def discardFenced (shared : SharedState R) (batches : List (ConsumerBatch R)) :
    List (ConsumerBatch R) :=
  batches.filter fun batch => batch.virtualPartitionId ∉ shared.readFencedPartitions

end Worker

end BlobStream.Consumer
