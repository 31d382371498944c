import BlobStream.Consumer.Coordinator
import BlobStream.Consumer.Delivery

/-!
# State shared by driver, prefetch worker and iterator

Every function here runs under one lock. A read fence stops the worker from admitting a partition at
once; the worker learns of it later, from a command that carries the epoch of the fence. The
assignment that retires a fence has to carry an epoch that is not older.
-/

namespace BlobStream.Consumer

open Word

abbrev ReadEpoch := Nat

structure SharedState (R : Type) where
  activePartitions : ActivePartitions := ∅
  readEpoch : ReadEpoch := 0
  readFencedPartitions : AList fun _ : VirtualPartitionId => ReadEpoch := ∅
  deliveryFenceEpoch : Option ReadEpoch := none
  deliveryState : DeliveryState R := {}

namespace SharedState

variable {R : Type} [Payload R] (shared : SharedState R)

def applySeek (partition : VirtualPartitionId) (offset : Nat) : Except String (SharedState R) :=
  if partition ∈ shared.readFencedPartitions then
    .error s!"consumer partition {partition} is read-fenced"
  else if partition ∈ shared.activePartitions then
    .ok { shared with
      activePartitions := shared.activePartitions.insert partition
        { pendingCommit := none
          deliveredSourceRanges := []
          deliveryGapBaseline := some offset
          lastDeliveredSource := none
          lastStoredSource := none }
      deliveryState := shared.deliveryState.dropPartitions [partition] }
  else .error s!"cannot seek unassigned virtual partition {partition}"

def readAllowed (partition : VirtualPartitionId) : Bool :=
  decide (partition ∈ shared.activePartitions) && decide (partition ∉ shared.readFencedPartitions)

/-- Fence reads at once, without removing what the application may still commit. The epoch has no
bound: the source asserts that a `u64` does not run out, and saturates if it does. -/
def fenceReads (partitions : List VirtualPartitionId) : SharedState R :=
  { shared with
    readEpoch := shared.readEpoch + 1
    readFencedPartitions := shared.readFencedPartitions.insertAll partitions (shared.readEpoch + 1)
    deliveryState := shared.deliveryState.dropPartitions partitions }

/-- The assignment is the one that follows the revocation in progress. -/
def completesReadRevocation (readEpoch : ReadEpoch) (releaseDeliveryFence : Bool) : Bool :=
  releaseDeliveryFence && shared.deliveryFenceEpoch.any (· ≤ readEpoch)

def assignmentReadAllowed (partition : VirtualPartitionId) (readEpoch : ReadEpoch)
    (releaseDeliveryFence : Bool) : Bool :=
  match shared.readFencedPartitions.lookup partition with
  | none => true
  | some epoch =>
    decide (epoch ≤ readEpoch)
      && (shared.deliveryFenceEpoch.isNone
        || shared.completesReadRevocation readEpoch releaseDeliveryFence)

/-- Retire the fences an assignment covers; a later revocation stays fenced. -/
def completeReadAssignment (readEpoch : ReadEpoch) (releaseDeliveryFence : Bool) : SharedState R :=
  let completed := shared.completesReadRevocation readEpoch releaseDeliveryFence
  { shared with
    readFencedPartitions :=
      if shared.deliveryFenceEpoch.isNone || completed then
        -- `retain` sees the epoch of each entry.
        shared.readFencedPartitions.filterMapValues fun epoch =>
          if readEpoch < epoch then some epoch else none
      else shared.readFencedPartitions
    deliveryFenceEpoch := if completed then none else shared.deliveryFenceEpoch
    deliveryState := { shared.deliveryState with
      revocationInProgress := shared.deliveryState.revocationInProgress && !completed } }

/-- Align what may be committed with the assignment the reader was given. -/
def applyActiveAssignment (assignment : List VirtualPartitionId) : SharedState R :=
  let removed := shared.activePartitions.keys.filter (· ∉ assignment)
  { shared with
    activePartitions :=
      (shared.activePartitions.retain (· ∈ assignment)).orInsertAll assignment {}
    deliveryState :=
      if removed.isEmpty then shared.deliveryState else shared.deliveryState.dropPartitions removed }

def removeFencedPartitions (fenced : List VirtualPartitionId) : SharedState R :=
  { shared.fenceReads fenced with
    activePartitions := shared.activePartitions.retain (· ∉ fenced) }

/-- Fence partitions until the application acknowledged their revocation. -/
def beginRevocation (revoked : List VirtualPartitionId) : SharedState R :=
  let fenced := shared.fenceReads revoked
  { fenced with
    deliveryFenceEpoch := some fenced.readEpoch
    deliveryState := { fenced.deliveryState with
      pendingRevocation := some revoked
      revocationInProgress := true } }

/-- `hydrate_cursors`: recovered cursors are the baseline of the first delivery. -/
def publishCursors (recovered : List (VirtualPartitionId × RecoveredCursor)) : SharedState R :=
  { shared with
    activePartitions := recovered.foldl (fun active entry =>
      let state := (active.lookup entry.1).getD {}
      active.insert entry.1 { state with
        deliveryGapBaseline :=
          state.deliveryGapBaseline.or (some entry.2.committedCursor.seqEnd) })
      shared.activePartitions }

def deliveredSource (state : ActivePartitionState) (offset : Nat) : Option DeliveredSource :=
  state.deliveredSourceRanges.findSome? fun range =>
    if range.startOffset ≤ offset ∧ offset ≤ range.endOffset then
      some ⟨offset, range.sourceCheckpoint, range.source⟩
    else none

def storeOffset (partition : VirtualPartitionId) (offset : Nat) : Except String (SharedState R) :=
  match shared.activePartitions.lookup partition with
  | none => .error s!"cannot store cursor for unassigned virtual partition {partition}"
  | some state =>
    match deliveredSource state offset with
    | none =>
      .error s!"cannot store offset {offset} for partition {partition}: offset was not delivered"
    | some stored =>
      let staged := (state.pendingCommit.map PendingCommit.offset).getD 0
      if offset < staged then
        .error s!"cannot store offset {offset} below staged offset {staged} for partition {partition}"
      else
        .ok { shared with
          activePartitions := shared.activePartitions.insert partition
            { state with
              pendingCommit := some ⟨offset, stored.sourceCheckpoint⟩
              lastStoredSource := some stored } }

def pendingCommits : AList fun _ : VirtualPartitionId => PendingCommit :=
  shared.activePartitions.filterMapValues ActivePartitionState.pendingCommit

/-- `record_successful_heartbeat`: committed ranges need not be remembered. -/
def recordSuccessfulHeartbeat (renewed : List VirtualPartitionId)
    (commits : AList fun _ : VirtualPartitionId => PendingCommit) : SharedState R :=
  { shared with
    activePartitions := shared.activePartitions.mapValues fun partition state =>
      match commits.lookup partition with
      | some commit =>
        if partition ∈ renewed then
          { state with
            deliveredSourceRanges :=
              state.deliveredSourceRanges.filter fun range => commit.offset < range.endOffset }
        else state
      | none => state }

/-! ### Fences -/

def fence (partition : VirtualPartitionId) : Option ReadEpoch :=
  shared.readFencedPartitions.lookup partition

variable {partition : VirtualPartitionId}

omit [Payload R] in
theorem not_mem_fences {shared : SharedState R} :
    partition ∉ shared.readFencedPartitions ↔ shared.fence partition = none :=
  AList.lookup_eq_none.symm

omit [Payload R] in
theorem fence_congr {shared next : SharedState R}
    (fences : next.readFencedPartitions = shared.readFencedPartitions) :
    next.fence partition = shared.fence partition := by
  unfold fence
  rw [fences]

theorem fence_fenceReads (partitions : List VirtualPartitionId) (partition : VirtualPartitionId) :
    (shared.fenceReads partitions).fence partition =
      if partition ∈ partitions then some (shared.readEpoch + 1) else shared.fence partition :=
  AList.lookup_insertAll partitions _ _ partition

theorem fence_beginRevocation (revoked : List VirtualPartitionId) (partition : VirtualPartitionId) :
    (shared.beginRevocation revoked).fence partition =
      if partition ∈ revoked then some (shared.readEpoch + 1) else shared.fence partition :=
  shared.fence_fenceReads revoked partition

theorem fence_removeFencedPartitions (fenced : List VirtualPartitionId)
    (partition : VirtualPartitionId) :
    (shared.removeFencedPartitions fenced).fence partition =
      if partition ∈ fenced then some (shared.readEpoch + 1) else shared.fence partition :=
  shared.fence_fenceReads fenced partition

omit [Payload R] in
/-- A fence that is newer than an assignment outlives it, and every fence outlives an assignment
that does not complete the revocation in progress. -/
theorem fence_completeReadAssignment (readEpoch : ReadEpoch) (release : Bool)
    (partition : VirtualPartitionId) (epoch : ReadEpoch) :
    (shared.completeReadAssignment readEpoch release).fence partition = some epoch ↔
      shared.fence partition = some epoch
        ∧ (readEpoch < epoch ∨ shared.deliveryFenceEpoch.isSome
          ∧ shared.completesReadRevocation readEpoch release = false) := by
  unfold fence completeReadAssignment
  dsimp only
  split
  next retires =>
    rw [AList.lookup_filterMapValues, Option.bind_eq_some_iff]
    constructor
    · rintro ⟨found, known, kept⟩
      obtain ⟨newer, rfl⟩ := Machine.enabled kept
      exact ⟨known, .inl newer⟩
    · rintro ⟨known, newer | ⟨pending, incomplete⟩⟩
      · exact ⟨epoch, known, if_pos newer⟩
      · rw [Option.isSome_iff_ne_none] at pending
        simp [incomplete, pending] at retires
  next keeps =>
    constructor
    · intro known
      refine ⟨known, .inr ?_⟩
      simpa [Option.isSome_iff_ne_none] using keeps
    · exact And.left

/-! ### Queue -/

variable {batch : BufferedBatch R}

theorem mem_held_beginRevocation {revoked : List VirtualPartitionId} :
    batch ∈ (shared.beginRevocation revoked).deliveryState.held ↔
      batch ∈ shared.deliveryState.held ∧ batch.virtualPartitionId ∉ revoked :=
  DeliveryState.mem_held_dropPartitions

theorem mem_held_removeFencedPartitions {fenced : List VirtualPartitionId} :
    batch ∈ (shared.removeFencedPartitions fenced).deliveryState.held ↔
      batch ∈ shared.deliveryState.held ∧ batch.virtualPartitionId ∉ fenced :=
  DeliveryState.mem_held_dropPartitions

theorem mem_held_applyActiveAssignment {assignment : List VirtualPartitionId}
    (member : batch ∈ (shared.applyActiveAssignment assignment).deliveryState.held) :
    batch ∈ shared.deliveryState.held := by
  unfold applyActiveAssignment at member
  dsimp only at member
  split at member
  · exact member
  · exact (DeliveryState.mem_held_dropPartitions.mp member).1

variable {offset : Nat} {next : SharedState R}

theorem applySeek_eq_ok (accepted : shared.applySeek partition offset = .ok next) :
    shared.fence partition = none ∧ partition ∈ shared.activePartitions
      ∧ next = { shared with
        activePartitions :=
          shared.activePartitions.insert partition { deliveryGapBaseline := some offset }
        deliveryState := shared.deliveryState.dropPartitions [partition] } := by
  unfold applySeek at accepted
  split at accepted
  · cases accepted
  next unfenced =>
    split at accepted
    next active =>
      cases accepted
      exact ⟨not_mem_fences.mp unfenced, active, rfl⟩
    next => cases accepted

omit [Payload R] in
/-- An accepted offset was delivered, is not below the staged one, and replaces it. -/
theorem storeOffset_eq_ok (accepted : shared.storeOffset partition offset = .ok next) :
    ∃ state checkpoint source, shared.activePartitions.lookup partition = some state
      ∧ state.Covers offset checkpoint
      ∧ (∀ staged, state.pendingCommit = some staged → staged.offset ≤ offset)
      ∧ next = { shared with
        activePartitions := shared.activePartitions.insert partition
          { state with
            pendingCommit := some ⟨offset, checkpoint⟩
            lastStoredSource := some source } } := by
  unfold storeOffset at accepted
  split at accepted
  · cases accepted
  next state found =>
    split at accepted
    · cases accepted
    next stored delivered =>
      dsimp only at accepted
      split at accepted
      · cases accepted
      next notBelow =>
        cases accepted
        refine ⟨state, stored.sourceCheckpoint, stored, found, ?_, fun staged known => ?_, rfl⟩
        · obtain ⟨range, member, selected⟩ := List.exists_of_findSome?_eq_some delivered
          obtain ⟨inside, rfl⟩ := Machine.enabled selected
          exact ⟨range, member, inside.1, inside.2, rfl⟩
        · rw [known] at notBelow
          exact Nat.le_of_not_lt notBelow

end SharedState

end BlobStream.Consumer
