import BlobStream.Lib.FiniteMap
import BlobStream.Write.Segment

/-!
# Delivery queue of a consumer iterator

The prefetch worker appends batches to a queue, the iterator hands out their records one by one or
in runs. What the application may commit is remembered per active partition as ranges of delivered
offsets with the checkpoint of the row that supplied them.
-/

namespace BlobStream.Consumer

open Write (BlobKey Record)
open Word

/-! ### Batches -/

/-- Records whose payload counts against a byte budget. The record type is a parameter, so that a
run can tell the records of one read from those of another. -/
class Payload (R : Type) where
  payloadLen : R → Nat

instance : Payload Record where
  payloadLen record := record.payload.length

open Payload (payloadLen)

/-- Immutable metadata and blob provenance of a batch. -/
structure ConsumerBatchSource where
  blobKey : BlobKey
  metadataPublishedAt : Int
deriving DecidableEq, Repr

structure ConsumerBatch (R : Type) where
  virtualPartitionId : VirtualPartitionId
  seqRange : SeqRange
  sourceCheckpoint : CommittedSourceCheckpoint
  source : ConsumerBatchSource
  /-- Number of the scan snapshot all batches of one read pass share. -/
  admissionScan : Option Nat
  records : List R
deriving DecidableEq, Repr

/-- A batch that is being handed out; `nextOffset` belongs to the first record left. -/
structure BufferedBatch (R : Type) where
  virtualPartitionId : VirtualPartitionId
  endOffset : Nat
  nextOffset : Nat
  sourceCheckpoint : CommittedSourceCheckpoint
  source : ConsumerBatchSource
  admissionScan : Option Nat
  remainingPayloadBytes : Nat
  records : List R
deriving DecidableEq, Repr

structure ConsumerRecord (R : Type) where
  virtualPartitionId : VirtualPartitionId
  offset : Nat
  sourceCheckpoint : CommittedSourceCheckpoint
  record : R
deriving DecidableEq, Repr

section

variable {R : Type} [Payload R]

def prefetchedBatchBytes (batch : ConsumerBatch R) : Nat :=
  batch.records.foldl (fun bytes record => saturatingAdd u64Max bytes (payloadLen record)) 0

def ConsumerBatch.buffered (batch : ConsumerBatch R) : BufferedBatch R where
  virtualPartitionId := batch.virtualPartitionId
  endOffset := batch.seqRange.end
  nextOffset := batch.seqRange.start
  sourceCheckpoint := batch.sourceCheckpoint
  source := batch.source
  admissionScan := batch.admissionScan
  remainingPayloadBytes := prefetchedBatchBytes batch
  records := batch.records

end

/-! ### Delivered progress of a partition -/

structure DeliveredSource where
  offset : Nat
  sourceCheckpoint : CommittedSourceCheckpoint
  source : ConsumerBatchSource
deriving DecidableEq, Repr

/-- Consecutive offsets that share the checkpoint a later commit needs. -/
structure DeliveredSourceRange where
  startOffset : Nat
  endOffset : Nat
  sourceCheckpoint : CommittedSourceCheckpoint
  source : ConsumerBatchSource
deriving DecidableEq, Repr

structure PendingCommit where
  offset : Nat
  sourceCheckpoint : CommittedSourceCheckpoint
deriving DecidableEq, Repr

/-- What the iterator knows of one partition whose progress may be committed. -/
structure ActivePartitionState where
  pendingCommit : Option PendingCommit := none
  deliveredSourceRanges : List DeliveredSourceRange := []
  deliveryGapBaseline : Option Nat := none
  lastDeliveredSource : Option DeliveredSource := none
  lastStoredSource : Option DeliveredSource := none
deriving DecidableEq, Repr

abbrev ActivePartitions := AList fun _ : VirtualPartitionId => ActivePartitionState

/-- Evidence of a discontinuity the application sees. -/
structure DeliveryGap where
  virtualPartitionId : VirtualPartitionId
  expectedOffset : Nat
  receivedOffset : Nat
  missingSequences : Nat
  previousSource : Option DeliveredSource
  lastStoredSource : Option DeliveredSource
  currentBatchStartOffset : Nat
  currentBatchEndOffset : Nat
  currentSourceCheckpoint : CommittedSourceCheckpoint
  currentSource : ConsumerBatchSource
  admissionScan : Option Nat
deriving DecidableEq, Repr

variable {state : ActivePartitionState}

namespace ActivePartitionState

/-- `record_delivery_offset`: the gap between the last boundary and the offset, if there is one. -/
def recordDeliveryOffset {R : Type} (state : ActivePartitionState) (batch : BufferedBatch R)
    (offset : Nat) : ActivePartitionState × Option DeliveryGap :=
  let gap := match state.deliveryGapBaseline.bind (checkedAdd u64Max · 1) with
    | some expected =>
      if expected < offset then
        some
          { virtualPartitionId := batch.virtualPartitionId
            expectedOffset := expected
            receivedOffset := offset
            missingSequences := offset - expected
            previousSource := state.lastDeliveredSource
            lastStoredSource := state.lastStoredSource
            currentBatchStartOffset := offset
            currentBatchEndOffset := batch.endOffset
            currentSourceCheckpoint := batch.sourceCheckpoint
            currentSource := batch.source
            admissionScan := batch.admissionScan }
      else none
    | none => none
  ({ state with deliveryGapBaseline := some offset }, gap)

def extendRanges (ranges : List DeliveredSourceRange) (added : DeliveredSourceRange) :
    List DeliveredSourceRange :=
  match ranges.getLast? with
  | some last =>
    if saturatingAdd u64Max last.endOffset 1 = added.startOffset
        ∧ last.sourceCheckpoint = added.sourceCheckpoint ∧ last.source = added.source then
      ranges.dropLast ++ [{ last with endOffset := added.endOffset }]
    else ranges ++ [added]
  | none => ranges ++ [added]

def recordDeliveredRange {R : Type} (state : ActivePartitionState) (batch : BufferedBatch R)
    (startOffset endOffset : Nat) : ActivePartitionState :=
  { state with
    deliveredSourceRanges := extendRanges state.deliveredSourceRanges
      ⟨startOffset, endOffset, batch.sourceCheckpoint, batch.source⟩
    lastDeliveredSource := some ⟨endOffset, batch.sourceCheckpoint, batch.source⟩ }

/-- The offset was delivered with the checkpoint and can still be stored. -/
def Covers (state : ActivePartitionState) (offset : Nat) (checkpoint : CommittedSourceCheckpoint) :
    Prop :=
  ∃ range ∈ state.deliveredSourceRanges, range.startOffset ≤ offset ∧ offset ≤ range.endOffset
    ∧ range.sourceCheckpoint = checkpoint

theorem mem_extendRanges {ranges : List DeliveredSourceRange} {added range : DeliveredSourceRange}
    (member : range ∈ extendRanges ranges added) :
    range ∈ ranges ∨ range = added
      ∨ ∃ last ∈ ranges, range = { last with endOffset := added.endOffset }
        ∧ saturatingAdd u64Max last.endOffset 1 = added.startOffset
        ∧ last.sourceCheckpoint = added.sourceCheckpoint := by
  unfold extendRanges at member
  split at member
  next last found =>
    split at member
    next joins =>
      rcases List.mem_append.mp member with old | new
      · exact .inl (List.dropLast_subset _ old)
      · exact .inr (.inr ⟨last, List.mem_of_getLast? found, List.mem_singleton.mp new, joins.1,
          joins.2.1⟩)
    next =>
      rcases List.mem_append.mp member with old | new
      · exact .inl old
      · exact .inr (.inl (List.mem_singleton.mp new))
  next =>
    rcases List.mem_append.mp member with old | new
    · exact .inl old
    · exact .inr (.inl (List.mem_singleton.mp new))

/-- Recording a range makes its own offsets storable and no others. -/
theorem covers_recordDeliveredRange {R : Type}
    {batch : BufferedBatch R} {startOffset endOffset offset : Nat}
    {checkpoint : CommittedSourceCheckpoint}
    (covered : (state.recordDeliveredRange batch startOffset endOffset).Covers offset checkpoint) :
    state.Covers offset checkpoint
      ∨ startOffset ≤ offset ∧ offset ≤ endOffset ∧ checkpoint = batch.sourceCheckpoint := by
  obtain ⟨range, member, low, high, rfl⟩ := covered
  rcases mem_extendRanges member with old | rfl | ⟨last, old, rfl, joined, same⟩
  · exact .inl ⟨range, old, low, high, rfl⟩
  · exact .inr ⟨low, high, rfl⟩
  · -- Past the end of the extended range only the added offsets are new.
    by_cases inside : offset ≤ last.endOffset
    · exact .inl ⟨last, old, low, inside, rfl⟩
    · refine .inr ⟨?_, high, same⟩
      unfold saturatingAdd at joined
      simp only at joined
      omega

end ActivePartitionState

/-! ### The queue -/

inductive NextResult (R : Type)
  | record (record : ConsumerRecord R)
  | revoked (partitions : List VirtualPartitionId)
deriving DecidableEq, Repr

inductive NextBatchResult (R : Type)
  | records (records : List (ConsumerRecord R))
  | revoked (partitions : List VirtualPartitionId)
deriving DecidableEq, Repr

structure DeliveryResult (R : Type) where
  nextResult : NextResult R
  gap : Option DeliveryGap

structure DeliveryBatchResult (R : Type) where
  nextResult : NextBatchResult R
  gaps : List DeliveryGap

structure DeliveryState (R : Type) where
  batches : List (ConsumerBatch R) := []
  bufferedBytes : Nat := 0
  currentBatch : Option (BufferedBatch R) := none
  pendingRevocation : Option (List VirtualPartitionId) := none
  revocationInProgress : Bool := false

namespace DeliveryState

variable {R : Type} [Payload R]

def retainedBytes (delivery : DeliveryState R) : Nat :=
  saturatingAdd u64Max delivery.bufferedBytes
    (delivery.currentBatch.elim 0 BufferedBatch.remainingPayloadBytes)

/-- The current batch belongs to an active partition and has records left. -/
def deliverable (active : ActivePartitions) (batch : BufferedBatch R) : Bool :=
  decide (batch.virtualPartitionId ∈ active) && !batch.records.isEmpty

def prepareFrom (active : ActivePartitions) (delivery : DeliveryState R) :
    Option (BufferedBatch R) → Nat → List (ConsumerBatch R) → DeliveryState R × Bool
  | current, bytes, batches =>
    if current.any (deliverable active) then
      ({ delivery with batches, bufferedBytes := bytes, currentBatch := current }, true)
    else match batches with
      | [] => ({ delivery with batches := [], bufferedBytes := bytes, currentBatch := none }, false)
      | batch :: rest =>
        let next := if batch.virtualPartitionId ∈ active then some batch.buffered else none
        prepareFrom active delivery next (bytes - prefetchedBatchBytes batch) rest

/-- Make the first batch with a record of an active partition the current one. -/
def prepareCurrentBatch (delivery : DeliveryState R) (active : ActivePartitions) :
    DeliveryState R × Bool :=
  delivery.prepareFrom active delivery.currentBatch delivery.bufferedBytes delivery.batches

def takeRecord (delivery : DeliveryState R) (active : ActivePartitions) :
    DeliveryState R × ActivePartitions × Option (DeliveryResult R) :=
  match delivery.currentBatch with
  | none => (delivery, active, none)
  | some current =>
    match current.records with
    | [] => (delivery, active, none)
    | record :: rest =>
      let offset := current.nextOffset
      let taken := { delivery with
        currentBatch := some { current with
          records := rest
          remainingPayloadBytes := current.remainingPayloadBytes - payloadLen record
          nextOffset := saturatingAdd u64Max offset 1 } }
      match active.lookup current.virtualPartitionId with
      | none => (taken, active, none)
      | some state =>
        let recorded := state.recordDeliveryOffset current offset
        (taken,
          active.insert current.virtualPartitionId
            (recorded.1.recordDeliveredRange current offset offset),
          some ⟨.record ⟨current.virtualPartitionId, offset, current.sourceCheckpoint, record⟩,
            recorded.2⟩)

/-- Take the next record, or the revocation that goes before it. -/
def tryTakeNextInner (delivery : DeliveryState R) (active : ActivePartitions) :
    DeliveryState R × ActivePartitions × Option (DeliveryResult R) :=
  match delivery.pendingRevocation with
  | some revoked =>
    ({ delivery with pendingRevocation := none }, active, some ⟨.revoked revoked, none⟩)
  | none =>
    if delivery.revocationInProgress then (delivery, active, none)
    else
      let prepared := delivery.prepareCurrentBatch active
      if prepared.2 then prepared.1.takeRecord active else (prepared.1, active, none)

def plannedCapacity (maxRecords maxBytes : Nat) : Nat → Nat → List R → Nat
  | capacity, _, [] => capacity
  | capacity, planned, next :: rest =>
    if maxRecords ≤ capacity ∨ maxBytes ≤ planned ∨ maxBytes - planned < payloadLen next then capacity
    else plannedCapacity maxRecords maxBytes (capacity + 1) (planned + payloadLen next) rest

def numberRecords (batch : BufferedBatch R) : Nat → List R → List (ConsumerRecord R)
  | _, [] => []
  | offset, record :: rest =>
    ⟨batch.virtualPartitionId, offset, batch.sourceCheckpoint, record⟩
      :: numberRecords batch (saturatingAdd u64Max offset 1) rest

def offsetAfter (offset : Nat) : Nat → Nat
  | 0 => offset
  | count + 1 => offsetAfter (saturatingAdd u64Max offset 1) count

structure Gathered (R : Type) where
  delivery : DeliveryState R
  active : ActivePartitions
  records : List (ConsumerRecord R)
  gaps : List DeliveryGap

def takeRun (gathered : Gathered R) (current : BufferedBatch R) (state : ActivePartitionState)
    (count : Nat) : Gathered R :=
  let start := current.nextOffset
  let last := saturatingAdd u64Max start (count - 1)
  let taken := current.records.take count
  let recorded := state.recordDeliveryOffset current start
  let bytes := taken.foldl (fun bytes record => saturatingAdd u64Max bytes (payloadLen record)) 0
  { delivery := { gathered.delivery with
      currentBatch := some { current with
        records := current.records.drop count
        remainingPayloadBytes := current.remainingPayloadBytes - bytes
        nextOffset := offsetAfter start taken.length } }
    active := gathered.active.insert current.virtualPartitionId
      ({ recorded.1 with deliveryGapBaseline := some last }.recordDeliveredRange current start last)
    records := gathered.records ++ numberRecords current start taken
    gaps := gathered.gaps ++ recorded.2.toList }

/-- Gather runs until `capacity` records are there. Every round takes at least one record, so
`capacity` rounds suffice. -/
def gather (capacity : Nat) : Nat → Gathered R → Gathered R
  | 0, gathered => gathered
  | rounds + 1, gathered =>
    if capacity ≤ gathered.records.length then gathered
    else
      let prepared := gathered.delivery.prepareCurrentBatch gathered.active
      let gathered := { gathered with delivery := prepared.1 }
      if !prepared.2 then gathered
      else match prepared.1.currentBatch with
        | none => gathered
        | some current =>
          match gathered.active.lookup current.virtualPartitionId with
          | none => gathered
          | some state =>
            gather capacity rounds <| takeRun gathered current state <|
              min current.records.length (capacity - gathered.records.length)

/-- Take a run of records within the limits, or the revocation that goes before it. -/
def tryTakeBatch (delivery : DeliveryState R) (active : ActivePartitions)
    (maxRecords maxBytes : Nat) :
    DeliveryState R × ActivePartitions × Option (DeliveryBatchResult R) :=
  match delivery.tryTakeNextInner active with
  | (delivery, active, none) => (delivery, active, none)
  | (delivery, active, some ⟨.revoked revoked, _⟩) =>
    (delivery, active, some ⟨.revoked revoked, []⟩)
  | (delivery, active, some ⟨.record first, gap⟩) =>
    let queued := (delivery.batches.filter (·.virtualPartitionId ∈ active)).flatMap (·.records)
    let planned := delivery.currentBatch.elim [] BufferedBatch.records ++ queued
    let capacity := plannedCapacity maxRecords maxBytes 1 (payloadLen first.record) planned
    let gathered := gather capacity capacity ⟨delivery, active, [first], gap.toList⟩
    (gathered.delivery, gathered.active, some ⟨.records gathered.records, gathered.gaps⟩)

def dropPartitions (delivery : DeliveryState R) (partitions : List VirtualPartitionId) :
    DeliveryState R :=
  let batches := delivery.batches.filter (·.virtualPartitionId ∉ partitions)
  { delivery with
    currentBatch := delivery.currentBatch.filter (·.virtualPartitionId ∉ partitions)
    batches
    bufferedBytes := (batches.map prefetchedBatchBytes).sum }

/-! ### Held batches -/

def held (delivery : DeliveryState R) : List (BufferedBatch R) :=
  delivery.currentBatch.toList ++ delivery.batches.map ConsumerBatch.buffered

/-- A property of a partition, a checkpoint, and records from an offset on holds for every held
batch. -/
def AllHeld (delivery : DeliveryState R)
    (P : VirtualPartitionId → CommittedSourceCheckpoint → Nat → List R → Prop) : Prop :=
  ∀ batch ∈ delivery.held,
    P batch.virtualPartitionId batch.sourceCheckpoint batch.nextOffset batch.records

/-- The property survives handing out a record. -/
def Advances (P : VirtualPartitionId → CommittedSourceCheckpoint → Nat → List R → Prop) : Prop :=
  ∀ partition checkpoint offset record rest, P partition checkpoint offset (record :: rest) →
    P partition checkpoint (saturatingAdd u64Max offset 1) rest

variable {delivery : DeliveryState R} {batch : BufferedBatch R}

theorem mem_held_dropPartitions {partitions : List VirtualPartitionId} :
    batch ∈ (delivery.dropPartitions partitions).held ↔
      batch ∈ delivery.held ∧ batch.virtualPartitionId ∉ partitions := by
  simp only [held, dropPartitions, List.mem_append, Option.mem_toList,
    Option.filter_eq_some_iff, decide_eq_true_eq, List.mem_map, List.mem_filter]
  constructor
  · rintro (⟨current, kept⟩ | ⟨queued, ⟨listed, kept⟩, rfl⟩)
    · exact ⟨.inl current, kept⟩
    · exact ⟨.inr ⟨queued, listed, rfl⟩, kept⟩
  · rintro ⟨current | ⟨queued, listed, rfl⟩, kept⟩
    · exact .inl ⟨current, kept⟩
    · exact .inr ⟨queued, ⟨listed, kept⟩, rfl⟩

/-- Preparing only discards batches and keeps the revocation. -/
theorem prepareFrom_spec (active : ActivePartitions) (delivery : DeliveryState R)
    (current : Option (BufferedBatch R)) (bytes : Nat) (batches : List (ConsumerBatch R)) :
    let prepared := delivery.prepareFrom active current bytes batches
    (∀ batch ∈ prepared.1.held,
        batch ∈ current.toList ++ batches.map ConsumerBatch.buffered)
      ∧ prepared.1.pendingRevocation = delivery.pendingRevocation
      ∧ prepared.1.revocationInProgress = delivery.revocationInProgress
      ∧ (prepared.2 = true → ∃ batch, prepared.1.currentBatch = some batch
        ∧ deliverable active batch = true) := by
  induction batches generalizing current bytes with
  | nil =>
    unfold prepareFrom
    split
    next ready =>
      exact ⟨fun _ member => member, rfl, rfl, fun _ => (Option.any_eq_true _ _).mp ready⟩
    next => exact ⟨fun _ member => by simp [held] at member, rfl, rfl, nofun⟩
  | cons first rest ih =>
    unfold prepareFrom
    split
    next ready =>
      exact ⟨fun _ member => member, rfl, rfl, fun _ => (Option.any_eq_true _ _).mp ready⟩
    next =>
      obtain ⟨fewer, pending, flag, found⟩ := ih
        (if first.virtualPartitionId ∈ active then some first.buffered else none)
        (bytes - prefetchedBatchBytes first)
      refine ⟨fun batch member => ?_, pending, flag, found⟩
      have kept := fewer batch member
      split at kept
      · simp only [Option.toList_some, List.cons_append, List.nil_append, List.mem_cons] at kept
        simp only [List.map_cons, List.mem_append, List.mem_cons]
        exact .inr kept
      · simp only [Option.toList_none, List.nil_append] at kept
        simp only [List.map_cons, List.mem_append, List.mem_cons]
        exact .inr (.inr kept)

theorem mem_held_of_current (current : delivery.currentBatch = some batch) :
    batch ∈ delivery.held := by
  simp [held, current]

omit [Payload R] in
/-- What a property says of a batch, it says of the records of a run and of what the run leaves. -/
theorem Advances.run {P : VirtualPartitionId → CommittedSourceCheckpoint → Nat → List R → Prop}
    (advances : Advances P) (batch : BufferedBatch R) (records : List R) (count offset : Nat)
    (held : P batch.virtualPartitionId batch.sourceCheckpoint offset records) :
    P batch.virtualPartitionId batch.sourceCheckpoint (offsetAfter offset (records.take count).length)
        (records.drop count)
      ∧ ∀ handed ∈ numberRecords batch offset (records.take count),
        ∃ rest, P handed.virtualPartitionId handed.sourceCheckpoint handed.offset
          (handed.record :: rest) := by
  induction records generalizing count offset with
  | nil => simpa [offsetAfter, numberRecords] using held
  | cons record rest ih =>
    cases count with
    | zero => simpa [offsetAfter, numberRecords] using held
    | succ count =>
      obtain ⟨left, handed⟩ := ih count _ (advances _ _ _ _ _ held)
      refine ⟨left, fun taken member => ?_⟩
      rcases List.mem_cons.mp member with rfl | later
      · exact ⟨rest, held⟩
      · exact handed taken later

omit [Payload R] in
theorem mem_numberRecords {offset : Nat} {records : List R} {handed : ConsumerRecord R}
    (member : handed ∈ numberRecords batch offset records) :
    handed.virtualPartitionId = batch.virtualPartitionId
      ∧ handed.sourceCheckpoint = batch.sourceCheckpoint := by
  induction records generalizing offset with
  | nil => cases member
  | cons record rest ih =>
    rcases List.mem_cons.mp member with rfl | later
    · exact ⟨rfl, rfl⟩
    · exact ih later

omit [Payload R] in
/-- Every offset of the run is handed out, up to the largest representable one. -/
theorem exists_numberRecords {start offset : Nat} {records : List R} (nonempty : records ≠ [])
    (low : start ≤ offset) (high : offset ≤ saturatingAdd u64Max start (records.length - 1)) :
    ∃ handed ∈ numberRecords batch start records, handed.offset = offset := by
  induction records generalizing start with
  | nil => exact absurd rfl nonempty
  | cons record rest ih =>
    by_cases first : start = offset
    · exact ⟨_, List.mem_cons_self, first⟩
    · -- A later offset exists only if the run goes on and did not saturate.
      unfold saturatingAdd at high
      simp only [List.length_cons] at high
      have more : rest ≠ [] := by
        rintro rfl
        simp at high
        omega
      have positive : 0 < rest.length := List.length_pos_iff.mpr more
      have next : saturatingAdd u64Max start 1 = start + 1 := saturatingAdd_of_le (by omega)
      have later : saturatingAdd u64Max start 1 ≤ offset := by omega
      have last : offset
          ≤ saturatingAdd u64Max (saturatingAdd u64Max start 1) (rest.length - 1) := by
        rw [next]
        unfold saturatingAdd
        omega
      obtain ⟨handed, member, same⟩ := ih more later last
      exact ⟨handed, List.mem_cons_of_mem _ member, same⟩

/-! ### Effect of a take -/

/-- The records come from the queue, belong to active partitions and are the only offsets that
become storable; staged progress and revocations are not touched. -/
structure HandsOut (before after : DeliveryState R × ActivePartitions)
    (records : List (ConsumerRecord R)) : Prop where
  held : ∀ P, Advances P → before.1.AllHeld P → after.1.AllHeld P
    ∧ ∀ handed ∈ records, ∃ rest, P handed.virtualPartitionId handed.sourceCheckpoint handed.offset
      (handed.record :: rest)
  keys : ∀ partition, partition ∈ after.2 ↔ partition ∈ before.2
  active : ∀ handed ∈ records, handed.virtualPartitionId ∈ before.2
  states : ∀ partition state, after.2.lookup partition = some state →
    ∃ earlier, before.2.lookup partition = some earlier
      ∧ state.pendingCommit = earlier.pendingCommit
      ∧ ∀ offset checkpoint, state.Covers offset checkpoint → earlier.Covers offset checkpoint
        ∨ ∃ handed ∈ records, handed.virtualPartitionId = partition ∧ handed.offset = offset
          ∧ handed.sourceCheckpoint = checkpoint
  pendingRevocation : after.1.pendingRevocation = before.1.pendingRevocation
  revocationInProgress : after.1.revocationInProgress = before.1.revocationInProgress

variable {active : ActivePartitions}

namespace HandsOut

theorem trans {first second third : DeliveryState R × ActivePartitions}
    {early late : List (ConsumerRecord R)} (one : HandsOut first second early)
    (two : HandsOut second third late) : HandsOut first third (early ++ late) where
  held P advances allHeld := by
    obtain ⟨middle, handedEarly⟩ := one.held P advances allHeld
    obtain ⟨last, handedLate⟩ := two.held P advances middle
    refine ⟨last, fun handed member => ?_⟩
    rcases List.mem_append.mp member with before | after
    · exact handedEarly handed before
    · exact handedLate handed after
  keys partition := (two.keys partition).trans (one.keys partition)
  active handed member := by
    rcases List.mem_append.mp member with before | after
    · exact one.active handed before
    · exact (one.keys _).mp (two.active handed after)
  states partition state found := by
    obtain ⟨middle, foundMiddle, staged, covers⟩ := two.states partition state found
    obtain ⟨start, foundStart, stagedStart, coversStart⟩ := one.states partition middle foundMiddle
    refine ⟨start, foundStart, staged.trans stagedStart, fun offset checkpoint covered => ?_⟩
    rcases covers offset checkpoint covered with old | ⟨handed, member, facts⟩
    · rcases coversStart offset checkpoint old with older | ⟨handed, member, facts⟩
      · exact .inl older
      · exact .inr ⟨handed, List.mem_append_left _ member, facts⟩
    · exact .inr ⟨handed, List.mem_append_right _ member, facts⟩
  pendingRevocation := two.pendingRevocation.trans one.pendingRevocation
  revocationInProgress := two.revocationInProgress.trans one.revocationInProgress

/-- Nothing is handed out while batches are only discarded. -/
theorem of_fewer {before after : DeliveryState R}
    (fewer : ∀ batch ∈ after.held, batch ∈ before.held)
    (pending : after.pendingRevocation = before.pendingRevocation)
    (flag : after.revocationInProgress = before.revocationInProgress) :
    HandsOut (before, active) (after, active) [] where
  held _ _ allHeld := ⟨fun batch member => allHeld batch (fewer batch member), by simp⟩
  keys _ := Iff.rfl
  active := by simp
  states _ state found := ⟨state, found, rfl, fun _ _ covered => .inl covered⟩
  pendingRevocation := pending
  revocationInProgress := flag

theorem prepare (delivery : DeliveryState R) (active : ActivePartitions) :
    HandsOut (delivery, active) ((delivery.prepareCurrentBatch active).1, active) [] :=
  have spec := prepareFrom_spec active delivery delivery.currentBatch delivery.bufferedBytes
    delivery.batches
  of_fewer spec.1 spec.2.1 spec.2.2.1

/-- Records taken from the front of the current batch. -/
theorem take {delivery : DeliveryState R} {current next : BufferedBatch R}
    {recorded : ActivePartitionState} {count : Nat}
    (isCurrent : delivery.currentBatch = some current)
    (found : active.lookup current.virtualPartitionId = some state)
    (left : next.virtualPartitionId = current.virtualPartitionId
      ∧ next.sourceCheckpoint = current.sourceCheckpoint
      ∧ next.nextOffset = offsetAfter current.nextOffset (current.records.take count).length
      ∧ next.records = current.records.drop count)
    (staged : recorded.pendingCommit = state.pendingCommit)
    (covers : ∀ offset checkpoint, recorded.Covers offset checkpoint →
      state.Covers offset checkpoint ∨ checkpoint = current.sourceCheckpoint
        ∧ ∃ handed ∈ numberRecords current current.nextOffset (current.records.take count),
          handed.offset = offset) :
    HandsOut (delivery, active)
      ({ delivery with currentBatch := some next },
        active.insert current.virtualPartitionId recorded)
      (numberRecords current current.nextOffset (current.records.take count)) where
  held P advances allHeld := by
    obtain ⟨rest, handed⟩ := advances.run current current.records count _
      (allHeld current (mem_held_of_current isCurrent))
    refine ⟨fun batch member => ?_, handed⟩
    rcases List.mem_append.mp member with first | queued
    · obtain rfl : batch = next := by simpa using first
      obtain ⟨partition, checkpoint, offset, records⟩ := left
      rw [partition, checkpoint, offset, records]
      exact rest
    · exact allHeld batch (List.mem_append_right _ queued)
  keys partition := by
    rw [AList.mem_insert]
    constructor
    · rintro (rfl | old)
      · exact AList.lookup_isSome.mp (by rw [found]; rfl)
      · exact old
    · exact .inr
  active handed member := by
    rw [(mem_numberRecords member).1]
    exact AList.lookup_isSome.mp (by rw [found]; rfl)
  states partition later foundLater := by
    by_cases same : partition = current.virtualPartitionId
    · subst same
      obtain rfl : recorded = later := by simpa using foundLater
      refine ⟨state, found, staged, fun offset checkpoint covered => ?_⟩
      rcases covers offset checkpoint covered with old | ⟨rfl, handed, member, same⟩
      · exact .inl old
      · exact .inr ⟨handed, member, (mem_numberRecords member).1, same, (mem_numberRecords member).2⟩
    · rw [AList.lookup_insert_ne same] at foundLater
      exact ⟨later, foundLater, rfl, fun _ _ covered => .inl covered⟩
  pendingRevocation := rfl
  revocationInProgress := rfl

end HandsOut

theorem prepareCurrentBatch_ready (ready : (delivery.prepareCurrentBatch active).2 = true) :
    ∃ current state, (delivery.prepareCurrentBatch active).1.currentBatch = some current
      ∧ current.records ≠ [] ∧ active.lookup current.virtualPartitionId = some state := by
  have spec := prepareFrom_spec active delivery delivery.currentBatch delivery.bufferedBytes
    delivery.batches
  obtain ⟨current, isCurrent, able⟩ := spec.2.2.2 ready
  simp only [deliverable, Bool.and_eq_true, decide_eq_true_eq, Bool.not_eq_true',
    List.isEmpty_eq_false_iff] at able
  obtain ⟨state, found⟩ := Option.isSome_iff_exists.mp (AList.lookup_isSome.mpr able.1)
  exact ⟨current, state, isCurrent, able.2, found⟩

variable {current : BufferedBatch R}

theorem takeRecord_spec (isCurrent : delivery.currentBatch = some current)
    (nonempty : current.records ≠ [])
    (found : active.lookup current.virtualPartitionId = some state) :
    ∃ handed gap, (delivery.takeRecord active).2.2 = some ⟨.record handed, gap⟩
      ∧ HandsOut (delivery, active)
        ((delivery.takeRecord active).1, (delivery.takeRecord active).2.1) [handed] := by
  obtain ⟨record, rest, records⟩ := List.exists_cons_of_ne_nil nonempty
  simp only [takeRecord, isCurrent, records, found]
  refine ⟨_, _, rfl, ?_⟩
  have taken : numberRecords current current.nextOffset (current.records.take 1)
      = [⟨current.virtualPartitionId, current.nextOffset, current.sourceCheckpoint, record⟩] := by
    simp [records, numberRecords]
  rw [← taken]
  refine HandsOut.take isCurrent found ⟨rfl, rfl, ?_, ?_⟩ rfl fun offset checkpoint covered => ?_
  · simp [records, offsetAfter]
  · simp [records]
  · rcases ActivePartitionState.covers_recordDeliveredRange covered with old | ⟨low, high, same⟩
    · exact .inl old
    · refine .inr ⟨same, _, by rw [taken]; exact List.mem_singleton_self _, ?_⟩
      exact Nat.le_antisymm low high

/-- A poll hands out the revocation, or nothing, or one record while no revocation is in progress. -/
theorem tryTakeNextInner_spec (delivery : DeliveryState R) (active : ActivePartitions) :
    let taken := delivery.tryTakeNextInner active
    (∃ revoked, delivery.pendingRevocation = some revoked
        ∧ taken.1 = { delivery with pendingRevocation := none } ∧ taken.2.1 = active
        ∧ taken.2.2 = some ⟨.revoked revoked, none⟩)
      ∨ HandsOut (delivery, active) (taken.1, taken.2.1) [] ∧ taken.2.2 = none
      ∨ ∃ handed gap, delivery.revocationInProgress = false
        ∧ HandsOut (delivery, active) (taken.1, taken.2.1) [handed]
        ∧ taken.2.2 = some ⟨.record handed, gap⟩ := by
  unfold tryTakeNextInner
  split
  next revoked pending => exact .inl ⟨revoked, pending, rfl, rfl, rfl⟩
  next =>
    apply Or.inr
    split
    next => exact .inl ⟨.of_fewer (fun _ member => member) rfl rfl, rfl⟩
    next idle =>
      have prepared := HandsOut.prepare delivery active
      dsimp only
      split
      next ready =>
        obtain ⟨current, state, isCurrent, nonempty, found⟩ := prepareCurrentBatch_ready ready
        obtain ⟨handed, gap, result, hands⟩ := takeRecord_spec isCurrent nonempty found
        exact .inr ⟨handed, gap, Bool.eq_false_of_not_eq_true idle, prepared.trans hands, result⟩
      next => exact .inl ⟨prepared, rfl⟩

theorem takeRun_handsOut (gathered : Gathered R) (count : Nat)
    (isCurrent : gathered.delivery.currentBatch = some current)
    (found : gathered.active.lookup current.virtualPartitionId = some state) (positive : 0 < count)
    (within : count ≤ current.records.length) :
    ∃ handed, (takeRun gathered current state count).records = gathered.records ++ handed
      ∧ HandsOut (gathered.delivery, gathered.active)
        ((takeRun gathered current state count).delivery,
          (takeRun gathered current state count).active) handed := by
  refine ⟨_, rfl, HandsOut.take isCurrent found ⟨rfl, rfl, rfl, rfl⟩ rfl
    fun offset checkpoint covered => ?_⟩
  rcases ActivePartitionState.covers_recordDeliveredRange covered with old | ⟨low, high, same⟩
  · exact .inl old
  · have length : (current.records.take count).length = count := by
      rw [List.length_take]
      omega
    refine .inr ⟨same, exists_numberRecords ?_ low (by rw [length]; exact high)⟩
    rw [← List.length_pos_iff, length]
    exact positive

theorem gather_spec (capacity rounds : Nat) (gathered : Gathered R) :
    ∃ handed, (gather capacity rounds gathered).records = gathered.records ++ handed
      ∧ HandsOut (gathered.delivery, gathered.active)
        ((gather capacity rounds gathered).delivery, (gather capacity rounds gathered).active)
        handed := by
  induction rounds generalizing gathered with
  | zero => exact ⟨[], by simp [gather], .of_fewer (fun _ member => member) rfl rfl⟩
  | succ rounds ih =>
    have prepared := HandsOut.prepare gathered.delivery gathered.active
    unfold gather
    split
    next => exact ⟨[], by simp, .of_fewer (fun _ member => member) rfl rfl⟩
    next more =>
      dsimp only
      split
      next => exact ⟨[], by simp, prepared⟩
      next unready =>
        obtain ⟨current, state, isCurrent, nonempty, found⟩ :=
          prepareCurrentBatch_ready (by simpa using unready)
        simp only [isCurrent, found]
        have length := List.length_pos_iff.mpr nonempty
        obtain ⟨run, records, hands⟩ := takeRun_handsOut
          { gathered with delivery := (gathered.delivery.prepareCurrentBatch gathered.active).1 }
          (min current.records.length (capacity - gathered.records.length))
          isCurrent found (by omega) (Nat.min_le_left _ _)
        obtain ⟨handed, later, rest⟩ := ih (takeRun _ current state _)
        refine ⟨run ++ handed, ?_, (prepared.trans hands).trans rest⟩
        rw [later, records, List.append_assoc]

/-- A batch poll hands out the revocation, or nothing, or records while no revocation is in
progress. -/
theorem tryTakeBatch_spec (delivery : DeliveryState R) (active : ActivePartitions)
    (maxRecords maxBytes : Nat) :
    let taken := delivery.tryTakeBatch active maxRecords maxBytes
    (∃ revoked, delivery.pendingRevocation = some revoked
        ∧ taken.1 = { delivery with pendingRevocation := none } ∧ taken.2.1 = active
        ∧ taken.2.2 = some ⟨.revoked revoked, []⟩)
      ∨ HandsOut (delivery, active) (taken.1, taken.2.1) [] ∧ taken.2.2 = none
      ∨ ∃ handed gaps, delivery.revocationInProgress = false
        ∧ HandsOut (delivery, active) (taken.1, taken.2.1) handed
        ∧ taken.2.2 = some ⟨.records handed, gaps⟩ := by
  have single := tryTakeNextInner_spec delivery active
  dsimp only at single ⊢
  unfold tryTakeBatch
  rcases first : delivery.tryTakeNextInner active with ⟨next, later, result⟩
  rw [first] at single
  rcases single with ⟨revoked, pending, rfl, rfl, rfl⟩ | ⟨hands, rfl⟩
    | ⟨handed, gap, idle, hands, rfl⟩
  · exact .inl ⟨revoked, pending, rfl, rfl, rfl⟩
  · exact .inr (.inl ⟨hands, rfl⟩)
  · apply Or.inr
    apply Or.inr
    dsimp only
    generalize plannedCapacity (R := R) maxRecords maxBytes 1 _ _ = capacity
    obtain ⟨more, records, rest⟩ := gather_spec capacity capacity
      ⟨next, later, [handed], gap.toList⟩
    refine ⟨_, _, idle, ?_, rfl⟩
    rw [records]
    exact hands.trans rest

end DeliveryState

end BlobStream.Consumer
