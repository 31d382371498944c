import BlobStream.Store.ProducerLeases

/-!
# Partition buffers and flush plans
-/

namespace BlobStream.Write

open Word
open ProducerLeases (ProducerLeaseFence)

structure Record where
  payload : List UInt8
  eventTsMs : Int
deriving DecidableEq, Repr

structure BatchSummary where
  recordCount : Nat
  payloadBytes : Nat
deriving DecidableEq, Repr

/-- `RecordBatch::summary_from_records`: none for an empty or over-long batch. -/
def summaryFromRecords (records : List Record) : Option BatchSummary :=
  if records.isEmpty ∨ u32Max < records.length then none
  else some
    { recordCount := records.length
      payloadBytes := (records.map fun record => record.payload.length).sum }

inductive FlushCompletionError
  | leaseFenceLost
  | internal
deriving DecidableEq, Repr

inductive FlushPublicationResult
  | succeeded
  | failed (error : FlushCompletionError)
deriving DecidableEq, Repr

def FlushPublicationResult.ofError : Option FlushCompletionError → FlushPublicationResult
  | none => .succeeded
  | some error => .failed error

/-- Progress of one partition flush epoch through its two ordering barriers. -/
inductive FlushPublicationState
  | pending
  | segmentIdentityAssigned
  | completed (result : FlushPublicationResult)
deriving DecidableEq, Repr

/-- Identity of the watch channel that carries one epoch's `FlushPublicationState`. -/
abbrev PublicationChannel := Nat

/-- Identity of the one-shot sender that acknowledges one produce request. -/
abbrev FlushCompletion := Nat

inductive FlushTrigger
  | maxBytes
  | maxDelay
  | leaseDrain
deriving DecidableEq, Repr

structure EffectiveFlushConfig where
  maxBytes : Nat
  maxDelay : Int
deriving DecidableEq, Repr

structure BufferedBatch where
  records : List Record
  summary : BatchSummary
  seqRange : SeqRange
  acceptanceFence : Option ProducerLeaseFence
  completion : Option FlushCompletion
deriving DecidableEq, Repr

structure BufferState where
  batches : List BufferedBatch := []
  bufferedBytes : Nat := 0
  firstBufferedAt : Option Int := none
deriving DecidableEq, Repr

namespace BufferState

def push (buffer : BufferState) (batch : BufferedBatch) (now : Int) : BufferState where
  batches := buffer.batches ++ [batch]
  bufferedBytes := saturatingAdd u64Max buffer.bufferedBytes batch.summary.payloadBytes
  firstBufferedAt := buffer.firstBufferedAt.or (some now)

def flushTrigger (buffer : BufferState) (now : Int) (config : EffectiveFlushConfig) :
    Option FlushTrigger :=
  if buffer.batches.isEmpty then none
  else if config.maxBytes ≤ buffer.bufferedBytes then some .maxBytes
  else match buffer.firstBufferedAt with
    | none => none
    | some first => if config.maxDelay ≤ now - first then some .maxDelay else none

def timeDeadline (buffer : BufferState) (config : EffectiveFlushConfig) : Option Int :=
  buffer.firstBufferedAt.map (· + config.maxDelay)

def isTimeDue (buffer : BufferState) (now : Int) (config : EffectiveFlushConfig) : Bool :=
  (buffer.timeDeadline config).any (· ≤ now)

def completions (buffer : BufferState) : List FlushCompletion :=
  buffer.batches.filterMap BufferedBatch.completion

@[simp] theorem push_batches (buffer : BufferState) (batch : BufferedBatch) (now : Int) :
    (buffer.push batch now).batches = buffer.batches ++ [batch] := rfl

@[simp] theorem default_batches : ({} : BufferState).batches = [] := rfl

end BufferState

/-- The batches of one partition selected for a flush epoch. -/
structure FlushPartition where
  virtualPartitionId : VirtualPartitionId
  leaseFence : Option ProducerLeaseFence
  batches : List BufferedBatch
  trigger : FlushTrigger
  publicationPredecessor : Option PublicationChannel
  publicationState : PublicationChannel
deriving DecidableEq, Repr

structure TopicFlushPlan where
  topic : Topic
  partitions : List FlushPartition
  maxMetadataPublicationLag : Int
  metadataWindowSize : Int
  fencedMetadataWrites : Bool
deriving DecidableEq, Repr

/-- The sending side of one epoch's watch channel. -/
structure FlushPublicationCompletion where
  topic : Topic
  virtualPartitionId : VirtualPartitionId
  state : PublicationChannel
deriving DecidableEq, Repr

/-- Topic sections selected for one or more bounded immutable objects. -/
structure FlushPlan where
  topics : List TopicFlushPlan
  maxSegmentBytes : Nat
  publicationCompletions : List FlushPublicationCompletion
deriving DecidableEq, Repr

end BlobStream.Write
