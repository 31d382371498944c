import BlobStream.Write.Merge
import BlobStream.Write.Packing

/-!
# Segment objects

A flush plan is encoded partition by partition. Each object concatenates the payloads of its
partitions and remembers, per topic, where each of them lies; finishing an object gives it a
snowflake identity and a blob key, and every topic of the object gets one metadata envelope.
-/

namespace BlobStream.Write

open ProducerLeases (ProducerLeaseFence)
open Packing (TargetFillGroup)

abbrev Bytes := List UInt8

abbrev SnowflakeId := Nat

abbrev BlobKey := String

/-- Half-open byte range of an object. -/
structure ByteRange where
  start : Nat
  «end» : Nat
deriving DecidableEq, Repr

def ByteRange.select (range : ByteRange) (object : Bytes) : Bytes :=
  (object.drop range.start).take (range.end - range.start)

structure BatchMetadata where
  seqRange : SeqRange
  byteRange : ByteRange
  payloadBytes : Nat
deriving DecidableEq, Repr

/-- Start of the window of the given size that holds an instant. -/
def windowStart (timestamp size : Int) : Int := timestamp / size * size

structure TopicWindowKey where
  topic : Topic
  windowStartUnixSeconds : Int
deriving DecidableEq, Repr

def windowKey (timestamp size : Int) (topic : Topic) : TopicWindowKey :=
  ⟨topic, windowStart timestamp size / 1000000000⟩

inductive CompressionCodec
  | none
  | zstd
deriving DecidableEq, Repr

structure Compression where
  codec : CompressionCodec
  level : Option Int
deriving DecidableEq, Repr

def defaultZstdLevel : Int := 3

/-- Serialisation and compression are libraries; both can fail. -/
structure Codec where
  encodeBatch : VirtualPartitionId → List Record → Option Bytes
  zstd : (level : Int) → Bytes → Option Bytes

structure SegmentConfig where
  compression : Compression
  /-- `blob_prefix` without surrounding blanks, with one trailing slash unless it is empty. -/
  keyPrefix : String

def SegmentConfig.extension (config : SegmentConfig) : String :=
  match config.compression.codec with
  | .none => "bin"
  | .zstd => "zst"

def makeBlobKey (config : SegmentConfig) (windowStartSeconds : Int) (snowflakeId : SnowflakeId) :
    BlobKey :=
  config.keyPrefix ++ "shared/" ++ toString windowStartSeconds ++ "/" ++ toString snowflakeId ++ "."
    ++ config.extension

def compressBatch (codec : Codec) (config : SegmentConfig) (payload : Bytes) : Option Bytes :=
  match config.compression.codec with
  | .none => some payload
  | .zstd => codec.zstd (config.compression.level.getD defaultZstdLevel) payload

/-! ### Encoding one partition -/

/-- The lease a metadata write has to find in force for one partition. -/
structure ProducerPartitionFence where
  key : PartitionKey
  fence : ProducerLeaseFence
deriving DecidableEq, Repr

structure EncodedPartition where
  topic : Topic
  virtualPartitionId : VirtualPartitionId
  payload : Bytes
  metadata : BatchMetadata
  fence : Option ProducerPartitionFence
  publicationPredecessor : Option PublicationChannel
  maxMetadataPublicationLag : Int
  metadataWindowSize : Int
deriving DecidableEq, Repr

inductive EncodeError
  | missingFence
  | merge (error : MergeError)
  | encode
  | compress
deriving DecidableEq, Repr

/-- The fence of a partition, required when the topic writes fenced metadata. -/
def partitionFence (plan : TopicFlushPlan) (partition : FlushPartition) :
    Except EncodeError (Option ProducerPartitionFence) :=
  if plan.fencedMetadataWrites then
    match partition.leaseFence with
    | none => .error .missingFence
    | some fence => .ok (some ⟨⟨plan.topic, partition.virtualPartitionId⟩, fence⟩)
  else .ok none

def encodedPayload (codec : Codec) (config : SegmentConfig) (partition : FlushPartition)
    (merged : MergedPartition) : Except EncodeError Bytes :=
  match codec.encodeBatch partition.virtualPartitionId merged.records with
  | none => .error .encode
  | some payload =>
    match compressBatch codec config payload with
    | none => .error .compress
    | some compressed => .ok compressed

def encodePartition (codec : Codec) (config : SegmentConfig) (plan : TopicFlushPlan)
    (partition : FlushPartition) : Except EncodeError EncodedPartition :=
  match partitionFence plan partition with
  | .error error => .error error
  | .ok fence =>
    match mergePartitionBatches partition with
    | .error error => .error (.merge error)
    | .ok merged =>
      match encodedPayload codec config partition merged with
      | .error error => .error error
      | .ok payload =>
        .ok
          { topic := plan.topic
            virtualPartitionId := partition.virtualPartitionId
            payload := payload
            metadata :=
              { seqRange := merged.seqRange
                byteRange := ⟨0, 0⟩
                payloadBytes := merged.summary.payloadBytes }
            fence := fence
            publicationPredecessor := partition.publicationPredecessor
            maxMetadataPublicationLag := plan.maxMetadataPublicationLag
            metadataWindowSize := plan.metadataWindowSize }

/-! ### Objects -/

structure PersistedPartition where
  metadata : BatchMetadata
  fence : Option ProducerPartitionFence
  publicationPredecessor : Option PublicationChannel
deriving DecidableEq, Repr

/-- A hash map from partition ids, as an association list with distinct keys. -/
abbrev PartitionMap (α : Type) := List (VirtualPartitionId × α)

def insertPartition {α : Type} (partitions : PartitionMap α) (virtualPartitionId : VirtualPartitionId)
    (value : α) : PartitionMap α :=
  partitions.filter (fun entry => entry.1 ≠ virtualPartitionId) ++ [(virtualPartitionId, value)]

structure ObjectTopicBuilder where
  topic : Topic
  maxMetadataPublicationLag : Int
  metadataWindowSize : Int
  partitions : PartitionMap PersistedPartition
deriving DecidableEq, Repr

structure ObjectBuilder where
  payload : Bytes
  topics : List ObjectTopicBuilder
  blobWindowSize : Int
deriving DecidableEq, Repr

namespace ObjectBuilder

def buildPartition (objectPayload : Bytes) (encoded : EncodedPartition) : PersistedPartition where
  metadata :=
    { encoded.metadata with
      byteRange := ⟨objectPayload.length, objectPayload.length + encoded.payload.length⟩ }
  fence := encoded.fence
  publicationPredecessor := encoded.publicationPredecessor

def topicBuilder (encoded : EncodedPartition) (partition : PersistedPartition) :
    ObjectTopicBuilder where
  topic := encoded.topic
  maxMetadataPublicationLag := encoded.maxMetadataPublicationLag
  metadataWindowSize := encoded.metadataWindowSize
  partitions := [(encoded.virtualPartitionId, partition)]

def new (encoded : EncodedPartition) : ObjectBuilder where
  payload := encoded.payload
  topics := [topicBuilder encoded (buildPartition [] encoded)]
  blobWindowSize := encoded.metadataWindowSize

def insertTopic (encoded : EncodedPartition) (partition : PersistedPartition) :
    List ObjectTopicBuilder → List ObjectTopicBuilder
  | [] => [topicBuilder encoded partition]
  | topic :: rest =>
    if topic.topic = encoded.topic then
      { topic with
        partitions := insertPartition topic.partitions encoded.virtualPartitionId partition } :: rest
    else topic :: insertTopic encoded partition rest

def push (builder : ObjectBuilder) (encoded : EncodedPartition) : ObjectBuilder :=
  { builder with
    payload := builder.payload ++ encoded.payload
    topics := insertTopic encoded (buildPartition builder.payload encoded) builder.topics }

def ofGroup (group : TargetFillGroup EncodedPartition) : ObjectBuilder :=
  group.remaining.foldl push (new group.first)

end ObjectBuilder

/-- Builders for the encoded partitions of a plan; none is the panic of the packing loop. -/
def objectBuilders (encoded : List EncodedPartition) (maxSegmentBytes : Nat) :
    Option (List ObjectBuilder) :=
  (Packing.targetFillObjectGroups (encoded.map fun partition => (partition.payload.length, partition))
    maxSegmentBytes).map fun groups => groups.map ObjectBuilder.ofGroup

structure SegmentEnvelope where
  window : TopicWindowKey
  snowflakeId : SnowflakeId
  blobKey : BlobKey
  compression : Compression
  createdAt : Int
deriving DecidableEq, Repr

structure PersistedTopic where
  envelope : SegmentEnvelope
  partitions : PartitionMap PersistedPartition
  maxMetadataPublicationLag : Int
deriving DecidableEq, Repr

structure PersistedObject where
  blobKey : BlobKey
  payload : Bytes
  topics : List PersistedTopic
  publicationBudget : Int
deriving DecidableEq, Repr

/-- Smallest of the topics' publication lags. -/
def publicationBudget : List ObjectTopicBuilder → Int
  | [] => 0
  | topic :: rest =>
    rest.foldl (fun budget next => min budget next.maxMetadataPublicationLag)
      topic.maxMetadataPublicationLag

def ObjectBuilder.finish (builder : ObjectBuilder) (config : SegmentConfig)
    (snowflakeId : SnowflakeId) (now : Int) : PersistedObject :=
  let blobKey := makeBlobKey config (windowStart now builder.blobWindowSize / 1000000000) snowflakeId
  { blobKey
    payload := builder.payload
    topics := builder.topics.map fun topic =>
      { envelope :=
          { window := windowKey now topic.metadataWindowSize topic.topic
            snowflakeId
            blobKey
            compression := config.compression
            createdAt := now }
        partitions := topic.partitions
        maxMetadataPublicationLag := topic.maxMetadataPublicationLag }
    publicationBudget := publicationBudget builder.topics }

structure SegmentMetadata where
  window : TopicWindowKey
  snowflakeId : SnowflakeId
  blobKey : BlobKey
  compression : Compression
  segmentIndex : PartitionMap BatchMetadata
  createdAt : Int
  metadataPublishedAt : Int
deriving DecidableEq, Repr

def SegmentEnvelope.intoMetadata (envelope : SegmentEnvelope)
    (segmentIndex : PartitionMap BatchMetadata) (metadataPublishedAt : Int) : SegmentMetadata where
  window := envelope.window
  snowflakeId := envelope.snowflakeId
  blobKey := envelope.blobKey
  compression := envelope.compression
  segmentIndex := segmentIndex
  createdAt := envelope.createdAt
  metadataPublishedAt := metadataPublishedAt

/-! ### Where payloads lie -/

section Placement

variable {source : EncodedPartition → Prop}

/-- The entry of a partition in an object: it describes an encoded partition and its byte range
selects that partition's payload. -/
structure Placed (source : EncodedPartition → Prop) (object : Bytes) (topic : Topic)
    (virtualPartitionId : VirtualPartitionId) (partition : PersistedPartition)
    (encoded : EncodedPartition) : Prop where
  known : source encoded
  sameTopic : encoded.topic = topic
  sameId : encoded.virtualPartitionId = virtualPartitionId
  range : partition.metadata.seqRange = encoded.metadata.seqRange
  predecessor : partition.publicationPredecessor = encoded.publicationPredecessor
  inside : partition.metadata.byteRange.end ≤ object.length
  payload : partition.metadata.byteRange.select object = encoded.payload

def AllPlaced (source : EncodedPartition → Prop) (object : Bytes) (topic : Topic)
    (partitions : PartitionMap PersistedPartition) : Prop :=
  ∀ entry ∈ partitions, ∃ encoded, Placed source object topic entry.1 entry.2 encoded

variable {object : Bytes}

theorem select_append {range : ByteRange} (inside : range.end ≤ object.length) (more : Bytes) :
    range.select (object ++ more) = range.select object := by
  unfold ByteRange.select
  rcases Nat.lt_or_ge range.start range.end with starts | empty
  · rw [List.drop_append_of_le_length (by omega), List.take_append_of_le_length]
    rw [List.length_drop]
    omega
  · rw [Nat.sub_eq_zero_of_le empty, List.take_zero, List.take_zero]

theorem AllPlaced.append {topic : Topic} {partitions : PartitionMap PersistedPartition}
    (placed : AllPlaced source object topic partitions) (more : Bytes) :
    AllPlaced source (object ++ more) topic partitions := by
  intro entry member
  obtain ⟨encoded, here⟩ := placed entry member
  refine ⟨encoded, { here with inside := ?_, payload := ?_ }⟩
  · have := here.inside
    rw [List.length_append]
    omega
  · rw [select_append here.inside]
    exact here.payload

variable {encoded : EncodedPartition}

/-- The partition that is appended to an object lies at its end. -/
theorem placed_buildPartition (object : Bytes) (known : source encoded) :
    Placed source (object ++ encoded.payload) encoded.topic encoded.virtualPartitionId
      (ObjectBuilder.buildPartition object encoded) encoded where
  known := known
  sameTopic := rfl
  sameId := rfl
  range := rfl
  predecessor := rfl
  inside := by simp [ObjectBuilder.buildPartition]
  payload := by simp [ObjectBuilder.buildPartition, ByteRange.select]

def BuilderSound (source : EncodedPartition → Prop) (builder : ObjectBuilder) : Prop :=
  ∀ topic ∈ builder.topics, AllPlaced source builder.payload topic.topic topic.partitions

theorem insertTopic_sound {partition : PersistedPartition} {topics : List ObjectTopicBuilder}
    (sound : ∀ topic ∈ topics, AllPlaced source object topic.topic topic.partitions)
    (new : Placed source object encoded.topic encoded.virtualPartitionId partition encoded) :
    ∀ topic ∈ ObjectBuilder.insertTopic encoded partition topics,
      AllPlaced source object topic.topic topic.partitions := by
  have alone : AllPlaced source object encoded.topic
      (ObjectBuilder.topicBuilder encoded partition).partitions := by
    intro entry member
    rw [List.mem_singleton.mp member]
    exact ⟨encoded, new⟩
  induction topics with
  | nil =>
    intro topic member
    rw [List.mem_singleton.mp member]
    exact alone
  | cons first rest ih =>
    intro topic member
    unfold ObjectBuilder.insertTopic at member
    split at member
    next same =>
      rcases List.mem_cons.mp member with rfl | later
      · intro entry inserted
        rcases List.mem_append.mp inserted with old | added
        · exact sound first List.mem_cons_self entry (List.mem_filter.mp old).1
        · rw [List.mem_singleton.mp added]
          exact ⟨encoded, same ▸ new⟩
      · exact sound topic (List.mem_cons_of_mem _ later)
    next =>
      rcases List.mem_cons.mp member with rfl | later
      · exact sound _ List.mem_cons_self
      · exact ih (fun each inRest => sound each (List.mem_cons_of_mem _ inRest)) topic later

variable {builder : ObjectBuilder}

theorem BuilderSound.push (sound : BuilderSound source builder) (known : source encoded) :
    BuilderSound source (builder.push encoded) := by
  refine insertTopic_sound (fun topic member => ?_) (placed_buildPartition builder.payload known)
  exact (sound topic member).append encoded.payload

theorem builderSound_ofGroup {group : TargetFillGroup EncodedPartition}
    (known : ∀ encoded ∈ group.items, source encoded) :
    BuilderSound source (ObjectBuilder.ofGroup group) := by
  have first : BuilderSound source (ObjectBuilder.new group.first) := by
    intro topic member
    rw [List.mem_singleton.mp member]
    intro entry inTopic
    rw [List.mem_singleton.mp inTopic]
    exact ⟨group.first, placed_buildPartition [] (known _ List.mem_cons_self)⟩
  have rest : ∀ encoded ∈ group.remaining, source encoded := fun encoded member =>
    known encoded (List.mem_cons_of_mem _ member)
  unfold ObjectBuilder.ofGroup
  -- The loop pushes the remaining partitions one by one.
  generalize ObjectBuilder.new group.first = builder at first
  generalize group.remaining = remaining at rest
  induction remaining generalizing builder with
  | nil => exact first
  | cons encoded remaining ih =>
    exact ih (builder.push encoded) (first.push (rest encoded List.mem_cons_self))
      fun each member => rest each (List.mem_cons_of_mem _ member)

theorem objectBuilders_sound {encoded : List EncodedPartition} {maxSegmentBytes : Nat}
    {builders : List ObjectBuilder} (known : ∀ partition ∈ encoded, source partition)
    (built : objectBuilders encoded maxSegmentBytes = some builders) :
    ∀ builder ∈ builders, BuilderSound source builder := by
  obtain ⟨groups, filled, rfl⟩ := Option.map_eq_some_iff.mp built
  have items := Packing.targetFillObjectGroups_items filled
  intro builder member
  obtain ⟨group, inGroups, rfl⟩ := List.mem_map.mp member
  refine builderSound_ofGroup fun partition inside => known partition ?_
  have listed : partition ∈ groups.flatMap TargetFillGroup.items :=
    List.mem_flatMap.mpr ⟨group, inGroups, inside⟩
  rw [items] at listed
  simpa using listed

/-- A finished object: every topic names the object's key and describes its payload. -/
def ObjectSound (source : EncodedPartition → Prop) (object : PersistedObject) : Prop :=
  ∀ topic ∈ object.topics, topic.envelope.blobKey = object.blobKey
    ∧ AllPlaced source object.payload topic.envelope.window.topic topic.partitions

theorem BuilderSound.finish (sound : BuilderSound source builder) (config : SegmentConfig)
    (snowflakeId : SnowflakeId) (now : Int) :
    ObjectSound source (builder.finish config snowflakeId now) := by
  intro topic member
  obtain ⟨section_, inBuilder, rfl⟩ := List.mem_map.mp member
  exact ⟨rfl, sound section_ inBuilder⟩

end Placement

end BlobStream.Write
