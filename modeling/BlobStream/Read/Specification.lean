import BlobStream.Lib.FiniteMap
import BlobStream.Snowflake

/-!
# Requests to the broker metadata cache

A consumer asks for the rows of one window, with a lowest identity for each partition (tail coverage)
or without (full recovery); a strong request can also ask which prefix is sealed. `validateRequest`
splits it into the key under which scans are shared and the caller's own projection.
-/

namespace BlobStream.Read

open Write (SegmentMetadata SnowflakeId TopicWindowKey)

inductive StoreConsistency
  | eventual
  | strong
deriving DecidableEq, Repr

inductive ReadCoverage
  | tail
  | fullRecovery
deriving DecidableEq, Repr

/-- What the cache knows about a topic. -/
structure TopicCacheContract where
  partitionCount : Nat
  numWriters : Nat
  metadataWindowSize : Int
  metadataCacheMaxAge : Int
  maxMetadataPublicationLag : Int
deriving DecidableEq, Repr

def TopicCacheContract.isValidPartition (topic : TopicCacheContract)
    (partition : VirtualPartitionId) : Bool :=
  decide (partition < topic.partitionCount * topic.numWriters)

structure MetadataCacheConfig where
  sealClockSkew : Int
  topics : Topic → Option TopicCacheContract

/-- Reads with one key can share a scan. -/
structure CacheKey where
  topic : Topic
  windowStartUnixSeconds : Int
  consistency : StoreConsistency
  coverage : ReadCoverage
deriving DecidableEq, Repr

abbrev Bounds := AList fun _ : VirtualPartitionId => SnowflakeId

/-- A validated request. Window, consistency and coverage are those of the key. -/
structure ReadSpecification where
  key : CacheKey
  topic : TopicCacheContract
  partitions : Finset VirtualPartitionId
  minByPartition : Option Bounds
  requestedSealBefore : Option SnowflakeId
  requestedSealHorizon : Int
deriving DecidableEq

namespace ReadSpecification

variable (specification : ReadSpecification)

/-- The lowest identity any of the partitions asks for. -/
def minSnowflake : Option SnowflakeId :=
  specification.minByPartition.bind fun bounds => (bounds.entries.map Sigma.snd).min?

/-- Age after which the caller, or else the topic, trusts a row to be published. -/
def sealHorizon (clockSkew : Int) : Int :=
  max specification.requestedSealHorizon (specification.topic.maxMetadataPublicationLag + clockSkew)

/-- The caller wants the row for this partition. -/
def wants (id : SnowflakeId) (partition : VirtualPartitionId) : Bool :=
  decide (partition ∈ specification.partitions) &&
    match specification.minByPartition with
    | none => true
    | some bounds => (bounds.lookup partition).any fun bound => decide (bound ≤ id)

end ReadSpecification

/-- `OffsetDateTime::from_unix_timestamp`. -/
def fromUnixTimestamp (seconds : Int) : Option Int := checkedAddTime 0 (seconds * nanoseconds)

def windowEnd (topic : TopicCacheContract) (windowStartUnixSeconds : Int) : Option Int :=
  fromUnixTimestamp (windowStartUnixSeconds + topic.metadataWindowSize.tdiv nanoseconds)

def ReadSpecification.windowEndSnowflake (sonyflake : Sonyflake) (specification : ReadSpecification) :
    Option SnowflakeId :=
  (windowEnd specification.topic specification.key.windowStartUnixSeconds).map
    sonyflake.minimumForTimestamp

/-! ### Validation -/

inductive RequestCoverage
  | tail (partitionBounds : List (VirtualPartitionId × SnowflakeId))
  | fullRecovery (virtualPartitionIds : List VirtualPartitionId)
deriving DecidableEq, Repr

/-- A request as decoded from the wire; an unknown consistency or coverage is none. -/
structure ReadMetadataWindowRequest where
  topic : Topic
  windowStartUnixSeconds : Int
  consistency : Option StoreConsistency
  coverage : Option RequestCoverage
  maxResponseBytes : Nat
  requestedSealBefore : Option SnowflakeId
  requestedSealHorizonMs : Option Nat
deriving DecidableEq, Repr

inductive RequestError
  | emptyTopic
  | unknownTopic (topic : Topic)
  | unalignedWindow
  | unsupportedConsistency
  | tailBounds
  | recoveryPartitions
  | missingCoverage
  | invalidPartition
  | windowEndOutOfRange
  | sealHorizonTooLarge
deriving DecidableEq, Repr

def RequestError.message : RequestError → String
  | .emptyTopic => "metadata request topic is empty"
  | .unknownTopic topic => "unknown topic " ++ topic
  | .unalignedWindow => "metadata window start is not aligned"
  | .unsupportedConsistency => "metadata request has an unsupported consistency"
  | .tailBounds => "tail metadata request has no bounds or duplicate virtual partitions"
  | .recoveryPartitions =>
    "full recovery metadata request has no virtual partitions or duplicate partitions"
  | .missingCoverage => "metadata request must specify tail or full recovery coverage"
  | .invalidPartition => "metadata request has an invalid virtual partition"
  | .windowEndOutOfRange => "metadata window end is out of range"
  | .sealHorizonTooLarge => "requested metadata seal horizon is too large"

/-- Collect bounds into a map; a later bound of a partition replaces an earlier one. -/
def collectBounds (partitionBounds : List (VirtualPartitionId × SnowflakeId)) : Bounds :=
  partitionBounds.foldl (fun bounds bound => bounds.insert bound.1 bound.2) ∅

def validateCoverage : Option RequestCoverage →
    Except RequestError (ReadCoverage × Finset VirtualPartitionId × Option Bounds)
  | some (.tail partitionBounds) =>
    let bounds := collectBounds partitionBounds
    if bounds.entries ≠ [] ∧ bounds.entries.length = partitionBounds.length then
      .ok (.tail, bounds.keys.toFinset, some bounds)
    else .error .tailBounds
  | some (.fullRecovery virtualPartitionIds) =>
    let partitions := virtualPartitionIds.toFinset
    if partitions ≠ ∅ ∧ partitions.card = virtualPartitionIds.length then
      .ok (.fullRecovery, partitions, none)
    else .error .recoveryPartitions
  | none => .error .missingCoverage

/-- The seal bound of a request, kept inside the window. -/
def validateSealBound (sonyflake : Sonyflake) (topic : TopicCacheContract)
    (windowStartUnixSeconds : Int) :
    Option SnowflakeId → Except RequestError (Option SnowflakeId)
  | none => .ok none
  | some requested =>
    match windowEnd topic windowStartUnixSeconds with
    | none => .error .windowEndOutOfRange
    | some ends => .ok (some (min requested (sonyflake.minimumForTimestamp ends)))

/-- The seal horizon of a request, zero unless it asks for one. -/
def validateSealHorizon : Option Nat → Except RequestError Int
  | none => .ok 0
  | some milliseconds =>
    match Word.toInt64 milliseconds with
    | none => .error .sealHorizonTooLarge
    | some milliseconds => .ok (milliseconds * 1000000)

def validateRequest (sonyflake : Sonyflake) (config : MetadataCacheConfig)
    (request : ReadMetadataWindowRequest) : Except RequestError ReadSpecification := do
  if request.topic.isEmpty then throw .emptyTopic
  let topic ← match config.topics request.topic with
    | none => throw (.unknownTopic request.topic)
    | some topic => pure topic
  if request.windowStartUnixSeconds % topic.metadataWindowSize.tdiv nanoseconds ≠ 0 then
    throw .unalignedWindow
  let consistency ← match request.consistency with
    | none => throw .unsupportedConsistency
    | some consistency => pure consistency
  let (coverage, partitions, minByPartition) ← validateCoverage request.coverage
  if ¬ ∀ partition ∈ partitions, topic.isValidPartition partition then throw .invalidPartition
  let requestedSealBefore ←
    validateSealBound sonyflake topic request.windowStartUnixSeconds request.requestedSealBefore
  let requestedSealHorizon ← validateSealHorizon request.requestedSealHorizonMs
  return {
    key := ⟨request.topic, request.windowStartUnixSeconds, consistency, coverage⟩
    topic
    partitions
    minByPartition
    requestedSealBefore
    requestedSealHorizon }

theorem validateCoverage_bounds {requested : Option RequestCoverage} {coverage : ReadCoverage}
    {partitions : Finset VirtualPartitionId} {bounds : Option Bounds}
    (validated : validateCoverage requested = .ok (coverage, partitions, bounds)) :
    bounds.isSome = true ↔ coverage = .tail := by
  unfold validateCoverage at validated
  dsimp only at validated
  split at validated
  · split at validated
    · cases validated
      simp
    · cases validated
  · split at validated
    · cases validated
      simp
    · cases validated
  · cases validated

/-- A validated tail request has bounds, a full recovery none. -/
theorem validateRequest_bounds {sonyflake : Sonyflake} {config : MetadataCacheConfig}
    {request : ReadMetadataWindowRequest} {specification : ReadSpecification}
    (validated : validateRequest sonyflake config request = .ok specification) :
    specification.minByPartition.isSome = true ↔ specification.key.coverage = .tail := by
  simp only [validateRequest, bind, Except.bind, pure, Except.pure, throw, throwThe,
    MonadExceptOf.throw] at validated
  -- One split for each check; the branch that throws yields no specification.
  split at validated
  · cases validated
  split at validated
  · cases validated
  split at validated
  · cases validated
  split at validated
  · cases validated
  split at validated
  · cases validated
  next projected covered =>
    split at validated
    · cases validated
    split at validated
    · cases validated
    split at validated
    · cases validated
    · cases validated
      exact validateCoverage_bounds covered

end BlobStream.Read
