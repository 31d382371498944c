import BlobStream.Lib.SortedDistinct
import BlobStream.Read.Specification
import BlobStream.Store.SegmentCodec

/-!
# Responses shaped from cache entries

A cache entry holds complete rows of one window. Each caller gets its own projection: the partitions
it asked for, each from its own lowest identity on, in the order of identities, and nothing when the
result would not fit.
-/

namespace BlobStream.Read

open Store.Codec (SegmentMetadataV1 encodeEntry encodeSegmentMetadataV1)
open Write (SegmentMetadata SnowflakeId)

/-- Rows of a window, from the lowest identity that was scanned. -/
structure CacheEntry where
  refillFloor : Option SnowflakeId
  observedAt : Int
  sealedBefore : Option SnowflakeId
  sealedAt : Option Int
  sealedHorizon : Option Int
  generation : Nat
  segments : List SegmentMetadata
deriving DecidableEq

namespace CacheEntry

variable (entry : CacheEntry)

/-- Number of rows below the bound. The identities of the rows of a window differ, so that the binary
search of the sorted rows ends there. -/
def prefixLen (bound : SnowflakeId) : Nat :=
  (entry.segments.takeWhile fun segment => decide (segment.snowflakeId < bound)).length

/-- The scan started low enough for the caller. -/
def covers (specification : ReadSpecification) : Bool :=
  match entry.refillFloor, specification.minSnowflake with
  | some refillFloor, some requestFloor => decide (refillFloor ≤ requestFloor)
  | none, none => true
  | _, _ => false

def isFresh (maximumAge now : Int) : Bool :=
  decide (0 < maximumAge ∧ now - entry.observedAt ≤ maximumAge)

end CacheEntry

/-! ### Encoded rows -/

structure BrokerSegmentMetadata where
  snowflakeId : SnowflakeId
  metadata : SegmentMetadataV1
deriving DecidableEq, Repr

def brokerSegmentMetadata (segment : SegmentMetadata) : Option BrokerSegmentMetadata :=
  (encodeSegmentMetadataV1 .listed segment).map fun metadata => ⟨segment.snowflakeId, metadata⟩

/-! ### Limits and failures -/

def maxMetadataReadRequestBytes : Nat := 16 * 1024 * 1024

structure ResponseLimits where
  maxRequestPartitions : Nat
  maxResponseItems : Nat
  maxResponseBytes : Nat
  transportCap : maxResponseBytes ≤ maxMetadataReadRequestBytes
deriving DecidableEq

def responseLimit (request : ReadMetadataWindowRequest) (maxResponseBytes : Nat) : Nat :=
  max (min request.maxResponseBytes maxResponseBytes) 1

inductive OverloadReason
  | requestPartitions
  | requestTimeout
  | globalWaiters
  | perKeyWaiters
  | refillConcurrency
  | entryItems
  | responseItems
  | responseBytes
  | storageThrottled
deriving DecidableEq, Repr

inductive ReadFailure
  | badRequest (error : RequestError)
  | overloaded (reason : OverloadReason)
  | failed
deriving DecidableEq, Repr

structure MetadataReadSuccess where
  observedAtUnixMs : Int
  refillFloor : Option SnowflakeId
  generation : Nat
  retainedCoverage : Bool
  sealedBefore : Option SnowflakeId
  sealedAtUnixMs : Option Int
  retainedStrongCoverage : Bool
  segments : List BrokerSegmentMetadata
deriving DecidableEq, Repr

/-! ### Shaping -/

section Shaping

variable (computeSize : SegmentMetadataV1 → Nat) (specification : ReadSpecification)
variable (limit maxItems : Nat)

/-- The loop over the rows of an entry, with the bytes and the rows listed so far. -/
def shapeSegments : List SegmentMetadata → Nat → List BrokerSegmentMetadata →
    Except ReadFailure (List BrokerSegmentMetadata)
  | [], _, listed => .ok listed
  | segment :: rest, bytes, listed =>
    if specification.minSnowflake.any fun floor => decide (segment.snowflakeId < floor) then
      shapeSegments rest bytes listed
    else
      match encodeSegmentMetadataV1 .listed segment with
      | none => .error .failed
      | some encoded =>
        let partitions := encoded.partitions.filter fun partition =>
          specification.wants segment.snowflakeId partition.virtualPartitionId
        if partitions.isEmpty then shapeSegments rest bytes listed
        else
          let metadata := { encoded with partitions }
          let bytes := Word.saturatingAdd Word.u64Max bytes (computeSize metadata)
          if limit < bytes then .error (.overloaded .responseBytes)
          else if maxItems ≤ listed.length then .error (.overloaded .responseItems)
          else shapeSegments rest bytes (listed ++ [⟨segment.snowflakeId, metadata⟩])

def responseFromEntry (entry : CacheEntry) (retainedCoverage retainedStrongCoverage : Bool) :
    Except ReadFailure MetadataReadSuccess := do
  let segments ← shapeSegments computeSize specification limit maxItems entry.segments 0 []
  let observedAtUnixMs ← match unixMillis entry.observedAt with
    | none => throw .failed
    | some millis => pure millis
  return {
    observedAtUnixMs
    refillFloor := entry.refillFloor
    generation := entry.generation
    retainedCoverage
    sealedBefore := entry.sealedBefore.map fun bound =>
      (specification.requestedSealBefore.map (min bound)).getD bound
    sealedAtUnixMs := entry.sealedBefore.bind fun _ => entry.sealedAt.bind unixMillis
    retainedStrongCoverage
    segments }

end Shaping

/-! ### What a response lists -/

/-- The part of a row that the caller wants; none when no partition is left. -/
def ReadSpecification.restrict (specification : ReadSpecification) (segment : SegmentMetadata) :
    Option SegmentMetadata :=
  let kept := segment.segmentIndex.filter fun partition =>
    specification.wants segment.snowflakeId partition.1
  if kept.isEmpty then none else some { segment with segmentIndex := kept }

/-- The rows a caller is owed out of the rows of a scan. -/
def ReadSpecification.projection (specification : ReadSpecification)
    (segments : List SegmentMetadata) : List SegmentMetadata :=
  segments.filterMap specification.restrict

variable {specification : ReadSpecification}

/-- A partition is wanted only from the lowest bound of the request on. -/
theorem minSnowflake_le_of_wants {id floor : SnowflakeId} {partition : VirtualPartitionId}
    (wanted : specification.wants id partition = true)
    (lowest : specification.minSnowflake = some floor) : floor ≤ id := by
  unfold ReadSpecification.minSnowflake at lowest
  obtain ⟨bounds, bounded, minimum⟩ := Option.bind_eq_some_iff.mp lowest
  simp only [ReadSpecification.wants, bounded, Bool.and_eq_true, Option.any_eq_true,
    decide_eq_true_eq] at wanted
  obtain ⟨-, bound, found, below⟩ := wanted
  have member : bound ∈ bounds.entries.map Sigma.snd :=
    List.mem_map.mpr ⟨⟨partition, bound⟩, AList.mem_lookup_iff.mp found, rfl⟩
  exact Nat.le_trans ((List.min?_eq_some_iff.mp minimum).2 bound member) below

variable {segment : SegmentMetadata}

/-- Rows below the lowest bound are projected away with all their partitions. -/
theorem restrict_eq_none_of_below (below : (specification.minSnowflake.any fun floor =>
      decide (segment.snowflakeId < floor)) = true) : specification.restrict segment = none := by
  obtain ⟨floor, lowest, lower⟩ := Option.any_eq_true _ _ |>.mp below
  have empty : (segment.segmentIndex.filter fun partition =>
      specification.wants segment.snowflakeId partition.1) = [] := by
    rw [List.filter_eq_nil_iff]
    intro partition _ wanted
    exact Nat.not_le.mpr (of_decide_eq_true lower) (minSnowflake_le_of_wants wanted lowest)
  simp [ReadSpecification.restrict, empty]

def listedBytes (computeSize : SegmentMetadataV1 → Nat) (listed : List BrokerSegmentMetadata) : Nat :=
  (listed.map fun row => computeSize row.metadata).sum

/-- Partitions are dropped from a row before or after it is encoded. -/
theorem encodes_with_index {encoded : SegmentMetadataV1}
    (encodes : encodeSegmentMetadataV1 .listed segment = some encoded) :
    encoded.partitions = segment.segmentIndex.map encodeEntry
      ∧ ∀ kept, encodeSegmentMetadataV1 .listed { segment with segmentIndex := kept }
        = some { encoded with partitions := kept.map encodeEntry } := by
  simp only [encodeSegmentMetadataV1, Option.bind_eq_bind, Option.bind_eq_some_iff,
    Option.pure_def, Option.some.injEq] at encodes ⊢
  obtain ⟨created, createdFits, published, publishedFits, rfl⟩ := encodes
  exact ⟨rfl, fun _ => ⟨created, createdFits, published, publishedFits, rfl⟩⟩

variable {computeSize : SegmentMetadataV1 → Nat}

/-- A loop that ends appends the whole projection, within the limits. -/
theorem shapeSegments_ok {limit maxItems bytes : Nat} {segments : List SegmentMetadata}
    {listed result : List BrokerSegmentMetadata} (representable : limit < Word.u64Max)
    (shaped : shapeSegments computeSize specification limit maxItems segments bytes listed
      = .ok result) (bytesFit : bytes ≤ limit) (itemsFit : listed.length ≤ maxItems) :
    ∃ rows, (specification.projection segments).mapM brokerSegmentMetadata = some rows
      ∧ result = listed ++ rows ∧ bytes + listedBytes computeSize rows ≤ limit
      ∧ result.length ≤ maxItems := by
  -- One turn either leaves a row out, as the projection does, or appends it within the limits.
  induction segments generalizing bytes listed with
  | nil =>
    cases shaped
    exact ⟨[], rfl, (List.append_nil _).symm, bytesFit, itemsFit⟩
  | cons segment rest ih =>
    rw [shapeSegments] at shaped
    split at shaped
    next below =>
      obtain ⟨rows, listing⟩ := ih shaped bytesFit itemsFit
      refine ⟨rows, ?_, listing.2⟩
      rw [ReadSpecification.projection, List.filterMap_cons_none (restrict_eq_none_of_below below)]
      exact listing.1
    next atFloor =>
      split at shaped
      next => cases shaped
      next encoded encodes =>
        rw [(encodes_with_index encodes).1, List.filter_map] at shaped
        simp only [List.isEmpty_map] at shaped
        split at shaped
        next dropped =>
          have restricted : specification.restrict segment = none := if_pos dropped
          obtain ⟨rows, listing⟩ := ih shaped bytesFit itemsFit
          refine ⟨rows, ?_, listing.2⟩
          rw [ReadSpecification.projection, List.filterMap_cons_none restricted]
          exact listing.1
        next kept =>
          have restricted : specification.restrict segment = some _ := if_neg kept
          split at shaped
          next => cases shaped
          next sized =>
            split at shaped
            next => cases shaped
            next fewer =>
              have unsaturated := Word.saturatingAdd_of_not_lt representable sized
              rw [unsaturated] at shaped sized
              obtain ⟨rows, later, rfl, laterBytes, laterItems⟩ :=
                ih shaped (Nat.le_of_not_lt sized) (by simp; omega)
              refine ⟨_ :: rows, ?_, List.append_assoc _ _ _, ?_, laterItems⟩
              · rw [ReadSpecification.projection, List.filterMap_cons_some restricted,
                  List.mapM_cons, brokerSegmentMetadata, (encodes_with_index encodes).2]
                show (List.mapM brokerSegmentMetadata (specification.projection rest)).bind _ = _
                rw [later]
                rfl
              · simp only [listedBytes, List.map_cons, List.sum_cons] at laterBytes ⊢
                omega

variable {limit maxItems : Nat} {entry : CacheEntry}
variable {retainedCoverage retainedStrongCoverage : Bool} {success : MetadataReadSuccess}

theorem responseFromEntry_fields
    (shaped : responseFromEntry computeSize specification limit maxItems entry retainedCoverage
      retainedStrongCoverage = .ok success) :
    shapeSegments computeSize specification limit maxItems entry.segments 0 [] = .ok success.segments
      ∧ success.retainedStrongCoverage = retainedStrongCoverage
      ∧ success.generation = entry.generation
      ∧ success.sealedBefore = entry.sealedBefore.map fun bound =>
        (specification.requestedSealBefore.map (min bound)).getD bound := by
  simp only [responseFromEntry, bind, Except.bind, pure, Except.pure, throw, throwThe,
    MonadExceptOf.throw] at shaped
  split at shaped
  next => cases shaped
  next rows listed =>
    split at shaped
    next => cases shaped
    next =>
      cases shaped
      exact ⟨listed, rfl, rfl, rfl⟩

/-- What a successful response lists: the projection of the entry, all of it and within limits. -/
theorem responseFromEntry_success (representable : limit < Word.u64Max)
    (shaped : responseFromEntry computeSize specification limit maxItems entry retainedCoverage
      retainedStrongCoverage = .ok success) :
    (specification.projection entry.segments).mapM brokerSegmentMetadata = some success.segments
      ∧ listedBytes computeSize success.segments ≤ limit
      ∧ success.segments.length ≤ maxItems := by
  obtain ⟨listed, -⟩ := responseFromEntry_fields shaped
  obtain ⟨rows, encodes, appended, bytesFit, itemsFit⟩ :=
    shapeSegments_ok representable listed (Nat.zero_le _) (Nat.zero_le _)
  rw [List.nil_append] at appended
  rw [appended]
  exact ⟨encodes, by omega, appended ▸ itemsFit⟩

/-- The effective limit of a request can be counted up to. -/
theorem responseLimit_lt (request : ReadMetadataWindowRequest) (limits : ResponseLimits) :
    responseLimit request limits.maxResponseBytes < Word.u64Max := by
  have := limits.transportCap
  unfold responseLimit
  unfold maxMetadataReadRequestBytes at this
  unfold Word.u64Max
  omega

end BlobStream.Read
