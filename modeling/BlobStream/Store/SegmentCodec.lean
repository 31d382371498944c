import BlobStream.Lib.Decimal
import BlobStream.Write.Segment

/-!
# The durable form of segment metadata

A metadata row is stored as a partition key `topic#window`, a sort key with the padded identity, and a
protobuf payload. Decoding splits the first key at its last `#`, reads both numbers, and rejects
payloads that no writer produces.
-/

namespace BlobStream.Store.Codec

open Write (BatchMetadata BlobKey ByteRange Compression CompressionCodec PartitionMap SegmentMetadata
  SnowflakeId TopicWindowKey)

/-! ### The stored message -/

structure StoredSegmentCompression where
  /-- The number of the codec; readers may meet one they do not know. -/
  codec : Int
  level : Int
deriving DecidableEq, Repr

structure SegmentBatchMetadata where
  seqStart : Nat
  seqEnd : Nat
  byteStart : Nat
  byteEnd : Nat
  payloadBytes : Nat
deriving DecidableEq, Repr

structure SegmentPartitionIndex where
  virtualPartitionId : VirtualPartitionId
  batch : Option SegmentBatchMetadata
deriving DecidableEq, Repr

structure SegmentMetadataV1 where
  blobKey : String
  createdTsMs : Int
  metadataPublishedTsMs : Int
  compression : Option StoredSegmentCompression
  partitions : List SegmentPartitionIndex
deriving DecidableEq, Repr

def FitsInt32 (value : Int) : Prop := -2 ^ 31 ≤ value ∧ value ≤ 2 ^ 31 - 1

def FitsInt64 (value : Int) : Prop := Word.int64Min ≤ value ∧ value ≤ Word.int64Max

instance (value : Int) : Decidable (FitsInt32 value) := inferInstanceAs (Decidable (_ ∧ _))

instance (value : Int) : Decidable (FitsInt64 value) := inferInstanceAs (Decidable (_ ∧ _))

structure SegmentBatchMetadata.Fits (batch : SegmentBatchMetadata) : Prop where
  seqStart : batch.seqStart ≤ Word.u64Max
  seqEnd : batch.seqEnd ≤ Word.u64Max
  byteStart : batch.byteStart ≤ Word.u64Max
  byteEnd : batch.byteEnd ≤ Word.u64Max
  payloadBytes : batch.payloadBytes ≤ Word.u64Max

structure SegmentMetadataV1.Fits (message : SegmentMetadataV1) : Prop where
  created : FitsInt64 message.createdTsMs
  published : FitsInt64 message.metadataPublishedTsMs
  compression : ∀ compression ∈ message.compression,
    FitsInt32 compression.codec ∧ FitsInt32 compression.level
  partitions : ∀ partition ∈ message.partitions, partition.virtualPartitionId ≤ Word.u32Max
    ∧ ∀ batch ∈ partition.batch, batch.Fits

/-- The library that writes and parses messages, taken to round-trip those whose numbers fit their
fields. -/
structure MessageFormat (Payload : Type) where
  write : SegmentMetadataV1 → Option Payload
  parse : Payload → Option SegmentMetadataV1
  round_trip : ∀ message, message.Fits →
    ∃ payload, write message = some payload ∧ parse payload = some message
  parsed : ∀ payload message, parse payload = some message → message.Fits

/-! ### Encoding -/

def encodeCompression (compression : Compression) : StoredSegmentCompression :=
  match compression.codec with
  | .none => ⟨0, 0⟩
  | .zstd => ⟨1, compression.level.getD 0⟩

def encodeBatch (batch : BatchMetadata) : SegmentBatchMetadata where
  seqStart := batch.seqRange.start
  seqEnd := batch.seqRange.end
  byteStart := batch.byteRange.start
  byteEnd := batch.byteRange.end
  payloadBytes := batch.payloadBytes

def encodeEntry (entry : VirtualPartitionId × BatchMetadata) : SegmentPartitionIndex :=
  ⟨entry.1, some (encodeBatch entry.2)⟩

/-- The order in which a hash map lists its entries is not specified. -/
structure IterationOrder where
  order : PartitionMap BatchMetadata → PartitionMap BatchMetadata
  perm : ∀ index, (order index).Perm index

/-- The order in which the model lists the entries. -/
def IterationOrder.listed : IterationOrder := ⟨id, List.Perm.refl⟩

/-- `encode_segment_metadata_v1`; none when an instant does not fit. -/
def encodeSegmentMetadataV1 (iteration : IterationOrder) (metadata : SegmentMetadata) :
    Option SegmentMetadataV1 := do
  let createdTsMs ← unixMillis metadata.createdAt
  let metadataPublishedTsMs ← unixMillis metadata.metadataPublishedAt
  return {
    blobKey := metadata.blobKey
    createdTsMs
    metadataPublishedTsMs
    compression := some (encodeCompression metadata.compression)
    partitions := (iteration.order metadata.segmentIndex).map encodeEntry }

/-- `TopicWindowKey::format`. -/
def formatWindow (window : TopicWindowKey) : String :=
  String.ofList (window.topic.toList ++ '#' :: Decimal.formatInt window.windowStartUnixSeconds)

/-- `SnowflakeId::format_lex`. -/
def formatLex (snowflakeId : SnowflakeId) : String :=
  String.ofList (Decimal.formatPadded 20 snowflakeId)

structure EncodedSegmentMetadata (Payload : Type) where
  partitionKey : String
  sortKey : String
  payload : Payload
deriving DecidableEq

variable {Payload : Type}

def encode (format : MessageFormat Payload) (iteration : IterationOrder)
    (metadata : SegmentMetadata) : Option (EncodedSegmentMetadata Payload) := do
  let message ← encodeSegmentMetadataV1 iteration metadata
  let payload ← format.write message
  return ⟨formatWindow metadata.window, formatLex metadata.snowflakeId, payload⟩

/-! ### Decoding -/

inductive DecodeError
  | payload
  | partitionKey (key : String)
  | windowStart (text : String)
  | snowflakeId (text : String)
  | missingBlobKey
  | missingCompression
  | unsupportedCodec (value : Int)
  | noPartitions
  | missingBatch (partition : VirtualPartitionId)
  | invalidSequenceRange (partition : VirtualPartitionId)
  | emptyByteRange (partition : VirtualPartitionId)
  | duplicatePartition (partition : VirtualPartitionId)
  | timestamp (millis : Int)
deriving DecidableEq, Repr

def decodeCompression (compression : StoredSegmentCompression) : Except DecodeError Compression :=
  if compression.codec = 0 then .ok ⟨.none, none⟩
  else if compression.codec = 1 then .ok ⟨.zstd, some compression.level⟩
  else .error (.unsupportedCodec compression.codec)

def decodeBatch (partition : SegmentPartitionIndex) : Except DecodeError BatchMetadata :=
  match partition.batch with
  | none => .error (.missingBatch partition.virtualPartitionId)
  | some batch =>
    if batch.seqEnd < batch.seqStart then
      .error (.invalidSequenceRange partition.virtualPartitionId)
    else if batch.byteEnd ≤ batch.byteStart then
      .error (.emptyByteRange partition.virtualPartitionId)
    else
      .ok ⟨⟨batch.seqStart, batch.seqEnd⟩, ⟨batch.byteStart, batch.byteEnd⟩, batch.payloadBytes⟩

def decodePartitions : List SegmentPartitionIndex → PartitionMap BatchMetadata →
    Except DecodeError (PartitionMap BatchMetadata)
  | [], index => .ok index
  | partition :: rest, index =>
    match decodeBatch partition with
    | .error error => .error error
    | .ok batch =>
      if index.any fun entry => entry.1 = partition.virtualPartitionId then
        .error (.duplicatePartition partition.virtualPartitionId)
      else decodePartitions rest (index ++ [(partition.virtualPartitionId, batch)])

/-- `offset_datetime_from_unix_millis_checked`. -/
def instantOfUnixMillisChecked (millis : Int) : Except DecodeError Int :=
  match checkedAddTime 0 (millis * 1000000) with
  | none => .error (.timestamp millis)
  | some instant => .ok instant

def decodeSegmentMetadataV1 (window : TopicWindowKey) (snowflakeId : SnowflakeId)
    (metadata : SegmentMetadataV1) : Except DecodeError SegmentMetadata := do
  if metadata.blobKey = "" then throw .missingBlobKey
  let compression ← match metadata.compression with
    | none => throw .missingCompression
    | some compression => decodeCompression compression
  if metadata.partitions = [] then throw .noPartitions
  let segmentIndex ← decodePartitions metadata.partitions []
  let createdAt ← instantOfUnixMillisChecked metadata.createdTsMs
  let metadataPublishedAt ← instantOfUnixMillisChecked metadata.metadataPublishedTsMs
  return { window, snowflakeId, blobKey := metadata.blobKey, compression, segmentIndex, createdAt,
           metadataPublishedAt }

def decodeKeys (partitionKey sortKey : String) :
    Except DecodeError (TopicWindowKey × SnowflakeId) :=
  match Text.rsplitOnce '#' partitionKey.toList with
  | none => .error (.partitionKey partitionKey)
  | some (topic, windowStart) =>
    match Decimal.parseInt Word.int64Min Word.int64Max windowStart with
    | none => .error (.windowStart (String.ofList windowStart))
    | some windowStartUnixSeconds =>
      match Decimal.parseNat Word.u64Max sortKey.toList with
      | none => .error (.snowflakeId sortKey)
      | some snowflakeId => .ok (⟨String.ofList topic, windowStartUnixSeconds⟩, snowflakeId)

def decode (format : MessageFormat Payload) (partitionKey sortKey : String) (payload : Payload) :
    Except DecodeError SegmentMetadata :=
  match format.parse payload with
  | none => .error .payload
  | some message =>
    match decodeKeys partitionKey sortKey with
    | .error error => .error error
    | .ok (window, snowflakeId) => decodeSegmentMetadataV1 window snowflakeId message

/-! ### Storable rows -/

/-- A whole number of milliseconds that the clock type represents. -/
def StorableInstant (instant : Int) : Prop :=
  minTime ≤ instant ∧ instant ≤ maxTime ∧ instant % 1000000 = 0

/-- An entry of the index that readers accept, with numbers of the machine's width. -/
structure StorableEntry (entry : VirtualPartitionId × BatchMetadata) : Prop where
  partition : entry.1 ≤ Word.u32Max
  fits : (encodeBatch entry.2).Fits
  seqRange : entry.2.seqRange.start ≤ entry.2.seqRange.end
  byteRange : entry.2.byteRange.start < entry.2.byteRange.end

/-- A row that can be stored and read back. The first fields are what its types promise. -/
structure Storable (metadata : SegmentMetadata) : Prop where
  window : FitsInt64 metadata.window.windowStartUnixSeconds
  snowflakeId : metadata.snowflakeId ≤ Word.u64Max
  distinct : (metadata.segmentIndex.map Prod.fst).Nodup
  blobKey : metadata.blobKey ≠ ""
  nonempty : metadata.segmentIndex ≠ []
  entries : ∀ entry ∈ metadata.segmentIndex, StorableEntry entry
  createdAt : StorableInstant metadata.createdAt
  publishedAt : StorableInstant metadata.metadataPublishedAt
  compression : metadata.compression = ⟨.none, none⟩
    ∨ ∃ level, FitsInt32 level ∧ metadata.compression = ⟨.zstd, some level⟩

/-- Two rows that differ at most in the order in which their indexes are listed. -/
structure SameRow (left right : SegmentMetadata) : Prop where
  index : left.segmentIndex.Perm right.segmentIndex
  rest : { left with segmentIndex := right.segmentIndex } = right

/-! ### The parts are inverse to each other -/

theorem unixMillis_of_storable {instant : Int} (storable : StorableInstant instant) :
    unixMillis instant = some (instant / 1000000)
      ∧ instantOfUnixMillisChecked (instant / 1000000) = .ok instant
      ∧ FitsInt64 (instant / 1000000) := by
  obtain ⟨low, high, whole⟩ := storable
  have fits : FitsInt64 (instant / 1000000) := by
    unfold FitsInt64 Word.int64Min Word.int64Max
    unfold minTime at low
    unfold maxTime at high
    omega
  have restored : 0 + instant / 1000000 * 1000000 = instant := by omega
  refine ⟨?_, ?_, fits⟩
  · unfold unixMillis Word.toInt64
    exact if_pos fits
  · unfold instantOfUnixMillisChecked
    rw [checkedAddTime_eq_some.mpr ⟨restored, low, high⟩]

theorem storableInstant_of_checked {millis instant : Int}
    (converted : instantOfUnixMillisChecked millis = .ok instant) : StorableInstant instant := by
  unfold instantOfUnixMillisChecked at converted
  split at converted
  next => cases converted
  next found representable =>
    cases converted
    obtain ⟨sum, low, high⟩ := checkedAddTime_eq_some.mp representable
    exact ⟨low, high, by omega⟩

variable {snowflakeId : SnowflakeId} {window : TopicWindowKey}

theorem decodeKeys_format
    (start : FitsInt64 window.windowStartUnixSeconds) (identity : snowflakeId ≤ Word.u64Max) :
    decodeKeys (formatWindow window) (formatLex snowflakeId) = .ok (window, snowflakeId) := by
  have noSeparator : '#' ∉ Decimal.formatInt window.windowStartUnixSeconds :=
    Decimal.not_mem_formatInt _ (by decide) (by decide)
  unfold decodeKeys formatWindow formatLex
  rw [String.toList_ofList, String.toList_ofList, Text.rsplitOnce_append noSeparator]
  dsimp only
  rw [Decimal.parseInt_formatInt start.1 start.2]
  dsimp only
  rw [Decimal.parseNat_formatPadded identity, String.ofList_toList]

theorem decodeKeys_ok {partitionKey sortKey : String}
    (decoded : decodeKeys partitionKey sortKey = .ok (window, snowflakeId)) :
    FitsInt64 window.windowStartUnixSeconds ∧ snowflakeId ≤ Word.u64Max := by
  unfold decodeKeys at decoded
  split at decoded
  next => cases decoded
  next topic text separated =>
    split at decoded
    next => cases decoded
    next start readStart =>
      split at decoded
      next => cases decoded
      next identity readIdentity =>
        cases decoded
        have inside := (Option.filter_eq_some_iff.mp readStart).2
        have below := (Option.filter_eq_some_iff.mp readIdentity).2
        rw [decide_eq_true_iff] at inside below
        exact ⟨inside, below⟩

variable {compression : Compression}

theorem decodeCompression_encode
    (known : compression = ⟨.none, none⟩ ∨ ∃ level, FitsInt32 level ∧ compression = ⟨.zstd, some level⟩) :
    decodeCompression (encodeCompression compression) = .ok compression := by
  rcases known with rfl | ⟨level, -, rfl⟩ <;> rfl

theorem decodeBatch_encode {entry : VirtualPartitionId × BatchMetadata}
    (storable : StorableEntry entry) : decodeBatch (encodeEntry entry) = .ok entry.2 := by
  have ordered := storable.seqRange
  have occupied := storable.byteRange
  unfold decodeBatch encodeEntry encodeBatch
  dsimp only
  rw [if_neg (by omega), if_neg (by omega)]

theorem decodePartitions_encode {entries : PartitionMap BatchMetadata}
    (storable : ∀ entry ∈ entries, StorableEntry entry) (index : PartitionMap BatchMetadata)
    (distinct : ((index ++ entries).map Prod.fst).Nodup) :
    decodePartitions (entries.map encodeEntry) index = .ok (index ++ entries) := by
  induction entries generalizing index with
  | nil => simp [decodePartitions]
  | cons entry rest ih =>
    have absent : (index.any fun held => held.1 = (encodeEntry entry).virtualPartitionId) = false := by
      rw [List.any_eq_false]
      intro held member same
      rw [List.map_append, List.nodup_append] at distinct
      exact distinct.2.2 held.1 (List.mem_map_of_mem member) entry.1 List.mem_cons_self
        (of_decide_eq_true same)
    rw [List.map_cons, decodePartitions, decodeBatch_encode (storable entry List.mem_cons_self)]
    dsimp only
    rw [if_neg (by rw [absent]; decide)]
    have later := ih (fun other member => storable other (List.mem_cons_of_mem entry member))
      (index ++ [entry]) (by simpa using distinct)
    rw [List.append_assoc, List.singleton_append] at later
    exact later

theorem decodeBatch_ok {partition : SegmentPartitionIndex} {batch : BatchMetadata}
    (fits : partition.virtualPartitionId ≤ Word.u32Max ∧ ∀ stored ∈ partition.batch, stored.Fits)
    (decoded : decodeBatch partition = .ok batch) :
    StorableEntry (partition.virtualPartitionId, batch) := by
  unfold decodeBatch at decoded
  split at decoded
  next => cases decoded
  next stored isStored =>
    split at decoded
    next => cases decoded
    next ordered =>
      split at decoded
      next => cases decoded
      next occupied =>
        cases decoded
        have numbers := fits.2 stored isStored
        exact ⟨fits.1, ⟨numbers.seqStart, numbers.seqEnd, numbers.byteStart, numbers.byteEnd,
          numbers.payloadBytes⟩, Nat.le_of_not_lt ordered, Nat.lt_of_not_le occupied⟩

/-- What the loop accepts has distinct partitions with storable batches. -/
theorem decodePartitions_ok {partitions : List SegmentPartitionIndex}
    {index result : PartitionMap BatchMetadata}
    (fits : ∀ partition ∈ partitions, partition.virtualPartitionId ≤ Word.u32Max
      ∧ ∀ batch ∈ partition.batch, batch.Fits)
    (distinct : (index.map Prod.fst).Nodup) (storable : ∀ entry ∈ index, StorableEntry entry)
    (decoded : decodePartitions partitions index = .ok result) :
    (result.map Prod.fst).Nodup ∧ (∀ entry ∈ result, StorableEntry entry)
      ∧ index.length + partitions.length = result.length := by
  induction partitions generalizing index with
  | nil =>
    cases decoded
    exact ⟨distinct, storable, rfl⟩
  | cons partition rest ih =>
    rw [decodePartitions] at decoded
    split at decoded
    next => cases decoded
    next batch isBatch =>
      split at decoded
      next => cases decoded
      next absent =>
        have fresh : partition.virtualPartitionId ∉ index.map Prod.fst := by
          intro member
          obtain ⟨held, there, same⟩ := List.mem_map.mp member
          exact absent (List.any_eq_true.mpr ⟨held, there, decide_eq_true same⟩)
        have entry := decodeBatch_ok (fits partition List.mem_cons_self) isBatch
        have distinctNext :
            ((index ++ [(partition.virtualPartitionId, batch)]).map Prod.fst).Nodup := by
          rw [List.map_append]
          refine List.nodup_append.mpr ⟨distinct, by simp, ?_⟩
          intro held member added isNew same
          cases List.mem_singleton.mp isNew
          rw [same] at member
          exact fresh member
        have storableNext : ∀ other ∈ index ++ [(partition.virtualPartitionId, batch)],
            StorableEntry other := by
          intro other member
          rcases List.mem_append.mp member with held | added
          · exact storable other held
          · cases List.mem_singleton.mp added
            exact entry
        obtain ⟨distinctAll, storableAll, length⟩ :=
          ih (fun other member => fits other (List.mem_cons_of_mem partition member)) distinctNext
            storableNext decoded
        refine ⟨distinctAll, storableAll, ?_⟩
        rw [← length, List.length_append, List.length_cons, List.length_singleton]
        omega

/-! ### Rows -/

def storedMessage (iteration : IterationOrder) (metadata : SegmentMetadata) : SegmentMetadataV1 where
  blobKey := metadata.blobKey
  createdTsMs := metadata.createdAt / 1000000
  metadataPublishedTsMs := metadata.metadataPublishedAt / 1000000
  compression := some (encodeCompression metadata.compression)
  partitions := (iteration.order metadata.segmentIndex).map encodeEntry

variable {metadata : SegmentMetadata}

section

variable (iteration : IterationOrder) (storable : Storable metadata)

include storable

theorem encode_storable :
    encodeSegmentMetadataV1 iteration metadata = some (storedMessage iteration metadata) := by
  unfold encodeSegmentMetadataV1
  rw [(unixMillis_of_storable storable.createdAt).1,
    (unixMillis_of_storable storable.publishedAt).1]
  rfl

theorem storedMessage_fits : (storedMessage iteration metadata).Fits := by
  refine ⟨(unixMillis_of_storable storable.createdAt).2.2,
    (unixMillis_of_storable storable.publishedAt).2.2, ?_, ?_⟩
  · rintro compression ⟨⟩
    rcases storable.compression with known | ⟨level, levelFits, known⟩
    · rw [known]
      exact ⟨by decide, by decide⟩
    · rw [known]
      exact ⟨show FitsInt32 1 by decide, levelFits⟩
  · intro partition member
    obtain ⟨entry, listed, rfl⟩ := List.mem_map.mp member
    have held := storable.entries entry ((iteration.perm _).mem_iff.mp listed)
    refine ⟨held.partition, ?_⟩
    rintro batch ⟨⟩
    exact held.fits

theorem decode_storedMessage :
    decodeSegmentMetadataV1 metadata.window metadata.snowflakeId (storedMessage iteration metadata)
      = .ok { metadata with segmentIndex := iteration.order metadata.segmentIndex } := by
  obtain ⟨-, created, -⟩ := unixMillis_of_storable storable.createdAt
  obtain ⟨-, published, -⟩ := unixMillis_of_storable storable.publishedAt
  have perm := iteration.perm metadata.segmentIndex
  have index : decodePartitions ((iteration.order metadata.segmentIndex).map encodeEntry) []
      = .ok (iteration.order metadata.segmentIndex) :=
    decodePartitions_encode (fun entry member => storable.entries entry (perm.mem_iff.mp member)) []
      ((perm.map Prod.fst).nodup_iff.mpr storable.distinct)
  have nonempty : (iteration.order metadata.segmentIndex).map encodeEntry ≠ [] := by
    intro empty
    rw [List.map_eq_nil_iff.mp empty] at perm
    exact storable.nonempty perm.nil_eq.symm
  simp only [decodeSegmentMetadataV1, storedMessage, bind, Except.bind, pure, Except.pure,
    if_neg storable.blobKey, decodeCompression_encode storable.compression, if_neg nonempty, index,
    created, published]

end

theorem decodeCompression_ok {stored : StoredSegmentCompression} (level : FitsInt32 stored.level)
    (decoded : decodeCompression stored = .ok compression) :
    compression = ⟨.none, none⟩ ∨ ∃ level, FitsInt32 level ∧ compression = ⟨.zstd, some level⟩ := by
  unfold decodeCompression at decoded
  split at decoded
  · cases decoded
    exact .inl rfl
  · split at decoded
    · cases decoded
      exact .inr ⟨_, level, rfl⟩
    · cases decoded

theorem storable_of_decode
    {message : SegmentMetadataV1} (start : FitsInt64 window.windowStartUnixSeconds)
    (identity : snowflakeId ≤ Word.u64Max) (fits : message.Fits)
    (decoded : decodeSegmentMetadataV1 window snowflakeId message = .ok metadata) :
    Storable metadata := by
  simp only [decodeSegmentMetadataV1, bind, Except.bind, pure, Except.pure, throw, throwThe,
    MonadExceptOf.throw] at decoded
  -- One split for each check; the branch that throws yields no row.
  split at decoded
  · cases decoded
  next named =>
    split at decoded
    · cases decoded
    next stored isStored =>
      split at decoded
      · cases decoded
      next compression found =>
        split at decoded
        · cases decoded
        next occupied =>
          split at decoded
          · cases decoded
          next index indexed =>
            split at decoded
            · cases decoded
            next createdAt created =>
              split at decoded
              · cases decoded
              next publishedAt published =>
                cases decoded
                obtain ⟨distinct, entries, length⟩ :=
                  decodePartitions_ok fits.partitions (by simp) (by simp) indexed
                refine {
                  window := start
                  snowflakeId := identity
                  distinct
                  blobKey := named
                  nonempty := ?_
                  entries
                  createdAt := storableInstant_of_checked created
                  publishedAt := storableInstant_of_checked published
                  compression :=
                    decodeCompression_ok (fits.compression stored isStored).2 found }
                rintro rfl
                exact occupied (List.eq_nil_of_length_eq_zero (by simpa using length))

/-- Every storable row survives being stored and read, whatever the order of its index in the message;
and what a reader accepts is stored and read as the same row. -/
theorem segment_metadata_round_trip (format : MessageFormat Payload) (iteration : IterationOrder) :
    (∀ metadata, Storable metadata → ∃ encoded, encode format iteration metadata = some encoded
      ∧ ∃ decoded, decode format encoded.partitionKey encoded.sortKey encoded.payload = .ok decoded
        ∧ SameRow decoded metadata)
    ∧ ∀ partitionKey sortKey payload metadata,
      decode format partitionKey sortKey payload = .ok metadata →
      ∃ encoded, encode format iteration metadata = some encoded
        ∧ ∃ decoded, decode format encoded.partitionKey encoded.sortKey encoded.payload = .ok decoded
          ∧ SameRow decoded metadata := by
  have stored : ∀ metadata, Storable metadata →
      ∃ encoded, encode format iteration metadata = some encoded
        ∧ ∃ decoded, decode format encoded.partitionKey encoded.sortKey encoded.payload = .ok decoded
          ∧ SameRow decoded metadata := by
    intro metadata storable
    obtain ⟨payload, written, parsed⟩ :=
      format.round_trip _ (storedMessage_fits iteration storable)
    refine ⟨⟨formatWindow metadata.window, formatLex metadata.snowflakeId, payload⟩, ?_,
      { metadata with segmentIndex := iteration.order metadata.segmentIndex }, ?_,
      iteration.perm metadata.segmentIndex, rfl⟩
    · unfold encode
      rw [encode_storable iteration storable]
      show (format.write _).bind _ = _
      rw [written]
      rfl
    · unfold decode
      rw [parsed]
      dsimp only
      rw [decodeKeys_format storable.window storable.snowflakeId]
      exact decode_storedMessage iteration storable
  refine ⟨stored, fun partitionKey sortKey payload metadata decoded => stored metadata ?_⟩
  unfold decode at decoded
  split at decoded
  · cases decoded
  next message parsed =>
    split at decoded
    · cases decoded
    next window snowflakeId keys =>
      obtain ⟨start, identity⟩ := decodeKeys_ok keys
      exact storable_of_decode start identity (format.parsed payload message parsed) decoded

/-! ### A topic with a separator in its name -/

open Classical in
noncomputable def plainFormat : MessageFormat SegmentMetadataV1 where
  write := some
  parse message := if message.Fits then some message else none
  round_trip message fits := ⟨message, rfl, if_pos fits⟩
  parsed payload message parses := by
    split at parses
    next fits =>
      cases parses
      exact fits
    next => cases parses

def reversedOrder : IterationOrder := ⟨List.reverse, List.reverse_perm⟩

def separatedRow : SegmentMetadata where
  window := ⟨"orders#eu", -60⟩
  snowflakeId := 7
  blobKey := "segment"
  compression := ⟨.zstd, some 3⟩
  segmentIndex := [(0, ⟨⟨1, 2⟩, ⟨0, 8⟩, 8⟩), (4, ⟨⟨1, 1⟩, ⟨8, 12⟩, 4⟩)]
  createdAt := -59000000000
  metadataPublishedAt := -58000000000

theorem separatedRow_storable : Storable separatedRow where
  window := by decide
  snowflakeId := by decide
  distinct := by decide
  blobKey := by decide
  nonempty := by decide
  entries := by
    intro entry member
    rcases List.mem_pair.mp member with rfl | rfl
    all_goals
      exact ⟨by decide, ⟨by decide, by decide, by decide, by decide, by decide⟩, by decide, by decide⟩
  createdAt := ⟨by decide, by decide, by decide⟩
  publishedAt := ⟨by decide, by decide, by decide⟩
  compression := .inr ⟨3, by decide, rfl⟩

/-- The two entries of the index are listed in the other order, and the topic holds the separator. -/
theorem segment_metadata_round_trip_separator :
    ∃ encoded, encode plainFormat reversedOrder separatedRow = some encoded
      ∧ ∃ decoded, decode plainFormat encoded.partitionKey encoded.sortKey encoded.payload
          = .ok decoded
        ∧ SameRow decoded separatedRow :=
  (segment_metadata_round_trip plainFormat reversedOrder).1 separatedRow separatedRow_storable

end BlobStream.Store.Codec
