import BlobStream.Lib.Machine
import BlobStream.Read.Response

/-!
# The broker metadata cache

Reads of one window share store scans. An eventual read takes a retained entry that covers it and is
fresh, or joins the pending refill of its key. A refill lowers its bounds to those of the readers that
join it before it scans, then retains what it found and hands it to everyone who waits. A strong read
that asks for a seal can reuse the sealed prefix of an earlier strong scan; the suffix scan behind it
can move the seal forward.

Limits, timeouts and store errors are failures that can happen at any time.
-/

namespace BlobStream.Read

open Store.Codec (SegmentMetadataV1)
open Write (SegmentMetadata SnowflakeId)

/-! ### Entries -/

section Entries

variable (sonyflake : Sonyflake) (config : MetadataCacheConfig) (specification : ReadSpecification)

def ReadSpecification.horizon : Int := specification.sealHorizon config.sealClockSkew

/-- The lowest identity of a row that was not yet old enough at `instant`. -/
def safeBefore (instant : Int) : SnowflakeId :=
  sonyflake.minimumForTimestamp (saturatingSubTime instant (specification.horizon config))

def sortSegments (rows : List SegmentMetadata) : List SegmentMetadata :=
  rows.insertionSort (Sorted.byKey SegmentMetadata.snowflakeId)

/-- `load_entry`: the entry made from the rows of a scan. -/
def loadedEntry (startedAt observedAt : Int) (generation : Nat) (rows : List SegmentMetadata) :
    CacheEntry where
  refillFloor := specification.minSnowflake
  observedAt := observedAt
  sealedBefore :=
    if specification.key.consistency = .strong then
      specification.requestedSealBefore.map
        (min · (safeBefore sonyflake config specification startedAt))
    else none
  sealedAt := if specification.key.consistency = .strong then some startedAt else none
  sealedHorizon := none
  generation := generation
  segments := sortSegments rows

/-- `load_entry`: the sealed rows of a strong scan, offered for retention. -/
def sealedPrefix (entry : CacheEntry) : Option CacheEntry :=
  match specification.key.consistency, entry.sealedBefore with
  | .strong, some bound =>
    if (specification.minSnowflake.all fun floor => decide (floor < bound))
        ∧ (specification.windowEndSnowflake sonyflake).isSome then
      some { entry with
        sealedHorizon := none
        segments := entry.segments.take (entry.prefixLen bound) }
    else none
  | _, _ => none

/-- The retained prefix is as good as the one a scan sealed before `bound`. -/
def keepsCurrent (current : CacheEntry) (bound : SnowflakeId) : Bool :=
  current.covers specification
    && (current.sealedBefore.any fun held => decide (bound ≤ held))
    && current.sealedHorizon.all fun certified => decide (specification.horizon config ≤ certified)

/-- The bound up to which a strong read can take rows from a retained prefix. -/
def reusableBound (entry : CacheEntry) : Option SnowflakeId :=
  match specification.requestedSealBefore, entry.sealedBefore, entry.sealedAt with
  | some requested, some storedBound, some sealedAt =>
    let bound := min (min storedBound requested) (safeBefore sonyflake config specification sealedAt)
    if entry.covers specification
        ∧ (entry.sealedHorizon.all fun certified =>
            decide (specification.horizon config ≤ certified))
        ∧ (specification.minSnowflake.all fun floor => decide (floor < bound)) then
      some bound
    else none
  | _, _, _ => none

/-- `entry_for`: what a waiting reader makes of the result of a refill that covers it. -/
def entryFromRefill (entry : CacheEntry) : Except ReadFailure CacheEntry :=
  match specification.key.consistency, specification.requestedSealBefore with
  | .strong, some requested =>
    match entry.sealedAt with
    | none => .error .failed
    | some sealedAt =>
      let bound := min (min (entry.sealedBefore.getD requested) requested)
        (safeBefore sonyflake config specification sealedAt)
      let sealed := specification.minSnowflake.all fun floor => decide (floor < bound)
      .ok { entry with
        sealedBefore := if sealed then some bound else none
        sealedAt := if sealed then some sealedAt else none }
  | _, _ => .ok entry

/-- `entry_for`: what a strong read makes of a suffix scan behind the prefix it found. -/
def entryFromSuffix (requested : SnowflakeId) (sealedAt : Int) (bound : SnowflakeId)
    (scanned : CacheEntry) : CacheEntry :=
  let proofAt := scanned.sealedAt.getD sealedAt
  { scanned with
    sealedBefore := some (min (min (scanned.sealedBefore.getD bound) requested)
      (safeBefore sonyflake config specification proofAt))
    sealedAt := some proofAt
    sealedHorizon :=
      if sealedAt < proofAt then some (specification.horizon config) else scanned.sealedHorizon }

/-- `refill_strong_suffix`: where a suffix scan starts. -/
def suffixFloor (sealBefore : SnowflakeId) : SnowflakeId :=
  (specification.minSnowflake.map (max · sealBefore)).getD sealBefore

/-- `refill_strong_suffix`: the seal a suffix scan moves the retained prefix to. -/
def promotedBound (sealBefore storedBound : SnowflakeId) (originalSealAt startedAt observedAt : Int) :
    Option SnowflakeId :=
  match specification.requestedSealBefore, specification.windowEndSnowflake sonyflake with
  | some requested, some windowEnd =>
    let bound := min (min requested windowEnd) (safeBefore sonyflake config specification startedAt)
    if suffixFloor specification sealBefore ≤ storedBound ∧ originalSealAt ≤ startedAt
        ∧ startedAt ≤ observedAt ∧ storedBound < bound then some bound
    else none
  | _, _ => none

/-- Result of a suffix scan: the entry for those who wait, and the prefix to retain if any. -/
structure SuffixResult where
  entry : CacheEntry
  promoted : Option CacheEntry
deriving DecidableEq

/-- `refill_strong_suffix`, from the rows of the scan; none when the prefix carries no seal. -/
def suffixResult (retained : CacheEntry) (sealBefore : SnowflakeId) (startedAt observedAt : Int)
    (generation : Nat) (rows : List SegmentMetadata) : Option SuffixResult :=
  match retained.sealedBefore, retained.sealedAt with
  | some storedBound, some originalSealAt =>
    let suffix := sortSegments (rows.filter fun row => decide (sealBefore ≤ row.snowflakeId))
    let segments := retained.segments.take (retained.prefixLen sealBefore) ++ suffix
    match promotedBound sonyflake config specification sealBefore storedBound originalSealAt
        startedAt observedAt with
    | some bound =>
      let newlySealed := suffix.filter fun row =>
        decide (storedBound ≤ row.snowflakeId ∧ row.snowflakeId < bound)
      let entry : CacheEntry :=
        { refillFloor := retained.refillFloor
          observedAt
          sealedBefore := some bound
          sealedAt := some startedAt
          sealedHorizon := some (specification.horizon config)
          generation
          segments }
      some ⟨entry, some { entry with segments := retained.segments ++ newlySealed }⟩
    | none =>
      some ⟨{ refillFloor := retained.refillFloor
              observedAt
              sealedBefore := some sealBefore
              sealedAt := retained.sealedAt
              sealedHorizon := retained.sealedHorizon
              generation
              segments }, none⟩
  | _, _ => none

end Entries

/-! ### Pending refills -/

/-- Lower the bounds of a pending refill to those of a reader that joins it, partition by
partition. -/
def lowerBounds (pending joining : Bounds) : Bounds :=
  joining.entries.foldl
    (fun bounds entry =>
      bounds.insert entry.1 (((bounds.lookup entry.1).map (min · entry.2)).getD entry.2))
    pending

/-- `PendingRefill::admit`; none is the panic of a tail refill without bounds. -/
def admitSpecification (pending joining : ReadSpecification) : Option ReadSpecification :=
  if pending.key.coverage ≠ .tail then some pending
  else
    match joining.minByPartition, pending.minByPartition with
    | none, _ => some pending
    | some bounds, some pendingBounds =>
      some { pending with minByPartition := some (lowerBounds pendingBounds bounds) }
    | some _, none => none

inductive RefillPhase
  | coalescing
  | begun (request : ReadSpecification)
  | scanning (request : ReadSpecification) (startedAt : Int)
  | loaded (request : ReadSpecification) (entry : CacheEntry)
  | installed (entry : CacheEntry)
  | completed (result : Except ReadFailure CacheEntry) (epoch : Nat)
deriving DecidableEq

def RefillPhase.isComplete : RefillPhase → Bool
  | .completed _ _ => true
  | _ => false

structure PendingRefill where
  specification : ReadSpecification
  phase : RefillPhase
deriving DecidableEq

inductive SuffixPhase
  | spawned
  | scanning (startedAt : Int)
  | loaded (result : SuffixResult)
  | installed (entry : CacheEntry)
  | completed (result : Except ReadFailure CacheEntry)
deriving DecidableEq

def SuffixPhase.isComplete : SuffixPhase → Bool
  | .completed _ => true
  | _ => false

structure StrongSuffixKey where
  key : CacheKey
  generation : Nat
  sealBefore : SnowflakeId
  floor : SnowflakeId
deriving DecidableEq

structure PendingSuffix where
  specification : ReadSpecification
  retained : CacheEntry
  sealBefore : SnowflakeId
  phase : SuffixPhase
deriving DecidableEq

def PendingSuffix.key (suffix : PendingSuffix) : StrongSuffixKey where
  key := suffix.specification.key
  generation := suffix.retained.generation
  sealBefore := suffix.sealBefore
  floor := suffixFloor suffix.specification suffix.sealBefore

/-! ### Reads -/

/-- Where the rows of an answer came from: a retained entry and the time of the lookup, or a refill
and the step at which the read joined it. -/
inductive Source
  | retained (lookedUpAt : Int)
  | refill (id joined : Nat)
  | sealedPrefix
  | suffix
  | refused
deriving DecidableEq

inductive CallPhase
  | lookup
  | stale
  | join
  | waiting (refill : Nat) (joined : Nat)
  | joinSuffix (retained : CacheEntry) (sealBefore : SnowflakeId)
  | waitingSuffix (suffix : Nat) (retained : CacheEntry) (sealBefore : SnowflakeId)
  | answered (result : Except ReadFailure MetadataReadSuccess) (source : Source)
deriving DecidableEq

structure Call where
  specification : ReadSpecification
  limit : Nat
  maxItems : Nat
  phase : CallPhase
deriving DecidableEq

inductive Lookup
  | retained (entry : CacheEntry)
  | stale
  | sealedPrefix (entry : CacheEntry)
  | suffix (retained : CacheEntry) (sealBefore : SnowflakeId)
  | refill
deriving DecidableEq

/-- `entry_for`: what a read does with the entries retained for its key. -/
def lookupEntry (sonyflake : Sonyflake) (config : MetadataCacheConfig)
    (specification : ReadSpecification) (now : Int) (eventual strongSealed : Option CacheEntry) :
    Lookup :=
  match specification.key.consistency with
  | .eventual =>
    match eventual with
    | none => .refill
    | some entry =>
      if entry.covers specification
          ∧ entry.isFresh specification.topic.metadataCacheMaxAge now then .retained entry
      else .stale
  | .strong =>
    match strongSealed with
    | none => .refill
    | some entry =>
      match reusableBound sonyflake config specification entry with
      | none => .refill
      | some bound =>
        if (specification.windowEndSnowflake sonyflake).any fun ends => decide (bound < ends) then
          .suffix entry bound
        else .sealedPrefix entry

/-! ### The machine -/

/-- A scan of the store, as it happened. -/
structure Scan where
  generation : Nat
  key : CacheKey
  floor : Option SnowflakeId
  startedAt : Int
  observedAt : Int
  rows : List SegmentMetadata
deriving DecidableEq

structure CacheWorld where
  now : Int
  /-- Number of steps so far. -/
  epoch : Nat
  generation : Nat
  eventual : CacheKey → Option CacheEntry
  strongSealed : CacheKey → Option CacheEntry
  inFlight : CacheKey → Option Nat
  suffixInFlight : StrongSuffixKey → Option Nat
  refills : List PendingRefill
  suffixes : List PendingSuffix
  calls : List Call
  scans : List Scan

def CacheWorld.initial (now : Int) : CacheWorld where
  now := now
  epoch := 0
  generation := 0
  eventual _ := none
  strongSealed _ := none
  inFlight _ := none
  suffixInFlight _ := none
  refills := []
  suffixes := []
  calls := []
  scans := []

inductive CacheAction
  | tick (now : Int)
  | evict (key : CacheKey)
  | read (request : ReadMetadataWindowRequest) (limits : ResponseLimits)
  | refuse (call : Nat) (failure : ReadFailure)
  | lookup (call : Nat)
  | invalidate (call : Nat)
  | join (call : Nat)
  | resume (call : Nat)
  | joinSuffix (call : Nat)
  | resumeSuffix (call : Nat)
  | begin (refill : Nat)
  | scan (refill : Nat)
  | load (refill : Nat) (rows : List SegmentMetadata)
  | install (refill : Nat)
  | complete (refill : Nat)
  | fail (refill : Nat) (failure : ReadFailure)
  | remove (refill : Nat)
  | scanSuffix (suffix : Nat)
  | loadSuffix (suffix : Nat) (rows : List SegmentMetadata)
  | installSuffix (suffix : Nat)
  | completeSuffix (suffix : Nat)
  | failSuffix (suffix : Nat) (failure : ReadFailure)
  | removeSuffix (suffix : Nat)
deriving DecidableEq

namespace CacheWorld

variable (world : CacheWorld)

def setCall (index : Nat) (call : Call) (phase : CallPhase) : CacheWorld :=
  { world with calls := world.calls.set index { call with phase } }

def setRefill (index : Nat) (refill : PendingRefill) (phase : RefillPhase) : CacheWorld :=
  { world with refills := world.refills.set index { refill with phase } }

def setSuffix (index : Nat) (suffix : PendingSuffix) (phase : SuffixPhase) : CacheWorld :=
  { world with suffixes := world.suffixes.set index { suffix with phase } }

/-- The registered refill of a key, unless it has completed. -/
def pendingRefill (key : CacheKey) : Option (Nat × PendingRefill) := do
  let index ← world.inFlight key
  let refill ← world.refills[index]?
  if refill.phase.isComplete then none else some (index, refill)

def pendingSuffix (key : StrongSuffixKey) : Option (Nat × PendingSuffix) := do
  let index ← world.suffixInFlight key
  let suffix ← world.suffixes[index]?
  if suffix.phase.isComplete then none else some (index, suffix)

end CacheWorld

def requestPartitionCount (request : ReadMetadataWindowRequest) : Nat :=
  match request.coverage with
  | some (.tail partitionBounds) => partitionBounds.length
  | some (.fullRecovery virtualPartitionIds) => virtualPartitionIds.length
  | none => 0

section Steps

variable (sonyflake : Sonyflake) (config : MetadataCacheConfig)
variable (computeSize : SegmentMetadataV1 → Nat)

/-- `read`, up to the call of `entry_for`. -/
def acceptRequest (request : ReadMetadataWindowRequest) (limits : ResponseLimits) :
    Except ReadFailure Call :=
  if limits.maxRequestPartitions < requestPartitionCount request then
    .error (.overloaded .requestPartitions)
  else
    match validateRequest sonyflake config request with
    | .error error => .error (.badRequest error)
    | .ok specification =>
      .ok {
        specification
        limit := responseLimit request limits.maxResponseBytes
        maxItems := limits.maxResponseItems
        phase := .lookup }

/-- `read`, from the result of `entry_for` on. -/
def answer (call : Call) (found : Except ReadFailure CacheEntry)
    (retainedCoverage retainedStrongCoverage : Bool) (source : Source) : CallPhase :=
  match found with
  | .error failure => .answered (.error failure) source
  | .ok entry =>
    .answered (responseFromEntry computeSize call.specification call.limit call.maxItems entry
      retainedCoverage retainedStrongCoverage) source

namespace CacheWorld

variable (world : CacheWorld)

def read (request : ReadMetadataWindowRequest) (limits : ResponseLimits) : CacheWorld :=
  match acceptRequest sonyflake config request limits with
  -- A refused request is answered at once and leaves no trace in the cache.
  | .error _ => world
  | .ok call => { world with calls := world.calls ++ [call] }

/-- A read ends with an error: it timed out, or a limit refused it. -/
def refuse (index : Nat) (failure : ReadFailure) : Option CacheWorld := do
  let call ← world.calls[index]?
  match call.phase with
  | .answered _ _ => none
  | _ => some (world.setCall index call (.answered (.error failure) .refused))

def lookup (index : Nat) : Option CacheWorld := do
  let call ← world.calls[index]?
  let key := call.specification.key
  match call.phase with
  | .lookup =>
    some (world.setCall index call
      (match lookupEntry sonyflake config call.specification world.now (world.eventual key)
          (world.strongSealed key) with
      | .retained entry => answer computeSize call (.ok entry) true false (.retained world.now)
      | .stale => .stale
      | .sealedPrefix entry => answer computeSize call (.ok entry) false true .sealedPrefix
      | .suffix retained bound => .joinSuffix retained bound
      | .refill => .join))
  | _ => none

def invalidate (index : Nat) : Option CacheWorld := do
  let call ← world.calls[index]?
  match call.phase with
  | .stale =>
    some { world.setCall index call .join with
      eventual := Function.update world.eventual call.specification.key none }
  | _ => none

/-- `join_or_start_refill`. -/
def join (index : Nat) : Option CacheWorld := do
  let call ← world.calls[index]?
  let specification := call.specification
  match call.phase with
  | .join =>
    match world.pendingRefill specification.key with
    | some (id, refill) => do
      let admitted ← admitSpecification refill.specification specification
      some ((world.setRefill id { refill with specification := admitted } refill.phase).setCall
        index call (.waiting id world.epoch))
    | none =>
      some { world.setCall index call (.waiting world.refills.length world.epoch) with
        refills := world.refills ++ [⟨specification, .coalescing⟩]
        inFlight := Function.update world.inFlight specification.key (some world.refills.length) }
  | _ => none

/-- A waiting read takes the result of its refill, or looks again when it is not covered. -/
def resume (index : Nat) : Option CacheWorld := do
  let call ← world.calls[index]?
  match call.phase with
  | .waiting id joined => do
    let refill ← world.refills[id]?
    match refill.phase with
    | .completed (.error failure) _ =>
      some (world.setCall index call (.answered (.error failure) (.refill id joined)))
    | .completed (.ok entry) _ =>
      some (world.setCall index call
        (if entry.covers call.specification then
          answer computeSize call (entryFromRefill sonyflake config call.specification entry) false
            false (.refill id joined)
        else .lookup))
    | _ => none
  | _ => none

/-- `coalesced_strong_suffix`. -/
def joinSuffix (index : Nat) : Option CacheWorld := do
  let call ← world.calls[index]?
  match call.phase with
  | .joinSuffix retained sealBefore =>
    let pending : PendingSuffix := ⟨call.specification, retained, sealBefore, .spawned⟩
    match world.pendingSuffix pending.key with
    | some (id, _) => some (world.setCall index call (.waitingSuffix id retained sealBefore))
    | none =>
      some { world.setCall index call
          (.waitingSuffix world.suffixes.length retained sealBefore) with
        suffixes := world.suffixes ++ [pending]
        suffixInFlight :=
          Function.update world.suffixInFlight pending.key (some world.suffixes.length) }
  | _ => none

def resumeSuffix (index : Nat) : Option CacheWorld := do
  let call ← world.calls[index]?
  match call.phase with
  | .waitingSuffix id retained sealBefore => do
    let suffix ← world.suffixes[id]?
    let requested ← call.specification.requestedSealBefore
    let sealedAt ← retained.sealedAt
    match suffix.phase with
    | .completed (.error failure) =>
      some (world.setCall index call (.answered (.error failure) .suffix))
    | .completed (.ok scanned) =>
      some (world.setCall index call
        (answer computeSize call
          (.ok (entryFromSuffix sonyflake config call.specification requested sealedAt sealBefore
            scanned)) false true .suffix))
    | _ => none
  | _ => none

/-! The worker of a refill. -/

/-- The coalescing window is over: the request is what the joined readers made of it. -/
def begin (id : Nat) : Option CacheWorld := do
  let refill ← world.refills[id]?
  match refill.phase with
  | .coalescing => some (world.setRefill id refill (.begun refill.specification))
  | _ => none

def scan (id : Nat) : Option CacheWorld := do
  let refill ← world.refills[id]?
  match refill.phase with
  | .begun request => some (world.setRefill id refill (.scanning request world.now))
  | _ => none

def load (id : Nat) (rows : List SegmentMetadata) : Option CacheWorld := do
  let refill ← world.refills[id]?
  match refill.phase with
  | .scanning request startedAt =>
    let generation := world.generation + 1
    let entry := loadedEntry sonyflake config request startedAt world.now generation rows
    some { world.setRefill id refill (.loaded request entry) with
      generation
      scans := world.scans ++
        [⟨generation, request.key, request.minSnowflake, startedAt, world.now, rows⟩] }
  | _ => none

/-- The sealed prefix kept for the key of a request after a strong scan. -/
def retainedPrefix (request : ReadSpecification) (entry : CacheEntry)
    (current : Option CacheEntry) : Option CacheEntry :=
  match sealedPrefix sonyflake request entry, entry.sealedBefore with
  | some offered, some bound =>
    if current.any fun current => keepsCurrent config request current bound then current
    else some offered
  | _, _ => current

def install (id : Nat) : Option CacheWorld := do
  let refill ← world.refills[id]?
  match refill.phase with
  | .loaded request entry =>
    let installed := world.setRefill id refill (.installed entry)
    match request.key.consistency with
    | .eventual =>
      some { installed with eventual := Function.update world.eventual request.key (some entry) }
    | .strong =>
      some { installed with
        strongSealed := Function.update world.strongSealed request.key
          (retainedPrefix sonyflake config request entry (world.strongSealed request.key)) }
  | _ => none

def complete (id : Nat) : Option CacheWorld := do
  let refill ← world.refills[id]?
  match refill.phase with
  | .installed entry => some (world.setRefill id refill (.completed (.ok entry) world.epoch))
  | _ => none

def fail (id : Nat) (failure : ReadFailure) : Option CacheWorld := do
  let refill ← world.refills[id]?
  if refill.phase.isComplete then none
  else some (world.setRefill id refill (.completed (.error failure) world.epoch))

/-- `remove_pending_refill`: a registration of another refill stays. -/
def remove (id : Nat) : Option CacheWorld := do
  let refill ← world.refills[id]?
  let key := refill.specification.key
  if refill.phase.isComplete then
    some { world with
      inFlight := if world.inFlight key = some id then Function.update world.inFlight key none
        else world.inFlight }
  else none

/-! The worker of a suffix scan. -/

def scanSuffix (id : Nat) : Option CacheWorld := do
  let suffix ← world.suffixes[id]?
  match suffix.phase with
  | .spawned => some (world.setSuffix id suffix (.scanning world.now))
  | _ => none

def loadSuffix (id : Nat) (rows : List SegmentMetadata) : Option CacheWorld := do
  let suffix ← world.suffixes[id]?
  match suffix.phase with
  | .scanning startedAt =>
    let specification := suffix.specification
    let generation := world.generation + 1
    let phase : SuffixPhase :=
      match suffixResult sonyflake config specification suffix.retained suffix.sealBefore startedAt
          world.now generation rows with
      | none => .completed (.error .failed)
      | some result => .loaded result
    some { world.setSuffix id suffix phase with
      generation
      scans := world.scans ++
        [⟨generation, specification.key, some (suffixFloor specification suffix.sealBefore),
          startedAt, world.now, rows⟩] }
  | _ => none

/-- The promoted prefix replaces the one it extends, and no other. -/
def installSuffix (id : Nat) : Option CacheWorld := do
  let suffix ← world.suffixes[id]?
  match suffix.phase with
  | .loaded result =>
    let key := suffix.specification.key
    let installed := world.setSuffix id suffix (.installed result.entry)
    match result.promoted with
    | some promoted =>
      if world.strongSealed key = some suffix.retained then
        some { installed with
          strongSealed := Function.update world.strongSealed key (some promoted) }
      else some installed
    | none => some installed
  | _ => none

def completeSuffix (id : Nat) : Option CacheWorld := do
  let suffix ← world.suffixes[id]?
  match suffix.phase with
  | .installed entry => some (world.setSuffix id suffix (.completed (.ok entry)))
  | _ => none

def failSuffix (id : Nat) (failure : ReadFailure) : Option CacheWorld := do
  let suffix ← world.suffixes[id]?
  if suffix.phase.isComplete then none
  else some (world.setSuffix id suffix (.completed (.error failure)))

def removeSuffix (id : Nat) : Option CacheWorld := do
  let suffix ← world.suffixes[id]?
  let key := suffix.key
  if suffix.phase.isComplete then
    some { world with
      suffixInFlight :=
        if world.suffixInFlight key = some id then Function.update world.suffixInFlight key none
        else world.suffixInFlight }
  else none

def move : CacheAction → Option CacheWorld
  | .tick now => some { world with now }
  | .evict key =>
    some { world with
      eventual := Function.update world.eventual key none
      strongSealed := Function.update world.strongSealed key none }
  | .read request limits => some (world.read sonyflake config request limits)
  | .refuse call failure => world.refuse call failure
  | .lookup call => world.lookup sonyflake config computeSize call
  | .invalidate call => world.invalidate call
  | .join call => world.join call
  | .resume call => world.resume sonyflake config computeSize call
  | .joinSuffix call => world.joinSuffix call
  | .resumeSuffix call => world.resumeSuffix sonyflake config computeSize call
  | .begin refill => world.begin refill
  | .scan refill => world.scan refill
  | .load refill rows => world.load sonyflake config refill rows
  | .install refill => world.install sonyflake config refill
  | .complete refill => world.complete refill
  | .fail refill failure => world.fail refill failure
  | .remove refill => world.remove refill
  | .scanSuffix suffix => world.scanSuffix suffix
  | .loadSuffix suffix rows => world.loadSuffix sonyflake config suffix rows
  | .installSuffix suffix => world.installSuffix suffix
  | .completeSuffix suffix => world.completeSuffix suffix
  | .failSuffix suffix failure => world.failSuffix suffix failure
  | .removeSuffix suffix => world.removeSuffix suffix

def step (action : CacheAction) : Option CacheWorld :=
  (world.move sonyflake config computeSize action).map fun after =>
    { after with epoch := world.epoch + 1 }

end CacheWorld

end Steps

end BlobStream.Read
