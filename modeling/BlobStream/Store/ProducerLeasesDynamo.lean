import BlobStream.Store.ConsumerLeasesDynamo
import BlobStream.Store.LeaseRuns

/-!
# Producer partition leases, in DynamoDB

Each operation is one conditional update, or two for an acquisition: the renewal of a lease in force,
then the claim of an absent or expired one. Numbers are unbounded, so an item may hold a value that
does not decode any more. When no condition holds, an eventually consistent read tells why.
-/

namespace BlobStream.ProducerLeases

open Word

structure DynamoLeaseItem where
  holderId : String
  leaseEpoch : Int
  leaseSessionId : String
  leaseExpirationTsMs : Int
  ttlEpochSeconds : Int
  maxAllocatedSeq : Option Int
  leaseSequenceStart : Option Int
  lastHandedOutSeq : Option Int
  sequenceProgressUpdatedTsMs : Option Int
deriving DecidableEq, Repr

inductive DynamoLeaseError
  | lease (error : LeaseStoreError)
  | leaseExpirationOutOfRange
  | nowOutOfRange
  | ttlBufferConversionOverflow
  | ttlOverflow
  | leaseMissing
  | leaseMissingAfterReservation
  | reservedLeaseMissingMax
  | sequenceRangeUnderflow
  /-- An attribute does not have the type its field is decoded to. -/
  | undecodable
deriving DecidableEq, Repr

def DynamoLeaseError.message : DynamoLeaseError → String
  | .lease error => error.message
  | .leaseExpirationOutOfRange => "lease expiration exceeds Dynamo millisecond range"
  | .nowOutOfRange => "current time exceeds Dynamo millisecond range"
  | .ttlBufferConversionOverflow => "lease ttl buffer conversion overflow"
  | .ttlOverflow => "lease ttl overflow"
  | .leaseMissing => "lease missing after conditional failure"
  | .leaseMissingAfterReservation => "lease missing after reservation"
  | .reservedLeaseMissingMax => "reserved lease missing max allocated sequence"
  | .sequenceRangeUnderflow => "sequence range underflow"
  | .undecodable => "invalid number"

abbrev DynamoCall (Outcome : Type) := Except DynamoLeaseError Outcome × Option DynamoLeaseItem

def toU64 (value : Int) : Except DynamoLeaseError Nat :=
  if 0 ≤ value ∧ value ≤ u64Max then .ok value.toNat else .error .undecodable

def toI64 (value : Int) : Except DynamoLeaseError Int :=
  match toInt64 value with
  | some word => .ok word
  | none => .error .undecodable

/-- Decode the item and convert it to a lease (`DynamoLeaseItem::into_lease`). -/
def DynamoLeaseItem.intoLease (item : DynamoLeaseItem) (key : PartitionKey) :
    Except DynamoLeaseError ProducerPartitionLease := do
  let leaseEpoch ← toU64 item.leaseEpoch
  let leaseExpirationTsMs ← toI64 item.leaseExpirationTsMs
  let maxAllocatedSeq ← item.maxAllocatedSeq.mapM toU64
  let leaseSequenceStart ← item.leaseSequenceStart.mapM toU64
  let lastHandedOutSeq ← item.lastHandedOutSeq.mapM toU64
  let sequenceProgressUpdatedTsMs ← item.sequenceProgressUpdatedTsMs.mapM toI64
  return {
    key := key
    fence := { holderId := item.holderId, leaseEpoch, leaseSessionId := item.leaseSessionId }
    leaseExpirationAt := instantOfUnixMillis leaseExpirationTsMs
    maxAllocatedSeq, leaseSequenceStart, lastHandedOutSeq
    sequenceProgressUpdatedAt := sequenceProgressUpdatedTsMs.map instantOfUnixMillis }

def ttlEpochSeconds (expiresAtMs ttlBuffer : Int) : Except DynamoLeaseError Int :=
  match ConsumerLeases.durationSecondsCeil ttlBuffer with
  | none => .error .ttlBufferConversionOverflow
  | some ttlBufferSeconds =>
    match toInt64 (expiresAtMs.tdiv 1000 + ttlBufferSeconds) with
    | none => .error .ttlOverflow
    | some seconds => .ok seconds

def nowMillis (now : Int) : Except DynamoLeaseError Int :=
  match unixMillis now with
  | some nowTsMs => .ok nowTsMs
  | none => .error .nowOutOfRange

/-- The caller's clock, the expiration of a lease that starts now and the item's time to live. -/
def dynamoTerm (now leaseDuration ttlBuffer : Int) : Except DynamoLeaseError (Int × Int × Int) := do
  let expiration ← (expiresAt now leaseDuration).mapError .lease
  let expiresAtMs ← match unixMillis expiration with
    | some expiresAtMs => .ok expiresAtMs
    | none => .error .leaseExpirationOutOfRange
  let nowTsMs ← nowMillis now
  let ttl ← ttlEpochSeconds expiresAtMs ttlBuffer
  return (nowTsMs, expiresAtMs, ttl)

/-! ### Update and condition expressions -/

/-- `if_not_exists(max_allocated_seq, -1)`. -/
def DynamoLeaseItem.lastAllocated (item : DynamoLeaseItem) : Int := item.maxAllocatedSeq.getD (-1)

/-- `sequence_progress_update`: a reservation starts after the high-water mark before the update. -/
def sequenceProgressUpdate (before item : DynamoLeaseItem)
    (sequenceProgress : ProducerSequenceProgress) (reservesSequences : Bool) (updatedTsMs : Int) :
    DynamoLeaseItem :=
  { item with
    sequenceProgressUpdatedTsMs := some updatedTsMs
    leaseSequenceStart := match sequenceProgress.leaseSequenceStart with
      | some start => some start
      | none => if reservesSequences then some (before.lastAllocated + 1) else none
    lastHandedOutSeq := sequenceProgress.lastHandedOutSeq.map Int.ofNat }

/-- `max_allocated_seq = if_not_exists(max_allocated_seq, -1) + :delta`, if sequences are reserved. -/
def reservedMax (before : DynamoLeaseItem) : Option Nat → Option Int
  | some size => some (before.lastAllocated + size)
  | none => before.maxAllocatedSeq

def renewalUpdate (item : DynamoLeaseItem) (expiresAtMs ttl : Int) (reservationSize : Option Nat)
    (sequenceProgress : ProducerSequenceProgress) (nowTsMs : Int) : DynamoLeaseItem :=
  sequenceProgressUpdate item
    { item with
      leaseExpirationTsMs := expiresAtMs
      ttlEpochSeconds := ttl
      maxAllocatedSeq := reservedMax item reservationSize }
    sequenceProgress reservationSize.isSome nowTsMs

def absentItem (holderId leaseSessionId : String) : DynamoLeaseItem where
  holderId := holderId
  leaseEpoch := 0
  leaseSessionId := leaseSessionId
  leaseExpirationTsMs := 0
  ttlEpochSeconds := 0
  maxAllocatedSeq := none
  leaseSequenceStart := none
  lastHandedOutSeq := none
  sequenceProgressUpdatedTsMs := none

/-- The update of a claim: holder and session change and the epoch advances. -/
def claimUpdate (row : Option DynamoLeaseItem) (holderId leaseSessionId : String)
    (expiresAtMs ttl : Int) (reservationSize : Option Nat)
    (sequenceProgress : ProducerSequenceProgress) (nowTsMs : Int) : DynamoLeaseItem :=
  let before := row.getD (absentItem holderId leaseSessionId)
  renewalUpdate { before with holderId, leaseSessionId, leaseEpoch := before.leaseEpoch + 1 }
    expiresAtMs ttl reservationSize sequenceProgress nowTsMs

/-- `holder_id = :holder AND lease_session_id = :session`. -/
def DynamoLeaseItem.heldBy (item : DynamoLeaseItem) (holderId leaseSessionId : String) : Bool :=
  item.holderId = holderId ∧ item.leaseSessionId = leaseSessionId

/-- `lease_expiration_ts_ms <= :now`. -/
def DynamoLeaseItem.isExpired (item : DynamoLeaseItem) (nowTsMs : Int) : Bool :=
  item.leaseExpirationTsMs ≤ nowTsMs

/-- `attribute_not_exists(max_allocated_seq) OR max_allocated_seq <= :max_reservable`, if sequences
are reserved. -/
def DynamoLeaseItem.reservable (item : DynamoLeaseItem) : Option Nat → Bool
  | none => true
  | some size => match item.maxAllocatedSeq with
    | none => true
    | some max => max ≤ u64Max - size

def reservationWouldOverflow (lease : ProducerPartitionLease) (holderId leaseSessionId : String)
    (now : Int) (reservationSize : Option Nat) : Bool :=
  match reservationSize with
  | none => false
  | some size =>
    lease.fence.holderId = holderId && lease.fence.leaseSessionId = leaseSessionId
      && decide (now < lease.leaseExpirationAt)
      && match lease.maxAllocatedSeq with
        | none => false
        | some max => decide (u64Max - size < max)

def reservationFromNewMax (maxAllocatedSeq reservationSize : Nat) :
    Except DynamoLeaseError SeqRange :=
  match checkedSub maxAllocatedSeq (reservationSize - 1) with
  | some start => .ok ⟨start, maxAllocatedSeq⟩
  | none => .error .sequenceRangeUnderflow

/-- `reservation_from_old`: the same range as the in-memory store computes. -/
def reservationFromOld (oldMax : Option Nat) (reservationSize : Nat) :
    Except DynamoLeaseError SeqRange :=
  ((reserveRange oldMax reservationSize).map Prod.fst).mapError .lease

/-- `complete_acquire`: the range is recomputed from the high-water mark of the updated item. -/
def completeAcquire (item : DynamoLeaseItem) (key : PartitionKey) (reservationSize : Option Nat) :
    Except DynamoLeaseError LeaseAcquireAndReserveOutcome := do
  let lease ← item.intoLease key
  match reservationSize with
  | none => return .acquired lease none
  | some size =>
    match lease.maxAllocatedSeq with
    | none => .error .reservedLeaseMissingMax
    | some max => return .acquired lease (some (← reservationFromNewMax max size))

/-! ### Operations

`observed` is what the read after the update, or after a failed condition, returns.
-/

namespace Dynamo

variable (row : Option DynamoLeaseItem) (key : PartitionKey) (holderId leaseSessionId : String)
variable (now leaseDuration ttlBuffer : Int) (sequenceProgress : ProducerSequenceProgress)
variable (observed : Option DynamoLeaseItem → Option DynamoLeaseItem)

/-- The condition of a renewal, a heartbeat and a reservation. -/
def renewable (nowTsMs : Int) (reservationSize : Option Nat) : Option DynamoLeaseItem :=
  row.filter fun item => item.heldBy holderId leaseSessionId && !item.isExpired nowTsMs
    && item.reservable reservationSize

def claimable (nowTsMs : Int) (reservationSize : Option Nat) : Bool :=
  match row with
  | none => true
  | some item => item.isExpired nowTsMs && item.reservable reservationSize

def acquireLeaseAndReserveSequences (reservationSize : Option Nat) :
    DynamoCall LeaseAcquireAndReserveOutcome :=
  if reservationSize = some 0 then (.error (.lease .reservationSizeZero), row)
  else match dynamoTerm now leaseDuration ttlBuffer with
  | .error error => (.error error, row)
  | .ok (nowTsMs, expiresAtMs, ttl) =>
    match renewable row holderId leaseSessionId nowTsMs reservationSize with
    | some item =>
      let renewed := renewalUpdate item expiresAtMs ttl reservationSize sequenceProgress nowTsMs
      (completeAcquire renewed key reservationSize, some renewed)
    | none =>
      if claimable row nowTsMs reservationSize then
        let claimed := claimUpdate row holderId leaseSessionId expiresAtMs ttl reservationSize
          sequenceProgress nowTsMs
        (completeAcquire claimed key reservationSize, some claimed)
      else match observed row with
      | none => (.error .leaseMissing, row)
      | some item =>
        match item.intoLease key with
        | .error error => (.error error, row)
        | .ok lease =>
          if reservationWouldOverflow lease holderId leaseSessionId now reservationSize then
            (.error (.lease .sequenceRangeOverflow), row)
          else (.ok (.heldByOther lease), row)

def acquireLease : DynamoCall LeaseAcquireOutcome :=
  (acquireLeaseAndReserveSequences row key holderId leaseSessionId now leaseDuration ttlBuffer
    sequenceProgress observed none).map (.map .withoutReservation) id

/-- How a refused heartbeat or release is reported after the read. -/
def refusal {Outcome : Type} (expired : Outcome) (heldByOther : ProducerPartitionLease → Outcome) :
    Option DynamoLeaseItem → Except DynamoLeaseError Outcome
  | none => .ok expired
  | some item => do
    let lease ← item.intoLease key
    return if lease.leaseExpirationAt ≤ now then expired else heldByOther lease

def heartbeatLease : DynamoCall LeaseHeartbeatOutcome :=
  match dynamoTerm now leaseDuration ttlBuffer with
  | .error error => (.error error, row)
  | .ok (nowTsMs, expiresAtMs, ttl) =>
    match renewable row holderId leaseSessionId nowTsMs none with
    | some item =>
      let renewed := renewalUpdate item expiresAtMs ttl none sequenceProgress nowTsMs
      ((renewed.intoLease key).map .renewed, some renewed)
    | none => (refusal key now .expired .heldByOther (observed row), row)

def reserveSequences (reservationSize : Nat) : DynamoCall SequenceReservationOutcome :=
  if reservationSize = 0 then (.error (.lease .reservationSizeZero), row)
  else match nowMillis now with
  | .error error => (.error error, row)
  | .ok nowTsMs =>
    match renewable row holderId leaseSessionId nowTsMs (some reservationSize) with
    | some item =>
      let reserved := sequenceProgressUpdate item
        { item with maxAllocatedSeq := reservedMax item (some reservationSize) }
        sequenceProgress true nowTsMs
      let reply := do
        -- The old value comes back with the update, the lease with a read of its own.
        let range ← reservationFromOld (← item.maxAllocatedSeq.mapM toU64) reservationSize
        match observed (some reserved) with
        | none => .error .leaseMissingAfterReservation
        | some current => return .reserved range (← current.intoLease key)
      (reply, some reserved)
    | none =>
      match observed row with
      | none => (.ok .expired, row)
      | some item =>
        match item.intoLease key with
        | .error error => (.error error, row)
        | .ok lease =>
          if reservationWouldOverflow lease holderId leaseSessionId now (some reservationSize) then
            (.error (.lease .sequenceRangeOverflow), row)
          else if lease.leaseExpirationAt ≤ now then (.ok .expired, row)
          else (.ok (.heldByOther lease), row)

/-- The condition names the holder and the session, but not the expiration. -/
def releaseLease : DynamoCall LeaseReleaseOutcome :=
  match (do
    let nowTsMs ← nowMillis now
    return (nowTsMs, ← ttlEpochSeconds nowTsMs ttlBuffer)) with
  | .error error => (.error error, row)
  | .ok (nowTsMs, ttl) =>
    match row.filter fun item => item.heldBy holderId leaseSessionId with
    | some item =>
      (.ok .released, some (renewalUpdate item nowTsMs ttl none sequenceProgress nowTsMs))
    | none => (refusal key now .expired .heldByOther (observed row), row)

end Dynamo

def Dynamo.runCall (ttlBuffer : Int) (call : LeaseCall) (caller : LeaseCaller) (key : PartitionKey)
    (row : Option DynamoLeaseItem) (observed : Option DynamoLeaseItem → Option DynamoLeaseItem) :
    DynamoCall LeaseReply :=
  match call with
  | .acquireLease leaseDuration =>
    (acquireLease row key caller.holderId caller.leaseSessionId caller.now leaseDuration ttlBuffer
      caller.sequenceProgress observed).map (.map .acquire) id
  | .acquireLeaseAndReserveSequences leaseDuration size =>
    (acquireLeaseAndReserveSequences row key caller.holderId caller.leaseSessionId caller.now
      leaseDuration ttlBuffer caller.sequenceProgress observed size).map (.map .acquireAndReserve) id
  | .heartbeatLease leaseDuration =>
    (heartbeatLease row key caller.holderId caller.leaseSessionId caller.now leaseDuration ttlBuffer
      caller.sequenceProgress observed).map (.map .heartbeat) id
  | .reserveSequences size =>
    (reserveSequences row key caller.holderId caller.leaseSessionId caller.now
      caller.sequenceProgress observed size).map (.map .reserve) id
  | .releaseLease =>
    (releaseLease row key caller.holderId caller.leaseSessionId caller.now ttlBuffer
      caller.sequenceProgress observed).map (.map .release) id

end BlobStream.ProducerLeases
