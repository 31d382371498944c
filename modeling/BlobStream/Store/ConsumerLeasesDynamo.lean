import BlobStream.Store.LeaseProgress

/-!
# Consumer partition leases, in DynamoDB

Each operation is one conditional update, which the table applies atomically; when the condition
fails, an eventually consistent read tells what stands in the way. Generations are compared by
heartbeats, commits and releases, but not by every claim.
-/

namespace BlobStream.ConsumerLeases

open Word Machine

/-- The attributes of an item: those of a lease, and the time after which the table may drop it. -/
structure DynamoLeaseItem extends LeaseState where
  ttlEpochSeconds : Int
deriving DecidableEq, Repr

inductive DynamoLeaseError
  | lease (error : ConsumerLeaseError)
  | ttlBufferConversionOverflow
  | ttlOverflow
  | leaseMissing
deriving DecidableEq, Repr

def DynamoLeaseError.message : DynamoLeaseError → String
  | .lease .nowOutOfRange => "current time exceeds Dynamo millisecond range"
  | .lease .leaseDurationOutOfRange => "lease duration exceeds Dynamo millisecond range"
  | .lease error => error.message
  | .ttlBufferConversionOverflow => "lease ttl buffer conversion overflow"
  | .ttlOverflow => "lease ttl overflow"
  | .leaseMissing => "lease missing after conditional failure"

def durationSecondsCeil (duration : Int) : Option Int :=
  toInt64 (duration.tdiv 1000000000 + if duration.tmod 1000000000 ≠ 0 then 1 else 0)

def ttlEpochSeconds (expiresAtMs ttlBuffer : Int) : Except DynamoLeaseError Int :=
  match durationSecondsCeil ttlBuffer with
  | none => .error .ttlBufferConversionOverflow
  | some ttlBufferSeconds =>
    match toInt64 (expiresAtMs.tdiv 1000 + ttlBufferSeconds) with
    | none => .error .ttlOverflow
    | some seconds => .ok seconds

/-- `UpdateItem` with a condition: the item before and after, or nothing when the condition fails. -/
def updateItem (row : Option DynamoLeaseItem) (condition : Bool) (update : DynamoLeaseItem) :
    Option (Option DynamoLeaseItem × DynamoLeaseItem) :=
  if condition then some (row, update) else none

/-- `lease_expiry_ts <= :now OR owner_id = :owner`, or no item at all. -/
def claimable (row : Option DynamoLeaseItem) (ownerId : String) (nowTsMs : Int) : Bool :=
  match row with
  | none => true
  | some item => item.isExpired nowTsMs || item.ownerId = ownerId

/-- `owner_id = :owner AND generation = :generation AND lease_expiry_ts > :now`. -/
def leaseInForce (row : Option DynamoLeaseItem) (ownerId : String) (generation : Nat)
    (nowTsMs : Int) : Bool :=
  match row with
  | none => false
  | some item => item.heldBy ownerId generation && !item.isExpired nowTsMs

abbrev DynamoCall (Outcome : Type) := Except DynamoLeaseError Outcome × Option DynamoLeaseItem

/-- The caller's clock, the expiration of a lease that starts now and the item's time to live. -/
def dynamoTerm (now leaseDuration ttlBuffer : Int) : Except DynamoLeaseError (Int × Int × Int) := do
  let (nowTsMs, expiration) ← (leaseTerm now leaseDuration).mapError .lease
  let ttl ← ttlEpochSeconds expiration ttlBuffer
  return (nowTsMs, expiration, ttl)

def claimedItem (row : Option DynamoLeaseItem) (ownerId : String) (generation : Nat)
    (nowTsMs expiration ttl : Int) : DynamoLeaseItem :=
  match row with
  | none => { freshLeaseState ownerId generation nowTsMs expiration with ttlEpochSeconds := ttl }
  | some item =>
    { item.claimed ownerId generation nowTsMs expiration with ttlEpochSeconds := ttl }

namespace Dynamo

variable (row : Option DynamoLeaseItem) (key : ConsumerGroupLeaseKey) (ownerId : String)
variable (generation : Nat) (now leaseDuration ttlBuffer : Int)

/-- `observed` is what the read after a failed condition returns. -/
def assignPartition (observed : Option DynamoLeaseItem) :
    DynamoCall ConsumerGroupAssignmentOutcome :=
  match dynamoTerm now leaseDuration ttlBuffer with
  | .error error => (.error error, row)
  | .ok (nowTsMs, expiration, ttl) =>
    match updateItem row (claimable row ownerId nowTsMs)
      (claimedItem row ownerId generation nowTsMs expiration ttl) with
    | some (previous, item) =>
      let lease : ConsumerGroupLease :=
        { key, ownerId, generation
          leaseExpirationTsMs := expiration
          lastHeartbeatTsMs := nowTsMs
          committedCursor := previous.bind (·.committedCursor)
          committedTsMs := previous.bind (·.committedTsMs) }
      (.ok (.assigned lease (previous.map (·.toLease key))
        (consumerGroupLeaseTransition (previous.map (·.toLeaseState)) ownerId)), some item)
    | none =>
      match observed with
      | none => (.error .leaseMissing, row)
      | some item => (.ok (.heldByOther (item.toLease key)), row)

/-- How a refused heartbeat, commit or release is reported after the read. -/
def refusal {Outcome : Type} (expired : Outcome) (heldByOther : ConsumerGroupLease → Outcome)
    (nowTsMs : Int) (observed : Option DynamoLeaseItem) : Outcome :=
  match observed with
  | none => expired
  | some item => if item.isExpired nowTsMs then expired else heldByOther (item.toLease key)

def heldItem (change : LeaseState → LeaseState) (ttl : Option Int) : Option DynamoLeaseItem :=
  row.map fun item => { change item.toLeaseState with ttlEpochSeconds := ttl.getD item.ttlEpochSeconds }

def heartbeatPartition (committedCursor : Option CommittedCursor)
    (observed : Option DynamoLeaseItem) : DynamoCall ConsumerGroupHeartbeatOutcome :=
  match (do
    (committedCursor.forM (validateCursor key)).mapError DynamoLeaseError.lease
    dynamoTerm now leaseDuration ttlBuffer) with
  | .error error => (.error error, row)
  | .ok (nowTsMs, expiration, ttl) =>
    let change (state : LeaseState) : LeaseState :=
      let renewed := { state with leaseExpirationTsMs := expiration, lastHeartbeatTsMs := nowTsMs }
      match committedCursor with
      | some cursor => renewed.withCursor cursor nowTsMs
      | none => renewed
    match leaseInForce row ownerId generation nowTsMs, heldItem row change (some ttl) with
    | true, some item => (.ok (.renewed (item.toLease key)), some item)
    | _, _ => (.ok (refusal key .expired .heldByOther nowTsMs observed), row)

def commitCursor (committedCursor : CommittedCursor) (observed : Option DynamoLeaseItem) :
    DynamoCall ConsumerGroupCommitOutcome :=
  match (do
    (validateCursor key committedCursor).mapError DynamoLeaseError.lease
    (nowMillis now).mapError DynamoLeaseError.lease) with
  | .error error => (.error error, row)
  | .ok nowTsMs =>
    match leaseInForce row ownerId generation nowTsMs,
      heldItem row (·.withCursor committedCursor nowTsMs) none with
    | true, some item => (.ok (.committed (item.toLease key)), some item)
    | _, _ => (.ok (refusal key .expired .heldByOther nowTsMs observed), row)

def releasePartition (observed : Option DynamoLeaseItem) : DynamoCall ConsumerGroupReleaseOutcome :=
  match (do
    let nowTsMs ← (nowMillis now).mapError DynamoLeaseError.lease
    return (nowTsMs, ← ttlEpochSeconds nowTsMs ttlBuffer)) with
  | .error error => (.error error, row)
  | .ok (nowTsMs, ttl) =>
    let change (state : LeaseState) : LeaseState :=
      { state with
        leaseExpirationTsMs := nowTsMs
        lastHeartbeatTsMs := nowTsMs
        gracefulReleaseTsMs := some nowTsMs }
    match leaseInForce row ownerId generation nowTsMs, heldItem row change (some ttl) with
    | true, some item => (.ok .released, some item)
    | _, _ => (.ok (refusal key .expired .heldByOther nowTsMs observed), row)

end Dynamo

end BlobStream.ConsumerLeases
