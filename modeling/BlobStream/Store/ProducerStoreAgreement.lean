import BlobStream.Store.ProducerLeasesDynamo

/-!
# The two producer lease stores agree

The in-memory store keeps instants and 64-bit words, the DynamoDB store unbounded numbers and
milliseconds. `encode` is the item of a row. On it, the DynamoDB store answers and acts as the
in-memory store does, except that it releases an expired lease, does not check the epoch, reports an
overflow of the sequence numbers only for a lease in force, and checks the expiration and the time to
live before it looks at the row. The condition for a call to be answered alike is exact.
-/

namespace BlobStream.ProducerLeases

open Word

structure WholeMillis (instant : Int) : Prop where
  low : minTime ≤ instant
  high : instant ≤ maxTime
  whole : instant % 1000000 = 0

variable {instant ttl expiration : Int} {state : LeaseState} {reservationSize : Option Nat}

theorem WholeMillis.unixMillis_eq (millis : WholeMillis instant) :
    unixMillis instant = some (instant / 1000000) := by
  obtain ⟨low, high, -⟩ := millis
  unfold minTime at low
  unfold maxTime at high
  unfold unixMillis toInt64 int64Min int64Max
  rw [if_pos]
  omega

theorem WholeMillis.instantOfUnixMillis_eq (millis : WholeMillis instant) :
    instantOfUnixMillis (instant / 1000000) = instant := by
  have same : instant / 1000000 * 1000000 = instant := by
    have := millis.whole
    omega
  rw [instantOfUnixMillis, same, clampTime_of_mem millis.low millis.high]

theorem WholeMillis.toI64_eq (millis : WholeMillis instant) :
    toI64 (instant / 1000000) = .ok (instant / 1000000) := by
  have converted : toInt64 (instant / 1000000) = some (instant / 1000000) := millis.unixMillis_eq
  rw [toI64, converted]

/-- Instants of whole milliseconds compare as their milliseconds do. -/
theorem WholeMillis.div_le_div_iff {left right : Int} (leftMillis : WholeMillis left)
    (rightMillis : WholeMillis right) : left / 1000000 ≤ right / 1000000 ↔ left ≤ right := by
  have := leftMillis.whole
  have := rightMillis.whole
  omega

theorem toU64_natCast {value : Nat} (fits : value ≤ u64Max) : toU64 value = .ok value := by
  have inRange : (0 : Int) ≤ value ∧ (value : Int) ≤ u64Max := by omega
  simp [toU64, inRange.2]

def FitsWord (value : Option Nat) : Prop := ∀ word, value = some word → word ≤ u64Max

/-- The row fits its fields, and its instants are whole milliseconds. -/
structure Storable (state : LeaseState) : Prop where
  epoch : state.leaseEpoch ≤ u64Max
  expiration : WholeMillis state.leaseExpirationAt
  mark : FitsWord state.maxAllocatedSeq
  start : FitsWord state.leaseSequenceStart
  last : FitsWord state.lastHandedOutSeq
  updated : ∀ instant, state.sequenceProgressUpdatedAt = some instant → WholeMillis instant

def encode (state : LeaseState) (ttl : Int) : DynamoLeaseItem where
  holderId := state.holderId
  leaseEpoch := state.leaseEpoch
  leaseSessionId := state.leaseSessionId
  leaseExpirationTsMs := state.leaseExpirationAt / 1000000
  ttlEpochSeconds := ttl
  maxAllocatedSeq := state.maxAllocatedSeq.map Int.ofNat
  leaseSequenceStart := state.leaseSequenceStart.map Int.ofNat
  lastHandedOutSeq := state.lastHandedOutSeq.map Int.ofNat
  sequenceProgressUpdatedTsMs := state.sequenceProgressUpdatedAt.map (· / 1000000)

theorem mapM_toU64 {value : Option Nat} (fits : FitsWord value) :
    (value.map Int.ofNat).mapM toU64 = .ok value := by
  cases value with
  | none => rfl
  | some word =>
    simp [Option.mapM, toU64_natCast (fits word rfl), Functor.map, Except.map]

theorem mapM_toI64 {value : Option Int}
    (millis : ∀ instant, value = some instant → WholeMillis instant) :
    (value.map (· / 1000000)).mapM toI64 = .ok (value.map (· / 1000000)) := by
  cases value with
  | none => rfl
  | some instant =>
    simp [Option.mapM, (millis instant rfl).toI64_eq, Functor.map, Except.map]

theorem map_instantOfUnixMillis {value : Option Int}
    (millis : ∀ instant, value = some instant → WholeMillis instant) :
    (value.map (· / 1000000)).map instantOfUnixMillis = value := by
  cases value with
  | none => rfl
  | some instant => simp [(millis instant rfl).instantOfUnixMillis_eq]

theorem Storable.intoLease_encode (storable : Storable state) (ttl : Int) (key : PartitionKey) :
    (encode state ttl).intoLease key = .ok (state.toLease key) := by
  simp only [DynamoLeaseItem.intoLease, encode, toU64_natCast storable.epoch,
    storable.expiration.toI64_eq, mapM_toU64 storable.mark, mapM_toU64 storable.start,
    mapM_toU64 storable.last, mapM_toI64 storable.updated, bind, Except.bind, pure, Except.pure,
    storable.expiration.instantOfUnixMillis_eq, map_instantOfUnixMillis storable.updated,
    LeaseState.toLease]

/-! ### Reservations -/

theorem lastAllocated_encode (state : LeaseState) (ttl : Int) :
    (encode state ttl).lastAllocated = nextSequence state.maxAllocatedSeq - 1 := by
  cases mark : state.maxAllocatedSeq with
  | none | some => simp [encode, DynamoLeaseItem.lastAllocated, nextSequence, mark]

/-- The condition of the table is the overflow check of the in-memory store. -/
theorem reserveRange_eq (state : LeaseState) (ttl : Int) {size : Nat} (positive : 0 < size)
    (fits : size ≤ u64Max) :
    reserveRange state.maxAllocatedSeq size =
      if (encode state ttl).reservable (some size) then
        .ok (⟨nextSequence state.maxAllocatedSeq, nextSequence state.maxAllocatedSeq + (size - 1)⟩,
          nextSequence state.maxAllocatedSeq + (size - 1))
      else .error .sequenceRangeOverflow := by
  cases mark : state.maxAllocatedSeq with
  | none =>
    have inRange : size ≤ u64Max + 1 := by omega
    simp [reserveRange, DynamoLeaseItem.reservable, encode, mark, checkedAdd, nextSequence, inRange]
  | some value =>
    by_cases room : value + size ≤ u64Max
    · have next : value + 1 ≤ u64Max := by omega
      have last : value + 1 + (size - 1) ≤ u64Max := by omega
      have condition : (value : Int) ≤ u64Max - size := by omega
      simp [reserveRange, DynamoLeaseItem.reservable, encode, mark, checkedAdd, nextSequence, next,
        last, condition]
    · have condition : ¬ (value : Int) ≤ u64Max - size := by omega
      have last : ¬ value + 1 + (size - 1) ≤ u64Max := by omega
      simp only [reserveRange, DynamoLeaseItem.reservable, encode, mark, checkedAdd,
        Option.map_some, Int.ofNat_eq_natCast, condition, decide_false]
      by_cases next : value + 1 ≤ u64Max
      · simp [next, last]
      · simp [next]

def SizeTyped (reservationSize : Option Nat) : Prop :=
  ∀ size, reservationSize = some size → 0 < size ∧ size ≤ u64Max

theorem sizeTyped_none : SizeTyped none := by
  rintro size ⟨⟩

theorem sizeTyped_of_ne (nonzero : reservationSize ≠ some 0) (fits : FitsWord reservationSize) :
    SizeTyped reservationSize := by
  intro size isSize
  refine ⟨Nat.pos_of_ne_zero ?_, fits size isSize⟩
  rintro rfl
  exact nonzero isSize

/-- What an operation of the in-memory store makes of the row it renews. -/
def LeaseState.renewed (state : LeaseState) (expiration : Int)
    (reservation : Option (SeqRange × Nat)) (sequenceProgress : ProducerSequenceProgress)
    (now : Int) : LeaseState :=
  { state with
    leaseExpirationAt := expiration
    maxAllocatedSeq := (reservation.map Prod.snd).or state.maxAllocatedSeq
    leaseSequenceStart :=
      sequenceProgress.leaseSequenceStart.or ((reservation.map Prod.fst).map SeqRange.start)
    lastHandedOutSeq := sequenceProgress.lastHandedOutSeq
    sequenceProgressUpdatedAt := some now }

theorem LeaseState.renewed_none (state : LeaseState) (expiration now : Int)
    (sequenceProgress : ProducerSequenceProgress) :
    state.renewed expiration none sequenceProgress now =
      { state with leaseExpirationAt := expiration }.withProgress
        sequenceProgress.leaseSequenceStart sequenceProgress now := by
  simp [LeaseState.renewed, LeaseState.withProgress]

def reservationOf (state : LeaseState) (reservationSize : Option Nat) :
    Option (SeqRange × Nat) :=
  reservationSize.map fun size =>
    (⟨nextSequence state.maxAllocatedSeq, nextSequence state.maxAllocatedSeq + (size - 1)⟩,
      nextSequence state.maxAllocatedSeq + (size - 1))

theorem mapM_reserveRange_eq (state : LeaseState) (ttl : Int) (typed : SizeTyped reservationSize) :
    reservationSize.mapM (reserveRange state.maxAllocatedSeq) =
      if (encode state ttl).reservable reservationSize then
        .ok (reservationOf state reservationSize)
      else .error .sequenceRangeOverflow := by
  cases reservationSize with
  | none => rfl
  | some size =>
    obtain ⟨positive, fits⟩ := typed size rfl
    simp only [Option.mapM, reserveRange_eq state ttl positive fits]
    split <;> rfl

/-- The update of the table writes the item of the renewed row. -/
theorem renewalUpdate_encode (state : LeaseState) (ttl newTtl expiration now : Int)
    (typed : SizeTyped reservationSize) (sequenceProgress : ProducerSequenceProgress) :
    renewalUpdate (encode state ttl) (expiration / 1000000) newTtl reservationSize sequenceProgress
        (now / 1000000) =
      encode
        (state.renewed expiration (reservationOf state reservationSize) sequenceProgress now)
        newTtl := by
  cases reservationSize with
  | none =>
    cases start : sequenceProgress.leaseSequenceStart with
    | none | some =>
      simp [renewalUpdate, sequenceProgressUpdate, reservedMax, reservationOf, LeaseState.renewed,
        encode, start]
  | some size =>
    obtain ⟨positive, -⟩ := typed size rfl
    have mark : (encode state ttl).lastAllocated + size =
        ((nextSequence state.maxAllocatedSeq + (size - 1) : Nat) : Int) := by
      rw [lastAllocated_encode]
      omega
    have first : (encode state ttl).lastAllocated + 1 = nextSequence state.maxAllocatedSeq := by
      rw [lastAllocated_encode]
      omega
    cases start : sequenceProgress.leaseSequenceStart with
    | none =>
      simp only [renewalUpdate, sequenceProgressUpdate, reservedMax, mark, first, start]
      simp [reservationOf, LeaseState.renewed, encode, start]
    | some first =>
      simp only [renewalUpdate, sequenceProgressUpdate, reservedMax, mark, start]
      simp [reservationOf, LeaseState.renewed, encode, start]

structure ProgressTyped (sequenceProgress : ProducerSequenceProgress) : Prop where
  start : FitsWord sequenceProgress.leaseSequenceStart
  last : FitsWord sequenceProgress.lastHandedOutSeq

theorem reservable_mark {size : Nat} (positive : 0 < size) (fits : size ≤ u64Max)
    (room : (encode state ttl).reservable (some size) = true) :
    nextSequence state.maxAllocatedSeq + (size - 1) ≤ u64Max := by
  cases mark : state.maxAllocatedSeq with
  | none =>
    simp only [nextSequence]
    omega
  | some value =>
    have condition : (value : Int) ≤ u64Max - size := by
      simpa [DynamoLeaseItem.reservable, encode, mark] using room
    simp only [nextSequence]
    omega

theorem Storable.renewed (storable : Storable state) {now : Int}
    (typed : SizeTyped reservationSize) {sequenceProgress : ProducerSequenceProgress}
    (progress : ProgressTyped sequenceProgress) (expires : WholeMillis expiration)
    (clock : WholeMillis now) (room : (encode state ttl).reservable reservationSize = true) :
    Storable
      (state.renewed expiration (reservationOf state reservationSize) sequenceProgress now) := by
  have updated : ∀ instant, some now = some instant → WholeMillis instant := by
    rintro instant ⟨⟩
    exact clock
  cases reservationSize with
  | none =>
    have start : FitsWord (sequenceProgress.leaseSequenceStart.or none) := by
      rw [Option.or_none]
      exact progress.start
    exact ⟨storable.epoch, expires, storable.mark, start, progress.last, updated⟩
  | some size =>
    obtain ⟨positive, fits⟩ := typed size rfl
    have mark := reservable_mark positive fits room
    refine ⟨storable.epoch, expires, ?_, ?_, progress.last, updated⟩
    · rintro word ⟨⟩
      exact mark
    · intro word known
      cases start : sequenceProgress.leaseSequenceStart with
      | none =>
        simp only [LeaseState.renewed, reservationOf, start, Option.map_some, Option.none_or,
          Option.some.injEq] at known
        omega
      | some first =>
        simp only [LeaseState.renewed, start, Option.some_or] at known
        exact progress.start word (start.trans known)

/-! ### Calls on corresponding rows -/

/-- Both stores have no row, or the table has the item of the in-memory row. -/
inductive Corresponds : Option LeaseState → Option DynamoLeaseItem → Prop
  | absent : Corresponds none none
  | present {state : LeaseState} (storable : Storable state) (ttl : Int) :
      Corresponds (some state) (some (encode state ttl))

/-- The stores give the same answer, all errors alike, and leave corresponding rows. -/
structure Agree {ε δ Reply : Type} (memory : Except ε Reply × Option LeaseState)
    (dynamo : Except δ Reply × Option DynamoLeaseItem) : Prop where
  answer : dynamo.1.toOption = memory.1.toOption
  rows : Corresponds memory.2 dynamo.2

def LeaseCall.leaseDuration : LeaseCall → Option Int
  | .acquireLease leaseDuration | .acquireLeaseAndReserveSequences leaseDuration _ =>
    some leaseDuration
  | .heartbeatLease leaseDuration => some leaseDuration
  | .reserveSequences _ | .releaseLease => none

structure LeaseCall.Typed (call : LeaseCall) : Prop where
  whole : ∀ leaseDuration, call.leaseDuration = some leaseDuration → leaseDuration % 1000000 = 0
  fits : FitsWord call.reservationSize

/-- The clock is a representable whole millisecond, the progress are words. -/
structure LeaseCaller.Typed (caller : LeaseCaller) : Prop where
  clock : WholeMillis caller.now
  progress : ProgressTyped caller.sequenceProgress

/-- The time to live of an item that expires then is representable. -/
def HasTtl (ttlBuffer expiration : Int) : Prop :=
  ∃ ttl, ttlEpochSeconds (expiration / 1000000) ttlBuffer = .ok ttl

/-- The reserved sequences come after the high-water mark and still are words. -/
def LeaseState.HasRoom (state : LeaseState) (reservationSize : Option Nat) : Prop :=
  ∀ size mark, reservationSize = some size → state.maxAllocatedSeq = some mark → mark + size ≤ u64Max

/-- An expired row can be taken over: there is a next epoch, and room for the sequences. -/
def LeaseState.Takeable (state : LeaseState) (reservationSize : Option Nat) : Prop :=
  state.leaseEpoch < u64Max ∧ state.HasRoom reservationSize

/-- A lease that is acquired does not begin expired, and an expired one can be taken over. -/
def BeginsAlike (row : Option LeaseState) (now leaseDuration : Int) (reservationSize : Option Nat) :
    Prop :=
  match row with
  | none => 0 < leaseDuration
  | some state => state.isExpired now = true → state.Takeable reservationSize

/-- The in-memory store refuses the acquisition: an expired row cannot be taken over, or the row of the
caller has no room. -/
def AcquireFails (row : Option LeaseState) (caller : LeaseCaller) (reservationSize : Option Nat) :
    Prop :=
  match row with
  | none => False
  | some state =>
    if state.isExpired caller.now then ¬ state.Takeable reservationSize
    else state.heldBy caller.holderId caller.leaseSessionId = true
      ∧ ¬ state.HasRoom reservationSize

/-- Nothing is checked beyond a size of zero and an expiration out of range, which both stores refuse
first. Then the time to live is representable and the lease begins alike, or it is not and the
in-memory store refuses the acquisition as well. -/
def AcquireInContract (ttlBuffer : Int) (row : Option LeaseState) (caller : LeaseCaller)
    (leaseDuration : Int) (reservationSize : Option Nat) : Prop :=
  reservationSize ≠ some 0 →
    ∀ expiration, expiresAt caller.now leaseDuration = .ok expiration →
      HasTtl ttlBuffer expiration ∧ BeginsAlike row caller.now leaseDuration reservationSize
        ∨ ¬ HasTtl ttlBuffer expiration ∧ AcquireFails row caller reservationSize

/-- The row is in force and held by the caller. -/
def HeldInForce (row : Option LeaseState) (caller : LeaseCaller) : Prop :=
  ∃ state, row = some state ∧ state.isExpired caller.now = false
    ∧ state.heldBy caller.holderId caller.leaseSessionId = true

/-- What the two stores check differently does not occur: an acquisition is as above; a heartbeat has a
representable expiration and time to live, or renews a lease in force past the representable
instants; an expired lease is not released by its holder, and its time to live is representable. -/
def InContract (ttlBuffer : Int) (row : Option LeaseState) (caller : LeaseCaller) :
    LeaseCall → Prop
  | .acquireLease leaseDuration => AcquireInContract ttlBuffer row caller leaseDuration none
  | .acquireLeaseAndReserveSequences leaseDuration reservationSize =>
    AcquireInContract ttlBuffer row caller leaseDuration reservationSize
  | .heartbeatLease leaseDuration =>
    match expiresAt caller.now leaseDuration with
    | .ok expiration => HasTtl ttlBuffer expiration
    | .error _ => HeldInForce row caller
  | .reserveSequences _ => True
  | .releaseLease =>
    HasTtl ttlBuffer caller.now
      ∧ ∀ state, row = some state → state.isExpired caller.now = true →
        state.heldBy caller.holderId caller.leaseSessionId = false

variable {leaseDuration now ttlBuffer : Int}

theorem dynamoTerm_error {error : LeaseStoreError}
    (refused : expiresAt now leaseDuration = .error error) :
    dynamoTerm now leaseDuration ttlBuffer = .error (.lease error) := by
  simp [dynamoTerm, refused, Except.mapError, bind, Except.bind]

section Clock

variable (clock : WholeMillis now)

include clock

theorem WholeMillis.nowMillis_eq :
    nowMillis now = .ok (now / 1000000) := by
  rw [nowMillis, clock.unixMillis_eq]

theorem WholeMillis.of_expiresAt (whole : leaseDuration % 1000000 = 0)
    (expires : expiresAt now leaseDuration = .ok expiration) :
    WholeMillis expiration := by
  unfold expiresAt at expires
  split at expires
  next instant added =>
    cases expires
    obtain ⟨rfl, low, high⟩ := checkedAddTime_eq_some.mp added
    have := clock.whole
    exact ⟨low, high, by omega⟩
  · cases expires

theorem dynamoTerm_ok (expiry : WholeMillis expiration)
    (expires : expiresAt now leaseDuration = .ok expiration)
    (lives : ttlEpochSeconds (expiration / 1000000) ttlBuffer = .ok ttl) :
    dynamoTerm now leaseDuration ttlBuffer = .ok (now / 1000000, expiration / 1000000, ttl) := by
  simp [dynamoTerm, expires, Except.mapError, expiry.unixMillis_eq, clock.nowMillis_eq, lives, bind,
    Except.bind, pure, Except.pure]

theorem dynamoTerm_refused (expiry : WholeMillis expiration)
    (expires : expiresAt now leaseDuration = .ok expiration)
    (refused : ¬ HasTtl ttlBuffer expiration) :
    ∃ error, dynamoTerm now leaseDuration ttlBuffer = .error error := by
  cases lives : ttlEpochSeconds (expiration / 1000000) ttlBuffer with
  | ok ttl => exact absurd ⟨ttl, lives⟩ refused
  | error error =>
    refine ⟨error, ?_⟩
    simp [dynamoTerm, expires, Except.mapError, expiry.unixMillis_eq, clock.nowMillis_eq, lives,
      bind, Except.bind]

end Clock

theorem Storable.isExpired_encode (storable : Storable state) (ttl : Int) (clock : WholeMillis now)
    :
    (encode state ttl).isExpired (now / 1000000) = state.isExpired now := by
  simp only [DynamoLeaseItem.isExpired, encode, LeaseState.isExpired]
  exact decide_eq_decide.mpr (storable.expiration.div_le_div_iff clock)

theorem heldBy_encode (state : LeaseState) (ttl : Int) (holderId leaseSessionId : String) :
    (encode state ttl).heldBy holderId leaseSessionId = state.heldBy holderId leaseSessionId := rfl

theorem Storable.renewable_encode (storable : Storable state) (ttl : Int) (clock : WholeMillis now)
    (holderId leaseSessionId : String) (reservationSize : Option Nat) :
    Dynamo.renewable (some (encode state ttl)) holderId leaseSessionId (now / 1000000)
        reservationSize =
      if state.heldBy holderId leaseSessionId && !state.isExpired now
          && (encode state ttl).reservable reservationSize then
        some (encode state ttl)
      else none := by
  simp only [Dynamo.renewable, Option.filter_some, heldBy_encode, storable.isExpired_encode ttl clock]

variable {Outcome : Type}

theorem Storable.refusal_encode (storable : Storable state) (ttl now : Int) (key : PartitionKey)
    (expired : Outcome) (heldByOther : ProducerPartitionLease → Outcome) :
    Dynamo.refusal key now expired heldByOther (some (encode state ttl)) =
      .ok (if state.isExpired now then expired else heldByOther (state.toLease key)) := by
  simp [Dynamo.refusal, storable.intoLease_encode, LeaseState.toLease, LeaseState.isExpired, bind,
    Except.bind, pure, Except.pure]

/-- A read after a failed condition reports an overflow for a lease in force of the caller. -/
theorem reservationWouldOverflow_toLease (state : LeaseState) (ttl : Int) (key : PartitionKey)
    (holderId leaseSessionId : String) (now : Int) (typed : SizeTyped reservationSize) :
    reservationWouldOverflow (state.toLease key) holderId leaseSessionId now reservationSize =
      (state.heldBy holderId leaseSessionId && !state.isExpired now
        && !(encode state ttl).reservable reservationSize) := by
  cases reservationSize with
  | none => simp [reservationWouldOverflow, DynamoLeaseItem.reservable]
  | some size =>
    obtain ⟨-, fits⟩ := typed size rfl
    have live : decide (now < state.leaseExpirationAt) = !state.isExpired now := by
      rw [LeaseState.isExpired, ← decide_not]
      exact decide_eq_decide.mpr Int.not_le.symm
    cases mark : state.maxAllocatedSeq with
    | none =>
      simp [reservationWouldOverflow, LeaseState.toLease, DynamoLeaseItem.reservable, encode, mark]
    | some value =>
      have full : decide (u64Max - size < value) = !decide ((value : Int) ≤ u64Max - size) := by
        rw [← decide_not]
        exact decide_eq_decide.mpr (by omega)
      simp [reservationWouldOverflow, LeaseState.toLease, LeaseState.heldBy, live,
        DynamoLeaseItem.reservable, encode, mark, full]

theorem storable_fresh {holderId leaseSessionId : String} (expiry : WholeMillis expiration) :
    Storable (freshLeaseState holderId leaseSessionId expiration) := by
  have one : 1 ≤ u64Max := by decide
  refine ⟨one, expiry, ?_, ?_, ?_, ?_⟩ <;> rintro value ⟨⟩

theorem reservable_iff (fits : FitsWord reservationSize) :
    (encode state ttl).reservable reservationSize = true ↔ state.HasRoom reservationSize := by
  cases reservationSize with
  | none => simp [DynamoLeaseItem.reservable, LeaseState.HasRoom]
  | some size =>
    have := fits size rfl
    cases mark : state.maxAllocatedSeq with
    | none => simp [DynamoLeaseItem.reservable, LeaseState.HasRoom, encode, mark]
    | some value =>
      simp only [DynamoLeaseItem.reservable, LeaseState.HasRoom, encode, mark, Option.map_some,
        Int.ofNat_eq_natCast, decide_eq_true_eq, Option.some.injEq]
      constructor
      · rintro room _ _ rfl rfl
        omega
      · intro room
        have := room size value rfl rfl
        omega

theorem Corresponds.epoch {item : DynamoLeaseItem} (rows : Corresponds (some state) (some item)) :
    item.leaseEpoch = state.leaseEpoch := by
  cases rows
  rfl

section Refusals

variable {ε δ Reply : Type} {reply : Reply} {row : Option LeaseState}
variable {items : Option DynamoLeaseItem}

/-- Both stores err and change nothing. -/
theorem Agree.refused {memoryError : ε} {dynamoError : δ} (rows : Corresponds row items) :
    Agree ((.error memoryError : Except ε Reply), row) (.error dynamoError, items) :=
  ⟨rfl, rows⟩

theorem not_agree_of_dynamo_error {error : δ} :
    ¬ Agree ((.ok reply : Except ε Reply), row) (.error error, items) := by
  rintro ⟨answer, -⟩
  cases answer

theorem not_agree_of_memory_error {error : ε} :
    ¬ Agree (.error error, row) ((.ok reply : Except δ Reply), items) := by
  rintro ⟨answer, -⟩
  cases answer

end Refusals

theorem toOption_map {ε Reply : Type} (reply : Outcome → Reply)
    (answer : Except ε Outcome) : (answer.map reply).toOption = answer.toOption.map reply := by
  cases answer <;> rfl

/-- Wrapping the answers in one constructor keeps agreement and disagreement. -/
theorem agree_map_iff {ε δ Reply : Type} {memory : Except ε Outcome × Option LeaseState}
    {dynamo : Except δ Outcome × Option DynamoLeaseItem} {reply : Outcome → Reply}
    (injective : Function.Injective reply) :
    Agree (memory.map (.map reply) id) (dynamo.map (.map reply) id) ↔ Agree memory dynamo := by
  have answers : (dynamo.1.map reply).toOption = (memory.1.map reply).toOption
      ↔ dynamo.1.toOption = memory.1.toOption := by
    rw [toOption_map, toOption_map]
    exact (Option.map_injective injective).eq_iff
  exact ⟨fun agree => ⟨answers.mp agree.answer, agree.rows⟩,
    fun agree => ⟨answers.mpr agree.answer, agree.rows⟩⟩

/-- An acquisition without sequences, as one that may reserve some. -/
def LeaseAcquireOutcome.unreserved : LeaseAcquireOutcome → LeaseAcquireAndReserveOutcome
  | .acquired lease => .acquired lease none
  | .heldByOther lease => .heldByOther lease

theorem LeaseAcquireOutcome.unreserved_injective :
    Function.Injective LeaseAcquireOutcome.unreserved := by
  intro left right same
  cases left <;> cases right <;> cases same <;> rfl

theorem map_unreserved {ε Row : Type} {called : Except ε LeaseAcquireAndReserveOutcome × Row}
    (nothing : ∀ lease reservation, called.1 = .ok (.acquired lease reservation) →
      reservation = none) :
    (called.map (.map .withoutReservation) id).map (.map LeaseAcquireOutcome.unreserved) id =
      called := by
  obtain ⟨answer, next⟩ := called
  cases answer with
  | error error => rfl
  | ok outcome =>
    cases outcome with
    | acquired lease reservation =>
      cases nothing lease reservation rfl
      rfl
    | heldByOther lease => rfl

section Calls

variable {key : PartitionKey} {caller : LeaseCaller}
variable {row : Option LeaseState} {items : Option DynamoLeaseItem}

/-- The stores agree on the call. -/
def Alike (ttlBuffer : Int) (key : PartitionKey) (row : Option LeaseState)
    (items : Option DynamoLeaseItem) (caller : LeaseCaller) (call : LeaseCall) : Prop :=
  Agree (runCall call caller key row) (Dynamo.runCall ttlBuffer call caller key items id)

def AcquiresAlike (ttlBuffer : Int) (key : PartitionKey) (row : Option LeaseState)
    (items : Option DynamoLeaseItem) (caller : LeaseCaller) (leaseDuration : Int)
    (reservationSize : Option Nat) : Prop :=
  Agree
    (acquireLeaseAndReserveSequences row key caller.holderId caller.leaseSessionId caller.now
      leaseDuration reservationSize caller.sequenceProgress)
    (Dynamo.acquireLeaseAndReserveSequences items key caller.holderId caller.leaseSessionId
      caller.now leaseDuration ttlBuffer caller.sequenceProgress id reservationSize)

theorem acquired_agrees {newTtl : Int} (storable : Storable state)
    {sequenceProgress : ProducerSequenceProgress} (clock : WholeMillis now)
    (expiry : WholeMillis expiration) (typed : SizeTyped reservationSize)
    (progress : ProgressTyped sequenceProgress)
    (room : (encode state ttl).reservable reservationSize = true)
    {memory : StoreCall LeaseAcquireAndReserveOutcome}
    (acquired : memory = (.ok (.acquired
        ((state.renewed expiration (reservationOf state reservationSize) sequenceProgress
          now).toLease key) ((reservationOf state reservationSize).map Prod.fst)),
      some (state.renewed expiration (reservationOf state reservationSize) sequenceProgress now))) :
    Agree memory
      (completeAcquire (renewalUpdate (encode state ttl) (expiration / 1000000) newTtl
          reservationSize sequenceProgress (now / 1000000)) key reservationSize,
        some (renewalUpdate (encode state ttl) (expiration / 1000000) newTtl reservationSize
          sequenceProgress (now / 1000000))) := by
  have stored := storable.renewed typed progress expiry clock room
  rw [acquired, renewalUpdate_encode _ _ _ _ _ typed]
  refine ⟨?_, .present stored newTtl⟩
  -- The reply is decoded from the item the update wrote.
  unfold completeAcquire
  rw [stored.intoLease_encode]
  cases reservationSize with
  | none => rfl
  | some size =>
    obtain ⟨positive, -⟩ := typed size rfl
    simp [reservationOf, LeaseState.toLease, LeaseState.renewed, reservationFromNewMax, checkedSub,
      bind, Except.bind, pure, Except.pure, Except.toOption]

section Refused

variable (nonzero : reservationSize ≠ some 0) (fits : FitsWord reservationSize)
variable (expires : expiresAt caller.now leaseDuration = .ok expiration)

include nonzero fits expires

/-- The in-memory store refuses these acquisitions and leaves the row alone. -/
theorem acquire_of_fails (fails : AcquireFails row caller reservationSize) :
    ∃ error, acquireLeaseAndReserveSequences row key caller.holderId caller.leaseSessionId caller.now
      leaseDuration reservationSize caller.sequenceProgress = (.error error, row) := by
  have typed := sizeTyped_of_ne nonzero fits
  cases row with
  | none => exact fails.elim
  | some state =>
    have full : ¬ state.HasRoom reservationSize →
        reservationSize.mapM (reserveRange state.maxAllocatedSeq) = .error .sequenceRangeOverflow := by
      intro full
      rw [mapM_reserveRange_eq state 0 typed, if_neg (mt (reservable_iff fits).mp full)]
    simp only [acquireLeaseAndReserveSequences, nonzero, if_false, expires, Option.getD_some]
    by_cases expired : state.isExpired caller.now
    · simp only [AcquireFails, expired, if_true, LeaseState.Takeable, not_and] at fails
      simp only [expired, Bool.not_true, Bool.false_and, Bool.false_eq_true, if_false, Bool.true_or,
        acquiredEpoch, if_true]
      by_cases spare : state.leaseEpoch < u64Max
      · simp [checkedAdd, Nat.succ_le_of_lt spare, full (fails spare)]
      · simp [checkedAdd, spare]
    · simp only [AcquireFails, expired, Bool.false_eq_true, if_false] at fails
      obtain ⟨-, session⟩ := of_decide_eq_true fails.1
      simp [expired, fails.1, session, acquiredEpoch, full fails.2]

/-- The in-memory store answers all others. -/
theorem acquire_of_not_fails (passes : ¬ AcquireFails row caller reservationSize) :
    ∃ outcome next, acquireLeaseAndReserveSequences row key caller.holderId caller.leaseSessionId
      caller.now leaseDuration reservationSize caller.sequenceProgress = (.ok outcome, next) := by
  have typed := sizeTyped_of_ne nonzero fits
  have reserves (state : LeaseState) (room : state.HasRoom reservationSize) :
      reservationSize.mapM (reserveRange state.maxAllocatedSeq) =
        .ok (reservationOf state reservationSize) := by
    rw [mapM_reserveRange_eq state 0 typed, if_pos ((reservable_iff fits).mpr room)]
  -- An absent row is inserted first, with the first epoch and no sequences.
  have found : ¬ AcquireFails (some (row.getD (freshLeaseState caller.holderId caller.leaseSessionId
      expiration))) caller reservationSize := by
    cases row with
    | none =>
      have room : (freshLeaseState caller.holderId caller.leaseSessionId expiration).HasRoom
          reservationSize := by
        rintro size mark - ⟨⟩
      have spare : 1 < u64Max := by decide
      simp only [AcquireFails, Option.getD_none]
      split
      · exact not_not.mpr ⟨spare, room⟩
      · exact fun fails => fails.2 room
    | some state => exact passes
  simp only [acquireLeaseAndReserveSequences, nonzero, if_false, expires]
  generalize row.getD (freshLeaseState caller.holderId caller.leaseSessionId expiration) = state
    at found ⊢
  by_cases expired : state.isExpired caller.now
  · simp only [AcquireFails, expired, if_true, not_not] at found
    simp [expired, acquiredEpoch, checkedAdd, Nat.succ_le_of_lt found.1, reserves _ found.2]
  · by_cases held : state.heldBy caller.holderId caller.leaseSessionId
    · simp only [AcquireFails, expired, Bool.false_eq_true, if_false, held, true_and,
        not_not] at found
      obtain ⟨-, session⟩ := of_decide_eq_true held
      simp [expired, held, session, acquiredEpoch, reserves _ found]
    · simp [expired, held]

end Refused

variable (callerTyped : caller.Typed) (rows : Corresponds row items)

include callerTyped rows

theorem release_agrees :
    Alike ttlBuffer key row items caller .releaseLease
      ↔ InContract ttlBuffer row caller .releaseLease := by
  unfold Alike runCall Dynamo.runCall
  refine (agree_map_iff fun _ _ => LeaseReply.release.inj).trans ?_
  obtain ⟨clock, progress⟩ := callerTyped
  simp only [InContract, HasTtl, Dynamo.releaseLease, clock.nowMillis_eq, bind, Except.bind, pure,
    Except.pure]
  cases lives : ttlEpochSeconds (caller.now / 1000000) ttlBuffer with
  | error error =>
    refine iff_of_false ?_ (by rintro ⟨⟨_, ⟨⟩⟩, -⟩)
    cases rows with
    | absent => exact not_agree_of_dynamo_error
    | present storable ttl =>
      simp only [releaseLease]
      repeat' split
      all_goals exact not_agree_of_dynamo_error
  | ok newTtl =>
    simp only [Except.ok.injEq, exists_eq', true_and]
    cases rows with
    | absent => exact iff_of_true ⟨rfl, .absent⟩ (by rintro _ ⟨⟩)
    | @present state storable ttl =>
      have room : (encode state ttl).reservable none = true := rfl
      simp only [Option.filter_some, heldBy_encode, releaseLease, Option.some.injEq, forall_eq']
      by_cases expired : state.isExpired caller.now <;>
        by_cases held : state.heldBy caller.holderId caller.leaseSessionId
      · -- Only the DynamoDB store releases the expired lease.
        simp only [expired, held, if_true]
        refine iff_of_false ?_ (by simp)
        rintro ⟨answer, -⟩
        cases answer
      · simp only [expired, held, Bool.false_eq_true, if_false, if_true, id_eq,
          storable.refusal_encode]
        exact iff_of_true ⟨rfl, .present storable ttl⟩ (by simp)
      · simp only [expired, held, Bool.not_true, Bool.false_eq_true, if_false, if_true,
          renewalUpdate_encode _ _ _ _ _ sizeTyped_none]
        have stored := storable.renewed sizeTyped_none progress clock clock room
        simp only [reservationOf, Option.map_none, LeaseState.renewed_none] at stored ⊢
        exact iff_of_true ⟨rfl, .present stored newTtl⟩ (by simp)
      · simp only [expired, held, Bool.not_false, Bool.false_eq_true, if_false, if_true, id_eq,
          storable.refusal_encode]
        exact iff_of_true ⟨rfl, .present storable ttl⟩ (by simp)

theorem reserve_agrees {reservationSize : Nat} (fits : reservationSize ≤ u64Max) :
    Alike ttlBuffer key row items caller (.reserveSequences reservationSize) := by
  unfold Alike runCall Dynamo.runCall
  refine (agree_map_iff fun _ _ => LeaseReply.reserve.inj).mpr ?_
  obtain ⟨clock, progress⟩ := callerTyped
  unfold reserveSequences Dynamo.reserveSequences
  by_cases zero : reservationSize = 0
  · simp only [zero, if_true]
    cases rows with
    | absent => exact ⟨rfl, .absent⟩
    | present storable ttl => exact ⟨rfl, .present storable ttl⟩
  have positive : 0 < reservationSize := Nat.pos_of_ne_zero zero
  have typed : SizeTyped (some reservationSize) := by
    rintro size ⟨⟩
    exact ⟨positive, fits⟩
  simp only [zero, if_false, clock.nowMillis_eq]
  cases rows with
  | absent => exact ⟨rfl, .absent⟩
  | @present state storable ttl =>
    simp only [storable.renewable_encode ttl clock, id_eq, storable.intoLease_encode,
      reservationWouldOverflow_toLease state ttl key _ _ caller.now typed,
      reserveRange_eq state ttl positive fits]
    by_cases expired : state.isExpired caller.now
    · have passed : (state.toLease key).leaseExpirationAt ≤ caller.now := of_decide_eq_true expired
      simp only [expired, Bool.not_true, Bool.and_false, Bool.false_and, Bool.false_eq_true,
        if_false, if_true, passed]
      exact ⟨rfl, .present storable ttl⟩
    have live : ¬ (state.toLease key).leaseExpirationAt ≤ caller.now := fun passed =>
      expired (decide_eq_true passed)
    by_cases held : state.heldBy caller.holderId caller.leaseSessionId
    · by_cases room : (encode state ttl).reservable (some reservationSize)
      · have stored := storable.renewed typed progress storable.expiration clock room
        have written : sequenceProgressUpdate (encode state ttl)
            { encode state ttl with
              maxAllocatedSeq := reservedMax (encode state ttl) (some reservationSize) }
            caller.sequenceProgress true (caller.now / 1000000) = _ :=
          renewalUpdate_encode state ttl ttl state.leaseExpirationAt caller.now typed _
        have old : (encode state ttl).maxAllocatedSeq.mapM toU64 = .ok state.maxAllocatedSeq :=
          mapM_toU64 storable.mark
        simp only [expired, held, room, Bool.not_false, Bool.not_true, Bool.and_true,
          Bool.false_eq_true, if_false, if_true, written, old, reservationFromOld, bind, Except.bind,
          reserveRange_eq state ttl positive fits, stored.intoLease_encode]
        exact ⟨rfl, .present stored ttl⟩
      · simp only [expired, held, room, Bool.not_false, Bool.not_true, Bool.and_true, Bool.and_false,
          Bool.false_eq_true, if_false, if_true]
        exact ⟨rfl, .present storable ttl⟩
    · simp only [expired, held, live, Bool.not_false, Bool.and_true, Bool.false_and,
        Bool.false_eq_true, if_false, if_true]
      exact ⟨rfl, .present storable ttl⟩

variable (whole : leaseDuration % 1000000 = 0)

include whole

theorem heartbeat_agrees_of_lives (expires : expiresAt caller.now leaseDuration = .ok expiration)
    (lives : HasTtl ttlBuffer expiration) :
    Alike ttlBuffer key row items caller (.heartbeatLease leaseDuration) := by
  unfold Alike runCall Dynamo.runCall
  refine (agree_map_iff fun _ _ => LeaseReply.heartbeat.inj).mpr ?_
  obtain ⟨clock, progress⟩ := callerTyped
  obtain ⟨newTtl, lives⟩ := lives
  have expiry := clock.of_expiresAt whole expires
  simp only [Dynamo.heartbeatLease, dynamoTerm_ok clock expiry expires lives]
  cases rows with
  | absent => exact ⟨rfl, .absent⟩
  | @present state storable ttl =>
    have room : (encode state ttl).reservable none = true := rfl
    simp only [storable.renewable_encode ttl clock, room, Bool.and_true, heartbeatLease]
    by_cases expired : state.isExpired caller.now
    · simp only [expired, Bool.not_true, Bool.and_false, Bool.false_eq_true, if_false, if_true,
        id_eq, storable.refusal_encode]
      exact ⟨rfl, .present storable ttl⟩
    · by_cases held : state.heldBy caller.holderId caller.leaseSessionId
      · simp only [expired, held, Bool.not_true, Bool.not_false, Bool.and_true,
          Bool.false_eq_true, if_false, if_true, expires, renewalUpdate_encode _ _ _ _ _ sizeTyped_none]
        have stored := storable.renewed sizeTyped_none progress expiry clock room
        rw [stored.intoLease_encode]
        simp only [reservationOf, Option.map_none, LeaseState.renewed_none] at stored ⊢
        exact ⟨rfl, .present stored newTtl⟩
      · simp only [expired, held, Bool.not_false, Bool.and_true, Bool.false_eq_true, if_false,
          if_true, id_eq, storable.refusal_encode]
        exact ⟨rfl, .present storable ttl⟩

theorem heartbeat_agrees :
    Alike ttlBuffer key row items caller (.heartbeatLease leaseDuration)
      ↔ InContract ttlBuffer row caller (.heartbeatLease leaseDuration) := by
  unfold Alike runCall Dynamo.runCall
  refine (agree_map_iff fun _ _ => LeaseReply.heartbeat.inj).trans ?_
  simp only [InContract]
  cases expires : expiresAt caller.now leaseDuration with
  | error error =>
    -- The in-memory store computes the expiration last, and only for the holder.
    simp only [Dynamo.heartbeatLease, dynamoTerm_error expires]
    cases rows with
    | absent => exact iff_of_false not_agree_of_dynamo_error (by rintro ⟨_, ⟨⟩, -⟩)
    | @present state storable ttl =>
      simp only [heartbeatLease, expires, HeldInForce, Option.some.injEq, exists_eq_left']
      by_cases expired : state.isExpired caller.now
      · simp only [expired, if_true]
        exact iff_of_false not_agree_of_dynamo_error (by simp)
      · by_cases held : state.heldBy caller.holderId caller.leaseSessionId
        · simp only [expired, held, Bool.not_true, Bool.false_eq_true, if_false]
          exact iff_of_true (.refused (.present storable ttl)) ⟨trivial, trivial⟩
        · simp only [expired, held, Bool.not_false, Bool.false_eq_true, if_false, if_true]
          exact iff_of_false not_agree_of_dynamo_error (by simp)
  | ok expiration =>
    refine ⟨?_, fun lives => (agree_map_iff fun _ _ => LeaseReply.heartbeat.inj).mp
      (heartbeat_agrees_of_lives callerTyped rows whole expires lives)⟩
    contrapose
    intro refused
    obtain ⟨error, term⟩ := dynamoTerm_refused callerTyped.clock
      (callerTyped.clock.of_expiresAt whole expires) expires refused
    simp only [Dynamo.heartbeatLease, term]
    cases rows with
    | absent => exact not_agree_of_dynamo_error
    | present storable ttl =>
      simp only [heartbeatLease, expires]
      repeat' split
      all_goals exact not_agree_of_dynamo_error

/-- Once the time to live is known, the stores agree on the leases that begin alike. -/
theorem acquire_agrees_of_lives (nonzero : reservationSize ≠ some 0)
    (fits : FitsWord reservationSize)
    (expires : expiresAt caller.now leaseDuration = .ok expiration)
    (lives : HasTtl ttlBuffer expiration) :
    AcquiresAlike ttlBuffer key row items caller leaseDuration reservationSize
      ↔ BeginsAlike row caller.now leaseDuration reservationSize := by
  unfold AcquiresAlike
  obtain ⟨clock, progress⟩ := callerTyped
  obtain ⟨newTtl, lives⟩ := lives
  have typed := sizeTyped_of_ne nonzero fits
  have expiry := clock.of_expiresAt whole expires
  have isSum := expiresAt_eq expires
  cases rows with
  | absent =>
    have room : (encode (freshLeaseState caller.holderId caller.leaseSessionId expiration)
        0).reservable reservationSize = true := by
      cases reservationSize <;> rfl
    simp only [Dynamo.acquireLeaseAndReserveSequences, acquireLeaseAndReserveSequences, nonzero,
      if_false, expires, dynamoTerm_ok clock expiry expires lives, Option.getD_none,
      mapM_reserveRange_eq (freshLeaseState _ _ expiration) 0 typed, room, if_true]
    by_cases begins : 0 < leaseDuration
    · -- The in-memory store inserts a row that is in force and belongs to the caller.
      have live : ¬ expiration ≤ caller.now := by omega
      refine iff_of_true (acquired_agrees (storable_fresh expiry) clock expiry typed progress room ?_)
        begins
      simp [LeaseState.isExpired, LeaseState.heldBy, acquiredEpoch, freshLeaseState, live,
        LeaseState.renewed]
    · -- It takes the row it has just inserted over.
      have expired : expiration ≤ caller.now := by omega
      have two : 2 ≤ u64Max := by decide
      refine iff_of_false ?_ begins
      rintro ⟨-, corresponds⟩
      simp only [LeaseState.isExpired, freshLeaseState, expired, acquiredEpoch, checkedAdd,
        two, decide_true, Bool.not_true, Bool.false_and, Bool.false_eq_true, if_false, Bool.true_or,
        if_true, Nat.reduceAdd] at corresponds
      have epochs : (1 : Int) = 2 := corresponds.epoch
      exact absurd epochs (by decide)
  | @present state storable ttl =>
    by_cases expired : state.isExpired caller.now
    · by_cases takeable : state.Takeable reservationSize
      · obtain ⟨spare, room⟩ := takeable
        have reservable : (encode state ttl).reservable reservationSize = true :=
          (reservable_iff fits).mpr room
        have stored : Storable
            { state with
              holderId := caller.holderId
              leaseSessionId := caller.leaseSessionId
              leaseEpoch := state.leaseEpoch + 1 } :=
          ⟨spare, storable.expiration, storable.mark, storable.start, storable.last,
            storable.updated⟩
        refine iff_of_true ?_ (fun _ => ⟨spare, room⟩)
        simp only [Dynamo.acquireLeaseAndReserveSequences, acquireLeaseAndReserveSequences, nonzero,
          if_false, expires, dynamoTerm_ok clock expiry expires lives, Option.getD_some,
          mapM_reserveRange_eq state ttl typed, storable.renewable_encode ttl clock,
          Dynamo.claimable, storable.isExpired_encode ttl clock, expired, reservable, Bool.not_true,
          Bool.false_and, Bool.and_false, Bool.true_or, Bool.and_true, Bool.false_eq_true, if_true]
        refine acquired_agrees stored clock expiry typed progress reservable ?_
        simp [acquiredEpoch, checkedAdd, Nat.succ_le_of_lt spare, LeaseState.renewed, reservationOf]
      · -- The in-memory store refuses, the table writes the next epoch or names the holder.
        refine iff_of_false ?_ (fun begins => takeable (begins expired))
        have fails : AcquireFails (some state) caller reservationSize := by
          simpa only [AcquireFails, expired, if_true] using takeable
        obtain ⟨error, refused⟩ := acquire_of_fails nonzero fits expires fails
        rw [refused]
        simp only [Dynamo.acquireLeaseAndReserveSequences, nonzero, if_false,
          dynamoTerm_ok clock expiry expires lives, storable.renewable_encode ttl clock,
          Dynamo.claimable, storable.isExpired_encode ttl clock, expired, Bool.not_true,
          Bool.and_false, Bool.false_and, Bool.false_eq_true, Bool.true_and]
        by_cases room : (encode state ttl).reservable reservationSize = true
        · rw [if_pos room]
          rintro ⟨-, corresponds⟩
          have next : (state.leaseEpoch : Int) + 1 = state.leaseEpoch := corresponds.epoch
          omega
        · simp only [room, if_false, id_eq, storable.intoLease_encode,
            reservationWouldOverflow_toLease state ttl key _ _ caller.now typed, expired,
            Bool.not_true, Bool.and_false, Bool.false_and, Bool.false_eq_true]
          exact not_agree_of_memory_error
    · refine iff_of_true ?_ (fun isExpired => absurd isExpired expired)
      simp only [Dynamo.acquireLeaseAndReserveSequences, acquireLeaseAndReserveSequences, nonzero,
        if_false, expires, dynamoTerm_ok clock expiry expires lives, Option.getD_some,
        mapM_reserveRange_eq state ttl typed, storable.renewable_encode ttl clock, Dynamo.claimable,
        storable.isExpired_encode ttl clock]
      by_cases held : state.heldBy caller.holderId caller.leaseSessionId
      · obtain ⟨holder, session⟩ := of_decide_eq_true held
        by_cases room : (encode state ttl).reservable reservationSize
        · simp only [expired, held, room, Bool.not_true, Bool.not_false, Bool.and_false,
            Bool.and_true, Bool.false_eq_true, if_false, if_true]
          refine acquired_agrees storable clock expiry typed progress room ?_
          simp [acquiredEpoch, LeaseState.renewed, holder, session]
        · simp only [expired, held, room, session, Bool.not_true, Bool.not_false, Bool.and_false,
            Bool.and_true, Bool.false_eq_true, if_false, id_eq, storable.intoLease_encode,
            reservationWouldOverflow_toLease state ttl key _ _ caller.now typed, if_true, ne_eq,
            not_true, decide_false, Bool.or_false, acquiredEpoch]
          exact .refused (.present storable ttl)
      · simp only [expired, held, Bool.not_false, Bool.and_true, Bool.false_and,
          Bool.false_eq_true, if_false, if_true, id_eq, storable.intoLease_encode,
          reservationWouldOverflow_toLease state ttl key _ _ caller.now typed]
        exact ⟨rfl, .present storable ttl⟩

theorem acquire_agrees (fits : FitsWord reservationSize) :
    AcquiresAlike ttlBuffer key row items caller leaseDuration reservationSize
      ↔ AcquireInContract ttlBuffer row caller leaseDuration reservationSize := by
  unfold AcquiresAlike
  by_cases zero : reservationSize = some 0
  · refine iff_of_true ?_ (fun nonzero => absurd zero nonzero)
    simp only [acquireLeaseAndReserveSequences, Dynamo.acquireLeaseAndReserveSequences, zero, if_true]
    exact .refused rows
  simp only [AcquireInContract, ne_eq, zero, not_false_eq_true, forall_const]
  cases expires : expiresAt caller.now leaseDuration with
  | error error =>
    refine iff_of_true ?_ (by rintro _ ⟨⟩)
    simp only [acquireLeaseAndReserveSequences, Dynamo.acquireLeaseAndReserveSequences, zero,
      if_false, expires, dynamoTerm_error expires]
    exact .refused rows
  | ok expiration =>
    simp only [Except.ok.injEq, forall_eq']
    by_cases lives : HasTtl ttlBuffer expiration
    · simp only [lives, true_and, not_true, false_and, or_false]
      exact acquire_agrees_of_lives callerTyped rows whole zero fits expires lives
    · simp only [lives, false_and, not_false_eq_true, true_and, false_or]
      obtain ⟨error, term⟩ := dynamoTerm_refused callerTyped.clock
        (callerTyped.clock.of_expiresAt whole expires) expires lives
      simp only [Dynamo.acquireLeaseAndReserveSequences, zero, if_false, term]
      by_cases fails : AcquireFails row caller reservationSize
      · obtain ⟨_, refused⟩ := acquire_of_fails zero fits expires fails
        rw [refused]
        exact iff_of_true (.refused rows) fails
      · obtain ⟨_, _, answered⟩ := acquire_of_not_fails zero fits expires fails
        rw [answered]
        exact iff_of_false not_agree_of_dynamo_error fails

theorem acquireLease_agrees :
    Alike ttlBuffer key row items caller (.acquireLease leaseDuration)
      ↔ AcquireInContract ttlBuffer row caller leaseDuration none := by
  unfold Alike runCall Dynamo.runCall
  refine (agree_map_iff fun _ _ => LeaseReply.acquire.inj).trans ?_
  rw [← agree_map_iff LeaseAcquireOutcome.unreserved_injective, acquireLease, Dynamo.acquireLease,
    map_unreserved, map_unreserved]
  · exact acquire_agrees callerTyped rows whole (by rintro word ⟨⟩)
  -- Without a size, neither store reserves anything.
  · intro lease reservation known
    unfold Dynamo.acquireLeaseAndReserveSequences completeAcquire at known
    simp only [bind, Except.bind] at known
    repeat' split at known
    all_goals cases known
    all_goals rfl
  · intro lease reservation known
    unfold acquireLeaseAndReserveSequences at known
    simp only [Option.mapM_none, pure, Except.pure] at known
    repeat' split at known
    all_goals cases known
    all_goals rfl

end Calls

/-- On corresponding rows, the two stores give the same answer and leave corresponding rows for the
calls within the contract, and for no other. -/
theorem producer_stores_agree (ttlBuffer : Int) (key : PartitionKey) (row : Option LeaseState)
    (items : Option DynamoLeaseItem) (call : LeaseCall) (caller : LeaseCaller)
    (typed : call.Typed) (callerTyped : caller.Typed) (rows : Corresponds row items) :
    Agree (runCall call caller key row) (Dynamo.runCall ttlBuffer call caller key items id)
      ↔ InContract ttlBuffer row caller call := by
  cases call with
  | acquireLease leaseDuration => exact acquireLease_agrees callerTyped rows (typed.whole _ rfl)
  | acquireLeaseAndReserveSequences leaseDuration reservationSize =>
    refine (agree_map_iff ?_).trans (acquire_agrees callerTyped rows (typed.whole _ rfl) typed.fits)
    exact fun _ _ => LeaseReply.acquireAndReserve.inj
  | heartbeatLease leaseDuration => exact heartbeat_agrees callerTyped rows (typed.whole _ rfl)
  | reserveSequences reservationSize =>
    exact iff_of_true (reserve_agrees callerTyped rows (typed.fits _ rfl)) trivial
  | releaseLease => exact release_agrees callerTyped rows

/-- A lease of session `s` that expires ten seconds after the epoch. -/
def tenSecondRow : LeaseState := freshLeaseState "a" "s" 10000000000

def holderAt (now : Int) : LeaseCaller where
  holderId := "a"
  leaseSessionId := "s"
  now := now
  sequenceProgress := {}

theorem storable_tenSecondRow : Storable tenSecondRow :=
  storable_fresh ⟨by decide, by decide, by decide⟩

/-- The holder releases its lease ten seconds too late: the in-memory store leaves the expired row
alone, the DynamoDB store releases it once more. -/
theorem producer_stores_disagree :
    Corresponds (some tenSecondRow) (some (encode tenSecondRow 70))
      ∧ runCall .releaseLease (holderAt 20000000000) ⟨"orders", 0⟩ (some tenSecondRow)
        = (.ok (.release .expired), some tenSecondRow)
      ∧ (Dynamo.runCall 60000000000 .releaseLease (holderAt 20000000000) ⟨"orders", 0⟩
          (some (encode tenSecondRow 70)) id).1 = .ok (.release .released)
      ∧ ¬ Agree (runCall .releaseLease (holderAt 20000000000) ⟨"orders", 0⟩ (some tenSecondRow))
        (Dynamo.runCall 60000000000 .releaseLease (holderAt 20000000000) ⟨"orders", 0⟩
          (some (encode tenSecondRow 70)) id) := by
  refine ⟨.present storable_tenSecondRow 70, by decide, by decide, ?_⟩
  intro agree
  exact absurd agree.answer (by decide)

/-- In time, five seconds after the epoch, both stores release the lease. -/
theorem producer_stores_agree_release :
    InContract 60000000000 (some tenSecondRow) (holderAt 5000000000) .releaseLease
      ∧ Agree (runCall .releaseLease (holderAt 5000000000) ⟨"orders", 0⟩ (some tenSecondRow))
        (Dynamo.runCall 60000000000 .releaseLease (holderAt 5000000000) ⟨"orders", 0⟩
          (some (encode tenSecondRow 70)) id) := by
  have meets : InContract 60000000000 (some tenSecondRow) (holderAt 5000000000) .releaseLease := by
    refine ⟨⟨65, by decide⟩, ?_⟩
    rintro state ⟨⟩ expired
    exact absurd expired (by decide)
  have typed : LeaseCall.releaseLease.Typed := by
    constructor <;> rintro word ⟨⟩
  have callerTyped : (holderAt 5000000000).Typed := by
    refine ⟨⟨by decide, by decide, by decide⟩, ?_⟩
    constructor <;> rintro word ⟨⟩
  exact ⟨meets, (producer_stores_agree _ _ _ _ _ _ typed callerTyped
    (.present storable_tenSecondRow 70)).mpr meets⟩

end BlobStream.ProducerLeases
