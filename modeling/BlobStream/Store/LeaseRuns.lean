import BlobStream.Lib.Machine
import BlobStream.Store.ProducerLeases

/-!
# Runs of the producer lease store

All calls of the store in one type. A call changes at most the row of its key; whatever callers do,
with whatever clocks, the high-water mark and the fencing epoch of a row never fall, and every
reservation starts right above the mark.
-/

namespace BlobStream.ProducerLeases

open Machine

inductive LeaseAcquireOutcome
  | acquired (lease : ProducerPartitionLease)
  | heldByOther (lease : ProducerPartitionLease)
deriving DecidableEq, Repr

def LeaseAcquireOutcome.withoutReservation : LeaseAcquireAndReserveOutcome → LeaseAcquireOutcome
  | .acquired lease _ => .acquired lease
  | .heldByOther lease => .heldByOther lease

/-- An acquisition that asks for no sequence numbers. -/
def acquireLease (row : Option LeaseState) (key : PartitionKey) (holderId leaseSessionId : String)
    (now leaseDuration : Int) (sequenceProgress : ProducerSequenceProgress) :
    StoreCall LeaseAcquireOutcome :=
  (acquireLeaseAndReserveSequences row key holderId leaseSessionId now leaseDuration none
    sequenceProgress).map (.map .withoutReservation) id

/-- What every call names: who calls and the time the caller read. -/
structure LeaseCaller where
  holderId : String
  leaseSessionId : String
  now : Int
  sequenceProgress : ProducerSequenceProgress
deriving DecidableEq, Repr

inductive LeaseCall
  | acquireLease (leaseDuration : Int)
  | acquireLeaseAndReserveSequences (leaseDuration : Int) (reservationSize : Option Nat)
  | heartbeatLease (leaseDuration : Int)
  | reserveSequences (reservationSize : Nat)
  | releaseLease
deriving DecidableEq, Repr

inductive LeaseReply
  | acquire (outcome : LeaseAcquireOutcome)
  | acquireAndReserve (outcome : LeaseAcquireAndReserveOutcome)
  | heartbeat (outcome : LeaseHeartbeatOutcome)
  | reserve (outcome : SequenceReservationOutcome)
  | release (outcome : LeaseReleaseOutcome)
deriving DecidableEq, Repr

def LeaseCall.reservationSize : LeaseCall → Option Nat
  | .acquireLeaseAndReserveSequences _ size => size
  | .reserveSequences size => some size
  | _ => none

/-- The caller does not hold the row. -/
def LeaseReply.refuses : LeaseReply → Bool
  | .acquire (.heldByOther _) | .acquireAndReserve (.heldByOther _) => true
  | .heartbeat (.heldByOther _) | .heartbeat .expired => true
  | .reserve (.heldByOther _) | .reserve .expired => true
  | .release (.heldByOther _) | .release .expired => true
  | _ => false

def LeaseReply.reservation : LeaseReply → Option SeqRange
  | .acquireAndReserve (.acquired _ reservation) => reservation
  | .reserve (.reserved range _) => some range
  | _ => none

def mapReply {Outcome : Type} (reply : Outcome → LeaseReply) (called : StoreCall Outcome) :
    StoreCall LeaseReply :=
  (called.1.map reply, called.2)

def runCall (call : LeaseCall) (caller : LeaseCaller) (key : PartitionKey)
    (row : Option LeaseState) : StoreCall LeaseReply :=
  match call with
  | .acquireLease leaseDuration => mapReply .acquire <|
    acquireLease row key caller.holderId caller.leaseSessionId caller.now leaseDuration
      caller.sequenceProgress
  | .acquireLeaseAndReserveSequences leaseDuration size => mapReply .acquireAndReserve <|
    acquireLeaseAndReserveSequences row key caller.holderId caller.leaseSessionId caller.now
      leaseDuration size caller.sequenceProgress
  | .heartbeatLease leaseDuration => mapReply .heartbeat <|
    heartbeatLease row key caller.holderId caller.leaseSessionId caller.now leaseDuration
      caller.sequenceProgress
  | .reserveSequences size => mapReply .reserve <|
    reserveSequences row key caller.holderId caller.leaseSessionId caller.now size
      caller.sequenceProgress
  | .releaseLease => mapReply .release <|
    releaseLease row key caller.holderId caller.leaseSessionId caller.now caller.sequenceProgress

/-! ### What one call does to the row of its key -/

/-- The high-water mark and the epoch never fall; a new session has a new epoch. -/
structure RowGrows (row next : Option LeaseState) : Prop where
  mark : ∀ mark, highWater row = some mark → ∃ raised, highWater next = some raised ∧ mark ≤ raised
  epoch : ∀ state, row = some state → ∃ later, next = some later
    ∧ state.leaseEpoch ≤ later.leaseEpoch
    ∧ (later.leaseSessionId ≠ state.leaseSessionId → state.leaseEpoch < later.leaseEpoch)

/-- The reservation has the requested size, starts at the first free number and becomes the
high-water mark. -/
structure Reserves (row next : Option LeaseState) (size : Nat) (range : SeqRange) : Prop where
  requested : 0 < size
  starts : range.start = nextSequence (highWater row)
  size : range.end + 1 = range.start + size
  mark : highWater next = some range.end

structure CallEffect (size : Option Nat) (row next : Option LeaseState)
    (reply : Except LeaseStoreError LeaseReply) : Prop where
  grows : RowGrows row next
  failed : ∀ error, reply = .error error → ∀ state, row = some state → next = some state
  refused : ∀ answer, reply = .ok answer → answer.refuses = true →
    ∀ state, row = some state → next = some state
  reserved : ∀ answer range, reply = .ok answer → answer.reservation = some range →
    ∃ requested, size = some requested ∧ Reserves row next requested range

theorem RowGrows.refl (row : Option LeaseState) : RowGrows row row where
  mark := fun mark known => ⟨mark, known, Nat.le_refl mark⟩
  epoch := fun state present => ⟨state, present, Nat.le_refl _, fun changed => absurd rfl changed⟩

theorem RowGrows.trans {row middle next : Option LeaseState} (first : RowGrows row middle)
    (second : RowGrows middle next) : RowGrows row next := by
  refine ⟨?_, ?_⟩
  · intro mark known
    obtain ⟨raised, raisedEq, below⟩ := first.mark mark known
    obtain ⟨last, lastEq, above⟩ := second.mark raised raisedEq
    exact ⟨last, lastEq, Nat.le_trans below above⟩
  · intro state present
    obtain ⟨between, betweenEq, below, changed⟩ := first.epoch state present
    obtain ⟨later, laterEq, above, changedAgain⟩ := second.epoch between betweenEq
    refine ⟨later, laterEq, Nat.le_trans below above, ?_⟩
    intro differs
    -- One of the two steps changed the session.
    by_cases same : between.leaseSessionId = state.leaseSessionId
    · have := changedAgain (same ▸ differs)
      omega
    · have := changed same
      omega

variable {size : Option Nat}

/-- A call that turns its caller away, or fails, leaves the row alone. -/
theorem CallEffect.kept {row : Option LeaseState} {reply : Except LeaseStoreError LeaseReply}
    (nothing : ∀ answer, reply = .ok answer → answer.reservation = none) :
    CallEffect size row row reply where
  grows := .refl row
  failed := fun _ _ _ present => present
  refused := fun _ _ _ _ present => present
  reserved := fun answer range replied granted => by
    rw [nothing answer replied] at granted
    cases granted

theorem CallEffect.held {state later : LeaseState} {answer : LeaseReply}
    (session : later.leaseSessionId = state.leaseSessionId)
    (epoch : later.leaseEpoch = state.leaseEpoch)
    (mark : later.maxAllocatedSeq = state.maxAllocatedSeq) (accepts : answer.refuses = false)
    (nothing : answer.reservation = none) :
    CallEffect size (some state) (some later) (.ok answer) where
  grows := by
    refine ⟨fun value known => ⟨value, ?_, Nat.le_refl value⟩, ?_⟩
    · simpa [highWater, mark] using known
    · rintro before ⟨⟩
      exact ⟨later, rfl, Nat.le_of_eq epoch.symm, fun changed => absurd session changed⟩
  failed := fun error failed => by cases failed
  refused := fun other replied refuses => by
    cases replied
    simp [accepts] at refuses
  reserved := fun other range replied granted => by
    cases replied
    rw [nothing] at granted
    cases granted

variable {range : SeqRange}

theorem Reserves.marks {row next : Option LeaseState} {size : Nat}
    (reserves : Reserves row next size range) :
    ∀ mark, highWater row = some mark → ∃ raised, highWater next = some raised ∧ mark ≤ raised := by
  intro mark known
  refine ⟨range.end, reserves.mark, ?_⟩
  have starts := reserves.starts
  have size := reserves.size
  have requested := reserves.requested
  rw [known, nextSequence] at starts
  omega

section Calls

variable (row : Option LeaseState) (key : PartitionKey) (holderId leaseSessionId : String)
variable (now leaseDuration : Int) (sequenceProgress : ProducerSequenceProgress)

theorem heartbeatLease_effect :
    CallEffect none row
      (heartbeatLease row key holderId leaseSessionId now leaseDuration sequenceProgress).2
      (mapReply .heartbeat (heartbeatLease row key holderId leaseSessionId now leaseDuration
        sequenceProgress)).1 := by
  unfold heartbeatLease
  split
  · exact .kept (by rintro answer ⟨⟩; rfl)
  next state =>
    split
    · exact .kept (by rintro answer ⟨⟩; rfl)
    · split
      · exact .kept (by rintro answer ⟨⟩; rfl)
      · split
        · exact .kept (by rintro answer ⟨⟩)
        · exact .held rfl rfl rfl rfl rfl

theorem releaseLease_effect :
    CallEffect none row (releaseLease row key holderId leaseSessionId now sequenceProgress).2
      (mapReply .release (releaseLease row key holderId leaseSessionId now sequenceProgress)).1 := by
  unfold releaseLease
  split
  · exact .kept (by rintro answer ⟨⟩; rfl)
  next state =>
    split
    · exact .kept (by rintro answer ⟨⟩; rfl)
    · split
      · exact .kept (by rintro answer ⟨⟩; rfl)
      · exact .held rfl rfl rfl rfl rfl

theorem reserveSequences_effect (size : Nat) :
    CallEffect (some size) row
      (reserveSequences row key holderId leaseSessionId now size sequenceProgress).2
      (mapReply .reserve (reserveSequences row key holderId leaseSessionId now size
        sequenceProgress)).1 := by
  unfold reserveSequences
  split
  · exact .kept (by rintro answer ⟨⟩)
  next nonzero =>
    split
    · exact .kept (by rintro answer ⟨⟩; rfl)
    next state =>
      split
      · exact .kept (by rintro answer ⟨⟩; rfl)
      · split
        · exact .kept (by rintro answer ⟨⟩; rfl)
        · split
          · exact .kept (by rintro answer ⟨⟩)
          next range mark reserved =>
            have requested : 0 < size := Nat.pos_of_ne_zero nonzero
            obtain ⟨starts, ends, rfl⟩ := reserveRange_exact reserved
            have sized : range.end + 1 = range.start + size := by omega
            refine ⟨⟨?_, ?_⟩, by rintro error ⟨⟩, by rintro answer ⟨⟩ ⟨⟩, ?_⟩
            · have reserves : Reserves (some state) (some { state with
                  maxAllocatedSeq := some range.end }) size range := ⟨requested, starts, sized, rfl⟩
              exact reserves.marks
            · rintro before ⟨⟩
              exact ⟨_, rfl, Nat.le_refl _, fun changed => absurd rfl changed⟩
            · rintro answer granted ⟨⟩ ⟨⟩
              exact ⟨size, rfl, requested, starts, sized, rfl⟩

/-- An acquisition that is not refused: the row with the new holder, epoch, expiration and, for a
reservation, mark. -/
theorem acquired_effect {state : LeaseState} {lease : ProducerPartitionLease}
    {epoch : Nat} {reservation : Option (SeqRange × Nat)} {later : LeaseState}
    (isState : ∀ before, row = some before → before = state)
    (mark : state.maxAllocatedSeq = highWater row)
    (advanced : acquiredEpoch state (state.isExpired now || state.leaseSessionId ≠ leaseSessionId)
      = .ok epoch)
    (nonzero : size ≠ some 0)
    (reserved : size.mapM (reserveRange state.maxAllocatedSeq) = .ok reservation)
    (isEpoch : later.leaseEpoch = epoch) (isSession : later.leaseSessionId = leaseSessionId)
    (isMark : later.maxAllocatedSeq = (reservation.map Prod.snd).or state.maxAllocatedSeq) :
    CallEffect size row (some later)
      (.ok (.acquireAndReserve (.acquired lease (reservation.map Prod.fst)))) := by
  have granted : ∀ range, reservation.map Prod.fst = some range →
      ∃ requested, size = some requested ∧ Reserves row (some later) requested range := by
    intro range isRange
    obtain ⟨⟨granted, raised⟩, isPair, rfl⟩ := Option.map_eq_some_iff.mp isRange
    subst isPair
    obtain ⟨requested, rfl, isReserved⟩ := mapM_reserveRange reserved
    have positive : 0 < requested := Nat.pos_of_ne_zero fun zero => nonzero (by rw [zero])
    obtain ⟨starts, ends, rfl⟩ := reserveRange_exact isReserved
    refine ⟨requested, rfl, positive, ?_, by dsimp only; omega, isMark⟩
    rw [← mark]
    exact starts
  refine ⟨⟨?_, ?_⟩, by rintro error ⟨⟩, by rintro answer ⟨⟩ ⟨⟩, ?_⟩
  · cases reservation with
    | none =>
      intro value known
      refine ⟨value, ?_, Nat.le_refl value⟩
      rw [← known, ← mark]
      exact isMark
    | some pair =>
      obtain ⟨requested, -, reserves⟩ := granted pair.1 rfl
      exact reserves.marks
  · intro before present
    obtain rfl := isState before present
    refine ⟨later, rfl, ?_⟩
    rw [isEpoch, isSession]
    -- A takeover raises the epoch; without one the session was the caller's already.
    unfold acquiredEpoch at advanced
    split at advanced
    · split at advanced
      next raised isRaised =>
        cases advanced
        have := (Word.checkedAdd_eq_some.mp isRaised).1
        exact ⟨by omega, fun _ => by omega⟩
      · cases advanced
    next kept =>
      cases advanced
      simp only [Bool.or_eq_true, decide_eq_true_eq, not_or, not_not] at kept
      exact ⟨Nat.le_refl _, fun changed => absurd kept.2.symm changed⟩
  · rintro answer range ⟨⟩ isRange
    exact granted range isRange

theorem acquire_effect (size : Option Nat) :
    CallEffect size row
      (acquireLeaseAndReserveSequences row key holderId leaseSessionId now leaseDuration size
        sequenceProgress).2
      (mapReply .acquireAndReserve (acquireLeaseAndReserveSequences row key holderId leaseSessionId
        now leaseDuration size sequenceProgress)).1 := by
  unfold acquireLeaseAndReserveSequences
  split
  · exact .kept (by rintro answer ⟨⟩)
  next nonzero =>
    split
    · exact .kept (by rintro answer ⟨⟩)
    next expiration expires =>
      have mark := highWater_getD row holderId leaseSessionId expiration
      simp only
      generalize isFilled : row.getD (freshLeaseState holderId leaseSessionId expiration) = state
        at mark
      have isState : ∀ before, row = some before → before = state := by
        rintro before rfl
        exact isFilled
      -- Filling an absent row is the only change of a call that stops here.
      have filled {reply : Except LeaseStoreError LeaseReply}
          (nothing : ∀ answer, reply = .ok answer → answer.reservation = none) :
          CallEffect size row (some state) reply := by
        refine ⟨⟨?_, ?_⟩, ?_, ?_, ?_⟩
        · intro value known
          exact ⟨value, mark.trans known, Nat.le_refl value⟩
        · intro before present
          obtain rfl := isState before present
          exact ⟨before, rfl, Nat.le_refl _, fun changed => absurd rfl changed⟩
        · intro error _ before present
          rw [isState before present]
        · intro answer _ _ before present
          rw [isState before present]
        · intro answer range replied granted
          rw [nothing answer replied] at granted
          cases granted
      split
      · exact filled (by rintro answer ⟨⟩; rfl)
      · split
        · exact filled (by rintro answer ⟨⟩)
        next epoch advanced =>
          split
          · exact filled (by rintro answer ⟨⟩)
          next reservation reserved =>
            exact acquired_effect row leaseSessionId now isState mark advanced nonzero reserved rfl
              (acquired_session state leaseSessionId now) rfl

theorem acquireLease_effect :
    CallEffect none row
      (acquireLease row key holderId leaseSessionId now leaseDuration sequenceProgress).2
      (mapReply .acquire (acquireLease row key holderId leaseSessionId now leaseDuration
        sequenceProgress)).1 := by
  have effect := acquire_effect row key holderId leaseSessionId now leaseDuration sequenceProgress none
  unfold acquireLease
  generalize acquireLeaseAndReserveSequences row key holderId leaseSessionId now leaseDuration none
    sequenceProgress = called at effect ⊢
  obtain ⟨answer, next⟩ := called
  cases answer with
  | error error =>
    exact ⟨effect.grows, fun _ _ => effect.failed error rfl, by rintro answer ⟨⟩,
      by rintro answer range ⟨⟩⟩
  | ok outcome =>
    cases outcome with
    | acquired lease reservation =>
      exact ⟨effect.grows, by rintro error ⟨⟩, by rintro answer ⟨⟩ ⟨⟩, by rintro answer range ⟨⟩ ⟨⟩⟩
    | heldByOther lease =>
      refine ⟨effect.grows, by rintro error ⟨⟩, fun answer _ _ => ?_, by rintro answer range ⟨⟩ ⟨⟩⟩
      exact effect.refused (.acquireAndReserve (.heldByOther lease)) rfl rfl

end Calls

theorem runCall_effect (call : LeaseCall) (caller : LeaseCaller) (key : PartitionKey)
    (row : Option LeaseState) :
    CallEffect call.reservationSize row (runCall call caller key row).2
      (runCall call caller key row).1 := by
  cases call with
  | acquireLease leaseDuration => exact acquireLease_effect ..
  | acquireLeaseAndReserveSequences leaseDuration size => exact acquire_effect ..
  | heartbeatLease leaseDuration => exact heartbeatLease_effect ..
  | reserveSequences size => exact reserveSequences_effect ..
  | releaseLease => exact releaseLease_effect ..

/-! ### Runs -/

abbrev LeaseStore := PartitionKey → Option LeaseState

structure LeaseRequest where
  key : PartitionKey
  caller : LeaseCaller
  call : LeaseCall

def LeaseRequest.reply (request : LeaseRequest) (store : LeaseStore) :
    Except LeaseStoreError LeaseReply :=
  (runCall request.call request.caller request.key (store request.key)).1

def LeaseRequest.apply (request : LeaseRequest) (store : LeaseStore) : LeaseStore :=
  Function.update store request.key
    (runCall request.call request.caller request.key (store request.key)).2

def LeaseRequest.granted (request : LeaseRequest) (store : LeaseStore) : Option SeqRange :=
  match request.reply store with
  | .ok answer => answer.reservation
  | .error _ => none

def LeaseRequest.rejected (request : LeaseRequest) (store : LeaseStore) : Bool :=
  match request.reply store with
  | .ok answer => answer.refuses
  | .error _ => true

def storeStep (store : LeaseStore) (request : LeaseRequest) : Option LeaseStore :=
  some (request.apply store)

def emptyStore : LeaseStore := fun _ => none

variable {store later : LeaseStore} {request : LeaseRequest}

theorem apply_other {key : PartitionKey} (other : key ≠ request.key) :
    request.apply store key = store key :=
  Function.update_of_ne other _ _

theorem apply_own :
    request.apply store request.key
      = (runCall request.call request.caller request.key (store request.key)).2 :=
  Function.update_self _ _ _

theorem granted_reserves (granted : request.granted store = some range) :
    ∃ size, request.call.reservationSize = some size
      ∧ Reserves (store request.key) (request.apply store request.key) size range := by
  unfold LeaseRequest.granted at granted
  split at granted
  next answer replied =>
    rw [apply_own]
    exact (runCall_effect ..).reserved answer range replied granted
  · cases granted

theorem rowGrows_apply (store : LeaseStore) (request : LeaseRequest) (key : PartitionKey) :
    RowGrows (store key) (request.apply store key) := by
  by_cases own : key = request.key
  · subst own
    rw [apply_own]
    exact (runCall_effect ..).grows
  · rw [apply_other own]
    exact .refl _

theorem rowGrows_reachable (reached : Reachable storeStep anyAction store later)
    (key : PartitionKey) : RowGrows (store key) (later key) := by
  induction reached with
  | refl => exact .refl _
  | tail _ _ stepped ih =>
    cases stepped
    exact ih.trans (rowGrows_apply _ _ key)

/-- In any store, and so after any sequence of requests: reservations are exact and never overlap,
high-water mark and epoch of a row only grow, and a request that fails or is refused changes no
existing row. -/
theorem reservations_never_overlap (store : LeaseStore) (request : LeaseRequest) :
    (∀ range, request.granted store = some range →
      ∃ size, request.call.reservationSize = some size
        ∧ Reserves (store request.key) (request.apply store request.key) size range)
    ∧ (∀ key, RowGrows (store key) (request.apply store key))
    ∧ (request.rejected store = true →
        ∀ key state, store key = some state → request.apply store key = some state)
    ∧ (∀ key, key ≠ request.key → request.apply store key = store key)
    ∧ ∀ later, Reachable storeStep anyAction (request.apply store) later →
        (∀ key, RowGrows (store key) (later key))
        ∧ ∀ (other : LeaseRequest) (range further : SeqRange), other.key = request.key →
          request.granted store = some range → other.granted later = some further → range.end < further.start := by
  refine ⟨fun range granted => granted_reserves granted, rowGrows_apply store request, ?_,
    fun key other => apply_other other, fun later reachedLater => ⟨fun key => ?_, ?_⟩⟩
  · intro rejected key state present
    by_cases own : key = request.key
    · subst own
      rw [apply_own]
      unfold LeaseRequest.rejected at rejected
      split at rejected
      next answer replied => exact (runCall_effect ..).refused answer replied rejected state present
      next error replied => exact (runCall_effect ..).failed error replied state present
    · rw [apply_other own]
      exact present
  · exact (rowGrows_apply store request key).trans (rowGrows_reachable reachedLater key)
  · intro other range further same granted grantedLater
    obtain ⟨_, -, first⟩ := granted_reserves granted
    obtain ⟨_, -, second⟩ := granted_reserves grantedLater
    obtain ⟨mark, isMark, below⟩ := (rowGrows_reachable reachedLater request.key).mark _ first.mark
    have starts := second.starts
    rw [same, isMark, nextSequence] at starts
    omega

/-- `session` asks for the lease of partition 0 and `size` numbers. -/
def firstNumbers (session : String) (now : Int) (size : Nat) : LeaseRequest where
  key := ⟨"orders", 0⟩
  caller := ⟨session, session, now, {}⟩
  call := .acquireLeaseAndReserveSequences 100 (some size)

/-- A second session takes the expired row over and is given the numbers above those of the first. -/
theorem reservations_never_overlap_takeover :
    ∃ store, Reachable storeStep anyAction emptyStore store
      ∧ (firstNumbers "b" 50 5).rejected store = true
      ∧ (firstNumbers "b" 100 5).granted store = some ⟨10, 14⟩
      ∧ Reserves (store ⟨"orders", 0⟩) ((firstNumbers "b" 100 5).apply store ⟨"orders", 0⟩) 5
          ⟨10, 14⟩ := by
  have reached : Reachable storeStep anyAction emptyStore
      ((firstNumbers "a" 0 10).apply emptyStore) := Reachable.refl.tail trivial rfl
  have granted : (firstNumbers "b" 100 5).granted ((firstNumbers "a" 0 10).apply emptyStore)
      = some ⟨10, 14⟩ := by decide
  refine ⟨_, reached, by decide, granted, ?_⟩
  obtain ⟨size, isSize, reserves⟩ :=
    (reservations_never_overlap _ (firstNumbers "b" 100 5)).1 _ granted
  cases isSize
  exact reserves

end BlobStream.ProducerLeases
