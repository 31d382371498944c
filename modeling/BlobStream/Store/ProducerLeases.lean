import BlobStream.Types

/-!
# Producer partition leases, in memory

One row per virtual partition records the lease holder, its fencing epoch and the high-water mark
of reserved sequence numbers. Every operation runs under the store's lock, so it is a function from
the row before the call to its outcome and the row after the call.
-/

namespace BlobStream.ProducerLeases

open Word

/-- Durable identity that authorizes metadata publication. -/
structure ProducerLeaseFence where
  holderId : String
  leaseEpoch : Nat
  leaseSessionId : String
deriving DecidableEq, Repr

structure ProducerSequenceProgress where
  leaseSequenceStart : Option Nat := none
  lastHandedOutSeq : Option Nat := none
deriving DecidableEq, Repr

structure ProducerPartitionLease where
  key : PartitionKey
  fence : ProducerLeaseFence
  leaseExpirationAt : Int
  maxAllocatedSeq : Option Nat
  leaseSequenceStart : Option Nat
  lastHandedOutSeq : Option Nat
  sequenceProgressUpdatedAt : Option Int
deriving DecidableEq, Repr

/-- A row of the store. -/
structure LeaseState where
  holderId : String
  leaseEpoch : Nat
  leaseSessionId : String
  leaseExpirationAt : Int
  maxAllocatedSeq : Option Nat
  leaseSequenceStart : Option Nat
  lastHandedOutSeq : Option Nat
  sequenceProgressUpdatedAt : Option Int
deriving DecidableEq, Repr

inductive LeaseStoreError
  | reservationSizeZero
  | leaseExpirationOverflow
  | leaseEpochOverflow
  | sequenceRangeOverflow
deriving DecidableEq, Repr

def LeaseStoreError.message : LeaseStoreError → String
  | .reservationSizeZero => "reservation_size must be greater than zero"
  | .leaseExpirationOverflow => "lease expiration overflow"
  | .leaseEpochOverflow => "lease epoch overflow"
  | .sequenceRangeOverflow => "sequence range overflow"

inductive LeaseAcquireAndReserveOutcome
  | acquired (lease : ProducerPartitionLease) (reservation : Option SeqRange)
  | heldByOther (lease : ProducerPartitionLease)
deriving DecidableEq, Repr

inductive LeaseHeartbeatOutcome
  | renewed (lease : ProducerPartitionLease)
  | heldByOther (lease : ProducerPartitionLease)
  | expired
deriving DecidableEq, Repr

inductive SequenceReservationOutcome
  | reserved (range : SeqRange) (lease : ProducerPartitionLease)
  | heldByOther (lease : ProducerPartitionLease)
  | expired
deriving DecidableEq, Repr

inductive LeaseReleaseOutcome
  | released
  | heldByOther (lease : ProducerPartitionLease)
  | expired
deriving DecidableEq, Repr

namespace LeaseState

def isExpired (state : LeaseState) (now : Int) : Bool := state.leaseExpirationAt ≤ now

def toLease (state : LeaseState) (key : PartitionKey) : ProducerPartitionLease where
  key := key
  fence :=
    { holderId := state.holderId, leaseEpoch := state.leaseEpoch,
      leaseSessionId := state.leaseSessionId }
  leaseExpirationAt := state.leaseExpirationAt
  maxAllocatedSeq := state.maxAllocatedSeq
  leaseSequenceStart := state.leaseSequenceStart
  lastHandedOutSeq := state.lastHandedOutSeq
  sequenceProgressUpdatedAt := state.sequenceProgressUpdatedAt

/-- The holder and the process session both have to match. -/
def heldBy (state : LeaseState) (holderId leaseSessionId : String) : Bool :=
  state.holderId = holderId ∧ state.leaseSessionId = leaseSessionId

end LeaseState

/-- The next free range after the high-water mark, with the new high-water mark. -/
def reserveRange (current : Option Nat) (reservationSize : Nat) :
    Except LeaseStoreError (SeqRange × Nat) :=
  let start? := match current with
    | some value => checkedAdd u64Max value 1
    | none => some 0
  match start? with
  | none => .error .sequenceRangeOverflow
  | some start =>
    match checkedAdd u64Max start (reservationSize - 1) with
    | none => .error .sequenceRangeOverflow
    | some last => .ok (⟨start, last⟩, last)

def expiresAt (now leaseDuration : Int) : Except LeaseStoreError Int :=
  match checkedAddTime now leaseDuration with
  | some instant => .ok instant
  | none => .error .leaseExpirationOverflow

abbrev StoreCall (Outcome : Type) := Except LeaseStoreError Outcome × Option LeaseState

def freshLeaseState (holderId leaseSessionId : String) (expiration : Int) : LeaseState where
  holderId := holderId
  leaseEpoch := 1
  leaseSessionId := leaseSessionId
  leaseExpirationAt := expiration
  maxAllocatedSeq := none
  leaseSequenceStart := none
  lastHandedOutSeq := none
  sequenceProgressUpdatedAt := none

/-- The lease epoch after an acquisition: only a takeover advances it. -/
def acquiredEpoch (state : LeaseState) (takeover : Bool) : Except LeaseStoreError Nat :=
  if takeover then
    match checkedAdd u64Max state.leaseEpoch 1 with
    | some epoch => .ok epoch
    | none => .error .leaseEpochOverflow
  else .ok state.leaseEpoch

section Operations

variable (row : Option LeaseState) (key : PartitionKey) (holderId leaseSessionId : String)

def acquireLeaseAndReserveSequences (now leaseDuration : Int) (reservationSize : Option Nat)
    (sequenceProgress : ProducerSequenceProgress) :
    StoreCall LeaseAcquireAndReserveOutcome :=
  if reservationSize = some 0 then (.error .reservationSizeZero, row)
  else match expiresAt now leaseDuration with
  | .error error => (.error error, row)
  | .ok expiration =>
    let state := row.getD (freshLeaseState holderId leaseSessionId expiration)
    if !state.isExpired now && !state.heldBy holderId leaseSessionId then
      (.ok (.heldByOther (state.toLease key)), some state)
    else
      let takeover := state.isExpired now || state.leaseSessionId ≠ leaseSessionId
      -- Everything fallible is computed before the row changes.
      match acquiredEpoch state takeover with
      | .error error => (.error error, some state)
      | .ok leaseEpoch =>
        match reservationSize.mapM (reserveRange state.maxAllocatedSeq) with
        | .error error => (.error error, some state)
        | .ok reservation =>
          let range := reservation.map Prod.fst
          let acquired : LeaseState :=
            { holderId := holderId
              leaseEpoch := leaseEpoch
              leaseSessionId := if takeover then leaseSessionId else state.leaseSessionId
              leaseExpirationAt := expiration
              maxAllocatedSeq := (reservation.map Prod.snd).or state.maxAllocatedSeq
              leaseSequenceStart :=
                sequenceProgress.leaseSequenceStart.or (range.map SeqRange.start)
              lastHandedOutSeq := sequenceProgress.lastHandedOutSeq
              sequenceProgressUpdatedAt := some now }
          (.ok (.acquired (acquired.toLease key) range), some acquired)

/-- Record the progress a holder reports with a renewal, a reservation or a release. -/
def LeaseState.withProgress (state : LeaseState) (leaseSequenceStart : Option Nat)
    (sequenceProgress : ProducerSequenceProgress) (now : Int) : LeaseState :=
  { state with
    leaseSequenceStart := leaseSequenceStart
    lastHandedOutSeq := sequenceProgress.lastHandedOutSeq
    sequenceProgressUpdatedAt := some now }

def heartbeatLease (now leaseDuration : Int) (sequenceProgress : ProducerSequenceProgress) :
    StoreCall LeaseHeartbeatOutcome :=
  match row with
  | none => (.ok .expired, none)
  | some state =>
    if state.isExpired now then (.ok .expired, some state)
    else if !state.heldBy holderId leaseSessionId then
      (.ok (.heldByOther (state.toLease key)), some state)
    else match expiresAt now leaseDuration with
    | .error error => (.error error, some state)
    | .ok expiration =>
      let renewed := { state with leaseExpirationAt := expiration }.withProgress
        sequenceProgress.leaseSequenceStart sequenceProgress now
      (.ok (.renewed (renewed.toLease key)), some renewed)

def reserveSequences (now : Int) (reservationSize : Nat)
    (sequenceProgress : ProducerSequenceProgress) : StoreCall SequenceReservationOutcome :=
  if reservationSize = 0 then (.error .reservationSizeZero, row)
  else match row with
  | none => (.ok .expired, none)
  | some state =>
    if state.isExpired now then (.ok .expired, some state)
    else if !state.heldBy holderId leaseSessionId then
      (.ok (.heldByOther (state.toLease key)), some state)
    else match reserveRange state.maxAllocatedSeq reservationSize with
    | .error error => (.error error, some state)
    | .ok (range, updated) =>
      let reserved := { state with maxAllocatedSeq := some updated }.withProgress
        (sequenceProgress.leaseSequenceStart.or (some range.start)) sequenceProgress now
      (.ok (.reserved range (reserved.toLease key)), some reserved)

def releaseLease (now : Int) (sequenceProgress : ProducerSequenceProgress) :
    StoreCall LeaseReleaseOutcome :=
  match row with
  | none => (.ok .expired, none)
  | some state =>
    if state.isExpired now then (.ok .expired, some state)
    else if !state.heldBy holderId leaseSessionId then
      (.ok (.heldByOther (state.toLease key)), some state)
    else
      (.ok .released, some ({ state with leaseExpirationAt := now }.withProgress
        sequenceProgress.leaseSequenceStart sequenceProgress now))

end Operations

/-! ### What one call can do to a row -/

def highWater (row : Option LeaseState) : Option Nat := row.bind LeaseState.maxAllocatedSeq

/-- The effect of any call by `session` at `now`: the high-water mark never falls, and a changed row
belongs to the caller, which owned it before or found it expired. -/
structure RowAdvance (session : String) (now : Int) (row next : Option LeaseState) : Prop where
  mark : ∀ mark, highWater row = some mark → ∃ raised, highWater next = some raised ∧ mark ≤ raised
  owner : next = row ∨ ∃ state, next = some state ∧ state.leaseSessionId = session ∧
    ∀ before, row = some before → before.leaseSessionId = session ∨ before.isExpired now

/-- A reservation lies above everything reserved before and becomes the high-water mark. -/
structure FreshRange (row next : Option LeaseState) (range : SeqRange) : Prop where
  above : ∀ mark, highWater row = some mark → mark < range.start
  nonempty : range.start ≤ range.end
  mark : highWater next = some range.end

theorem RowAdvance.refl (session : String) (now : Int) (row : Option LeaseState) :
    RowAdvance session now row row :=
  ⟨fun mark known => ⟨mark, known, Nat.le_refl mark⟩, Or.inl rfl⟩

theorem RowAdvance.of_owned {session : String} {now : Int} {state next : LeaseState}
    (owned : state.leaseSessionId = session) (kept : next.leaseSessionId = session)
    (mark : next.maxAllocatedSeq = state.maxAllocatedSeq) :
    RowAdvance session now (some state) (some next) := by
  refine ⟨?_, Or.inr ⟨next, rfl, kept, ?_⟩⟩
  · intro value known
    refine ⟨value, ?_, Nat.le_refl value⟩
    simpa [highWater, mark] using known
  · rintro before ⟨⟩
    exact Or.inl owned

variable {holderId leaseSessionId : String}

theorem heldBy_session {state : LeaseState} (held : ¬(!state.heldBy holderId leaseSessionId) = true) :
    state.leaseSessionId = leaseSessionId := by
  have both : state.heldBy holderId leaseSessionId = true := by simpa using held
  exact (of_decide_eq_true both).2

def nextSequence : Option Nat → Nat
  | some mark => mark + 1
  | none => 0

theorem reserveRange_exact {current : Option Nat} {size mark : Nat} {range : SeqRange}
    (reserved : reserveRange current size = .ok (range, mark)) :
    range.start = nextSequence current ∧ range.end = range.start + (size - 1)
      ∧ mark = range.end := by
  unfold reserveRange at reserved
  simp only at reserved
  split at reserved
  · cases reserved
  next start starts =>
    split at reserved
    · cases reserved
    next last ends =>
      cases reserved
      have isNext : start = nextSequence current := by
        cases current with
        | none =>
          cases starts
          rfl
        | some value => exact (checkedAdd_eq_some.mp starts).1.symm
      exact ⟨isNext, (checkedAdd_eq_some.mp ends).1.symm, rfl⟩

theorem reserveRange_spec {current : Option Nat} {size mark : Nat} {range : SeqRange}
    (reserved : reserveRange current size = .ok (range, mark)) :
    (∀ value, current = some value → value < range.start) ∧ range.start ≤ range.end
      ∧ mark = range.end := by
  obtain ⟨starts, ends, isMark⟩ := reserveRange_exact reserved
  refine ⟨?_, by omega, isMark⟩
  rintro value rfl
  rw [starts]
  exact Nat.lt_succ_self value

/-- A reservation is only made for the session that holds the row. -/
theorem reserveSequences_reserved {row next : Option LeaseState} {key : PartitionKey} {now : Int}
    {size : Nat} {sequenceProgress : ProducerSequenceProgress} {range : SeqRange}
    {lease : ProducerPartitionLease}
    (called : reserveSequences row key holderId leaseSessionId now size sequenceProgress
      = (.ok (.reserved range lease), next)) :
    FreshRange row next range ∧ ∃ state, row = some state ∧ state.leaseSessionId = leaseSessionId := by
  unfold reserveSequences at called
  split at called
  · simp at called
  · split at called
    · simp at called
    next state =>
      split at called
      · simp at called
      · split at called
        · simp at called
        next held =>
          split at called
          · simp at called
          next fresh mark reserved =>
            simp only [Prod.mk.injEq, Except.ok.injEq, SequenceReservationOutcome.reserved.injEq]
              at called
            obtain ⟨⟨rfl, -⟩, rfl⟩ := called
            obtain ⟨above, nonempty, rfl⟩ := reserveRange_spec reserved
            exact ⟨⟨above, nonempty, rfl⟩, state, rfl, heldBy_session held⟩

section Calls

variable (row : Option LeaseState) (key : PartitionKey) (holderId leaseSessionId : String)
variable (now : Int) (size : Nat) (sequenceProgress : ProducerSequenceProgress)

theorem heartbeatLease_advance (leaseDuration : Int) :
    RowAdvance leaseSessionId now row
      (heartbeatLease row key holderId leaseSessionId now leaseDuration sequenceProgress).2 := by
  unfold heartbeatLease
  split
  · exact .refl _ _ _
  next state =>
    split
    · exact .refl _ _ _
    · split
      · exact .refl _ _ _
      next held =>
        have owned := heldBy_session held
        split
        · exact .refl _ _ _
        · exact .of_owned owned owned rfl

theorem releaseLease_advance :
    RowAdvance leaseSessionId now row
      (releaseLease row key holderId leaseSessionId now sequenceProgress).2 := by
  unfold releaseLease
  split
  · exact .refl _ _ _
  next state =>
    split
    · exact .refl _ _ _
    · split
      · exact .refl _ _ _
      next held =>
        have owned := heldBy_session held
        exact .of_owned owned owned rfl

theorem reserveSequences_advance :
    RowAdvance leaseSessionId now row
      (reserveSequences row key holderId leaseSessionId now size sequenceProgress).2 := by
  unfold reserveSequences
  split
  · exact .refl _ _ _
  · split
    · exact .refl _ _ _
    next state =>
      split
      · exact .refl _ _ _
      · split
        · exact .refl _ _ _
        next held =>
          have owned := heldBy_session held
          split
          · exact .refl _ _ _
          next fresh mark reserved =>
            obtain ⟨above, nonempty, rfl⟩ := reserveRange_spec reserved
            refine ⟨?_, Or.inr ⟨_, rfl, owned, ?_⟩⟩
            · intro value known
              have := above value known
              exact ⟨fresh.end, rfl, by omega⟩
            · rintro before ⟨⟩
              exact Or.inl owned

/-- A reservation moves the high-water mark only: whoever holds the row keeps it as long. -/
theorem reserveSequences_holder (state : LeaseState) :
    ∃ next, (reserveSequences (some state) key holderId leaseSessionId now size
        sequenceProgress).2 = some next
      ∧ next.leaseSessionId = state.leaseSessionId
      ∧ next.leaseExpirationAt = state.leaseExpirationAt := by
  simp only [reserveSequences]
  split
  · exact ⟨state, rfl, rfl, rfl⟩
  · split
    · exact ⟨state, rfl, rfl, rfl⟩
    · split
      · exact ⟨state, rfl, rfl, rfl⟩
      · split
        · exact ⟨state, rfl, rfl, rfl⟩
        · exact ⟨_, rfl, rfl, rfl⟩

end Calls

structure AcquiredSpec (row next : Option LeaseState) (leaseSessionId : String)
    (now leaseDuration : Int) (lease : ProducerPartitionLease) (reservation : Option SeqRange) :
    Prop where
  takeover : ∀ before, row = some before →
    before.leaseSessionId = leaseSessionId ∨ before.isExpired now
  held : ∃ state, next = some state ∧ state.leaseSessionId = leaseSessionId
    ∧ state.leaseExpirationAt = lease.leaseExpirationAt
  expiration : lease.leaseExpirationAt = now + leaseDuration
  reservation : ∀ range, reservation = some range → FreshRange row next range

section Acquire

variable {row next : Option LeaseState} {key : PartitionKey} {holderId leaseSessionId : String}
variable {now leaseDuration : Int} {size : Option Nat} {sequenceProgress : ProducerSequenceProgress}

/-- Filling an absent row with a fresh one of the caller counts as an advance. -/
theorem advance_getD (row : Option LeaseState) (holderId leaseSessionId : String)
    (now expiration : Int) :
    RowAdvance leaseSessionId now row
      (some (row.getD (freshLeaseState holderId leaseSessionId expiration))) := by
  cases row with
  | some state => exact .refl _ _ _
  | none =>
    refine ⟨?_, Or.inr ⟨_, rfl, rfl, ?_⟩⟩
    · intro mark known
      cases known
    · intro before present
      cases present

theorem expiresAt_eq {expiration : Int} (expires : expiresAt now leaseDuration = .ok expiration) :
    expiration = now + leaseDuration := by
  unfold expiresAt at expires
  split at expires
  next instant added =>
    cases expires
    exact (checkedAddTime_eq_some.mp added).1.symm
  next => cases expires

theorem mapM_reserveRange {current : Option Nat} {range : SeqRange} {mark : Nat}
    (reserved : size.mapM (reserveRange current) = .ok (some (range, mark))) :
    ∃ requested, size = some requested
      ∧ reserveRange current requested = .ok (range, mark) := by
  cases size with
  | none => cases reserved
  | some requested =>
    refine ⟨requested, rfl, ?_⟩
    simp only [Option.mapM_some] at reserved
    cases inner : reserveRange current requested with
    | error error => simp [inner] at reserved
    | ok pair =>
      rw [inner] at reserved
      cases reserved
      rfl

theorem highWater_getD (row : Option LeaseState) (holderId leaseSessionId : String)
    (expiration : Int) :
    (row.getD (freshLeaseState holderId leaseSessionId expiration)).maxAllocatedSeq
      = highWater row := by
  cases row <;> rfl

/-- A row that does not turn the caller away is the caller's own or has expired. -/
theorem owned_or_expired {state : LeaseState}
    (open_ : ¬(!state.isExpired now && !state.heldBy holderId leaseSessionId) = true) :
    state.leaseSessionId = leaseSessionId ∨ state.isExpired now = true := by
  cases expired : state.isExpired now with
  | true => exact Or.inr rfl
  | false => exact Or.inl (heldBy_session (by simpa [expired] using open_))

theorem acquired_session (state : LeaseState) (leaseSessionId : String) (now : Int) :
    (if (state.isExpired now || decide (state.leaseSessionId ≠ leaseSessionId)) = true
      then leaseSessionId else state.leaseSessionId) = leaseSessionId := by
  split
  · rfl
  next kept =>
    simp only [ne_eq, decide_not, Bool.or_eq_true, not_or, Bool.not_eq_true,
      Bool.not_eq_false, decide_eq_true_eq, Bool.not_eq_eq_eq_not, Bool.not_true] at kept
    simpa using kept.2

/-- An acquisition succeeds with its whole specification, or leaves an existing row alone; either
way the row only advances. -/
theorem acquire_cases {result : Except LeaseStoreError LeaseAcquireAndReserveOutcome}
    (called : acquireLeaseAndReserveSequences row key holderId leaseSessionId now leaseDuration size
      sequenceProgress = (result, next)) :
    RowAdvance leaseSessionId now row next ∧
      ((∃ lease reservation, result = .ok (.acquired lease reservation)
          ∧ AcquiredSpec row next leaseSessionId now leaseDuration lease reservation)
        ∨ ((∀ lease reservation, result ≠ .ok (.acquired lease reservation))
          ∧ ∀ state, row = some state → next = some state)) := by
  unfold acquireLeaseAndReserveSequences at called
  split at called
  · cases called
    exact ⟨.refl _ _ _, Or.inr ⟨by simp, fun state present => present⟩⟩
  · split at called
    · cases called
      exact ⟨.refl _ _ _, Or.inr ⟨by simp, fun state present => present⟩⟩
    next expiration expires =>
      have advanced := advance_getD row holderId leaseSessionId now expiration
      have kept : ∀ state, row = some state →
          some (row.getD (freshLeaseState holderId leaseSessionId expiration)) = some state := by
        rintro state rfl
        rfl
      simp only at called
      split at called
      · cases called
        exact ⟨advanced, Or.inr ⟨by simp, kept⟩⟩
      next open_ =>
        split at called
        · cases called
          exact ⟨advanced, Or.inr ⟨by simp, kept⟩⟩
        · split at called
          · cases called
            exact ⟨advanced, Or.inr ⟨by simp, kept⟩⟩
          next reservation reserved =>
            cases called
            have owned := owned_or_expired open_
            have takeover : ∀ before, row = some before →
                before.leaseSessionId = leaseSessionId ∨ before.isExpired now = true := by
              rintro before rfl
              exact owned
            have session := acquired_session (row.getD (freshLeaseState holderId leaseSessionId
              expiration)) leaseSessionId now
            rw [highWater_getD] at reserved
            cases reservation with
            | none =>
              refine ⟨⟨?_, Or.inr ⟨_, rfl, session, takeover⟩⟩, Or.inl ⟨_, _, rfl, ?_⟩⟩
              · intro mark known
                refine ⟨mark, ?_, Nat.le_refl mark⟩
                simpa [highWater, highWater_getD] using known
              · exact ⟨takeover, ⟨_, rfl, session, rfl⟩, expiresAt_eq expires, by simp⟩
            | some pair =>
              obtain ⟨range, last⟩ := pair
              obtain ⟨requested, -, granted⟩ := mapM_reserveRange reserved
              obtain ⟨above, nonempty, rfl⟩ := reserveRange_spec granted
              refine ⟨⟨?_, Or.inr ⟨_, rfl, session, takeover⟩⟩, Or.inl ⟨_, _, rfl, ?_⟩⟩
              · intro mark known
                have := above mark known
                exact ⟨range.end, rfl, by omega⟩
              · refine ⟨takeover, ⟨_, rfl, session, rfl⟩, expiresAt_eq expires, ?_⟩
                rintro reserved ⟨⟩
                exact ⟨above, nonempty, rfl⟩

end Acquire

end BlobStream.ProducerLeases
