import BlobStream.Write.ViewShape

/-!
# What a session may rely on

While a broker's local lease is valid, the row is held by its session and its allocator is ahead of
every accepted range. The invariant of one session, `ViewSound`, speaks about the row, the clock and
the accepted ranges; other sessions change these only as `Others` allows.
-/

namespace BlobStream.Write.Cluster

open Word ProducerLeases

def Owns (session : String) (row : Option LeaseState) : Prop :=
  ∃ state, row = some state ∧ state.leaseSessionId = session

/-- The row belongs to `session` until `expiration` at least. -/
def Holds (session : String) (row : Option LeaseState) (expiration : Int) : Prop :=
  ∃ state, row = some state ∧ state.leaseSessionId = session
    ∧ expiration ≤ state.leaseExpirationAt

theorem Holds.owns {session : String} {row : Option LeaseState} {expiration : Int}
    (held : Holds session row expiration) : Owns session row := by
  obtain ⟨state, present, owned, _⟩ := held
  exact ⟨state, present, owned⟩

def Reserved (row : Option LeaseState) (range : SeqRange) : Prop :=
  ∃ mark, highWater row = some mark ∧ range.end ≤ mark

theorem Reserved.advance {session : String} {now : Int} {row next : Option LeaseState}
    {range : SeqRange} (reserved : Reserved row range) (moved : RowAdvance session now row next) :
    Reserved next range := by
  obtain ⟨mark, known, below⟩ := reserved
  obtain ⟨raised, after, higher⟩ := moved.mark mark known
  exact ⟨raised, after, Nat.le_trans below higher⟩

/-- Everything accepted so far lies below the allocator's next number. -/
def Fresh (accepted : List SeqRange) (allocator : SeqAllocator) : Prop :=
  allocator.reservation.isSome → ∀ range ∈ accepted, range.end < allocator.nextSeq

/-! ### Store calls of a transition -/

/-- What the owner of a transition can conclude from its store call. -/
structure CallSpec (config : BrokerConfig) (session : String) (work : AllocationTransitionWork)
    (now : Int) (row next : Option LeaseState) (response : StoreResponse) : Prop where
  advance : RowAdvance session now row next
  holds : ∀ expiration, (work.needsLease = true → expiration ≤ now + config.leaseDuration) →
    Holds session row expiration → Holds session next expiration
  acquired : ∀ lease reservation, response = .acquisition (.acquired lease reservation) →
    work.needsLease = true
      ∧ AcquiredSpec row next session now config.leaseDuration lease reservation
  reserved : ∀ range lease, response = .reservation (.reserved range lease) →
    work.needsLease = false ∧ FreshRange row next range

theorem storeCall_spec (config : BrokerConfig) (session : String) (key : PartitionKey)
    (row : Option LeaseState) (work : AllocationTransitionWork) (now : Int) :
    CallSpec config session work now row (storeCall config session key row work now).2
      (storeCall config session key row work now).1 := by
  unfold storeCall
  split
  next wants =>
    rcases called : acquireLeaseAndReserveSequences row key config.holderId session now
      config.leaseDuration (work.reservation.map ReservationRequest.size) work.sequenceProgress
      with ⟨result, next⟩
    obtain ⟨advance, acquired | ⟨refused, kept⟩⟩ := acquire_cases called
    · obtain ⟨lease, reservation, rfl, spec⟩ := acquired
      refine ⟨advance, ?_, ?_, by simp⟩
      · intro expiration inTime _
        obtain ⟨state, present, owned, until_⟩ := spec.held
        refine ⟨state, present, owned, ?_⟩
        have := inTime wants
        rw [until_, spec.expiration]
        exact this
      · rintro _ _ ⟨⟩
        exact ⟨wants, spec⟩
    · have holds : ∀ expiration, Holds session row expiration → Holds session next expiration := by
        rintro expiration ⟨state, present, owned, inTime⟩
        exact ⟨state, kept state present, owned, inTime⟩
      cases result with
      | error error => exact ⟨advance, fun expiration _ => holds expiration, by simp, by simp⟩
      | ok outcome =>
        refine ⟨advance, fun expiration _ => holds expiration, ?_, by simp⟩
        rintro lease reservation ⟨⟩
        exact absurd rfl (refused lease reservation)
  next skips =>
    simp only [Bool.not_eq_true] at skips
    split
    · exact ⟨.refl _ _ _, fun _ _ held => held, by simp, by simp⟩
    next request requested =>
      have advance := reserveSequences_advance row key config.holderId session now request.size
        work.sequenceProgress
      have holds : ∀ expiration, Holds session row expiration → Holds session
          (reserveSequences row key config.holderId session now request.size
            work.sequenceProgress).2 expiration := by
        rintro expiration ⟨state, rfl, owned, inTime⟩
        obtain ⟨next, present, sameSession, sameExpiration⟩ := reserveSequences_holder key
          config.holderId session now request.size work.sequenceProgress state
        exact ⟨next, present, sameSession.trans owned, by omega⟩
      rcases called : reserveSequences row key config.holderId session now request.size
        work.sequenceProgress with ⟨result, next⟩
      rw [called] at advance holds
      cases result with
      | error error => exact ⟨advance, fun expiration _ => holds expiration, by simp, by simp⟩
      | ok outcome =>
        refine ⟨advance, fun expiration _ => holds expiration, by simp, ?_⟩
        rintro range lease ⟨⟩
        exact ⟨skips, (reserveSequences_reserved called).1⟩

/-! ### The invariant of one session -/

section Soundness

variable (config : BrokerConfig) (session : String) (clock : Int) (row : Option LeaseState)
variable (accepted : List SeqRange)

def AllBelow (accepted : List SeqRange) (start : Nat) : Prop := ∀ range ∈ accepted, range.end < start

/-- While the local lease is valid, the row is held and the allocator is ahead of all acceptances. -/
structure LeaseSound (state : PartitionState) : Prop where
  bound : ∀ expiration, state.leaseExpirationAt = some expiration →
    expiration ≤ clock + config.leaseDuration
  valid : ∀ expiration, state.leaseExpirationAt = some expiration → clock < expiration →
    Holds session row expiration ∧ Fresh accepted state.seqAllocator

/-- What a transition may rely on when its store call has returned. -/
def AnswerSound (state : PartitionState) (work : AllocationTransitionWork) : StoreResponse → Prop
  | .acquisition (.acquired lease reservation) =>
    lease.leaseExpirationAt ≤ clock + config.leaseDuration
      ∧ (∀ range, reservation = some range → Reserved row range)
      ∧ (clock < lease.leaseExpirationAt →
        Holds session row lease.leaseExpirationAt
          ∧ (∀ range, reservation = some range → AllBelow accepted range.start)
          ∧ (work.leaseWasExpired = false → Fresh accepted state.seqAllocator))
  | .reservation (.reserved range _) =>
    Reserved row range
      ∧ ∀ expiration, state.leaseExpirationAt = some expiration → clock < expiration →
        AllBelow accepted range.start
  | _ => True

/-- A transition in flight: an expired claim meets an expired local lease; any other one still has
a usable allocator for as long as the row has not changed hands. -/
structure FlightSound (state : PartitionState) (inFlight : InFlight) : Prop where
  expired : inFlight.work.leaseWasExpired = true → state.needsLease clock = true
  renewal : inFlight.work.leaseWasExpired = false → inFlight.work.needsLease = true →
    ∀ now, inFlight.callTime = some now →
    ∀ expiration, state.leaseExpirationAt = some expiration → expiration ≤ now + config.leaseDuration
  waiting : inFlight.response = none → inFlight.work.leaseWasExpired = false → Owns session row →
    Fresh accepted state.seqAllocator
  answer : ∀ response, inFlight.response = some response →
    AnswerSound config session clock row accepted state inFlight.work response

structure ViewSound (view : View) : Prop where
  cleared : view.release = some .done → view.partition.leaseExpirationAt = none
  called : ∀ inFlight now, view.transition = some inFlight → inFlight.callTime = some now →
    now ≤ clock
  reserved : ∀ range, view.partition.seqAllocator.reservation = some range → Reserved row range
  leased : view.release = none → LeaseSound config session clock row accepted view.partition
  flying : view.release = none → ∀ inFlight, view.transition = some inFlight →
    FlightSound config session clock row accepted view.partition inFlight

end Soundness

/-! ### What other sessions can do -/

/-- The effect of a clock step or of another session's action, as far as `session` is concerned. -/
structure Others (session : String) (clock : Int) (row : Option LeaseState)
    (accepted : List SeqRange) (laterClock : Int) (laterRow : Option LeaseState)
    (laterAccepted : List SeqRange) : Prop where
  later : clock ≤ laterClock
  reserved : ∀ range, Reserved row range → Reserved laterRow range
  holds : ∀ expiration, clock < expiration → Holds session row expiration → laterRow = row
  owns : Owns session laterRow → laterRow = row ∧ laterAccepted = accepted

section OthersPreserve

variable {config : BrokerConfig} {session : String} {clock laterClock : Int}
variable {row laterRow : Option LeaseState} {accepted laterAccepted : List SeqRange}
variable {state : PartitionState} {view : View}

theorem needsLease_mono (later : clock ≤ laterClock) (expired : state.needsLease clock = true) :
    state.needsLease laterClock = true := by
  unfold PartitionState.needsLease at *
  split
  · rfl
  next expiration known =>
    simp only [known, decide_eq_true_eq] at expired ⊢
    omega

section

variable (apart : Others session clock row accepted laterClock laterRow laterAccepted)

include apart

/-- A lease that is still valid later protected the row and the accepted ranges meanwhile. -/
theorem Others.unchanged {expiration : Int} (valid : laterClock < expiration)
    (held : Holds session row expiration) : laterRow = row ∧ laterAccepted = accepted := by
  have later := apart.later
  have sameRow := apart.holds expiration (by omega) held
  rw [← sameRow] at held
  exact apart.owns held.owns

theorem LeaseSound.others (sound : LeaseSound config session clock row accepted state) :
    LeaseSound config session laterClock laterRow laterAccepted state := by
  have later := apart.later
  constructor
  · intro expiration known
    have := sound.bound expiration known
    omega
  · intro expiration known valid
    obtain ⟨held, fresh⟩ := sound.valid expiration known (by omega)
    obtain ⟨rfl, rfl⟩ := apart.unchanged valid held
    exact ⟨held, fresh⟩

theorem FlightSound.others (leased : LeaseSound config session clock row accepted state)
    {inFlight : InFlight} (sound : FlightSound config session clock row accepted state inFlight) :
    FlightSound config session laterClock laterRow laterAccepted state inFlight := by
  have later := apart.later
  refine ⟨fun was => needsLease_mono later (sound.expired was), sound.renewal, ?_, ?_⟩
  · intro pending valid owned
    obtain ⟨rfl, rfl⟩ := apart.owns owned
    exact sound.waiting pending valid owned
  · intro response answered
    have before := sound.answer response answered
    match response with
    | .acquisition (.acquired lease reservation) =>
      obtain ⟨bound, stored, valid⟩ := before
      refine ⟨by omega, fun range granted => apart.reserved range (stored range granted), ?_⟩
      intro unexpired
      obtain ⟨held, rest⟩ := valid (by omega)
      obtain ⟨rfl, rfl⟩ := apart.unchanged unexpired held
      exact ⟨held, rest⟩
    | .reservation (.reserved range lease) =>
      refine ⟨apart.reserved range before.1, ?_⟩
      intro expiration known unexpired
      have held := (leased.valid expiration known (by omega)).1
      obtain ⟨rfl, rfl⟩ := apart.unchanged unexpired held
      exact before.2 expiration known (by omega)
    | .acquisition (.heldByOther _) | .reservation (.heldByOther _) | .reservation .expired
    | .failed => trivial

theorem ViewSound.others (sound : ViewSound config session clock row accepted view) :
    ViewSound config session laterClock laterRow laterAccepted view where
  cleared := sound.cleared
  called := fun inFlight now owned read =>
    Int.le_trans (sound.called inFlight now owned read) apart.later
  reserved := fun range present => apart.reserved range (sound.reserved range present)
  leased := fun active => (sound.leased active).others apart
  flying := fun active inFlight owned =>
    (sound.flying active inFlight owned).others apart (sound.leased active)

end

end OthersPreserve

end BlobStream.Write.Cluster
