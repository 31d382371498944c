import BlobStream.Write.LeaseInvariant

/-!
# Steps that keep the lease invariant

Each action of a session keeps its own `ViewSound` and is, for every other session, one of the
changes listed by `Others`, provided the action meets `acceptanceContract`.
-/

namespace BlobStream.Write.Cluster

open Word ProducerLeases

/-! ### What the session itself can do -/

/-- Conditions under which acceptance order is kept: a clock reading is not overtaken by the expiry
of the local lease, a renewal of an unexpired lease does not take an expired row over from another
session, and sequence numbers do not run out. -/
def acceptanceContract : Contract where
  produce clock now row state :=
    state.needsLease now == state.needsLease clock && (highWater row).all (· < u64Max)
  claim clock now state := state.needsLease now == state.needsLease clock
  call session work now row :=
    !work.needsLease || work.leaseWasExpired
      || row.all fun state => state.leaseSessionId = session || !state.isExpired now

section OwnSteps

variable {config : BrokerConfig} {session : String} {key : PartitionKey} {clock : Int}
variable {row nextRow : Option LeaseState} {accepted : List SeqRange} {view : View}

structure SameLease (before after : PartitionState) : Prop where
  allocator : after.seqAllocator = before.seqAllocator
  expiration : after.leaseExpirationAt = before.leaseExpirationAt

variable {state next : PartitionState} {inFlight : InFlight} {batch : ProduceBatch} {now : Int}
variable {range : SeqRange} {allocator : SeqAllocator} {origin : LeaseAcquisitionOrigin}
variable {work : AllocationTransitionWork} {reservation : Option SeqRange}
variable {response : StoreResponse} {resetOnFinish : Bool}

theorem LeaseSound.congr (allocator : next.seqAllocator = state.seqAllocator)
    (expiration : next.leaseExpirationAt = state.leaseExpirationAt)
    (sound : LeaseSound config session clock row accepted state) :
    LeaseSound config session clock row accepted next := by
  constructor
  · rw [expiration]
    exact sound.bound
  · rw [expiration, allocator]
    exact sound.valid

theorem FlightSound.congr (same : SameLease state next)
    (sound : FlightSound config session clock row accepted state inFlight) :
    FlightSound config session clock row accepted next inFlight := by
  obtain ⟨allocator, expiration⟩ := same
  refine ⟨?_, ?_, ?_, ?_⟩
  · rw [PartitionState.needsLease, expiration]
    exact sound.expired
  · rw [expiration]
    exact sound.renewal
  · rw [allocator]
    exact sound.waiting
  · intro response answered
    have before := sound.answer response answered
    match response with
    | .acquisition (.acquired lease reservation) =>
      rw [AnswerSound, allocator]
      exact before
    | .reservation (.reserved range lease) =>
      rw [AnswerSound, expiration]
      exact before
    | .acquisition (.heldByOther _) | .reservation (.heldByOther _) | .reservation .expired
    | .failed => trivial

/-- A local lease that is valid now has an expiration ahead of the clock. -/
theorem exists_expiration (valid : state.needsLease clock = false) :
    ∃ expiration, state.leaseExpirationAt = some expiration ∧ clock < expiration := by
  unfold PartitionState.needsLease at valid
  split at valid
  · cases valid
  next expiration known => exact ⟨expiration, known, by simpa using valid⟩

structure AcceptedSound (session : String) (clock : Int) (row : Option LeaseState)
    (accepted : List SeqRange) (range : SeqRange) : Prop where
  owner : Owns session row
  above : AllBelow accepted range.start
  nonempty : range.start ≤ range.end
  reserved : Reserved row range

/-! #### The store call -/

theorem above_accepted (fresh : FreshRange row nextRow range)
    (stored : ∀ earlier ∈ accepted, Reserved row earlier) : AllBelow accepted range.start := by
  intro earlier member
  obtain ⟨mark, marked, below⟩ := stored earlier member
  have := fresh.above mark marked
  omega

theorem reserved_of_fresh (fresh : FreshRange row nextRow range) : Reserved nextRow range :=
  ⟨range.end, fresh.mark, Nat.le_refl _⟩

/-- Nothing can have been accepted while the row does not exist. -/
theorem fresh_of_no_row (stored : ∀ earlier ∈ accepted, Reserved none earlier)
    (allocator : SeqAllocator) : Fresh accepted allocator := by
  intro _ earlier member
  obtain ⟨mark, marked, -⟩ := stored earlier member
  cases marked

variable {lease : ProducerPartitionLease}

/-- A renewal that meets its contract and succeeds found its own row, so its allocator is still
usable. -/
theorem fresh_of_renewed (stored : ∀ earlier ∈ accepted, Reserved row earlier)
    (meets : acceptanceContract.call session inFlight.work now row)
    (wants : inFlight.work.needsLease = true)
    (spec : AcquiredSpec row nextRow session now config.leaseDuration lease reservation)
    (flight : FlightSound config session clock row accepted view.partition inFlight)
    (pending : inFlight.response = none) (valid : inFlight.work.leaseWasExpired = false) :
    Fresh accepted view.partition.seqAllocator := by
  cases row with
  | none => exact fresh_of_no_row stored _
  | some before =>
    refine flight.waiting pending valid ⟨before, rfl, ?_⟩
    have kept : before.leaseSessionId = session ∨ before.isExpired now = false := by
      simpa [acceptanceContract, wants, valid] using meets
    rcases spec.takeover before rfl with own | expired
    · exact own
    · rcases kept with own | unexpired
      · exact own
      · rw [expired] at unexpired
        cases unexpired

/-! #### Finishing -/

variable {update : LeaseExpirationUpdate}

/-- The finished allocator is ahead of all acceptances when its range is, and when it was unless it
was reset. -/
theorem fresh_finished (above : ∀ range, reservation = some range → AllBelow accepted range.start)
    (kept : PartitionState.resetsAllocation resetOnFinish update = false →
      Fresh accepted allocator) :
    Fresh accepted
      (PartitionState.finishedAllocator allocator resetOnFinish update reservation) := by
  have base : Fresh accepted
      (if PartitionState.resetsAllocation resetOnFinish update then {} else allocator) := by
    cases reset : PartitionState.resetsAllocation resetOnFinish update with
    | true => exact fun reserved => absurd reserved (by simp)
    | false => exact kept reset
  unfold PartitionState.finishedAllocator
  cases reservation with
  | none => exact base
  | some range =>
    simp only
    rcases SeqAllocator.installOrExtendReservation_cases
      (if PartitionState.resetsAllocation resetOnFinish update then {} else allocator) range with
      ⟨reservation, present, -, extended⟩ | replaced
    · rw [extended]
      exact fun _ => base (by simp [present])
    · rw [replaced]
      exact fun _ => above range rfl

theorem reserved_finished (granted : ∀ range, reservation = some range → Reserved row range)
    (kept : ∀ range, allocator.reservation = some range → Reserved row range) :
    ∀ range, (PartitionState.finishedAllocator allocator resetOnFinish update
      reservation).reservation = some range → Reserved row range := by
  have base : ∀ range, (if PartitionState.resetsAllocation resetOnFinish update then ({} : SeqAllocator)
      else allocator).reservation = some range → Reserved row range := by
    intro range present
    split at present
    · cases present
    · exact kept range present
  unfold PartitionState.finishedAllocator
  cases reservation with
  | none => exact base
  | some range =>
    simp only
    rcases SeqAllocator.installOrExtendReservation_cases
      (if PartitionState.resetsAllocation resetOnFinish update then {} else allocator) range with
      ⟨reservation, present, -, extended⟩ | replaced
    · rw [extended]
      rintro _ ⟨⟩
      exact granted range rfl
    · rw [replaced]
      rintro _ ⟨⟩
      exact granted range rfl

structure FinishSound (config : BrokerConfig) (session : String) (clock : Int)
    (row : Option LeaseState) (accepted : List SeqRange) (state : PartitionState) : Prop where
  reserved : ∀ range, state.seqAllocator.reservation = some range → Reserved row range
  leased : LeaseSound config session clock row accepted state

theorem finishSound_preserve
    (reserved : ∀ range, state.seqAllocator.reservation = some range → Reserved row range)
    (leased : LeaseSound config session clock row accepted state)
    (granted : ∀ range, reservation = some range → Reserved row range)
    (above : ∀ range, reservation = some range → ∀ expiration,
      state.leaseExpirationAt = some expiration → clock < expiration → AllBelow accepted range.start)
    (allocator : next.seqAllocator = PartitionState.finishedAllocator state.seqAllocator
      resetOnFinish .preserve reservation)
    (expiration : next.leaseExpirationAt = state.leaseExpirationAt) :
    FinishSound config session clock row accepted next := by
  refine ⟨?_, ?_, ?_⟩
  · rw [allocator]
    exact reserved_finished granted reserved
  · rw [expiration]
    exact leased.bound
  · intro until_ known ahead
    rw [expiration] at known
    obtain ⟨held, fresh⟩ := leased.valid until_ known ahead
    rw [allocator]
    exact ⟨held, fresh_finished (fun range taken => above range taken until_ known ahead)
      fun _ => fresh⟩

theorem finishSound_acquired
    (reserved : ∀ range, state.seqAllocator.reservation = some range → Reserved row range)
    (answer : AnswerSound config session clock row accepted state work
      (.acquisition (.acquired lease reservation)))
    (allocator : next.seqAllocator = PartitionState.finishedAllocator state.seqAllocator
      work.leaseWasExpired (.set (some lease.leaseExpirationAt)) reservation)
    (expiration : next.leaseExpirationAt = some lease.leaseExpirationAt) :
    FinishSound config session clock row accepted next := by
  obtain ⟨bound, granted, valid⟩ := answer
  refine ⟨?_, ?_, ?_⟩
  · rw [allocator]
    exact reserved_finished granted reserved
  · rw [expiration]
    rintro _ ⟨⟩
    exact bound
  · rw [expiration]
    rintro _ ⟨⟩ ahead
    obtain ⟨held, above, fresh⟩ := valid ahead
    rw [allocator]
    exact ⟨held, fresh_finished above fresh⟩

/-- What a session's own step does to the shared row and the accepted ranges. -/
structure LocalEffect (session : String) (clock : Int) (row nextRow : Option LeaseState)
    (accepted emitted : List SeqRange) : Prop where
  moved : ∃ now ≤ clock, RowAdvance session now row nextRow
  accepts : emitted = [] ∨ ∃ range, emitted = [range] ∧ nextRow = row
    ∧ AcceptedSound session clock row accepted range

/-- A store call of the session that accepts nothing. -/
theorem kept_by_call {after : View} (read : now ≤ clock) (advance : RowAdvance session now row nextRow)
    (kept : ViewSound config session clock nextRow accepted after) :
    ViewSound config session clock nextRow (accepted ++ []) after
      ∧ LocalEffect session clock row nextRow accepted [] := by
  rw [List.append_nil]
  exact ⟨kept, ⟨now, read, advance⟩, Or.inl rfl⟩

theorem kept_quietly {after : View} (kept : ViewSound config session clock row accepted after) :
    ViewSound config session clock row (accepted ++ []) after
      ∧ LocalEffect session clock row row accepted [] :=
  kept_by_call (Int.le_refl clock) (.refl session clock row) kept

variable {emitted : List SeqRange}

theorem LocalEffect.others {other : String} (different : other ≠ session)
    (effect : LocalEffect session clock row nextRow accepted emitted) :
    Others other clock row accepted clock nextRow (accepted ++ emitted) := by
  obtain ⟨⟨now, read, advance⟩, accepts⟩ := effect
  refine ⟨Int.le_refl clock, fun range reserved => reserved.advance advance, ?_, ?_⟩
  · rintro expiration ahead ⟨state, present, owned, inTime⟩
    rcases advance.owner with same | ⟨after, changed, mine, before⟩
    · exact same
    · exfalso
      rcases before state present with own | expired
      · exact different (owned.symm.trans own)
      · have := of_decide_eq_true expired
        omega
  · rintro ⟨state, present, owned⟩
    have sameRow : nextRow = row := by
      rcases advance.owner with same | ⟨after, changed, mine, -⟩
      · exact same
      · rw [changed] at present
        cases present
        exact absurd (owned.symm.trans mine) different
    refine ⟨sameRow, ?_⟩
    rcases accepts with quiet | ⟨range, -, -, facts⟩
    · simp [quiet]
    · obtain ⟨holder, held, mine⟩ := facts.owner
      rw [sameRow, held] at present
      cases present
      exact absurd (owned.symm.trans mine) different

/-! #### Steps of a sound view -/

variable (sound : ViewSound config session clock row accepted view)

include sound

/-- A step that only touches the buffer, the flush epochs or the draining flag. -/
theorem ViewSound.withState {next : Option PartitionState}
    (same : SameLease view.partition (next.getD {})) :
    ViewSound config session clock row accepted { view with state := next } where
  cleared := fun done => same.expiration.trans (sound.cleared done)
  called := sound.called
  reserved := by
    intro range present
    exact sound.reserved range (same.allocator ▸ present)
  leased := fun active => (sound.leased active).congr same.allocator same.expiration
  flying := fun active inFlight owned => (sound.flying active inFlight owned).congr same

theorem ViewSound.settle {next : Option PartitionState}
    (allocator : (next.getD {}).seqAllocator = view.partition.seqAllocator)
    (expiration : (next.getD {}).leaseExpirationAt = view.partition.leaseExpirationAt) :
    ViewSound config session clock row accepted { view with state := next, transition := none } where
  cleared := fun done => expiration.trans (sound.cleared done)
  called := by simp
  reserved := by
    intro range present
    exact sound.reserved range (allocator ▸ present)
  leased := fun active => (sound.leased active).congr allocator expiration
  flying := by simp

theorem ViewSound.withTransition {before after : InFlight} (owned : view.transition = some before)
    (called : ∀ now, after.callTime = some now → now ≤ clock)
    (flight : view.release = none →
      FlightSound config session clock row accepted view.partition before →
      FlightSound config session clock row accepted view.partition after) :
    ViewSound config session clock row accepted { view with transition := some after } where
  cleared := sound.cleared
  called := by
    rintro inFlight now ⟨⟩ known
    exact called now known
  reserved := sound.reserved
  leased := sound.leased
  flying := by
    rintro active inFlight ⟨⟩
    exact flight active (sound.flying active before owned)

theorem viewSound_callStore (stored : ∀ earlier ∈ accepted, Reserved row earlier)
    (owned : view.transition = some { work, origin, callTime := some now, response := none })
    (meets : acceptanceContract.call session work now row)
    (spec : CallSpec config session work now row nextRow response) :
    ViewSound config session clock nextRow accepted
      { view with
        transition := some { work, origin, callTime := some now, response := some response } } := by
  have read : now ≤ clock := sound.called _ now owned rfl
  have leasedAfter : view.release = none →
      LeaseSound config session clock nextRow accepted view.partition := by
    intro active
    have leased := sound.leased active
    have flight := sound.flying active _ owned
    refine ⟨leased.bound, fun expiration known ahead => ?_⟩
    obtain ⟨held, fresh⟩ := leased.valid expiration known ahead
    refine ⟨spec.holds expiration (fun wants => ?_) held, fresh⟩
    cases was : work.leaseWasExpired with
    | true =>
      have expired := flight.expired was
      simp [PartitionState.needsLease, known] at expired
      omega
    | false => exact flight.renewal was wants now rfl expiration known
  refine ⟨sound.cleared, ?_, ?_, leasedAfter, ?_⟩
  · rintro inFlight called ⟨⟩ ⟨⟩
    exact read
  · intro range present
    exact (sound.reserved range present).advance spec.advance
  · rintro active inFlight ⟨⟩
    have flight := sound.flying active _ owned
    refine ⟨flight.expired, flight.renewal, by simp, ?_⟩
    rintro answer ⟨⟩
    match response with
    | .acquisition (.acquired lease reservation) =>
      obtain ⟨wants, acquired⟩ := spec.acquired lease reservation rfl
      refine ⟨?_, fun range granted => reserved_of_fresh (acquired.reservation range granted), ?_⟩
      · rw [acquired.expiration]
        omega
      · intro ahead
        obtain ⟨state, present, owner, until_⟩ := acquired.held
        refine ⟨⟨state, present, owner, Int.le_of_eq until_.symm⟩, ?_, ?_⟩
        · intro range granted
          exact above_accepted (acquired.reservation range granted) stored
        · intro valid
          exact fresh_of_renewed stored meets wants acquired flight rfl valid
    | .reservation (.reserved range lease) =>
      obtain ⟨-, fresh⟩ := spec.reserved range lease rfl
      exact ⟨reserved_of_fresh fresh, fun _ _ _ => above_accepted fresh stored⟩
    | .acquisition (.heldByOther _) | .reservation (.heldByOther _) | .reservation .expired
    | .failed => trivial

/-- Every combination of origin and response leaves a sound state. -/
theorem finishSound_applied (active : view.release = none) (owned : view.transition = some inFlight)
    (answered : inFlight.response = some response) {arguments : Broker.FinishArguments}
    (isArguments : Broker.finishArguments inFlight.work inFlight.origin response = arguments)
    (allocator : next.seqAllocator = PartitionState.finishedAllocator view.partition.seqAllocator
      inFlight.work.leaseWasExpired arguments.update arguments.reservation)
    (expiration : next.leaseExpirationAt
      = (view.partition.finishExpiration arguments.update).leaseExpirationAt) :
    FinishSound config session clock row accepted next := by
  subst isArguments
  have reserved := sound.reserved
  have leased := sound.leased active
  have answer := (sound.flying active inFlight owned).answer response answered
  have unused (sameAllocator : next.seqAllocator = PartitionState.finishedAllocator
      view.partition.seqAllocator inFlight.work.leaseWasExpired .preserve none)
      (sameExpiration : next.leaseExpirationAt = view.partition.leaseExpirationAt) :
      FinishSound config session clock row accepted next :=
    finishSound_preserve reserved leased (by simp) (by simp) sameAllocator sameExpiration
  cases originEq : inFlight.origin with
  | inlineProduce =>
    simp only [originEq] at allocator expiration
    match response with
    | .acquisition (.acquired lease reservation) =>
      simp only [Broker.finishArguments] at allocator expiration
      split at allocator
      next missing =>
        rw [if_pos missing] at expiration
        exact unused allocator expiration
      next complete =>
        rw [if_neg complete] at expiration
        exact finishSound_acquired reserved answer allocator expiration
    | .reservation (.reserved range lease) =>
      refine finishSound_preserve reserved leased ?_ ?_ allocator expiration
      · rintro _ ⟨⟩
        exact answer.1
      · rintro _ ⟨⟩
        exact answer.2
    | .acquisition (.heldByOther _) | .reservation (.heldByOther _) | .reservation .expired
    | .failed => exact unused allocator expiration
  | assignmentMaintenance =>
    simp only [originEq] at allocator expiration
    match response with
    | .acquisition (.acquired lease reservation) =>
      exact finishSound_acquired reserved answer allocator expiration
    | .acquisition (.heldByOther _) =>
      -- The lease is gone, and with it the reservation and its expiration.
      refine ⟨?_, ?_, ?_⟩
      · rw [allocator]
        rintro range ⟨⟩
      · rw [expiration]
        rintro _ ⟨⟩
      · rw [expiration]
        rintro _ ⟨⟩
    | .reservation _ | .failed => exact unused allocator expiration

theorem viewSound_refresh {generation : Option Nat} {release : Option ReleasePhase}
    (kept : ∀ phase, view.release = some phase → release = some phase)
    (opened : view.release = none → release = none ∨ release = some .started) :
    ViewSound config session clock row accepted
      { view with generation := generation, release := release } := by
  have activeBefore : release = none → view.release = none := by
    intro active
    cases before : view.release with
    | none => rfl
    | some phase =>
      rw [kept phase before] at active
      cases active
  refine ⟨?_, sound.called, sound.reserved,
    fun active => sound.leased (activeBefore active),
    fun active => sound.flying (activeBefore active)⟩
  intro done
  refine sound.cleared ?_
  cases before : view.release with
  | some phase => exact (kept phase before).symm.trans done
  | none => rcases opened before with none_ | started <;> simp_all

/-- A step of a release task: while it runs, the invariant only asks for what was reserved. -/
theorem ViewSound.release {phase : ReleasePhase} {next : Option PartitionState}
    (allocator : ∀ range, (next.getD {}).seqAllocator.reservation = some range →
      view.partition.seqAllocator.reservation = some range)
    (cleared : phase = .done → (next.getD {}).leaseExpirationAt = none)
    {nextRow : Option LeaseState} (advance : RowAdvance session now row nextRow) :
    ViewSound config session clock nextRow accepted
      { view with state := next, release := some phase } where
  cleared := by
    rintro ⟨⟩
    exact cleared rfl
  called := sound.called
  reserved := fun range present =>
    (sound.reserved range (allocator range present)).advance advance
  leased := by simp
  flying := by simp

theorem viewSound_clearReleased :
    ViewSound config session clock row accepted
      { view with state := view.cleared, release := some .done } := by
  have reset : ∀ range, (view.cleared.getD {}).seqAllocator.reservation ≠ some range := by
    intro range
    unfold View.cleared
    split
    · simp
    · simp only
      split <;> simp [PartitionState.terminallyReleased, PartitionState.resetSequenceAllocation]
  have fenced : (view.cleared.getD {}).leaseExpirationAt = none := by
    unfold View.cleared
    split
    · rfl
    · simp only
      split <;> rfl
  exact sound.release (fun range present => absurd present (reset range)) (fun _ => fenced)
    (.refl session clock row)

variable (shape : ViewShape view)

include shape

theorem viewSound_claim {generation recordCount : Nat} (read : now ≤ clock)
    (assigned : view.generation = some generation)
    (meets : acceptanceContract.claim clock now view.partition) :
    ViewSound config session clock row accepted
      (view.claim config key generation recordCount now origin) := by
  simp only [acceptanceContract, beq_iff_eq] at meets
  have active := shape.active (by simp [assigned])
  have leased := sound.leased active
  rcases view.claim_cases config key generation recordCount now origin with
    ⟨work, next, -, -, spec, claimed⟩ | ⟨target, claimed⟩
  · rw [claimed]
    obtain ⟨target, rfl⟩ := spec.changed
    refine ⟨?_, ?_, sound.reserved, fun _ => ?_, fun _ => ?_⟩
    · simp [active]
    · rintro inFlight called ⟨⟩ known
      simp only at known
      split at known
      · cases known
      · cases known
        exact read
    · exact ⟨leased.bound, leased.valid⟩
    · rintro inFlight ⟨⟩
      refine ⟨?_, ?_, ?_, by simp⟩
      · intro was
        exact meets.symm.trans (spec.expired.symm.trans was)
      · -- Only maintenance renews a valid lease, and it has not read the clock yet.
        intro was wants called known
        dsimp only at was wants known
        rw [spec.lease, ← spec.expired, was, Bool.or_false] at wants
        rw [if_pos (of_decide_eq_true wants)] at known
        cases known
      · intro _ was _
        obtain ⟨expiration, known, ahead⟩ :=
          exists_expiration (meets.symm.trans (spec.expired.symm.trans was))
        exact (leased.valid expiration known ahead).2
  · rw [claimed]
    exact sound.withState ⟨rfl, rfl⟩

theorem viewSound_finish (owned : view.transition = some inFlight)
    (answered : inFlight.response = some response) :
    ViewSound config session clock row accepted
      { view with
        state := view.state.map (view.finished inFlight response)
        transition := none } := by
  cases present : view.state with
  | none =>
    have absent := View.partition_of_none present
    exact sound.settle (by simp [absent]) (by simp [absent])
  | some state =>
    have here := View.partition_of_some present
    rw [Option.map_some]
    cases current : view.isCurrent inFlight.work with
    | false =>
      rw [View.finished_stale response state current]
      exact sound.settle (by rw [here]; rfl) (by rw [here]; rfl)
    | true =>
      have assigned : view.generation.isSome = true := by
        rw [of_decide_eq_true current]
        rfl
      have active := shape.active assigned
      have applied : FinishSound config session clock row accepted
          (view.finished inFlight response state) :=
        finishSound_applied sound active owned answered rfl
          (by rw [here]; exact View.finished_seqAllocator response state current)
          (by rw [here]; exact View.finished_leaseExpirationAt response state current)
      refine ⟨?_, by simp, applied.reserved, fun _ => applied.leased, by simp⟩
      simp [active]

section Produce

variable (assigned : view.generation.isSome = true)
variable (meets : acceptanceContract.produce clock now row view.partition)

include assigned meets

theorem viewSound_accept (idle : view.partition.allocationInFlight = false)
    (valid : view.partition.needsLease now = false)
    (allocated : view.partition.seqAllocator.allocate batch.records.length
      = some (range, allocator)) :
    AcceptedSound session clock row accepted range
      ∧ ViewSound config session clock row (accepted ++ [range])
        { view with state := some (view.partition.accept allocator range batch now) } := by
  simp only [acceptanceContract, Bool.and_eq_true, beq_iff_eq] at meets
  obtain ⟨reading, room⟩ := meets
  have active := shape.active assigned
  have leased := sound.leased active
  obtain ⟨expiration, known, ahead⟩ := exists_expiration (reading.symm.trans valid)
  obtain ⟨held, fresh⟩ := leased.valid expiration known ahead
  obtain ⟨reservation, present, positive, within, -, rangeEq, rfl⟩ :=
    SeqAllocator.allocate_eq_some allocated
  have below : AllBelow accepted range.start := by
    rw [rangeEq]
    exact fresh (by simp [present])
  have nonempty : range.start ≤ range.end := by
    rw [rangeEq]
    exact Nat.le_add_right _ _
  obtain ⟨mark, marked, bound⟩ := sound.reserved reservation present
  have last : range.end + 1 ≤ u64Max := by
    rw [marked] at room
    simp only [Option.all_some, decide_eq_true_eq] at room
    omega
  have unowned := shape.idle idle
  refine ⟨⟨held.owns, below, nonempty, mark, marked, by omega⟩, ?_⟩
  refine ⟨?_, sound.called, sound.reserved, fun _ => ?_, ?_⟩
  · intro done
    rw [active] at done
    cases done
  · refine ⟨leased.bound, fun later knownLater aheadLater => ?_⟩
    refine ⟨(leased.valid later knownLater aheadLater).1, fun _ earlier member => ?_⟩
    show earlier.end < saturatingAdd u64Max range.end 1
    rw [saturatingAdd_of_le last]
    rcases List.mem_append.mp member with before | now
    · have := below earlier before
      omega
    · rw [List.mem_singleton.mp now]
      exact Nat.lt_succ_self _
  · simp [unowned]

theorem viewSound_produce :
    (∀ range ∈ acceptedRange (view.partition.produceFastPath batch now).1,
        AcceptedSound session clock row accepted range)
      ∧ ViewSound config session clock row
        (accepted ++ acceptedRange (view.partition.produceFastPath batch now).1)
        { view with state := some (view.partition.produceFastPath batch now).2 } := by
  rcases view.partition.produceFastPath_cases batch now with
    ⟨range, allocator, took, -, idle, valid, allocated⟩ | ⟨refused, kept⟩
  · rw [took]
    obtain ⟨facts, after⟩ := viewSound_accept sound shape assigned meets idle valid allocated
    refine ⟨?_, after⟩
    intro only member
    rw [List.mem_singleton.mp member]
    exact facts
  · have silent : acceptedRange (view.partition.produceFastPath batch now).1 = [] := by
      unfold acceptedRange
      split
      next range taken => exact absurd taken (refused range)
      next => rfl
    rw [silent, kept, List.append_nil]
    exact ⟨by simp, sound.withState ⟨rfl, rfl⟩⟩

theorem produce_effect :
    LocalEffect session clock row row accepted
      (acceptedRange (view.partition.produceFastPath batch now).1) := by
  have facts : ∀ range ∈ acceptedRange (view.partition.produceFastPath batch now).1,
      AcceptedSound session clock row accepted range :=
    (viewSound_produce sound shape assigned meets).1
  refine ⟨⟨clock, Int.le_refl clock, .refl session clock row⟩, ?_⟩
  cases taken : (view.partition.produceFastPath batch now).1 with
  | error error => exact Or.inl rfl
  | ok range? =>
    cases range? with
    | none => exact Or.inl rfl
    | some range =>
      rw [taken] at facts
      exact Or.inr ⟨range, rfl, rfl, facts range (List.mem_singleton.mpr rfl)⟩

end Produce

theorem viewSound_local {next : View} (stored : ∀ earlier ∈ accepted, Reserved row earlier)
    (did : LocalStep acceptanceContract config session key clock view row next nextRow emitted) :
    ViewSound config session clock nextRow (accepted ++ emitted) next
      ∧ LocalEffect session clock row nextRow accepted emitted := by
  cases did with
  | produce read summarized assigned meets =>
    exact ⟨(viewSound_produce sound shape assigned meets).2,
      produce_effect sound shape assigned meets⟩
  | claim read assigned meets =>
    exact kept_quietly (viewSound_claim sound shape read assigned meets)
  | readClock owned =>
    refine kept_quietly (sound.withTransition owned ?_ ?_)
    · rintro now ⟨⟩
      exact Int.le_refl clock
    · intro active flight
      refine ⟨flight.expired, ?_, flight.waiting, flight.answer⟩
      rintro _ _ now ⟨⟩ expiration known
      exact (sound.leased active).bound expiration known
  | @callStore work origin now owned meets =>
    have spec := storeCall_spec config session key row work now
    have read := sound.called _ now owned rfl
    exact kept_by_call read spec.advance (viewSound_callStore sound stored owned meets spec)
  | failCall owned =>
    refine kept_quietly (sound.withTransition owned
      (fun now known => sound.called _ now owned known) fun active flight => ?_)
    refine ⟨flight.expired, flight.renewal, by simp, ?_⟩
    rintro response ⟨⟩
    trivial
  | finish owned answered meets =>
    exact kept_quietly (viewSound_finish sound shape owned answered)
  | dropOwner owned =>
    refine kept_quietly (sound.settle ?_ ?_) <;>
      rcases view.map_partition PartitionState.endAllocation with same | same <;> rw [same] <;> rfl
  | refresh kept opened excluded =>
    exact kept_quietly (viewSound_refresh sound kept opened)
  | startRelease phase =>
    refine kept_quietly (sound.release ?_ ?_ (.refl session clock row))
    · rcases view.map_partition _ with same | same <;> rw [same] <;> exact fun _ present => present
    · intro done
      cases present : view.state with
      | none => rfl
      | some state => simp [present] at done
  | @drainHeartbeat now responseLost read phase =>
    have advance := heartbeatLease_advance row key config.holderId session now
      view.sequenceProgress config.leaseDuration
    refine kept_by_call read advance (sound.release (fun _ present => present) ?_ advance)
    intro done
    split at done
    · cases done
    · unfold heartbeatPhase at done
      split at done <;> cases done
  | applyHeartbeat phase =>
    refine kept_quietly (sound.release ?_ (by simp) (.refl session clock row))
    rcases view.map_partition _ with same | same <;> rw [same] <;> exact fun _ present => present
  | finishDrain phase drained =>
    exact kept_quietly
      (sound.release (fun _ present => present) (by simp) (.refl session clock row))
  | @callRelease now next read phase reached =>
    have advance := releaseLease_advance row key config.holderId session now view.sequenceProgress
    refine kept_by_call read advance (sound.release (fun _ present => present) ?_ advance)
    rintro rfl
    simp at reached
  | clearReleased phase =>
    exact kept_quietly (viewSound_clearReleased sound)
  | completeRelease phase =>
    have idle := (shape.drained _ phase rfl).1
    have cleared : view.partition.leaseExpirationAt = none := sound.cleared phase
    refine kept_quietly ⟨by simp, sound.called, sound.reserved, fun _ => ?_, by simp [idle]⟩
    refine ⟨fun expiration known => ?_, fun expiration known => ?_⟩
    · exact absurd (cleared.symm.trans known) (by simp)
    · exact absurd (cleared.symm.trans known) (by simp)
  | @takeFlush state trigger requireFence channel present meets =>
    refine kept_quietly (sound.withState ?_)
    rw [View.partition_of_some present]
    unfold takeFlushPartition
    split
    · exact ⟨rfl, rfl⟩
    · simp only
      split <;> exact ⟨rfl, rfl⟩
  | @completeFlush state publications present =>
    refine kept_quietly (sound.withState ?_)
    rw [View.partition_of_some present]
    exact ⟨rfl, rfl⟩
  | beginShutdownDrain | resumeAdmission =>
    refine kept_quietly (sound.withState ?_)
    rcases view.map_partition _ with same | same <;> exact same ▸ ⟨rfl, rfl⟩

end OwnSteps

end BlobStream.Write.Cluster
