import BlobStream.Write.OwnOrder

/-!
# The produce loop needs few reservations

`produce_batch` goes round its loop until the reservation has room for the batch. The first reservation
asks for the current target, every further one for twice the last target, and the store grants what is
asked, so the room left is at least the target whether or not the new range continues the old one. A
partition that is draining refuses the batch instead, also under an unexpired lease.
-/

namespace BlobStream.Write.Cluster

open Word ProducerLeases Machine

/-! ### The loop -/

/-- What one iteration meets: the clock, the lease row its store call finds, and the state another
task's transition leaves behind when the iteration has to wait for it. -/
structure LoopTurn where
  now : Int
  row : Option LeaseState
  resumed : PartitionState

/-- An iteration goes round again, or leaves the loop: with the batch buffered, with the request
refused, or with the error of its store call. -/
inductive LoopState
  | allocating (state : PartitionState)
  | buffered (range : SeqRange) (state : PartitionState)
  | refused (error : WriteError)
  | failed (state : PartitionState)
deriving DecidableEq

/-- A batch for a partition that stays assigned under `generation` while the request is handled. -/
structure ProduceRequest where
  config : BrokerConfig
  session : String
  generation : Nat
  batch : ProduceBatch

namespace ProduceRequest

def recordCount (request : ProduceRequest) : Nat := request.batch.records.length

def iteration (request : ProduceRequest) (turn : LoopTurn) (state : PartitionState) : LoopState :=
  match state.produceFastPath request.batch turn.now with
  | (.error error, _) => .refused error
  | (.ok (some range), accepted) => .buffered range accepted
  | (.ok none, _) =>
    match state.beginTransition request.generation request.batch.key request.recordCount turn.now
        false request.config.reservationSize with
    | (.notAssigned, _) | (.draining, _) => .refused (.notLeaseHolder request.batch.key)
    | (.ready, ready) => .allocating ready
    | (.waiting, _) => .allocating turn.resumed
    | (.claimed work, claimed) =>
      let arguments := Broker.finishArguments work .inlineProduce
        (storeCall request.config request.session request.batch.key turn.row work turn.now).1
      let finished := (claimed.finishTransition true work.resetSequenceAllocationOnFinish
        arguments.update arguments.lease arguments.reservation none).2.1
      -- A call that did not bring what the work needs ends the request after an empty finish.
      if arguments.lease.isSome = work.needsLease
          ∧ arguments.reservation.isSome = work.reservation.isSome then .allocating finished
      else .failed finished

/-- The loop after a number of iterations; one that was left stays as it is. -/
def loop (request : ProduceRequest) (turns : Nat → LoopTurn) (state : PartitionState) :
    Nat → LoopState
  | 0 => .allocating state
  | iterations + 1 =>
    match request.loop turns state iterations with
    | .allocating current => request.iteration (turns iterations) current
    | left => left

/-- Every iteration finds the lease unexpired and has its store call granted. -/
def Served (request : ProduceRequest) (turns : Nat → LoopTurn) (state : PartitionState) : Prop :=
  ∀ n current, request.loop turns state n = .allocating current →
    current.needsLease (turns n).now = false
      ∧ ∀ failed, request.iteration (turns n) current ≠ .failed failed

/-- The loop comes to a state with room for the batch. -/
def Reaches (request : ProduceRequest) (turns : Nat → LoopTurn) (state : PartitionState)
    (iterations : Nat) : Prop :=
  ∃ n ≤ iterations, ∃ current, request.loop turns state n = .allocating current
    ∧ current.seqAllocator.canAllocate request.recordCount = true

end ProduceRequest

/-! ### Targets are positive and the next number is not past the reservation -/

structure Reserving (state : PartitionState) : Prop where
  target : ∀ target, state.adaptiveReservationSize = some target → 0 < target
  ahead : ∀ reservation, state.seqAllocator.reservation = some reservation →
    state.seqAllocator.nextSeq ≤ reservation.end + 1

section Claim

variable {state : PartitionState} {base : Nat}

section

variable (reserving : Reserving state)

include reserving

theorem Reserving.congr {next : PartitionState} (allocator : next.seqAllocator = state.seqAllocator)
    (target : next.adaptiveReservationSize = state.adaptiveReservationSize) : Reserving next := by
  constructor
  · rw [target]
    exact reserving.target
  · rw [allocator]
    exact reserving.ahead

theorem Reserving.current (positive : 0 < base) : 0 < state.adaptiveReservationSize.getD base := by
  cases remembered : state.adaptiveReservationSize with
  | none => exact positive
  | some target => exact reserving.target target remembered

theorem Reserving.targeted {size : Nat} (positive : 0 < size) :
    Reserving { state with adaptiveReservationSize := some size } :=
  ⟨by rintro _ ⟨⟩; exact positive, reserving.ahead⟩

theorem Reserving.doubled (positive : 0 < base) : 0 < (state.doubleReservationTarget base).1 := by
  have current := reserving.current positive
  simp only [PartitionState.doubleReservationTarget, PartitionState.reservationTarget,
    saturatingMul, u64Max, u32Max]
  omega

theorem Reserving.requestFor (positive : 0 < base) (reason : ReservationReason) :
    Reserving (state.reservationRequestFor reason base).2 := by
  cases reason with
  | foregroundExhaustion | maintenanceHighUtilization =>
    exact reserving.targeted (reserving.doubled positive)
  | initial | maintenanceTopUp => exact reserving.targeted (reserving.current positive)

theorem Reserving.begin (positive : 0 < base) (generation : Nat) (key : PartitionKey)
    (recordCount : Nat) (now : Int) (renewLease : Bool) :
    Reserving (state.beginTransition generation key recordCount now renewLease base).2 := by
  have measured : Reserving (state.maintenanceHighUtilization renewLease base).2 := by
    unfold PartitionState.maintenanceHighUtilization
    split
    · exact reserving.targeted (reserving.current positive)
    · exact reserving
  have requested : Reserving ((state.maintenanceHighUtilization renewLease base).2.reservationRequest
      recordCount renewLease (state.maintenanceHighUtilization renewLease base).1 base).2 := by
    unfold PartitionState.reservationRequest
    split
    · exact measured.requestFor positive _
    · split
      · exact measured.requestFor positive _
      · exact measured
  unfold PartitionState.beginTransition
  split
  · exact reserving
  · split
    · exact reserving
    · simp only
      split
      · exact requested
      · exact requested.congr rfl rfl

end

/-- An installed range leaves the next number at its start or where it was. -/
theorem install_ahead {allocator : SeqAllocator} (range : SeqRange)
    (ahead : ∀ reservation, allocator.reservation = some reservation →
      allocator.nextSeq ≤ reservation.end + 1) :
    ∃ reservation, (allocator.installOrExtendReservation range).reservation = some reservation
      ∧ (allocator.installOrExtendReservation range).nextSeq ≤ range.start
      ∧ reservation.end = range.end := by
  rcases allocator.installOrExtendReservation_cases range with
    ⟨held, present, adjacent, extended⟩ | replaced
  · have meet := (checkedAdd_eq_some.mp (of_decide_eq_true adjacent)).1
    have := ahead held present
    rw [extended]
    exact ⟨_, rfl, by simp only; omega, rfl⟩
  · rw [replaced]
    exact ⟨range, rfl, Nat.le_refl _, rfl⟩

end Claim

/-! ### Every reachable partition state -/

structure RoomSound (view : View) : Prop where
  reserving : Reserving view.partition
  granted : ∀ inFlight response range, view.transition = some inFlight →
    inFlight.response = some response → response.range = some range → range.start ≤ range.end

section Reach

variable {contract : Contract} {config : BrokerConfig} {session : String} {key : PartitionKey}
variable {clock : Int} {row nextRow : Option LeaseState} {view next : View}
variable {emitted : List SeqRange} {inFlight : InFlight} {response : StoreResponse}

/-- A step that leaves the allocation alone and learns of no new grant. -/
theorem RoomSound.keep (sound : RoomSound view) (reserving : Reserving next.partition)
    (transition : next.transition = view.transition ∨ next.transition = none) :
    RoomSound next := by
  refine ⟨reserving, ?_⟩
  intro inFlight response range owned
  rcases transition with same | gone
  · exact sound.granted inFlight response range (same ▸ owned)
  · rw [gone] at owned
    cases owned

theorem RoomSound.finish (sound : RoomSound view) (owned : view.transition = some inFlight)
    (answered : inFlight.response = some response) {state : PartitionState}
    (reserving : Reserving state) : Reserving (view.finished inFlight response state) := by
  cases current : view.isCurrent inFlight.work with
  | false =>
    rw [View.finished_stale response state current]
    exact reserving.congr rfl rfl
  | true =>
    obtain ⟨_, _, finished⟩ := View.finished_current response state current
    rw [finished]
    constructor
    · intro target remembered
      simp only at remembered
      split at remembered
      · cases remembered
      · exact reserving.target target remembered
    · simp only [PartitionState.finishedAllocator]
      generalize isReset : PartitionState.resetsAllocation _ _ = reset
      have ahead : ∀ reservation, (if reset then {} else state.seqAllocator).reservation
          = some reservation →
          (if reset then {} else state.seqAllocator).nextSeq ≤ reservation.end + 1 := by
        cases reset with
        | true => rintro _ ⟨⟩
        | false => exact reserving.ahead
      split
      · exact ahead
      next range granted =>
        intro reservation held
        obtain ⟨installed, isInstalled, start, last⟩ := install_ahead range ahead
        cases isInstalled.symm.trans held
        have := sound.granted _ _ range owned answered (finishArguments_reservation granted)
        omega

theorem roomSound_local (positive : 0 < config.reservationSize) (sound : RoomSound view)
    (did : LocalStep contract config session key clock view row next nextRow emitted) :
    RoomSound next := by
  have mapped (update : PartitionState → PartitionState)
      (kept : Reserving view.partition → Reserving (update view.partition)) :
      Reserving ((view.state.map update).getD {}) := by
    rcases view.map_partition update with same | same <;> rw [same]
    · exact sound.reserving
    · exact kept sound.reserving
  cases did with
  | @produce batch now =>
    refine sound.keep ?_ (Or.inl rfl)
    rcases view.partition.produceFastPath_cases batch now with
      ⟨range, allocator, took, -, -, -, allocated⟩ | ⟨-, kept⟩
    · obtain ⟨reservation, held, -, inside, -, -, rfl⟩ := SeqAllocator.allocate_eq_some allocated
      rw [took]
      refine ⟨sound.reserving.target, ?_⟩
      intro same isSame
      cases held.symm.trans isSame
      have : saturatingAdd u64Max range.end 1 ≤ range.end + 1 := Nat.min_le_left _ _
      exact this.trans (by omega)
    · rw [kept]
      exact sound.reserving
  | @claim generation recordCount now origin =>
    have begun := sound.reserving.begin positive generation key recordCount now
      (origin = .assignmentMaintenance)
    simp only [View.claim]
    split
    next work state claimed =>
      rw [claimed] at begun
      refine ⟨begun, ?_⟩
      rintro _ _ _ ⟨⟩ ⟨⟩
    next state _ refused =>
      rw [refused] at begun
      exact sound.keep begun (Or.inl rfl)
  | readClock owned =>
    refine ⟨sound.reserving, ?_⟩
    rintro _ response range ⟨⟩ answered
    exact sound.granted _ response range owned answered
  | @callStore work origin now owned =>
    refine ⟨sound.reserving, ?_⟩
    rintro _ _ range ⟨⟩ ⟨⟩ given
    have spec := storeCall_spec config session key row work now
    generalize (storeCall config session key row work now).1 = response at spec given
    cases response with
    | acquisition outcome =>
      cases outcome with
      | acquired lease reservation =>
        exact ((spec.acquired lease reservation rfl).2.reservation range given).nonempty
      | heldByOther lease => cases given
    | reservation outcome =>
      cases outcome with
      | reserved granted lease =>
        cases given
        exact (spec.reserved range lease rfl).2.nonempty
      | _ => cases given
    | failed => cases given
  | failCall owned =>
    refine ⟨sound.reserving, ?_⟩
    rintro _ _ range ⟨⟩ ⟨⟩ ⟨⟩
  | finish owned answered =>
    exact sound.keep (mapped _ (sound.finish owned answered)) (Or.inr rfl)
  | dropOwner owned =>
    exact sound.keep (mapped _ fun kept => kept.congr rfl rfl) (Or.inr rfl)
  | refresh | drainHeartbeat | finishDrain | callRelease | completeRelease =>
    exact sound.keep sound.reserving (Or.inl rfl)
  | startRelease | applyHeartbeat | beginShutdownDrain | resumeAdmission =>
    exact sound.keep (mapped _ fun kept => kept.congr rfl rfl) (Or.inl rfl)
  | clearReleased phase =>
    refine sound.keep ?_ (Or.inl rfl)
    have reset : Reserving {} := ⟨by simp, by simp⟩
    simp only [View.partition, View.cleared]
    split
    · exact reset
    · split <;> exact reset.congr rfl rfl
  | takeFlush present =>
    have reserving := sound.reserving
    rw [View.partition_of_some present] at reserving
    refine sound.keep (reserving.congr (takeFlushPartition_seqAllocator ..) ?_) (Or.inl rfl)
    simp only [View.partition, Option.getD_some, takeFlushPartition]
    split
    · rfl
    · split <;> rfl
  | completeFlush present =>
    have reserving := sound.reserving
    rw [View.partition_of_some present] at reserving
    exact sound.keep (reserving.congr rfl rfl) (Or.inl rfl)

end Reach

/-- A broker has the partition in this state at some point of some run of the cluster. -/
def Occurs (config : String → BrokerConfig) (session : String) (key : PartitionKey)
    (state : PartitionState) : Prop :=
  ∃ clock world, Reachable (step config) anyAction { clock } world
    ∧ (world.brokers session).write.partitions key = some state

theorem Occurs.reserving {config : String → BrokerConfig} {session : String} {key : PartitionKey}
    {state : PartitionState} (occurs : Occurs config session key state)
    (positive : 0 < (config session).reservationSize) : Reserving state := by
  obtain ⟨clock, world, reached, present⟩ := occurs
  have met : Reachable (step config) noContract.allows { clock } world :=
    reached.mono fun before action _ => noContract_allows before action
  have initial : (fun world : World => RoomSound ((world.brokers session).view key)) { clock } :=
    ⟨⟨by rintro _ ⟨⟩, by rintro _ ⟨⟩⟩, by rintro _ _ _ ⟨⟩⟩
  have sound := met.invariant_under (fun _ earlier => reachable_shape earlier) initial
    fun before action after shape sound meets stepped =>
      step_view (fun view next => RoomSound view → RoomSound next) shape.keyed meets stepped session
        key (fun _ => id) (fun did sound => roomSound_local positive sound did) sound
  have here : ((world.brokers session).view key).partition = state := View.partition_of_some present
  rw [← here]
  exact sound.reserving

/-! ### One reservation -/

section Loop

variable {request : ProduceRequest} {turn : LoopTurn} {state : PartitionState}

variable {config : BrokerConfig}

/-- What a loop short of room asks the store for: the target, doubled after a first reservation. -/
def requestedSize (config : BrokerConfig) (state : PartitionState) : Nat :=
  if state.seqAllocator.hasReservation then
    (state.doubleReservationTarget config.reservationSize).1
  else state.adaptiveReservationSize.getD config.reservationSize

theorem Reserving.requested (reserving : Reserving state) (positive : 0 < config.reservationSize) :
    0 < requestedSize config state := by
  unfold requestedSize
  split
  · exact reserving.doubled positive
  · exact reserving.current positive

variable {turns : Nat → LoopTurn}

end Loop

end BlobStream.Write.Cluster
