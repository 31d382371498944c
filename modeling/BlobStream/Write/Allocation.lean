import BlobStream.Write.State

/-!
# Allocation transitions

A transition is the critical section around one lease-store call for one partition. It is claimed
under the state mutex, stays in flight while the store works, and is finished, or dropped, under
the mutex again. Its result only applies while the assignment it was claimed under is current.
-/

namespace BlobStream.Write

open Word
open ProducerLeases (ProducerLeaseFence ProducerPartitionLease ProducerSequenceProgress)

def maintenanceTargetHighUtilizationPercent : Nat := 75

inductive LeaseExpirationUpdate
  | preserve
  | set (leaseExpirationAt : Option Int)
deriving DecidableEq, Repr

inductive AllocationTransitionFinish
  | applied
  | staleAssignment
deriving DecidableEq, Repr

inductive ReservationReason
  | initial
  | foregroundExhaustion
  | maintenanceTopUp
  | maintenanceHighUtilization
deriving DecidableEq, Repr

structure ReservationRequest where
  size : Nat
  reason : ReservationReason
deriving DecidableEq, Repr

/-- A claimed transition, with the work its owner has to do. -/
structure AllocationTransitionWork where
  key : PartitionKey
  assignmentGeneration : Nat
  needsLease : Bool
  leaseWasExpired : Bool
  reservation : Option ReservationRequest
  sequenceProgress : ProducerSequenceProgress
  recordsAllocatedSinceLastMaintenance : Option Nat
deriving DecidableEq, Repr

/-- A lease found expired at the claim resets the allocator when a new one is installed. -/
def AllocationTransitionWork.resetSequenceAllocationOnFinish (work : AllocationTransitionWork) :
    Bool :=
  work.leaseWasExpired

inductive AllocationTransitionDecision
  | notAssigned
  | draining
  | ready
  | waiting
  | claimed (work : AllocationTransitionWork)
deriving DecidableEq, Repr

def maintenanceHighUtilizationThreshold (targetSize : Nat) : Nat :=
  saturatingAdd u64Max
    (saturatingMul u64Max targetSize maintenanceTargetHighUtilizationPercent) 99 / 100

/-! ### Claiming a transition -/

namespace PartitionState

variable (state : PartitionState)

/-- Whether maintenance found most of the target used. Reading the target fixes it. -/
def maintenanceHighUtilization (renewLease : Bool) (baseReservationSize : Nat) :
    Bool × PartitionState :=
  if renewLease && state.seqAllocator.hasReservation then
    let (target, targeted) := state.reservationTarget baseReservationSize
    (maintenanceHighUtilizationThreshold target
      ≤ state.recordsAllocatedSinceLeaseMaintenance, targeted)
  else (false, state)

def reservationReason (renewLease highUtilization : Bool) :
    ReservationReason :=
  if !state.seqAllocator.hasReservation then .initial
  else if highUtilization then .maintenanceHighUtilization
  else if renewLease then .maintenanceTopUp
  else .foregroundExhaustion

/-- The two growth reasons double the reservation target. -/
def reservationRequestFor (reason : ReservationReason) (baseReservationSize : Nat) :
    ReservationRequest × PartitionState :=
  let (size, targeted) := match reason with
    | .foregroundExhaustion | .maintenanceHighUtilization =>
      state.doubleReservationTarget baseReservationSize
    | .initial | .maintenanceTopUp => state.reservationTarget baseReservationSize
  (⟨size, reason⟩, targeted)

def reservationRequest (recordCount : Nat) (renewLease highUtilization : Bool)
    (baseReservationSize : Nat) :
    Option ReservationRequest × PartitionState :=
  if !state.seqAllocator.canAllocate recordCount then
    let (request, targeted) := state.reservationRequestFor
      (state.reservationReason renewLease highUtilization) baseReservationSize
    (some request, targeted)
  else if renewLease && state.seqAllocator.remainingCapacity
      < state.recordsAllocatedSinceLeaseMaintenance then
    let reason :=
      if highUtilization then ReservationReason.maintenanceHighUtilization else .maintenanceTopUp
    let (request, targeted) := state.reservationRequestFor reason baseReservationSize
    (some request, targeted)
  else (none, state)

def beginTransition (assignmentGeneration : Nat) (key : PartitionKey) (recordCount : Nat)
    (now : Int) (renewLease : Bool) (baseReservationSize : Nat) :
    AllocationTransitionDecision × PartitionState :=
  if state.draining && !renewLease then (.draining, state)
  else if state.allocationInFlight then (.waiting, state)
  else
    let leaseWasExpired := state.needsLease now
    let needsLease := renewLease || leaseWasExpired
    let (highUtilization, measured) :=
      state.maintenanceHighUtilization renewLease baseReservationSize
    let (reservation, targeted) :=
      measured.reservationRequest recordCount renewLease highUtilization baseReservationSize
    if !needsLease && reservation.isNone then (.ready, targeted)
    else
      (.claimed
        { key := key
          assignmentGeneration := assignmentGeneration
          needsLease := needsLease
          leaseWasExpired := leaseWasExpired
          reservation := reservation
          sequenceProgress := if leaseWasExpired then {} else state.seqAllocator.sequenceProgress
          recordsAllocatedSinceLastMaintenance :=
            if renewLease then some state.recordsAllocatedSinceLeaseMaintenance else none },
        { targeted with allocationInFlight := true, allocationStartedAt := some now })

end PartitionState

/-! ### What a claim can do -/

namespace PartitionState

/-- `next` differs from `state` at most in the remembered reservation target. -/
def Targets (state next : PartitionState) : Prop :=
  ∃ target, next = { state with adaptiveReservationSize := target }

theorem Targets.refl (state : PartitionState) : Targets state state :=
  ⟨state.adaptiveReservationSize, rfl⟩

theorem Targets.trans {state middle next : PartitionState} (first : Targets state middle)
    (second : Targets middle next) : Targets state next := by
  obtain ⟨_, rfl⟩ := first
  obtain ⟨target, rfl⟩ := second
  exact ⟨target, rfl⟩

theorem reservationRequestFor_targets (state : PartitionState) (reason : ReservationReason)
    (base : Nat) : Targets state (state.reservationRequestFor reason base).2 := by
  cases reason <;> exact ⟨_, rfl⟩

/-- What a claimed transition records about the state it was claimed in. -/
structure ClaimSpec (state next : PartitionState) (now : Int) (renewLease : Bool)
    (work : AllocationTransitionWork) : Prop where
  idle : state.allocationInFlight = false
  expired : work.leaseWasExpired = state.needsLease now
  lease : work.needsLease = (renewLease || state.needsLease now)
  changed : ∃ target, next =
    { state with
      adaptiveReservationSize := target
      allocationInFlight := true
      allocationStartedAt := some now }

/-- A claim either hands out work for an idle partition or only fixes its reservation target. -/
theorem beginTransition_cases (state : PartitionState) (generation : Nat) (key : PartitionKey)
    (recordCount : Nat) (now : Int) (renewLease : Bool) (base : Nat) :
    (∃ work next, state.beginTransition generation key recordCount now renewLease base
        = (.claimed work, next) ∧ work.key = key ∧ work.assignmentGeneration = generation
        ∧ ClaimSpec state next now renewLease work)
    ∨ ((∀ work, (state.beginTransition generation key recordCount now renewLease base).1
        ≠ .claimed work)
      ∧ Targets state
        (state.beginTransition generation key recordCount now renewLease base).2) := by
  unfold beginTransition
  split
  · exact Or.inr ⟨by simp, .refl state⟩
  · split
    · exact Or.inr ⟨by simp, .refl state⟩
    next idle =>
      have measured : Targets state (state.maintenanceHighUtilization renewLease base).2 := by
        unfold maintenanceHighUtilization
        split
        · exact ⟨_, rfl⟩
        · exact .refl state
      have requested : Targets (state.maintenanceHighUtilization renewLease base).2
          ((state.maintenanceHighUtilization renewLease base).2.reservationRequest recordCount
            renewLease (state.maintenanceHighUtilization renewLease base).1 base).2 := by
        unfold reservationRequest
        split
        · exact reservationRequestFor_targets _ _ _
        · split
          · exact reservationRequestFor_targets _ _ _
          · exact .refl _
      have targeted := measured.trans requested
      obtain ⟨target, reached⟩ := targeted
      simp only
      split
      · exact Or.inr ⟨by simp, target, reached⟩
      · exact Or.inl ⟨_, _, rfl, rfl, rfl, by simpa using idle, rfl, rfl, target, by rw [reached]⟩

end PartitionState

/-- Authorization is checked before partition state is created. -/
def beginAllocationTransition (state : WriteState) (key : PartitionKey) (recordCount : Nat)
    (now : Int) (renewLease : Bool) (baseReservationSize : Nat) :
    AllocationTransitionDecision × WriteState :=
  match state.assignmentGenerationForPartition key with
  | none => (.notAssigned, state)
  | some assignmentGeneration =>
    let (decision, partition) := (state.partitionState key).beginTransition assignmentGeneration key
      recordCount now renewLease baseReservationSize
    (decision, state.setPartition key (some partition))

/-! ### Finishing a transition -/

namespace PartitionState

section Stages

variable (state : PartitionState) (resetOnFinish : Bool) (update : LeaseExpirationUpdate)
variable (lease : Option ProducerPartitionLease) (reservation : Option SeqRange)
variable (recordsAllocated : Option Nat)

def discardBuffer : PartitionState := { state with buffer := {} }

/-- Install the lease outcome: a changed or cleared fence discards what the old one accepted. -/
def finishLease : PartitionState :=
  match lease with
  | some lease =>
    let kept := if state.leaseFence ≠ some lease.fence then state.discardBuffer else state
    { kept with leaseFence := some lease.fence }
  | none =>
    if update = .set none then { state.discardBuffer with leaseFence := none } else state

/-- Whether finishing with `update` drops the local reservation. -/
def resetsAllocation (resetOnFinish : Bool) : LeaseExpirationUpdate → Bool
  | .preserve => false
  | .set none => true
  | .set (some _) => resetOnFinish

def finishExpiration : PartitionState :=
  match update with
  | .preserve => state
  | .set leaseExpirationAt => { state with leaseExpirationAt := leaseExpirationAt }

def finishAllocation : PartitionState :=
  let kept :=
    if resetsAllocation resetOnFinish update then state.resetSequenceAllocation else state
  match reservation with
  | none => kept
  | some range =>
    { kept with seqAllocator := kept.seqAllocator.installOrExtendReservation range }

def finishMaintenance : PartitionState :=
  match recordsAllocated, update with
  | some records, .set (some _) =>
    { state with
      recordsAllocatedSinceLeaseMaintenance :=
        state.recordsAllocatedSinceLeaseMaintenance - records }
  | _, _ => state

/-- The part of finishing that only a current assignment performs. -/
def applyFinish : PartitionState :=
  (((state.finishExpiration update).finishLease update lease).finishAllocation resetOnFinish
    update reservation).finishMaintenance update recordsAllocated

/-- Finishing always ends the in-flight section. -/
def endAllocation : PartitionState :=
  { state with allocationInFlight := false, allocationStartedAt := none }

/-- The verdict for one partition, its new state and the acknowledgements that fail with
`LeaseFenceLost` because their batches were discarded. -/
def finishTransition (state : PartitionState) (assignmentIsCurrent resetOnFinish : Bool)
    (update : LeaseExpirationUpdate) (lease : Option ProducerPartitionLease)
    (reservation : Option SeqRange) (recordsAllocated : Option Nat) :
    AllocationTransitionFinish × PartitionState × List FlushCompletion :=
  if assignmentIsCurrent then
    let applied := state.applyFinish resetOnFinish update lease reservation recordsAllocated
    let stale := if applied.buffer.batches.isEmpty then state.buffer.completions else []
    (.applied, applied.endAllocation, stale)
  else (.staleAssignment, state.endAllocation, [])

/-! Each stage of finishing changes its own fields. -/

/-- The allocator after finishing: reset or kept, then given the new range. -/
def finishedAllocator (allocator : SeqAllocator) (resetOnFinish : Bool)
    (update : LeaseExpirationUpdate) (reservation : Option SeqRange) : SeqAllocator :=
  let kept := if resetsAllocation resetOnFinish update then {} else allocator
  match reservation with
  | none => kept
  | some range => kept.installOrExtendReservation range

def discardsBuffer (leaseFence : Option ProducerLeaseFence) (update : LeaseExpirationUpdate) :
    Option ProducerPartitionLease → Bool
  | some lease => leaseFence ≠ some lease.fence
  | none => update = .set none

theorem finishLease_eq :
    ∃ leaseFence, state.finishLease update lease
      = { state with
          buffer := if discardsBuffer state.leaseFence update lease then {} else state.buffer
          leaseFence := leaseFence } := by
  cases lease with
  | none =>
    simp only [finishLease, discardsBuffer, decide_eq_true_eq]
    split <;> exact ⟨_, rfl⟩
  | some lease =>
    refine ⟨some lease.fence, ?_⟩
    simp only [finishLease, discardsBuffer, decide_eq_true_eq]
    split <;> rfl

theorem finishAllocation_eq :
    ∃ records, state.finishAllocation resetOnFinish update reservation
      = { state with
          seqAllocator := finishedAllocator state.seqAllocator resetOnFinish update reservation
          adaptiveReservationSize :=
            if resetsAllocation resetOnFinish update then none else state.adaptiveReservationSize
          recordsAllocatedSinceLeaseMaintenance := records } := by
  unfold finishAllocation finishedAllocator
  cases reservation <;> cases resetsAllocation resetOnFinish update <;> exact ⟨_, rfl⟩

theorem finishMaintenance_eq :
    ∃ records, state.finishMaintenance update recordsAllocated
      = { state with recordsAllocatedSinceLeaseMaintenance := records } := by
  unfold finishMaintenance
  split <;> exact ⟨_, rfl⟩

/-- Finishing touches neither the flush epochs nor the drain. -/
theorem applyFinish_eq :
    ∃ leaseFence records,
      state.applyFinish resetOnFinish update lease reservation recordsAllocated
        = { state with
            buffer := if discardsBuffer state.leaseFence update lease then {} else state.buffer
            seqAllocator := finishedAllocator state.seqAllocator resetOnFinish update reservation
            adaptiveReservationSize :=
              if resetsAllocation resetOnFinish update then none else state.adaptiveReservationSize
            recordsAllocatedSinceLeaseMaintenance := records
            leaseExpirationAt := (state.finishExpiration update).leaseExpirationAt
            leaseFence := leaseFence } := by
  obtain ⟨leaseFence, leased⟩ := finishLease_eq (state.finishExpiration update) update lease
  obtain ⟨_, allocated⟩ := finishAllocation_eq
    ((state.finishExpiration update).finishLease update lease) resetOnFinish update reservation
  obtain ⟨records, maintained⟩ := finishMaintenance_eq (((state.finishExpiration update).finishLease
    update lease).finishAllocation resetOnFinish update reservation) update recordsAllocated
  refine ⟨leaseFence, records, ?_⟩
  rw [applyFinish, maintained, allocated, leased]
  cases update <;> rfl

end Stages

end PartitionState

section Finish

variable (state : WriteState) (work : AllocationTransitionWork) (update : LeaseExpirationUpdate)
variable (lease : Option ProducerPartitionLease) (reservation : Option SeqRange)

def finishInner (recordsAllocated : Option Nat) :
    AllocationTransitionFinish × WriteState × List FlushCompletion :=
  match state.partitions work.key with
  | none => (.staleAssignment, state, [])
  | some partition =>
    let (verdict, finished, stale) := partition.finishTransition
      (state.assignmentGenerationIsCurrent work.key work.assignmentGeneration)
      work.resetSequenceAllocationOnFinish update lease reservation recordsAllocated
    (verdict, state.setPartition work.key (some finished), stale)

def finish :
    AllocationTransitionFinish × WriteState × List FlushCompletion :=
  finishInner state work update lease reservation none

def finishLeaseMaintenance (recordsAllocated : Nat) :
    AllocationTransitionFinish × WriteState × List FlushCompletion :=
  finishInner state work update lease reservation (some recordsAllocated)

/-- `Drop`: an abandoned transition only ends its in-flight section. -/
def dropTransition : WriteState :=
  (finishInner state work .preserve none none none).2.1

end Finish

end BlobStream.Write
