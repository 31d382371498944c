import BlobStream.Lib.Machine
import BlobStream.Write.Engine
import BlobStream.Write.Scheduler

/-!
# A cluster of brokers over one lease store

Broker processes, named by their lease session, share one in-memory lease store and one clock. An
action is one critical section of one broker, one store call, or a clock step; all interleave freely.

* Clock readings happen before the mutex is taken, so a reading `now` may lie behind the clock.
  Maintenance reads the clock a second time for its store call.
* A store call takes effect before its owner sees the response, which can be lost; the owner can be
  dropped at any time.
* Successful maintenance takes the mutex twice, to finish its transition and to reopen the partition.
  Its task does not give way in between, but other tasks can; nothing here relies on the former.
* A release task drains its partition, releases the lease and clears local state; meanwhile the
  partition is not published as desired. Shutdown is a refresh after which nothing is desired.
* How flush epochs advance their watch channels and end is left open here.
-/

namespace BlobStream.Write.Cluster

open ProducerLeases

structure BrokerConfig where
  holderId : String
  leaseDuration : Int
  reservationSize : Nat

inductive LeaseAcquisitionOrigin
  | inlineProduce
  | assignmentMaintenance
deriving DecidableEq, Repr

/-- What the owner of a transition learns from its store call. -/
inductive StoreResponse
  | acquisition (outcome : LeaseAcquireAndReserveOutcome)
  | reservation (outcome : SequenceReservationOutcome)
  | failed
deriving DecidableEq, Repr

/-- A claimed transition together with its owner's progress. -/
structure InFlight where
  work : AllocationTransitionWork
  origin : LeaseAcquisitionOrigin
  /-- The clock reading handed to the store, once it has been taken. -/
  callTime : Option Int
  response : Option StoreResponse := none
deriving DecidableEq, Repr

inductive ReleasePhase
  | started
  | draining (leaseHeld : Bool) (renewed : Option Int)
  | releasing
  | released
  | done
deriving DecidableEq, Repr

structure Broker where
  write : WriteState := {}
  transitions : PartitionKey → Option InFlight := fun _ => none
  /-- `pending_releases`, with the progress of each release task. -/
  releases : PartitionKey → Option ReleasePhase := fun _ => none
  /-- Partitions whose maintenance was applied and has still to reopen them. -/
  resuming : PartitionKey → Bool := fun _ => false
  previouslyDesired : Finset PartitionKey := ∅
  publications : Publications := fun _ => .pending
  nextPublication : PublicationChannel := 0

structure Accepted where
  session : String
  key : PartitionKey
  range : SeqRange
deriving DecidableEq, Repr

structure World where
  clock : Int
  leases : PartitionKey → Option LeaseState := fun _ => none
  brokers : String → Broker := fun _ => {}
  /-- Every accepted batch, oldest first. -/
  accepted : List Accepted := []

inductive Action
  | tick (now : Int)
  | produce (session : String) (batch : ProduceBatch) (now : Int)
  | claim (session : String) (key : PartitionKey) (recordCount : Nat) (now : Int)
  | claimMaintenance (session : String) (key : PartitionKey) (now : Int)
  | readClock (session : String) (key : PartitionKey)
  | callStore (session : String) (key : PartitionKey)
  | failCall (session : String) (key : PartitionKey)
  | finish (session : String) (key : PartitionKey)
  | resumeAdmission (session : String) (key : PartitionKey)
  | dropOwner (session : String) (key : PartitionKey)
  | refreshAssignment (session : String) (desired : Finset PartitionKey)
  | startRelease (session : String) (key : PartitionKey)
  | drainHeartbeat (session : String) (key : PartitionKey) (now : Int) (responseLost : Bool)
  | applyHeartbeat (session : String) (key : PartitionKey)
  | finishDrain (session : String) (key : PartitionKey)
  | callRelease (session : String) (key : PartitionKey) (now : Int) (responseLost : Bool)
  | clearReleased (session : String) (key : PartitionKey)
  | completeRelease (session : String) (key : PartitionKey)
  | takeFlush (session : String) (key : PartitionKey) (trigger : FlushTrigger) (requireFence : Bool)
  | signal (session : String) (channel : PublicationChannel) (state : FlushPublicationState)
  | completeFlush (session : String) (key : PartitionKey) (channel : PublicationChannel)
      (error : Option FlushCompletionError)
  | beginShutdownDrain (session : String)
deriving DecidableEq

/-- Opening, moving and ending flush epochs is the work of the flush tasks. -/
def Action.movesEpochs : Action → Bool
  | .takeFlush .. | .signal .. | .completeFlush .. => true
  | _ => false

/-! ### Critical sections of one broker -/

namespace Broker

def setPartition (broker : Broker) (key : PartitionKey) (state : PartitionState) : Broker :=
  { broker with write := broker.write.setPartition key (some state) }

def setTransition (broker : Broker) (key : PartitionKey) (inFlight : Option InFlight) : Broker :=
  { broker with transitions := Function.update broker.transitions key inFlight }

def setRelease (broker : Broker) (key : PartitionKey) (phase : Option ReleasePhase) : Broker :=
  { broker with releases := Function.update broker.releases key phase }

/-- Claim a transition; only maintenance still has to read the clock for its store call. -/
def claim (broker : Broker) (config : BrokerConfig) (key : PartitionKey) (recordCount : Nat)
    (now : Int) (origin : LeaseAcquisitionOrigin) : Broker :=
  let renewLease := origin = .assignmentMaintenance
  match beginAllocationTransition broker.write key recordCount now renewLease
      config.reservationSize with
  | (.claimed work, write) =>
    { broker with write := write }.setTransition key
      (some { work, origin, callTime := if renewLease then none else some now })
  | (_, write) => { broker with write := write }

/-- What the owner of a transition passes to `finish`, or after successful maintenance to
`finish_lease_maintenance`, for each response. -/
structure FinishArguments where
  update : LeaseExpirationUpdate := .preserve
  lease : Option ProducerPartitionLease := none
  reservation : Option SeqRange := none
  recordsAllocated : Option Nat := none

def finishArguments (work : AllocationTransitionWork) :
    LeaseAcquisitionOrigin → StoreResponse → FinishArguments
  | .inlineProduce, .acquisition (.acquired lease reservation) =>
    -- An acquisition that lost the requested reservation is an internal error.
    if work.reservation.isSome && reservation.isNone then {}
    else
      { update := .set (some lease.leaseExpirationAt), lease := some lease,
        reservation := reservation }
  | .inlineProduce, .reservation (.reserved range _) => { reservation := some range }
  | .assignmentMaintenance, .acquisition (.acquired lease reservation) =>
    { update := .set (some lease.leaseExpirationAt)
      lease := some lease
      reservation := reservation
      recordsAllocated := some (work.recordsAllocatedSinceLastMaintenance.getD 0) }
  | .assignmentMaintenance, .acquisition (.heldByOther _) => { update := .set none }
  | _, _ => {}

def FinishArguments.finish (arguments : FinishArguments) (write : WriteState)
    (work : AllocationTransitionWork) :
    AllocationTransitionFinish × WriteState × List FlushCompletion :=
  match arguments.recordsAllocated with
  | none => Write.finish write work arguments.update arguments.lease arguments.reservation
  | some recordsAllocated =>
    finishLeaseMaintenance write work arguments.update arguments.lease arguments.reservation
      recordsAllocated

/-- Maintenance that was applied goes on to reopen the partition. -/
def finish (broker : Broker) (key : PartitionKey) (inFlight : InFlight)
    (response : StoreResponse) : Broker :=
  let arguments := finishArguments inFlight.work inFlight.origin response
  let (verdict, write, _) := arguments.finish broker.write inFlight.work
  let finished := { broker with write := write }.setTransition key none
  if verdict = .applied ∧ arguments.recordsAllocated.isSome then
    { finished with resuming := Function.update broker.resuming key true }
  else finished

def resumeAdmission (broker : Broker) (key : PartitionKey) : Broker :=
  let resumed := { broker with resuming := Function.update broker.resuming key false }
  match broker.write.partitions key with
  | some state => resumed.setPartition key { state with draining := false }
  | none => resumed

def dropOwner (broker : Broker) (key : PartitionKey) (inFlight : InFlight) : Broker :=
  { broker with write := dropTransition broker.write inFlight.work }.setTransition key none

/-- Partitions whose release task exists after a refresh. -/
def refreshedReleases (broker : Broker) (desired : Finset PartitionKey) (key : PartitionKey) :
    Option ReleasePhase :=
  match broker.releases key with
  | some phase => some phase
  | none =>
    if key ∉ desired ∧ (key ∈ broker.previouslyDesired ∨ (broker.write.partitions key).isSome) then
      some .started
    else none

/-- One assignment refresh: lost partitions, and tracked ones that are not desired, get a release
task; the admission set is the desired one without partitions that are being released. -/
def refreshAssignment (broker : Broker) (desired : Finset PartitionKey) : Broker :=
  let releases := broker.refreshedReleases desired
  { broker with
    releases := releases
    previouslyDesired := desired
    write := broker.write.publishAssignment (desired.filter fun key => (releases key).isNone) }

def startRelease (broker : Broker) (key : PartitionKey) : Broker :=
  match broker.write.partitions key with
  | none => broker.setRelease key (some .done)
  | some state =>
    (broker.setPartition key { state with draining := true }).setRelease key
      (some (.draining true none))

def applyHeartbeat (broker : Broker) (key : PartitionKey) (expiration : Int) : Broker :=
  let resumed := broker.setRelease key (some (.draining true none))
  match broker.write.partitions key with
  | none => resumed
  | some state => resumed.setPartition key { state with leaseExpirationAt := some expiration }

def takeFlush (broker : Broker) (key : PartitionKey) (state : PartitionState)
    (trigger : FlushTrigger) (requireFence : Bool) : Broker :=
  let taken := takeFlushPartition state key.virtualPartitionId trigger requireFence
    broker.nextPublication
  let emptied := broker.setPartition key taken.state
  match taken.flush with
  | none => emptied
  | some _ =>
    { emptied with
      publications := Function.update broker.publications broker.nextPublication .pending
      nextPublication := broker.nextPublication + 1 }

def signal (broker : Broker) (channel : PublicationChannel) (state : FlushPublicationState) :
    Broker :=
  { broker with publications := Function.update broker.publications channel state }

/-- One completion of `mark_flush_complete`; a partition that is gone only has its channel set. -/
def completeFlush (broker : Broker) (key : PartitionKey) (channel : PublicationChannel)
    (error : Option FlushCompletionError) : Broker :=
  let signalled := broker.signal channel (.completed (FlushPublicationResult.ofError error))
  match broker.write.partitions key with
  | some state => signalled.setPartition key (state.flushCompleted signalled.publications)
  | none => signalled

def beginShutdownDrain (broker : Broker) : Broker :=
  { broker with
    write :=
      { broker.write with
        partitions := fun key =>
          (broker.write.partitions key).map fun state => { state with draining := true } } }

end Broker

/-! ### Store calls -/

/-- The store call of a transition, made for `session` at the reading `now`. -/
def storeCall (config : BrokerConfig) (session : String) (key : PartitionKey)
    (row : Option LeaseState) (work : AllocationTransitionWork) (now : Int) :
    StoreResponse × Option LeaseState :=
  if work.needsLease then
    match acquireLeaseAndReserveSequences row key config.holderId session now config.leaseDuration
        (work.reservation.map ReservationRequest.size) work.sequenceProgress with
    | (.ok outcome, updated) => (.acquisition outcome, updated)
    | (.error _, updated) => (.failed, updated)
  else match work.reservation with
    | none => (.failed, row)
    | some request =>
      match reserveSequences row key config.holderId session now request.size
          work.sequenceProgress with
      | (.ok outcome, updated) => (.reservation outcome, updated)
      | (.error _, updated) => (.failed, updated)

def Broker.sequenceProgress (broker : Broker) (key : PartitionKey) : ProducerSequenceProgress :=
  match broker.write.partitions key with
  | none => {}
  | some state => state.seqAllocator.sequenceProgress

def heartbeatPhase : Except LeaseStoreError LeaseHeartbeatOutcome → ReleasePhase
  | .ok (.renewed lease) => .draining true (some lease.leaseExpirationAt)
  | .ok (.heldByOther _) | .ok .expired => .draining false none
  | .error _ => .draining true none

/-! ### Steps -/

namespace World

def setBroker (world : World) (session : String) (broker : Broker) : World :=
  { world with brokers := Function.update world.brokers session broker }

def setLease (world : World) (key : PartitionKey) (row : Option LeaseState) : World :=
  { world with leases := Function.update world.leases key row }

def log (world : World) (batches : List Accepted) : World :=
  { world with accepted := world.accepted ++ batches }

end World

def acceptedBatch (session : String) (key : PartitionKey) : FastPathResult → List Accepted
  | .ok (some range) => [⟨session, key, range⟩]
  | _ => []

def step (config : String → BrokerConfig) (world : World) : Action → Option World
  | .tick now => if world.clock ≤ now then some { world with clock := now } else none
  | .produce session batch now =>
    if now ≤ world.clock ∧ summaryFromRecords batch.records = some batch.summary then
      let broker := world.brokers session
      let (result, write) := produceFastPath broker.write batch now
      some ((world.setBroker session { broker with write := write }).log
        (acceptedBatch session batch.key result))
    else none
  | .claim session key recordCount now =>
    if now ≤ world.clock then
      some (world.setBroker session ((world.brokers session).claim (config session) key recordCount
        now .inlineProduce))
    else none
  | .claimMaintenance session key now =>
    if now ≤ world.clock then
      some (world.setBroker session ((world.brokers session).claim (config session) key 1 now
        .assignmentMaintenance))
    else none
  | .readClock session key =>
    match (world.brokers session).transitions key with
    | some { work, origin, callTime := none, response } =>
      some (world.setBroker session ((world.brokers session).setTransition key
        (some { work, origin, callTime := some world.clock, response })))
    | _ => none
  | .callStore session key =>
    match (world.brokers session).transitions key with
    | some { work, origin, callTime := some now, response := none } =>
      let (response, row) := storeCall (config session) session key (world.leases key) work now
      some ((world.setLease key row).setBroker session ((world.brokers session).setTransition key
        (some { work, origin, callTime := some now, response := some response })))
    | _ => none
  | .failCall session key =>
    match (world.brokers session).transitions key with
    | some inFlight =>
      some (world.setBroker session ((world.brokers session).setTransition key
        (some { inFlight with response := some .failed })))
    | none => none
  | .finish session key =>
    match (world.brokers session).transitions key with
    | some inFlight =>
      match inFlight.response with
      | some response =>
        some (world.setBroker session ((world.brokers session).finish key inFlight response))
      | none => none
    | none => none
  | .resumeAdmission session key =>
    if (world.brokers session).resuming key then
      some (world.setBroker session ((world.brokers session).resumeAdmission key))
    else none
  | .dropOwner session key =>
    match (world.brokers session).transitions key with
    | some inFlight =>
      some (world.setBroker session ((world.brokers session).dropOwner key inFlight))
    | none => none
  | .refreshAssignment session desired =>
    some (world.setBroker session ((world.brokers session).refreshAssignment desired))
  | .startRelease session key =>
    match (world.brokers session).releases key with
    | some .started => some (world.setBroker session ((world.brokers session).startRelease key))
    | _ => none
  | .drainHeartbeat session key now responseLost =>
    match (world.brokers session).releases key with
    | some (.draining true none) =>
      if now ≤ world.clock then
        let broker := world.brokers session
        let (outcome, row) := heartbeatLease (world.leases key) key (config session).holderId
          session now (config session).leaseDuration (broker.sequenceProgress key)
        let phase := if responseLost then .draining true none else heartbeatPhase outcome
        some ((world.setLease key row).setBroker session (broker.setRelease key (some phase)))
      else none
    | _ => none
  | .applyHeartbeat session key =>
    match (world.brokers session).releases key with
    | some (.draining true (some expiration)) =>
      some (world.setBroker session ((world.brokers session).applyHeartbeat key expiration))
    | _ => none
  | .finishDrain session key =>
    match (world.brokers session).releases key with
    | some (.draining _ none) =>
      if ((world.brokers session).write.partitions key).all PartitionState.isDrained then
        some (world.setBroker session ((world.brokers session).setRelease key (some .releasing)))
      else none
    | _ => none
  | .callRelease session key now responseLost =>
    match (world.brokers session).releases key with
    | some .releasing =>
      if now ≤ world.clock then
        let broker := world.brokers session
        let (outcome, row) := releaseLease (world.leases key) key (config session).holderId session
          now (broker.sequenceProgress key)
        let phase := if responseLost ∨ outcome.isOk = false then .releasing else .released
        some ((world.setLease key row).setBroker session (broker.setRelease key (some phase)))
      else none
    | _ => none
  | .clearReleased session key =>
    match (world.brokers session).releases key with
    | some .released =>
      let broker := world.brokers session
      some (world.setBroker session
        ({ broker with write := broker.write.clearTerminallyReleasedPartition key }.setRelease key
          (some .done)))
    | _ => none
  | .completeRelease session key =>
    match (world.brokers session).releases key with
    | some .done => some (world.setBroker session ((world.brokers session).setRelease key none))
    | _ => none
  | .takeFlush session key trigger requireFence =>
    let broker := world.brokers session
    match broker.write.partitions key with
    | some state =>
      if (trigger = .maxDelay ∧ state.draining) ∨ tailPending broker.publications
          state.publicationTail then none
      else some (world.setBroker session (broker.takeFlush key state trigger requireFence))
    | none => none
  | .signal session channel state =>
    some (world.setBroker session ((world.brokers session).signal channel state))
  | .completeFlush session key channel error =>
    some (world.setBroker session ((world.brokers session).completeFlush key channel error))
  | .beginShutdownDrain session =>
    some (world.setBroker session (world.brokers session).beginShutdownDrain)

/-! ### A small deployment -/

/-- Leases of a hundred ticks and reservations of ten numbers. -/
def shortLeases (session : String) : BrokerConfig where
  holderId := session
  leaseDuration := 100
  reservationSize := 10

def orders : PartitionKey := ⟨"orders", 0⟩

def emptyRecords (count : Nat) : ProduceBatch where
  key := orders
  records := List.replicate count ⟨[], 0⟩
  summary := ⟨count, 0⟩
  completion := 0

/-- A maintenance pass without interruptions. -/
def maintain (session : String) (now : Int) : List Action :=
  [.claimMaintenance session orders now, .readClock session orders, .callStore session orders,
    .finish session orders, .resumeAdmission session orders]

end BlobStream.Write.Cluster
