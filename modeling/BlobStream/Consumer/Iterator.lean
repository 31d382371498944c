import BlobStream.Consumer.Driver

/-!
# Consumer iterator as a state machine

Application, driver and prefetch worker interleave at every point where one of them releases the
shared lock, sends or receives a command, or awaits an answer. The answers of stores and the output
of read passes are arbitrary. `history` records, newest first, what the properties of the iterator
are about; nothing depends on it.
-/

namespace BlobStream.Consumer

open GroupMembership (ConsumerGroupAssignmentPlan)
open Write (Record)

structure ReadRecord where
  record : Record
  pass : Nat
deriving DecidableEq, Repr

instance : Payload ReadRecord where
  payloadLen read := read.record.payload.length

inductive IteratorEvent
  /-- A read pass was started. -/
  | readBegan (pass : Nat)
  /-- Reads of the partitions were fenced. -/
  | fenced (partitions : List VirtualPartitionId)
  /-- A seek was accepted. -/
  | sought (partition : VirtualPartitionId) (offset : Nat)
  /-- The assignment became active. -/
  | assigned (assignment : List VirtualPartitionId)
  /-- The partitions were lost and are not active any more. -/
  | removed (partitions : List VirtualPartitionId)
  /-- The application got the record. -/
  | delivered (record : ConsumerRecord ReadRecord)
  /-- The application stored the offset. -/
  | stored (partition : VirtualPartitionId) (offset : Nat)
  /-- The driver called the coordinator with the cursor. -/
  | passed (cursor : CommittedCursor)
deriving DecidableEq, Repr

structure IteratorWorld where
  shared : SharedState ReadRecord
  driver : Driver
  /-- Commands the worker did not receive yet, oldest first. -/
  commands : List ReaderCommand
  worker : Worker ReadRecord
  /-- Number of read passes started so far. -/
  passes : Nat
  /-- The application completed or dropped the revocation it was handed. -/
  acknowledged : Bool
  /-- The application still has its iterator. -/
  opened : Bool
  /-- The driver returned. -/
  ended : Bool
  history : List IteratorEvent

namespace IteratorWorld

variable (config : DriverConfig) (world : IteratorWorld)

def log (events : List IteratorEvent) : IteratorWorld :=
  { world with history := events ++ world.history }

def deliver (records : List (ConsumerRecord ReadRecord)) : IteratorWorld :=
  world.log (records.reverse.map .delivered)

/-! ### Application -/

inductive ApplicationAction
  | next
  | nextBatch (maxRecords maxBytes : Nat)
  | nextRevocation
  | storeOffset (partition : VirtualPartitionId) (offset : Nat)
  /-- Complete or drop a revocation. -/
  | acknowledge
deriving DecidableEq, Repr

def taken (delivery : DeliveryState ReadRecord) (active : ActivePartitions) : IteratorWorld :=
  { world with
    shared := { world.shared with deliveryState := delivery, activePartitions := active } }

def takeNext : IteratorWorld :=
  match world.shared.deliveryState.tryTakeNextInner world.shared.activePartitions with
  | (delivery, active, some ⟨.record record, _⟩) => (world.taken delivery active).deliver [record]
  | (delivery, active, _) => world.taken delivery active

def takeBatch (maxRecords maxBytes : Nat) : IteratorWorld :=
  match world.shared.deliveryState.tryTakeBatch world.shared.activePartitions maxRecords maxBytes with
  | (delivery, active, some ⟨.records records, _⟩) => (world.taken delivery active).deliver records
  | (delivery, active, _) => world.taken delivery active

def applicationStep : ApplicationAction → Option IteratorWorld
  | .next => if world.opened then some world.takeNext else none
  | .nextBatch maxRecords maxBytes =>
    if world.opened ∧ 0 < maxRecords ∧ 0 < maxBytes then some (world.takeBatch maxRecords maxBytes)
    else none
  | .nextRevocation =>
    if world.opened then
      some (world.taken { world.shared.deliveryState with pendingRevocation := none }
        world.shared.activePartitions)
    else none
  | .storeOffset partition offset =>
    if world.opened then
      match world.shared.storeOffset partition offset with
      | .ok shared => some ({ world with shared }.log [.stored partition offset])
      | .error _ => some world
    else none
  | .acknowledge =>
    if world.shared.deliveryState.revocationInProgress
        ∧ world.shared.deliveryState.pendingRevocation = none then
      some { world with acknowledged := true }
    else none

/-! ### Driver -/

inductive DriverAction
  /-- A scheduled heartbeat, or a commit of the application. -/
  | heartbeat (trigger : HeartbeatTrigger) (now : Int)
  | rebalance (plan : Option ConsumerGroupAssignmentPlan) (partitions : List VirtualPartitionId)
      (outcomes : List ClaimOutcome) (now : Int)
  | seek (partition : VirtualPartitionId) (target : ConsumerSeekTarget) (now : Int)
  | finishRevocation (now : Int)
  | shutdown (now : Int)
  /-- Execute the next operation of the procedure in progress, at this reading of the clock. -/
  | proceed (now : Int)
  | membershipAnswered (succeeded : Bool)
  | maintenanceAnswered (outcomes : List MaintenanceOutcome)
  | releaseAnswered (released : List VirtualPartitionId) (succeeded : Bool) (now : Int)

def withTodo (todo : List DriverOp) : IteratorWorld :=
  { world with driver := { world.driver with todo } }

def send (command : ReaderCommand) (rest : List DriverOp) : IteratorWorld :=
  { world.withTodo rest with commands := world.commands ++ [command] }

def withShared (shared : SharedState ReadRecord) (rest : List DriverOp) : IteratorWorld :=
  { world.withTodo rest with shared }

def fenceForRevocation (revoked next : List VirtualPartitionId) (rest : List DriverOp) :
    IteratorWorld :=
  let shared := world.shared.beginRevocation revoked
  { world.withShared shared
      (.sendSuspend revoked shared.readEpoch :: .saveRevocation revoked next :: rest) with
    acknowledged := false }.log [.fenced revoked]

/-- Drop partitions whose leases a heartbeat reported lost, and tell the worker. -/
def removeFenced (fenced : List VirtualPartitionId) (rest : List DriverOp) : IteratorWorld :=
  let shared := world.shared.removeFencedPartitions fenced
  { world with
    shared
    driver := { world.driver with
      activeAssignment := world.driver.activeAssignment.filter (· ∉ fenced)
      pendingAssignment := world.driver.pendingAssignment.map (List.filter (· ∉ fenced))
      todo := .sendSuspend fenced shared.readEpoch :: rest } }.log [.removed fenced, .fenced fenced]

def execute (now : Int) (rest : List DriverOp) : DriverOp → Option IteratorWorld
  | .collectCommits trigger now =>
    let commits := world.shared.pendingCommits
    some (world.withTodo (match trigger with
      | .scheduled => .heartbeatMember now commits :: rest
      | .commit => .passCursors .commit now commits :: rest))
  | .passCursors trigger now commits =>
    some ((world.withTodo (.maintain trigger now commits :: rest)).log
      ((Driver.committedCursors commits).entries.map fun entry => .passed entry.2))
  | .recordSuccess renewed commits =>
    some (world.withShared (world.shared.recordSuccessfulHeartbeat renewed commits) rest)
  | .removeFenced fenced =>
    some (if fenced.isEmpty then world.withTodo rest else world.removeFenced fenced rest)
  | .fencePartitions fenced =>
    some (if world.driver.awaitingAcknowledgement ∨ fenced.isEmpty then world.withTodo rest
      else world.fenceForRevocation fenced
        (world.driver.activeAssignment.filter (· ∉ fenced)) rest)
  | .revoke revoked next => some (world.fenceForRevocation revoked next rest)
  | .sendSuspend partitions readEpoch =>
    some (world.send (.suspendReadPartitions partitions readEpoch) rest)
  | .saveRevocation revoked next =>
    some { world with
      driver := { world.driver with
        pendingAssignment := some next
        awaitingAcknowledgement := true
        pendingRevocationPartitions := some revoked
        todo := rest } }
  | .publishCursors recovered _ =>
    some (world.withShared (world.shared.publishCursors recovered) rest)
  | .sendHydrate recovered now => some (world.send (.hydrateCursors recovered now) rest)
  | .readEpoch assignment release =>
    some (world.withTodo (.sendAssignment assignment now release world.shared.readEpoch :: rest))
  | .sendAssignment assignment now release readEpoch =>
    some (world.send (.setAssignment assignment now release readEpoch) rest)
  | .activate assignment =>
    some ({ world with
      shared := world.shared.applyActiveAssignment assignment
      driver := { world.driver with activeAssignment := assignment, todo := rest } }.log
        [.assigned assignment])
  | .checkSeek partition target now =>
    some (world.withTodo (if partition ∈ world.shared.readFencedPartitions then rest
      else .sendSeek partition target now :: rest))
  | .sendSeek partition target now => some (world.send (.seek partition target now) rest)
  | .stopPrefetch =>
    some { world.withTodo rest with
      worker := { world.worker with phase := .stopped }
      commands := []
      ended := true }
  | .heartbeatMember .. | .maintain .. | .release .. | .releaseOwned _ => none

def begin (todo : List DriverOp) : Option IteratorWorld :=
  if world.driver.todo.isEmpty ∧ ¬world.ended then some (world.withTodo todo) else none

def driverStep : DriverAction → Option IteratorWorld
  | .heartbeat trigger now => world.begin [.collectCommits trigger now]
  | .rebalance plan partitions outcomes now =>
    let accepted := world.driver.coordinator.accept plan
    let claimed := accepted.partitionsToClaim config.memberId (desiredAssignment plan) partitions
    if world.driver.awaitingAcknowledgement ∨ ¬(outcomes.map Prod.fst).Perm claimed then none
    else (world.begin []).map fun world =>
      { world with driver := world.driver.rebalanced config plan outcomes now }
  | .seek partition target now =>
    world.begin
      (if partition ∈ world.driver.activeAssignment then [.checkSeek partition target now] else [])
  | .finishRevocation now =>
    if world.driver.awaitingAcknowledgement ∧ world.acknowledged then
      (world.begin [.release (world.driver.pendingRevocationPartitions.getD []) now]).map
        fun world => { world with
          driver := { world.driver with pendingRevocationPartitions := none } }
    else none
  | .shutdown now =>
    (world.begin (Driver.shutdownOperations now)).map fun world => { world with opened := false }
  | .proceed now =>
    match world.driver.todo with
    | [] => none
    | operation :: rest => world.execute now rest operation
  | .membershipAnswered succeeded =>
    match world.driver.todo with
    | .heartbeatMember now commits :: rest =>
      some { world with
        driver := world.driver.membershipAnswered config succeeded now commits rest }
    | _ => none
  | .maintenanceAnswered outcomes =>
    match world.driver.todo with
    | .maintain trigger now commits :: rest =>
      let addressed := world.driver.coordinator.partitionsToMaintain
        (Driver.committedCursors commits) (Driver.maintenanceOperation trigger)
      if (outcomes.map Prod.fst).Perm (addressed.map Prod.fst) then
        some { world with
          driver := world.driver.maintenanceAnswered config trigger now commits outcomes rest }
      else none
    | _ => none
  | .releaseAnswered released succeeded now =>
    match world.driver.todo with
    | .release revoked _ :: rest =>
      let releasable := world.driver.releasable revoked
      if released <+: releasable ∧ (succeeded → released = releasable) then
        some { world with driver := world.driver.releaseAnswered released succeeded now rest }
      else none
    | .releaseOwned _ :: rest =>
      if released <+: world.driver.releasable world.driver.coordinator.owned.keys then
        some { world with
          driver := { world.driver with
            coordinator := world.driver.dropLeases released, todo := rest } }
      else none
    | _ => none

/-! ### Prefetch worker -/

inductive WorkerAction
  /-- Receive and apply the next command. -/
  | command (settings : ReadSettings)
  /-- Retire the fences the assignment covers. -/
  | completeAssignment
  | commandsDone
  | admitPending (prefetchMaxBytes : Nat)
  | beginRead (prefetchMaxBytes : Nat)
  | finishRead (next : Reader) (batches : List (ConsumerBatch Record))
  /-- A failed pass is retried unless a command arrived. -/
  | failRead (recoveryScanLastPartition : Option VirtualPartitionId) (retry : Bool)

/-- A read pass leaves no cursor behind. -/
def cursorNotBehind : Option Nat → Option Nat → Bool
  | none, _ => true
  | some before, some after => before ≤ after
  | some _, none => false

/-- What any read pass keeps: it neither adds, drops, assigns nor unassigns partitions, and moves
cursors only forward. -/
def readerAdvances (reader next : Reader) : Bool :=
  next.virtualPartitionStates.keys.all (· ∈ reader.virtualPartitionStates.keys)
    && reader.virtualPartitionStates.entries.all fun entry =>
      (next.state entry.1).any fun state =>
        state.isAssigned = entry.2.isAssigned && cursorNotBehind entry.2.cursor state.cursor

/-- What any read pass emits: batches of assigned partitions, behind their cursors. -/
def batchReadable (reader : Reader) (batch : ConsumerBatch Record) : Bool :=
  (reader.state batch.virtualPartitionId).any (fun state =>
      state.isAssigned && state.cursor.all (· < batch.seqRange.start))
    && decide (batch.seqRange.start ≤ batch.seqRange.end)
    && decide (batch.seqRange.end ≤ Word.u64Max)
    && decide (batch.records.length = batch.seqRange.end + 1 - batch.seqRange.start)

def markPass (pass : Nat) (batch : ConsumerBatch Record) : ConsumerBatch ReadRecord where
  virtualPartitionId := batch.virtualPartitionId
  seqRange := batch.seqRange
  sourceCheckpoint := batch.sourceCheckpoint
  source := batch.source
  admissionScan := batch.admissionScan
  records := batch.records.map fun record => ⟨record, pass⟩

def withWorker (worker : Worker ReadRecord) : IteratorWorld := { world with worker }

def startPass (capacity : ReadCapacity) : IteratorWorld :=
  { world with
    passes := world.passes + 1
    worker := { world.worker with phase := .reading capacity } }.log [.readBegan (world.passes + 1)]

def applyCommand (settings : ReadSettings) : ReaderCommand → IteratorWorld
  | .hydrateCursors recovered now =>
    world.withWorker (world.worker.hydrateCursors config.reader settings recovered now)
  | .setAssignment assignment now release readEpoch =>
    world.withWorker
      (world.worker.setAssignment config.reader world.shared assignment now release readEpoch)
  | .suspendReadPartitions partitions readEpoch =>
    world.withWorker (world.worker.suspendReadPartitions world.shared partitions readEpoch)
  | .seek partition target now =>
    match world.shared.applySeek partition target.offset with
    | .error _ => world
    | .ok shared =>
      { world with
        shared
        worker := world.worker.seek config.reader settings partition target now }.log
          [.sought partition target.offset]

def workerStep : WorkerAction → Option IteratorWorld
  | .command settings =>
    match world.worker.phase, world.commands with
    | .commands, command :: rest =>
      some ({ world with commands := rest }.applyCommand config settings command)
    | _, _ => none
  | .completeAssignment =>
    match world.worker.phase with
    | .assigning readEpoch release =>
      some { world with
        shared := world.shared.completeReadAssignment readEpoch release
        worker := { world.worker with phase := .commands } }
    | _ => none
  | .commandsDone =>
    if world.worker.phase = .commands ∧ world.commands = [] then
      some (world.withWorker { world.worker with phase := .admitting })
    else none
  | .admitPending prefetchMaxBytes =>
    if world.worker.phase = .admitting then
      let (shared, pending) := world.worker.pending.admitPendingBatches prefetchMaxBytes world.shared
      some { world with
        shared
        worker := { world.worker with
          pending, phase := if pending.batches.isEmpty then .admitted else .commands } }
    else none
  | .beginRead prefetchMaxBytes =>
    if world.worker.phase = .admitted then
      match world.worker.readCapacity prefetchMaxBytes world.shared with
      | none => some (world.withWorker { world.worker with phase := .commands })
      | some capacity => some (world.startPass capacity)
    else none
  | .finishRead next batches =>
    match world.worker.phase with
    | .reading _ =>
      if readerAdvances world.worker.reader next
          ∧ batches.all (batchReadable world.worker.reader) then
        some (world.withWorker
          { reader := next
            pending := world.worker.pending.extend
              (Worker.discardFenced world.shared (batches.map (markPass world.passes)))
            phase := .commands })
      else none
    | _ => none
  | .failRead recoveryScanLastPartition retry =>
    match world.worker.phase with
    | .reading capacity =>
      let failed := world.withWorker
        { world.worker with
          reader := { world.worker.reader with recoveryScanLastPartition }
          phase := .commands }
      some (if retry then failed.startPass capacity else failed)
    | _ => none

/-! ### Runs -/

inductive Action
  | application (action : ApplicationAction)
  | driver (action : DriverAction)
  | worker (action : WorkerAction)

def step : Action → Option IteratorWorld
  | .application action => world.applicationStep action
  | .driver action => world.driverStep config action
  | .worker action => world.workerStep config action

/-- The iterator after its first rebalance: the driver still owns the reader and prepares it without
commands. -/
def bootstrap (plan : Option ConsumerGroupAssignmentPlan) (outcomes : List ClaimOutcome)
    (settings : ReadSettings) (now : Int) : IteratorWorld :=
  let (coordinator, report) := (({} : Coordinator).accept plan).finishRebalance config.memberId
    (desiredAssignment plan) outcomes
  let hydrated : Worker ReadRecord :=
    Worker.hydrateCursors config.reader {} settings report.recoveredCursors now
  { shared := (({} : SharedState ReadRecord).publishCursors
      report.recoveredCursors).applyActiveAssignment report.ownedPartitions
    driver :=
      { coordinator
        activeAssignment := report.ownedPartitions
        membershipLeaseExpiresAt := config.persistedLeaseExpiresAt now
        activePartitionLeaseExpirationDeadline := config.persistedLeaseExpiresAt now }
    commands := []
    worker := { hydrated with
      reader := hydrated.reader.setAssignedVirtualPartitions config.reader report.ownedPartitions now }
    passes := 0
    acknowledged := false
    opened := true
    ended := false
    history := [.assigned report.ownedPartitions] }

end IteratorWorld

end BlobStream.Consumer
