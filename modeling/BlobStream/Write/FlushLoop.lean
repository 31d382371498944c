import BlobStream.Write.FlushWorld

/-!
# The flush loop of a broker

Each broker runs one loop that turns scheduler passes into flush tasks: it scans until a pass finds
nothing or no plan permit is left, then waits for a finished task, the shutdown request or another
reason to scan. The exit test, at the top, looks at the tasks in flight only.
-/

namespace BlobStream.Write.Cluster

/-- Most flush plans one broker runs at a time. -/
def maxInFlightFlushPlans : Nat := 4

inductive LoopPhase
  | top
  /-- Passes are made; `scheduled` once one of them returned a plan. -/
  | scanning (scheduled : Bool)
  | waiting
  | returned
deriving DecidableEq, Repr

structure FlushLoop where
  phase : LoopPhase := .top
  shutdownRequested : Bool := false
  /-- Tasks whose result was taken out of the join set. -/
  joined : List Nat := []
  /-- How many batches at the front of a buffer were there when the shutdown request was processed. -/
  older : PartitionKey → Nat := fun _ => 0
  /-- Watch channels at the end of the last scan. -/
  scanned : Publications := fun _ => .pending
  /-- The last scan ended because no permit was left. -/
  outOfPermits : Bool := false

structure LoopConfig where
  brokers : String → BrokerConfig
  codec : Codec
  segments : SegmentConfig
  /-- The partitions of the configured topics. -/
  configured : List PartitionKey

structure LoopWorld where
  flush : FlushWorld
  loops : String → FlushLoop := fun _ => {}

inductive LoopAction
  /-- Anything that happens outside the flush loops. -/
  | environment (action : FlushAction)
  | turn (session : String)
  | scan (session : String) (request : CollectRequest)
  | saturate (session : String)
  | shutdown (session : String)
  /-- A deadline, a notification or a changed feature flag. -/
  | wake (session : String)
  | join (session : String) (index : Nat)

/-- Passes and the shutdown drain belong to the loops, and only partitions of configured topics are
assigned. -/
def LoopConfig.outside (config : LoopConfig) : FlushAction → Bool
  | .collect .. => false
  | .cluster (.beginShutdownDrain _) => false
  | .cluster (.refreshAssignment _ desired) => desired ⊆ config.configured.toFinset
  | _ => true

def FlushWorld.buffered (world : FlushWorld) (session : String) (key : PartitionKey) :
    List BufferedBatch :=
  ((world.cluster.brokers session).write.partitionState key).buffer.batches

def FlushWorld.drain (world : FlushWorld) (session : String) : FlushWorld :=
  { world with
    cluster := world.cluster.setBroker session (world.cluster.brokers session).beginShutdownDrain }

def FlushWorld.activePlans (world : FlushWorld) (session : String) : Nat :=
  world.tasks.countP fun run => run.session = session && decide (run.task.phase ≠ .done)

def FlushLoop.inFlight (loop : FlushLoop) (world : FlushWorld) (session : String) : List Nat :=
  (List.range world.tasks.length).filter fun index =>
    (world.tasks[index]?).any (fun run => run.session = session) && !loop.joined.contains index

/-- Buffers grow at the end and are emptied as a whole, so older batches stay in front. -/
def FlushLoop.settle (loop : FlushLoop) (world : FlushWorld) (session : String) : FlushLoop :=
  { loop with older := fun key => min (loop.older key) (world.buffered session key).length }

namespace LoopWorld

variable (config : LoopConfig) (world : LoopWorld)

def inFlight (session : String) : List Nat := (world.loops session).inFlight world.flush session

/-- Batches accepted before the shutdown request was processed that are still buffered. -/
def leftover (session : String) (key : PartitionKey) : List BufferedBatch :=
  (world.flush.buffered session key).take ((world.loops session).older key)

def settle (flush : FlushWorld) : LoopWorld where
  flush := flush
  loops := fun session => (world.loops session).settle flush session

def setLoop (session : String) (loop : FlushLoop) : LoopWorld :=
  { world with loops := Function.update world.loops session loop }

/-- `partition_keys` of the write state. -/
def partitionKeys (session : String) : List PartitionKey :=
  config.configured.filter fun key =>
    ((world.flush.cluster.brokers session).write.partitions key).isSome

/-- A turn that scheduled something goes round again without waiting. -/
def endScan (session : String) (scheduled outOfPermits : Bool) : LoopWorld :=
  world.setLoop session
    { world.loops session with
      phase := if scheduled then .top else .waiting
      scanned := (world.flush.cluster.brokers session).publications
      outOfPermits }

/-- All partitions drain, and every buffered batch is an older one from now on. -/
def drain (session : String) : LoopWorld :=
  { world with flush := world.flush.drain session }.setLoop session
    { world.loops session with
      phase := .top
      shutdownRequested := true
      older := fun key => (world.flush.buffered session key).length }

def step : LoopAction → Option LoopWorld
  | .environment action =>
    if config.outside action then
      (world.flush.step config.brokers config.codec config.segments action).map world.settle
    else none
  | .turn session =>
    let loop := world.loops session
    if loop.phase = .top then
      let exits := loop.shutdownRequested && (world.inFlight session).isEmpty
      some (world.setLoop session
        { loop with phase := if exits then .returned else .scanning false })
    else none
  | .scan session request =>
    match (world.loops session).phase with
    | .scanning scheduled =>
      if world.flush.activePlans session < maxInFlightFlushPlans then
        let request := { request with partitionKeys := world.partitionKeys config session }
        let planned :=
          (collectNextFlushPlan request (world.flush.cluster.brokers session)).plan.isSome
        let collected := world.settle (world.flush.collect session request)
        if planned then
          some (collected.setLoop session
            { collected.loops session with phase := .scanning true })
        else some (collected.endScan session scheduled false)
      else none
    | _ => none
  | .saturate session =>
    match (world.loops session).phase with
    | .scanning scheduled =>
      if world.flush.activePlans session < maxInFlightFlushPlans then none
      else some (world.endScan session scheduled true)
    | _ => none
  | .shutdown session =>
    let loop := world.loops session
    if loop.phase = .waiting && !loop.shutdownRequested then some (world.drain session) else none
  | .wake session =>
    let loop := world.loops session
    if loop.phase = .waiting then some (world.setLoop session { loop with phase := .top }) else none
  | .join session index =>
    let loop := world.loops session
    if loop.phase = .waiting ∧ index ∈ world.inFlight session
        ∧ (world.flush.tasks[index]?).any (fun run => run.task.phase = .done) then
      some (world.setLoop session { loop with phase := .top, joined := index :: loop.joined })
    else none

end LoopWorld

end BlobStream.Write.Cluster
