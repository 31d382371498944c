import BlobStream.Write.Collect
import BlobStream.Write.FlushTask

/-!
# Brokers with their flush tasks

Scheduler passes open the flush tasks of a broker, and every task interleaves freely with the others and
with the rest of its broker. What a task reads from other epochs is what their watch channels hold at
that moment. Identity generators are taken to return increasing numbers in the order of the calls of one
process.
-/

namespace BlobStream.Write.Cluster

structure RunningFlush where
  session : String
  task : FlushTask

structure WrittenRow where
  session : String
  task : Nat
  metadata : SegmentMetadata
deriving DecidableEq, Repr

structure FlushWorld where
  cluster : World
  /-- Flush tasks in the order their plans were collected, ended ones included. -/
  tasks : List RunningFlush := []
  rows : List WrittenRow := []
  /-- No identity at or above this number has been generated by the process. -/
  nextIdentity : String → SnowflakeId := fun _ => 0

inductive FlushAction
  | cluster (action : Action)
  | collect (session : String) (request : CollectRequest)
  | flush (index : Nat) (input : FlushInput)

/-- `wait_for_segment_identity`: the error an epoch sees once its predecessor has moved on. -/
def waitForSegmentIdentity (publications : Publications) :
    Option PublicationChannel → Option (Option FlushCompletionError)
  | none => some none
  | some channel =>
    match publications channel with
    | .pending => none
    | .segmentIdentityAssigned | .completed .succeeded => some none
    | .completed (.failed error) => some (some error)

/-- `wait_for_predecessor`: the error an epoch sees once its predecessor has ended. -/
def waitForPredecessor (publications : Publications) :
    Option PublicationChannel → Option (Option FlushCompletionError)
  | none => some none
  | some channel =>
    match publications channel with
    | .pending | .segmentIdentityAssigned => none
    | .completed .succeeded => some none
    | .completed (.failed error) => some (some error)

/-- The environment can give this input: barriers answer with what the watch channels hold, and
identities increase. -/
def FlushWorld.answers (world : FlushWorld) (run : RunningFlush) : FlushInput → Bool
  | .identity error =>
    match run.task.phase with
    | .building ((_, partition) :: _) _ _ =>
      waitForSegmentIdentity (world.cluster.brokers run.session).publications
        partition.publicationPredecessor = some error
    | _ => false
  | .segmentId (some (snowflakeId, _)) => world.nextIdentity run.session ≤ snowflakeId
  | .predecessor position virtualPartitionId error =>
    match run.task.phase.waitingPartition position virtualPartitionId with
    | some partition =>
      waitForPredecessor (world.cluster.brokers run.session).publications
        partition.publicationPredecessor = some error
    | none => false
  | _ => true

def Broker.applyEffect (broker : Broker) : Option FlushEffect → Broker
  | none => broker
  | some (.signal channel state) => broker.signal channel state
  | some (.completeFlush key channel error) => broker.completeFlush key channel error

def writtenRow (session : String) (task : Nat) : StorageEvent → Option WrittenRow
  | .row metadata _ => some ⟨session, task, metadata⟩
  | .put .. => none

def usedIdentity (nextIdentity : SnowflakeId) : FlushInput → SnowflakeId
  | .segmentId (some (snowflakeId, _)) => snowflakeId + 1
  | _ => nextIdentity

namespace FlushWorld

variable (config : String → BrokerConfig) (codec : Codec) (segments : SegmentConfig)

def collect (world : FlushWorld) (session : String) (request : CollectRequest) : FlushWorld :=
  let collected := collectNextFlushPlan request (world.cluster.brokers session)
  { world with
    cluster := world.cluster.setBroker session collected.broker
    tasks := world.tasks ++ (collected.plan.map fun plan => ⟨session, .start plan⟩).toList }

def advance (world : FlushWorld) (index : Nat) (run : RunningFlush) (input : FlushInput)
    (next : FlushTask) (effect : Option FlushEffect) : FlushWorld where
  cluster := world.cluster.setBroker run.session
    ((world.cluster.brokers run.session).applyEffect effect)
  tasks := world.tasks.set index { run with task := next }
  rows := world.rows
    ++ (next.log.drop run.task.log.length).filterMap (writtenRow run.session index)
  nextIdentity := Function.update world.nextIdentity run.session
    (usedIdentity (world.nextIdentity run.session) input)

def step (world : FlushWorld) : FlushAction → Option FlushWorld
  | .cluster action =>
    if action.movesEpochs then none
    else (Cluster.step config world.cluster action).map fun cluster => { world with cluster }
  | .collect session request => some (world.collect session request)
  | .flush index input =>
    match world.tasks[index]? with
    | none => none
    | some run =>
      if world.answers run input then
        (run.task.step codec segments input).map fun (next, effect) =>
          world.advance index run input next effect
      else none

/-- What a step does: an action of the cluster, a collection pass, or a turn of one task. -/
inductive Move (world : FlushWorld) : FlushAction → FlushWorld → Prop
  | cluster {action : Action} {cluster : World} (still : action.movesEpochs = false)
      (acted : Cluster.step config world.cluster action = some cluster) :
      Move world (.cluster action) { world with cluster := cluster }
  | collect (session : String) (request : CollectRequest) :
      Move world (.collect session request) (world.collect session request)
  | flush {index : Nat} {run : RunningFlush} {input : FlushInput} {task : FlushTask}
      {effect : Option FlushEffect} (found : world.tasks[index]? = some run)
      (answers : world.answers run input = true)
      (taken : run.task.step codec segments input = some (task, effect)) :
      Move world (.flush index input) (world.advance index run input task effect)

variable {config codec segments}

theorem step_move {world next : FlushWorld} {action : FlushAction}
    (stepped : world.step config codec segments action = some next) :
    Move config codec segments world action next := by
  cases action with
  | cluster action =>
    simp only [step] at stepped
    split at stepped
    · cases stepped
    next still =>
      obtain ⟨cluster, acted, rfl⟩ := Option.map_eq_some_iff.mp stepped
      exact .cluster (Bool.eq_false_of_not_eq_true still) acted
  | collect session request =>
    cases stepped
    exact .collect session request
  | flush index input =>
    simp only [step] at stepped
    split at stepped
    · cases stepped
    next run found =>
      split at stepped
      next answers =>
        obtain ⟨⟨task, effect⟩, taken, rfl⟩ := Option.map_eq_some_iff.mp stepped
        exact .flush found answers taken
      next => cases stepped

end FlushWorld

end BlobStream.Write.Cluster
