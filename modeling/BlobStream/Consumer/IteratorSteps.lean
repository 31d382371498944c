import BlobStream.Consumer.Iterator

/-!
# What the steps of a consumer iterator can do

One statement per task: the steps of the application, of the driver and of the worker, as far as
fences, queues, staged progress and the commands on their way are concerned.
-/

namespace BlobStream.Consumer

/-! ### Commands on their way -/

def ReaderCommand.epoch : ReaderCommand → ReadEpoch
  | .setAssignment _ _ _ readEpoch | .suspendReadPartitions _ readEpoch => readEpoch
  | .hydrateCursors .. | .seek .. => 0

def ReaderCommand.assignmentEpoch : ReaderCommand → Option ReadEpoch
  | .setAssignment _ _ _ readEpoch => some readEpoch
  | _ => none

def DriverOp.epoch : DriverOp → ReadEpoch
  | .sendAssignment _ _ _ epoch | .sendSuspend _ epoch => epoch
  | _ => 0

/-- An assignment is on its way until its fences are retired. -/
def WorkerPhase.unfinished : WorkerPhase → List ReaderCommand
  | .assigning readEpoch release => [.setAssignment [] 0 release readEpoch]
  | _ => []

def suspendNext : List DriverOp → List ReaderCommand
  | .sendSuspend partitions readEpoch :: _ => [.suspendReadPartitions partitions readEpoch]
  | _ => []

/-- What the worker will process, in this order. -/
def IteratorWorld.pipeline (world : IteratorWorld) : List ReaderCommand :=
  world.worker.phase.unfinished ++ world.commands ++ suspendNext world.driver.todo

/-! ### Application -/

namespace IteratorWorld

inductive ApplicationEffect (before : IteratorWorld) : IteratorWorld → Prop
  | polled (delivery : DeliveryState ReadRecord) (active : ActivePartitions)
      (records : List (ConsumerRecord ReadRecord))
      (hands : DeliveryState.HandsOut
        (before.shared.deliveryState, before.shared.activePartitions) (delivery, active) records)
      (idle : records = [] ∨ before.shared.deliveryState.revocationInProgress = false) :
      ApplicationEffect before ((before.taken delivery active).deliver records)
  | revoked :
      ApplicationEffect before (before.taken
        { before.shared.deliveryState with pendingRevocation := none } before.shared.activePartitions)
  | stored (partition : VirtualPartitionId) (offset : Nat) (shared : SharedState ReadRecord)
      (accepted : before.shared.storeOffset partition offset = .ok shared) :
      ApplicationEffect before ({ before with shared }.log [.stored partition offset])
  | acknowledged (acknowledged : Bool) : ApplicationEffect before { before with acknowledged }

theorem takeNext_effect (world : IteratorWorld) : world.ApplicationEffect world.takeNext := by
  have spec := DeliveryState.tryTakeNextInner_spec world.shared.deliveryState
    world.shared.activePartitions
  unfold takeNext
  revert spec
  generalize world.shared.deliveryState.tryTakeNextInner world.shared.activePartitions = outcome
  obtain ⟨delivery, active, result⟩ := outcome
  rintro (⟨revoked, -, rfl, rfl, rfl⟩ | ⟨hands, rfl⟩ | ⟨handed, gap, idle, hands, rfl⟩)
  · exact .revoked
  · exact .polled _ _ [] hands (.inl rfl)
  · exact .polled _ _ [handed] hands (.inr idle)

theorem takeBatch_effect (world : IteratorWorld) (maxRecords maxBytes : Nat) :
    world.ApplicationEffect (world.takeBatch maxRecords maxBytes) := by
  have spec := DeliveryState.tryTakeBatch_spec world.shared.deliveryState
    world.shared.activePartitions maxRecords maxBytes
  unfold takeBatch
  revert spec
  generalize world.shared.deliveryState.tryTakeBatch world.shared.activePartitions maxRecords maxBytes
    = outcome
  obtain ⟨delivery, active, result⟩ := outcome
  rintro (⟨revoked, -, rfl, rfl, rfl⟩ | ⟨hands, rfl⟩ | ⟨handed, gaps, idle, hands, rfl⟩)
  · exact .revoked
  · exact .polled _ _ [] hands (.inl rfl)
  · exact .polled _ _ handed hands (.inr idle)

variable {world after before : IteratorWorld} {operation : DriverOp} {config : DriverConfig}

theorem applicationStep_effect {action : ApplicationAction}
    (stepped : world.applicationStep action = some after) : world.ApplicationEffect after := by
  cases action <;>
    simp only [applicationStep, Option.ite_none_right_eq_some] at stepped <;>
    obtain ⟨-, stepped⟩ := stepped
  case storeOffset partition offset =>
    cases accepted : world.shared.storeOffset partition offset <;>
      simp only [accepted] at stepped <;>
      cases stepped
    case ok shared => exact .stored partition offset shared accepted
    case error => exact .acknowledged world.acknowledged
  all_goals cases stepped
  case next => exact world.takeNext_effect
  case nextBatch maxRecords maxBytes => exact world.takeBatch_effect maxRecords maxBytes
  case nextRevocation => exact .revoked
  case acknowledge => exact .acknowledged true

theorem ApplicationEffect.driver_eq (effect : before.ApplicationEffect after) :
    after.driver = before.driver := by
  cases effect <;> rfl

/-! ### Driver -/

/-- Offsets an operation holds that were not passed to the coordinator yet. -/
def unpassed : DriverOp → Option PendingCommits
  | .heartbeatMember _ commits | .passCursors _ _ commits => some commits
  | _ => none

/-- An operation of a new procedure: it carries no epoch that is not the current one, and no offsets
but those staged now. -/
def Prepared (before : IteratorWorld) (operation : DriverOp) : Prop :=
  operation.epoch ≤ before.shared.readEpoch
    ∧ ∀ commits, unpassed operation = some commits → commits = before.shared.pendingCommits
      ∨ ∃ earlier ∈ before.driver.todo, unpassed earlier = some commits

def PassesHeld (before : IteratorWorld) (event : IteratorEvent) : Prop :=
  ∃ operation ∈ before.driver.todo, ∃ commits partition commit, unpassed operation = some commits
    ∧ commits.lookup partition = some commit
    ∧ event = .passed ⟨partition, commit.offset, some commit.sourceCheckpoint⟩

section DriverEffects

variable (before : IteratorWorld)

inductive DriverEffect : IteratorWorld → Prop
  | moved (driver : Driver) (opened : Bool) (events : List IteratorEvent)
      (passes : ∀ event ∈ events, before.PassesHeld event)
      (todo : ∀ operation ∈ driver.todo,
        operation ∈ before.driver.todo ∨ before.Prepared operation)
      (head : suspendNext before.driver.todo = []) :
      DriverEffect { before with driver, opened, history := events ++ before.history }
  | sent (command : ReaderCommand) (operation : DriverOp) (rest : List DriverOp)
      (todo : before.driver.todo = operation :: rest)
      (epoch : command.epoch ≤ operation.epoch)
      (head : suspendNext before.driver.todo = [] ∨ suspendNext before.driver.todo = [command]) :
      DriverEffect (before.send command rest)
  | recorded (renewed : List VirtualPartitionId) (commits : PendingCommits) (rest : List DriverOp)
      (todo : before.driver.todo = .recordSuccess renewed commits :: rest) :
      DriverEffect
        (before.withShared (before.shared.recordSuccessfulHeartbeat renewed commits) rest)
  | published (recovered : List (VirtualPartitionId × RecoveredCursor)) (now : Int)
      (rest : List DriverOp) (todo : before.driver.todo = .publishCursors recovered now :: rest) :
      DriverEffect (before.withShared (before.shared.publishCursors recovered) rest)
  | revoked (revoked next : List VirtualPartitionId) (operation : DriverOp) (rest : List DriverOp)
      (todo : before.driver.todo = operation :: rest)
      (head : suspendNext before.driver.todo = []) :
      DriverEffect (before.fenceForRevocation revoked next rest)
  | removed (fenced : List VirtualPartitionId) (rest : List DriverOp)
      (todo : before.driver.todo = .removeFenced fenced :: rest) :
      DriverEffect (before.removeFenced fenced rest)
  | activated (assignment : List VirtualPartitionId) (rest : List DriverOp)
      (todo : before.driver.todo = .activate assignment :: rest) :
      DriverEffect ({ before with
        shared := before.shared.applyActiveAssignment assignment
        driver := { before.driver with activeAssignment := assignment, todo := rest } }.log
          [.assigned assignment])
  | stopped (rest : List DriverOp) (todo : before.driver.todo = .stopPrefetch :: rest) :
      DriverEffect { before.withTodo rest with
        worker := { before.worker with phase := .stopped }
        commands := []
        ended := true }

end DriverEffects

/-- Steps that only change the driver. -/
theorem DriverEffect.of_driver (driver : Driver) (opened : Bool)
    (todo : ∀ operation ∈ driver.todo, operation ∈ before.driver.todo ∨ before.Prepared operation)
    (head : suspendNext before.driver.todo = []) :
    before.DriverEffect { before with driver, opened } :=
  .moved driver opened [] (by simp) todo head

theorem begin_eq_some {todo : List DriverOp} (begun : world.begin todo = some after) :
    world.driver.todo = [] ∧ after = world.withTodo todo := by
  simp only [begin, Option.ite_none_right_eq_some, Option.some.injEq, List.isEmpty_iff] at begun
  exact ⟨begun.1.1, begun.2.symm⟩

/-- Operations without an epoch and without offsets. -/
theorem prepared_of_plain (epoch : operation.epoch = 0) (plain : unpassed operation = none) :
    before.Prepared operation := by
  refine ⟨by rw [epoch]; exact Nat.zero_le _, fun commits held => ?_⟩
  rw [plain] at held
  cases held

/-- A step that goes on with the rest of its procedure and with plain operations. -/
theorem DriverEffect.of_plain (driver : Driver) {rest : List DriverOp}
    (todo : before.driver.todo = operation :: rest)
    (plain : ∀ other ∈ driver.todo, other ∈ rest ∨ other.epoch = 0 ∧ unpassed other = none)
    (head : suspendNext (operation :: rest) = []) : before.DriverEffect { before with driver } := by
  refine .of_driver driver before.opened (fun other member => ?_) (by rw [todo]; exact head)
  rcases plain other member with later | ⟨epoch, offsets⟩
  · rw [todo]
    exact .inl (List.mem_cons_of_mem _ later)
  · exact .inr (prepared_of_plain epoch offsets)

/-- Begun procedures consist of operations without epochs and offsets. -/
theorem rebalanceOperations_plain (driver : Driver) (report : RebalanceReport) (now : Int) :
    ∀ operation ∈ driver.rebalanceOperations report now,
      operation.epoch = 0 ∧ unpassed operation = none := by
  intro operation member
  rcases Driver.mem_rebalanceOperations member with rfl | rfl | ⟨-, rfl | rfl⟩ | rfl <;>
    exact ⟨rfl, rfl⟩

theorem maintenanceAnswered_todo (config : DriverConfig) (driver : Driver)
    (trigger : HeartbeatTrigger) (now : Int) (commits : PendingCommits)
    (outcomes : List MaintenanceOutcome) (rest : List DriverOp) :
    ∀ operation ∈ (driver.maintenanceAnswered config trigger now commits outcomes rest).todo,
      operation ∈ rest ∨ operation.epoch = 0 ∧ unpassed operation = none := by
  intro operation member
  simp only [Driver.maintenanceAnswered] at member
  split at member
  · simp only [List.mem_cons] at member
    rcases member with rfl | rfl | later
    · exact .inr ⟨rfl, rfl⟩
    · exact .inr ⟨rfl, rfl⟩
    · exact .inl later
  · simp only [Driver.continueWith, List.cons_append, List.mem_cons, List.mem_append] at member
    rcases member with rfl | added | later
    · exact .inr ⟨rfl, rfl⟩
    · split at added
      · rw [List.mem_singleton.mp added]
        exact .inr ⟨rfl, rfl⟩
      · cases added
    · exact .inl later

theorem releaseAnswered_todo (driver : Driver) (released : List VirtualPartitionId)
    (succeeded : Bool) (now : Int) (rest : List DriverOp) :
    ∀ operation ∈ (driver.releaseAnswered released succeeded now rest).todo,
      operation ∈ rest ∨ operation.epoch = 0 ∧ unpassed operation = none := by
  intro operation member
  unfold Driver.releaseAnswered at member
  split at member
  · simp only [Driver.applyAssignment, List.cons_append, List.nil_append, List.mem_cons] at member
    rcases member with rfl | rfl | later
    · exact .inr ⟨rfl, rfl⟩
    · exact .inr ⟨rfl, rfl⟩
    · exact .inl later
  · simp only [Driver.shutdownOperations, List.mem_cons, List.not_mem_nil, or_false] at member
    rcases member with rfl | rfl | rfl <;> exact .inr ⟨rfl, rfl⟩

/-! ### Worker -/

section WorkerEffects

variable (config : DriverConfig) (before : IteratorWorld)

inductive WorkerEffect : IteratorWorld → Prop
  | hydrated (settings : ReadSettings) (recovered : List (VirtualPartitionId × RecoveredCursor))
      (now : Int) (rest : List ReaderCommand) (phase : before.worker.phase = .commands)
      (queue : before.commands = .hydrateCursors recovered now :: rest) :
      WorkerEffect { before with
        commands := rest
        worker := before.worker.hydrateCursors config.reader settings recovered now }
  | assigned (assignment : List VirtualPartitionId) (now : Int) (release : Bool)
      (readEpoch : ReadEpoch) (rest : List ReaderCommand)
      (phase : before.worker.phase = .commands)
      (queue : before.commands = .setAssignment assignment now release readEpoch :: rest) :
      WorkerEffect { before with
        commands := rest
        worker := before.worker.setAssignment config.reader before.shared assignment now release
          readEpoch }
  | suspended (partitions : List VirtualPartitionId) (readEpoch : ReadEpoch)
      (rest : List ReaderCommand) (phase : before.worker.phase = .commands)
      (queue : before.commands = .suspendReadPartitions partitions readEpoch :: rest) :
      WorkerEffect { before with
        commands := rest
        worker := before.worker.suspendReadPartitions before.shared partitions readEpoch }
  | refused (partition : VirtualPartitionId) (target : ConsumerSeekTarget) (now : Int)
      (rest : List ReaderCommand) (phase : before.worker.phase = .commands)
      (queue : before.commands = .seek partition target now :: rest) :
      WorkerEffect { before with commands := rest }
  | sought (settings : ReadSettings) (partition : VirtualPartitionId) (target : ConsumerSeekTarget)
      (now : Int) (rest : List ReaderCommand) (shared : SharedState ReadRecord)
      (phase : before.worker.phase = .commands)
      (queue : before.commands = .seek partition target now :: rest)
      (accepted : before.shared.applySeek partition target.offset = .ok shared) :
      WorkerEffect ({ before with
        commands := rest
        shared
        worker := before.worker.seek config.reader settings partition target now }.log
          [.sought partition target.offset])
  | completed (readEpoch : ReadEpoch) (release : Bool)
      (phase : before.worker.phase = .assigning readEpoch release) :
      WorkerEffect { before with
        shared := before.shared.completeReadAssignment readEpoch release
        worker := { before.worker with phase := .commands } }
  | idled (next : WorkerPhase) (running : before.worker.phase ≠ .stopped)
      (phase : before.worker.phase.unfinished = []) (unfinished : next.unfinished = [])
      (idle : ∀ capacity, next ≠ .reading capacity) :
      WorkerEffect (before.withWorker { before.worker with phase := next })
  | admitted (prefetchMaxBytes : Nat) (next : WorkerPhase)
      (phase : before.worker.phase = .admitting) (unfinished : next.unfinished = [])
      (idle : ∀ capacity, next ≠ .reading capacity) :
      WorkerEffect { before with
        shared := (before.worker.pending.admitPendingBatches prefetchMaxBytes before.shared).1
        worker := { before.worker with
          pending := (before.worker.pending.admitPendingBatches prefetchMaxBytes before.shared).2
          phase := next } }
  | began (capacity : ReadCapacity) (last : Option VirtualPartitionId)
      (running : before.worker.phase ≠ .stopped) (phase : before.worker.phase.unfinished = []) :
      WorkerEffect ((before.withWorker { before.worker with
        reader := { before.worker.reader with recoveryScanLastPartition := last } }).startPass
          capacity)
  | failed (last : Option VirtualPartitionId) (running : before.worker.phase ≠ .stopped)
      (phase : before.worker.phase.unfinished = []) :
      WorkerEffect (before.withWorker { before.worker with
        reader := { before.worker.reader with recoveryScanLastPartition := last }
        phase := .commands })
  | finished (capacity : ReadCapacity) (next : Reader) (batches : List (ConsumerBatch Write.Record))
      (phase : before.worker.phase = .reading capacity)
      (advances : readerAdvances before.worker.reader next = true)
      (readable : ∀ batch ∈ batches, batchReadable before.worker.reader batch = true) :
      WorkerEffect (before.withWorker {
          reader := next
          pending := before.worker.pending.extend
            (Worker.discardFenced before.shared (batches.map (markPass before.passes)))
          phase := .commands })

end WorkerEffects

theorem workerStep_effect {action : WorkerAction}
    (stepped : world.workerStep config action = some after) : world.WorkerEffect config after := by
  cases action with
  | command settings =>
    simp only [workerStep] at stepped
    split at stepped
    next command rest phase queue =>
      cases stepped
      cases command with
      | hydrateCursors recovered now => exact .hydrated settings recovered now rest phase queue
      | setAssignment assignment now release readEpoch =>
        exact .assigned assignment now release readEpoch rest phase queue
      | suspendReadPartitions partitions readEpoch =>
        exact .suspended partitions readEpoch rest phase queue
      | seek partition target now =>
        simp only [applyCommand]
        split
        · exact .refused partition target now rest phase queue
        next shared accepted =>
          exact .sought settings partition target now rest shared phase queue accepted
    next => cases stepped
  | completeAssignment =>
    simp only [workerStep] at stepped
    split at stepped
    next readEpoch release phase =>
      cases stepped
      exact .completed readEpoch release phase
    next => cases stepped
  | commandsDone =>
    simp only [workerStep, Option.ite_none_right_eq_some, Option.some.injEq] at stepped
    obtain ⟨⟨phase, -⟩, rfl⟩ := stepped
    exact .idled .admitting (by rw [phase]; nofun) (by rw [phase]; rfl) rfl nofun
  | admitPending prefetchMaxBytes =>
    simp only [workerStep, Option.ite_none_right_eq_some, Option.some.injEq] at stepped
    obtain ⟨phase, rfl⟩ := stepped
    refine .admitted prefetchMaxBytes _ phase ?_ ?_
    · split <;> rfl
    · intro capacity
      split <;> simp
  | beginRead prefetchMaxBytes =>
    simp only [workerStep, Option.ite_none_right_eq_some] at stepped
    obtain ⟨phase, stepped⟩ := stepped
    have idle : world.worker.phase.unfinished = [] := by rw [phase]; rfl
    have running : world.worker.phase ≠ .stopped := by rw [phase]; nofun
    split at stepped
    · cases stepped
      exact .idled .commands running idle rfl nofun
    next capacity _ =>
      cases stepped
      exact .began capacity world.worker.reader.recoveryScanLastPartition running idle
  | finishRead next batches =>
    simp only [workerStep] at stepped
    split at stepped
    next capacity phase =>
      rw [Option.ite_none_right_eq_some] at stepped
      obtain ⟨⟨advances, readable⟩, stepped⟩ := stepped
      cases stepped
      exact .finished capacity next batches phase advances (List.all_eq_true.mp readable)
    next => cases stepped
  | failRead last retry =>
    simp only [workerStep] at stepped
    split at stepped
    next capacity phase =>
      have idle : world.worker.phase.unfinished = [] := by rw [phase]; rfl
      have running : world.worker.phase ≠ .stopped := by rw [phase]; nofun
      cases stepped
      split
      · exact .began capacity last running idle
      · exact .failed last running idle
    next => cases stepped

theorem WorkerEffect.driver_eq (effect : before.WorkerEffect config after) :
    after.driver = before.driver := by
  cases effect <;> rfl

/-- The worker takes commands and adds none; an assignment it is at has the epoch of its command. -/
theorem WorkerEffect.queued (effect : before.WorkerEffect config after) :
    ∀ command ∈ after.worker.phase.unfinished ++ after.commands,
      ∃ earlier ∈ before.worker.phase.unfinished ++ before.commands,
        earlier.epoch = command.epoch ∧ earlier.assignmentEpoch = command.assignmentEpoch := by
  intro command member
  have waiting (queued : command ∈ before.commands) :
      ∃ earlier ∈ before.worker.phase.unfinished ++ before.commands,
        earlier.epoch = command.epoch ∧ earlier.assignmentEpoch = command.assignmentEpoch :=
    ⟨command, List.mem_append_right _ queued, rfl, rfl⟩
  cases effect with
  | hydrated _ _ _ _ phase queue | suspended _ _ _ phase queue | refused _ _ _ _ phase queue
  | sought _ _ _ _ _ _ phase queue =>
    apply waiting
    rw [queue]
    apply List.mem_cons_of_mem
    simpa [Worker.hydrateCursors, Worker.suspendReadPartitions, Worker.seek, log, phase,
      WorkerPhase.unfinished] using member
  | assigned assignment now release readEpoch rest phase queue =>
    rcases List.mem_cons.mp member with rfl | later
    · exact ⟨.setAssignment assignment now release readEpoch,
        List.mem_append_right _ (by rw [queue]; exact List.mem_cons_self), rfl, rfl⟩
    · exact waiting (by rw [queue]; exact List.mem_cons_of_mem _ later)
  | completed | began | failed | finished => exact waiting member
  | idled next _ _ unfinished | admitted _ next _ unfinished =>
    exact waiting (by simpa [withWorker, unfinished] using member)

end IteratorWorld

end BlobStream.Consumer
