import BlobStream.Consumer.SeekFloor

/-!
# Isolation of output over whole runs

`Isolated` collects the invariants: epochs never run ahead of the counter, old output is waiting for
its suspension, the driver goes on with every unfenced partition it has sought, and reads stay above
the target. Each kind of step keeps them; a run is an induction over its steps.
-/

namespace BlobStream.Consumer

open Machine GroupMembership

namespace IteratorWorld

variable {config : DriverConfig} {before after world : IteratorWorld}

structure Isolated (world : IteratorWorld) : Prop where
  bounded : world.EpochsBounded
  separated : world.Separated
  orderly : world.driver.Orderly
  revocation : world.RevocationHeld
  seeks : world.SeeksKept

theorem Isolated.step {action : Action} (isolated : before.Isolated)
    (stepped : before.step config action = some after) : after.Isolated := by
  obtain ⟨bounded, separated, orderly, revocation, seeks⟩ := isolated
  have keeps := bounded.step stepped
  cases action with
  | application action =>
    have effect := applicationStep_effect stepped
    refine ⟨keeps, separated.application effect, ?_, revocation.application effect,
      seeks.application effect⟩
    rw [effect.driver_eq]
    exact orderly
  | driver action =>
    have ⟨effect, move, _⟩ := driverStep_step stepped
    exact ⟨keeps, separated.driver bounded effect, orderly_move orderly move,
      revocation.driver bounded orderly move, seeks.driver bounded orderly move revocation⟩
  | worker action =>
    have effect := workerStep_effect stepped
    refine ⟨keeps, separated.worker effect, ?_, revocation.worker effect, seeks.worker effect⟩
    rw [effect.driver_eq]
    exact orderly

theorem isolated_bootstrap (config : DriverConfig) (plan : Option ConsumerGroupAssignmentPlan)
    (outcomes : List ClaimOutcome) (settings : ReadSettings) (now : Int) :
    (bootstrap config plan outcomes settings now).Isolated := by
  have fences : ∀ partition,
      (bootstrap config plan outcomes settings now).shared.fence partition = none := fun _ => rfl
  have held : (bootstrap config plan outcomes settings now).shared.deliveryState.held = [] := by
    refine List.eq_nil_iff_forall_not_mem.mpr fun batch member => ?_
    cases SharedState.mem_held_applyActiveAssignment _ member
  constructor
  · refine ⟨fun partition epoch fenced => ?_, nofun, nofun, nofun⟩
    rw [fences] at fenced
    cases fenced
  · refine ⟨fun batch member => ?_, fun _ partition => .inr ⟨nofun, nofun⟩⟩
    rw [held] at member
    cases member
  · exact ⟨rfl, nofun, nofun, nofun, nofun, nofun⟩
  · exact .of_not_saved (by rintro assignment (saved | ⟨revoked, ⟨⟩⟩); cases saved)
  · refine ⟨fun earlier partition target now later split => ?_, nofun, nofun⟩
    have empty : ([] : List ReaderCommand) = earlier ++ .seek partition target now :: later := split
    simp at empty

/-! ### Handing out -/

theorem DriverEffect.delivers_nothing (effect : before.DriverEffect after) :
    ∃ events, after.history = events ++ before.history
      ∧ ∀ record, .delivered record ∉ events := by
  cases effect with
  | moved driver opened events passes todo head =>
    refine ⟨events, rfl, fun record member => ?_⟩
    obtain ⟨operation, -, commits, partition, commit, -, -, passed⟩ := passes _ member
    cases passed
  | sent | recorded | published | stopped => exact ⟨[], rfl, nofun⟩
  | revoked revoked => exact ⟨[.fenced revoked], rfl, by simp⟩
  | removed fenced => exact ⟨[.removed fenced, .fenced fenced], rfl, by simp⟩
  | activated assignment => exact ⟨[.assigned assignment], rfl, by simp⟩

theorem WorkerEffect.delivers_nothing (effect : before.WorkerEffect config after) :
    ∃ events, after.history = events ++ before.history
      ∧ ∀ record, .delivered record ∉ events := by
  cases effect with
  | hydrated | assigned | suspended | refused | completed | idled | admitted | failed | finished =>
    exact ⟨[], rfl, nofun⟩
  | sought settings partition target => exact ⟨[.sought partition target.offset], rfl, by simp⟩
  | began => exact ⟨[.readBegan (before.passes + 1)], rfl, by simp⟩

/-- Only polls of the application hand out records, and none while a revocation is in progress. -/
theorem handsOut_of_delivered {action : Action} (stepped : before.step config action = some after)
    {events : List IteratorEvent} (history : after.history = events ++ before.history)
    {record : ConsumerRecord ReadRecord} (member : .delivered record ∈ events) :
    ∃ next records, record ∈ records
      ∧ DeliveryState.HandsOut (before.shared.deliveryState, before.shared.activePartitions) next
        records
      ∧ before.shared.deliveryState.revocationInProgress = false := by
  -- Other steps log other events.
  have other : (∃ others, after.history = others ++ before.history
      ∧ ∀ record, .delivered record ∉ others) → False := by
    rintro ⟨others, logged, none⟩
    rw [history] at logged
    rw [List.append_cancel_right logged] at member
    exact none record member
  cases action with
  | application action =>
    cases applicationStep_effect stepped with
    | polled delivery active records hands idle =>
      rw [← List.append_cancel_right history] at member
      obtain ⟨handed, listed, same⟩ := List.mem_map.mp member
      cases same
      have given := List.mem_reverse.mp listed
      refine ⟨_, records, given, hands, idle.resolve_left ?_⟩
      rintro rfl
      cases given
    | revoked | acknowledged => exact (other ⟨[], rfl, nofun⟩).elim
    | stored partition offset => exact (other ⟨[.stored partition offset], rfl, by simp⟩).elim
  | driver action => exact (other (driverStep_step stepped).effect.delivers_nothing).elim
  | worker action => exact (other (workerStep_effect stepped).delivers_nothing).elim

/-! ### Older epochs -/

/-- Commands of an older epoch leave the fence of a partition in place: an assignment does not assign
the partition and its completion does not retire the fence, and a suspension does not touch what is
read of the partition. -/
structure OutlivesOlder (config : DriverConfig) (world : IteratorWorld)
    (partition : VirtualPartitionId) (epoch : ReadEpoch) : Prop where
  assignment : ∀ assignment now release readEpoch rest settings after, readEpoch < epoch →
    world.commands = .setAssignment assignment now release readEpoch :: rest →
    world.workerStep config (.command settings) = some after →
      after.shared.fence partition = some epoch ∧ after.worker.reader.state partition = none
  completion : ∀ readEpoch release after, readEpoch < epoch →
    world.worker.phase = .assigning readEpoch release →
    world.workerStep config .completeAssignment = some after →
      after.shared.fence partition = some epoch
  suspension : ∀ partitions readEpoch rest settings after, readEpoch < epoch →
    world.commands = .suspendReadPartitions partitions readEpoch :: rest →
    world.workerStep config (.command settings) = some after →
      after.shared.fence partition = some epoch
        ∧ after.worker.reader.state partition = world.worker.reader.state partition
        ∧ after.worker.pending.batches.filter (·.virtualPartitionId = partition) =
          world.worker.pending.batches.filter (·.virtualPartitionId = partition)

theorem outlivesOlder_of_fence {partition : VirtualPartitionId} {epoch : ReadEpoch}
    (fenced : world.shared.fence partition = some epoch) :
    world.OutlivesOlder config partition epoch where
  assignment := by
    intro assignment now release readEpoch rest settings after older queue stepped
    have other : partition ∉ Worker.allowedAssignment world.shared assignment release readEpoch := by
      have known : world.shared.readFencedPartitions.lookup partition = some epoch := fenced
      simp [Worker.allowedAssignment, SharedState.assignmentReadAllowed, known, Nat.not_le.mpr older]
    simp only [workerStep, queue] at stepped
    split at stepped
    next received =>
      cases received
      cases stepped
      exact ⟨fenced, Reader.state_setAssignedVirtualPartitions_of_not_mem other⟩
    next => cases stepped
  completion := by
    intro readEpoch release after older phase stepped
    simp only [workerStep, phase, Option.some.injEq] at stepped
    rw [← stepped]
    exact (world.shared.fence_completeReadAssignment ..).mpr ⟨fenced, .inl older⟩
  suspension := by
    intro partitions readEpoch rest settings after older queue stepped
    have known : world.shared.readFencedPartitions.lookup partition = some epoch := fenced
    have other : partition ∉ partitions.filter fun partition =>
        world.shared.readFencedPartitions.lookup partition = some readEpoch := by
      simp [known, Nat.ne_of_gt older]
    simp only [workerStep, queue] at stepped
    split at stepped
    next received =>
      cases received
      cases stepped
      refine ⟨fenced, (Reader.state_suspendReadPartitions _).trans (if_neg other), ?_⟩
      show ((world.worker.pending.batches.filter _).filter _) = _
      rw [List.filter_filter]
      refine List.filter_congr fun batch _ => ?_
      by_cases same : batch.virtualPartitionId = partition
      · subst same
        simp [known, Nat.ne_of_gt older]
      · simp [same]
    next => cases stepped

/-! ### Main result -/

/-- What every step of every run hands out is new, is not handed out during a revocation and is above
the target of a seek that no fence followed; and fences outlive commands of older epochs. -/
theorem handed_out_isolated (config : DriverConfig) (plan : Option ConsumerGroupAssignmentPlan)
    (outcomes : List ClaimOutcome) (settings : ReadSettings) (now : Int) (world : IteratorWorld)
    (reached : Reachable (step config) anyAction (bootstrap config plan outcomes settings now) world) :
    (∀ action after, world.step config action = some after →
      ∀ events, after.history = events ++ world.history →
        ∀ record, .delivered record ∈ events →
          ReadSince record.virtualPartitionId world.history record.record.pass
            ∧ world.shared.deliveryState.revocationInProgress = false
            ∧ ∀ offset, seekFloor record.virtualPartitionId world.history = some offset →
              offset < record.offset)
      ∧ ∀ partition epoch, world.shared.fence partition = some epoch →
        world.OutlivesOlder config partition epoch := by
  have isolated : world.Isolated := by
    induction reached with
    | refl => exact isolated_bootstrap config plan outcomes settings now
    | tail _ _ stepped isolated => exact isolated.step stepped
  refine ⟨?_, fun partition epoch fenced => outlivesOlder_of_fence fenced⟩
  intro action after stepped events history record member
  obtain ⟨next, records, given, hands, idle⟩ := handsOut_of_delivered stepped history member
  refine ⟨?_, idle, fun offset floor => ?_⟩
  · -- The queue holds only records that were read since the last fence or seek.
    obtain ⟨rest, all⟩ := (hands.held
      (fun partition _ _ records => ∀ read ∈ records, ReadSince partition world.history read.pass)
      (fun _ _ _ _ _ all read member => all read (List.mem_cons_of_mem _ member))
      isolated.separated.delivered).2 record given
    exact all record.record List.mem_cons_self
  · have above := isolated.seeks.floor record.virtualPartitionId offset floor
    obtain ⟨rest, bound⟩ := (hands.held _ (advances_above record.virtualPartitionId offset)
      above.read.2.2).2 record given
    exact (bound rfl).1

/-! ### A seek does not outlast its fence -/

section Reacquired

def oneSecondLeases : DriverConfig where
  reader := tenSecondWindows
  memberId := "m"
  leaseDurationMs := 1000

def soloPlan : ConsumerGroupAssignmentPlan where
  version := 1
  plannerMemberId := "m"
  members := ["m"]
  memberTopology := none
  colocateLogicalPartitions := false
  assignments := [⟨0, "m"⟩]
  publishedTsMs := 0

/-- The lease of partition 0 is granted with the committed cursor 3. -/
def claimedAtThree : List ClaimOutcome :=
  [(0, .ok (.assigned
    { key := ⟨"orders", "g", 0⟩
      ownerId := "m"
      generation := 1
      leaseExpirationTsMs := 1000
      lastHeartbeatTsMs := 0
      committedCursor := some ⟨0, 3, none⟩
      committedTsMs := some 0 } none .initial))]

def claimedIterator : IteratorWorld := bootstrap oneSecondLeases (some soloPlan) claimedAtThree {} 0

/-- A read pass of partition 0 that emits one record at the offset. -/
def readOne (offset : Nat) (reader : Reader) : Action :=
  .worker (.finishRead
    { reader with virtualPartitionStates :=
        reader.virtualPartitionStates.mapValues fun _ state => state.advanceCursor offset }
    [⟨0, ⟨offset, offset⟩, ⟨0, 7⟩, ⟨"segment", 0⟩, none, [⟨[], 0⟩]⟩])

def idleWorker : List Action :=
  [.worker .commandsDone, .worker (.admitPending 100), .worker (.beginRead 100)]

def proceedTimes (count : Nat) : List Action := List.replicate count (.driver (.proceed 0))

def soughtTen : List Action :=
  .driver (.seek 0 ⟨10, 0, none⟩ 0) :: proceedTimes 2 ++ [.worker (.command {})]

def expiredHeartbeat : List Action :=
  [.driver (.heartbeat .scheduled 0), .driver (.proceed 0), .driver (.membershipAnswered true),
    .driver (.proceed 0), .driver (.maintenanceAnswered [(0, .ok .expired)])]
    ++ proceedTimes 3 ++ [.worker (.command {})]

/-- The same member claims the partition again. -/
def reclaimed : List Action :=
  .driver (.rebalance (some soloPlan) [0] claimedAtThree 0) :: proceedTimes 5
    ++ [.worker (.command {}), .worker (.command {}), .worker .completeAssignment]

/-- After the actions, a read pass emits one record at the offset, which is queued. -/
def readAfter (offset : Nat) (actions : List Action) : Option IteratorWorld :=
  (run (step oneSecondLeases) claimedIterator (actions ++ idleWorker)).bind fun world =>
    run (step oneSecondLeases) world
      [readOne offset world.worker.reader, .worker .commandsDone, .worker (.admitPending 100)]

theorem reachable_readAfter {offset : Nat} {actions : List Action}
    (executed : readAfter offset actions = some world) :
    Reachable (step oneSecondLeases) anyAction claimedIterator world := by
  obtain ⟨middle, first, second⟩ := Option.bind_eq_some_iff.mp executed
  exact (reachable_of_run (runAllowed_anyAction _ _ _) first).trans
    (reachable_of_run (runAllowed_anyAction _ _ _) second)

def firstRead (offset : Nat) : ConsumerRecord ReadRecord where
  virtualPartitionId := 0
  offset := offset
  sourceCheckpoint := ⟨0, 7⟩
  record := ⟨⟨[], 0⟩, 1⟩

/-- The offset of the last seek of the partition, if no record of it was handed out since. -/
def awaitedSeek (partition : VirtualPartitionId) : List IteratorEvent → Option Nat
  | [] => none
  | .sought target offset :: earlier =>
    if target = partition then some offset else awaitedSeek partition earlier
  | .delivered record :: earlier =>
    if record.virtualPartitionId = partition then none else awaitedSeek partition earlier
  | _ :: earlier => awaitedSeek partition earlier

/-- The first poll after the read, and what the history before it says. -/
def pollAfter (offset : Nat) (actions : List Action)
    (observe : List IteratorEvent → Option Nat) : Option (Bool × Option Nat) :=
  (readAfter offset actions).bind fun world =>
    (world.step oneSecondLeases (.application .next)).map fun after =>
      (decide (after.history = .delivered (firstRead offset) :: world.history),
        observe world.history)

theorem exists_poll (offset : Nat) (actions : List Action)
    (observe : List IteratorEvent → Option Nat) (found : Option Nat)
    (observed : pollAfter offset actions observe = some (true, found)) :
    ∃ world after, Reachable (step oneSecondLeases) anyAction claimedIterator world
      ∧ world.step oneSecondLeases (.application .next) = some after
      ∧ after.history = .delivered (firstRead offset) :: world.history
      ∧ observe world.history = found := by
  obtain ⟨world, executed, polled⟩ := Option.bind_eq_some_iff.mp observed
  obtain ⟨after, stepped, facts⟩ := Option.map_eq_some_iff.mp polled
  obtain ⟨history, same⟩ := Prod.mk.inj facts
  exact ⟨world, after, reachable_readAfter executed, stepped, of_decide_eq_true history, same⟩

/-- The lease expired and the same member claimed the partition again from its committed cursor: the
next record is below the target of the seek. -/
theorem reacquired_partition_below_seek :
    ¬∀ (config : DriverConfig) (plan : Option ConsumerGroupAssignmentPlan)
        (outcomes : List ClaimOutcome) (settings : ReadSettings) (now : Int) (world : IteratorWorld),
      Reachable (step config) anyAction (bootstrap config plan outcomes settings now) world →
        ∀ action after, world.step config action = some after →
          ∀ record, after.history = .delivered record :: world.history →
            ∀ offset, awaitedSeek record.virtualPartitionId world.history = some offset →
              offset < record.offset := by
  intro claimed
  obtain ⟨world, after, reached, stepped, history, awaited⟩ :=
    exists_poll 4 (soughtTen ++ expiredHeartbeat ++ reclaimed) (awaitedSeek 0) (some 10)
      (by decide +kernel)
  have above := claimed oneSecondLeases (some soloPlan) claimedAtThree {} 0 world reached _ after
    stepped (firstRead 4) history 10 awaited
  exact absurd above (by decide)

/-- Without a fence in between, the next record is above the target of the seek. -/
theorem record_above_sought_ten :
    ∃ world after : IteratorWorld,
      Reachable (step oneSecondLeases) anyAction claimedIterator world
      ∧ seekFloor 0 world.history = some 10
      ∧ after.history = .delivered (firstRead 11) :: world.history
      ∧ ReadSince 0 world.history 1 ∧ 10 < (firstRead 11).offset := by
  obtain ⟨world, after, reached, stepped, history, floor⟩ :=
    exists_poll 11 soughtTen (seekFloor 0) (some 10) (by decide +kernel)
  obtain ⟨since, -, above⟩ := (handed_out_isolated oneSecondLeases (some soloPlan) claimedAtThree {} 0
    world reached).1 _ after stepped [.delivered (firstRead 11)] history (firstRead 11)
    List.mem_cons_self
  exact ⟨world, after, reached, floor, history, since, above 10 floor⟩

end Reacquired

/-! ### Pending revocations -/

/-- Until a revocation is acknowledged, every active partition is kept by the next assignment or
fenced, and no assignment on its way to the worker is young enough to retire the fence. -/
theorem pending_revocation_fenced (config : DriverConfig) (plan : Option ConsumerGroupAssignmentPlan)
    (outcomes : List ClaimOutcome) (settings : ReadSettings) (now : Int) (world : IteratorWorld)
    (reached : Reachable (step config) anyAction (bootstrap config plan outcomes settings now) world)
    (assignment : List VirtualPartitionId)
    (pending : world.driver.pendingAssignment = some assignment) :
    (∀ partition ∈ world.driver.activeAssignment,
      partition ∈ assignment ∨ ∃ epoch, world.shared.fence partition = some epoch)
    ∧ ∃ fence, world.shared.deliveryFenceEpoch = some fence
      ∧ ∀ command ∈ world.worker.phase.unfinished ++ world.commands,
        ∀ epoch, command.assignmentEpoch = some epoch → epoch < fence := by
  have isolated := reached.invariant (isolated_bootstrap config plan outcomes settings now)
    fun _ _ _ isolated _ stepped => isolated.step stepped
  have saved : world.Saved assignment := Or.inl pending
  exact ⟨isolated.revocation.covered assignment saved, isolated.revocation.fenced assignment saved⟩

/-- Without a plan the member gives partition 0 up. -/
theorem pending_revocation_fenced_zero :
    ∃ world, Reachable (step oneSecondLeases) anyAction claimedIterator world
      ∧ world.driver.activeAssignment = [0] ∧ ∃ epoch, world.shared.fence 0 = some epoch := by
  have revoked : (run (step oneSecondLeases) claimedIterator
      (.driver (.rebalance none [] [] 0) :: proceedTimes 3)).map
      (fun world => (world.driver.activeAssignment, world.driver.pendingAssignment))
      = some ([0], some []) := by decide +kernel
  obtain ⟨world, executed, facts⟩ := Option.map_eq_some_iff.mp revoked
  obtain ⟨active, pending⟩ := Prod.mk.inj facts
  have reached := reachable_of_run (runAllowed_anyAction _ _ _) executed
  have fenced := (pending_revocation_fenced _ _ _ _ _ world reached [] pending).1 0 (by simp [active])
  exact ⟨world, reached, active, fenced.resolve_left (by simp)⟩

end IteratorWorld

end BlobStream.Consumer
