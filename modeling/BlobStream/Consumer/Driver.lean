import BlobStream.Consumer.Prefetch

/-!
# Consumer driver

The driver runs heartbeats, commits, rebalances, revocations and seeks one after the other. Each is a
sequence of sections under the shared lock, commands to the prefetch worker and awaited calls.
`Driver.todo` holds the operations that are left of the procedure in progress.
-/

namespace BlobStream.Consumer

open GroupMembership (ConsumerGroupAssignmentPlan)

structure DriverConfig where
  reader : ReaderConfig
  memberId : String
  /-- Leases and memberships last this many milliseconds. -/
  leaseDurationMs : Int

def DriverConfig.persistedLeaseExpiresAt (config : DriverConfig) (now : Int) : Int :=
  instantOfUnixMillis (now / 1000000 + config.leaseDurationMs)

inductive HeartbeatTrigger
  | scheduled
  | commit
deriving DecidableEq, Repr

abbrev PendingCommits := AList fun _ : VirtualPartitionId => PendingCommit

inductive DriverOp
  /-- Collect the staged offsets, under the lock. -/
  | collectCommits (trigger : HeartbeatTrigger) (now : Int)
  /-- Await the membership heartbeat. -/
  | heartbeatMember (now : Int) (commits : PendingCommits)
  /-- Call the coordinator with the collected offsets. -/
  | passCursors (trigger : HeartbeatTrigger) (now : Int) (commits : PendingCommits)
  /-- Await the coordinator. -/
  | maintain (trigger : HeartbeatTrigger) (now : Int) (commits : PendingCommits)
  /-- `record_successful_heartbeat`, under the lock. -/
  | recordSuccess (renewed : List VirtualPartitionId) (commits : PendingCommits)
  /-- `remove_fenced_partitions`, under the lock. -/
  | removeFenced (fenced : List VirtualPartitionId)
  /-- `begin_fenced_partition_revocation`, under the lock. -/
  | fencePartitions (fenced : List VirtualPartitionId)
  /-- The fence of a cooperative revocation, under the lock. -/
  | revoke (revoked next : List VirtualPartitionId)
  | sendSuspend (partitions : List VirtualPartitionId) (readEpoch : ReadEpoch)
  /-- Remember what to release and to assign once the application acknowledged. -/
  | saveRevocation (revoked next : List VirtualPartitionId)
  /-- Await the release of the revoked leases. -/
  | release (revoked : List VirtualPartitionId) (now : Int)
  /-- `hydrate_cursors`, under the lock. -/
  | publishCursors (recovered : List (VirtualPartitionId × RecoveredCursor)) (now : Int)
  | sendHydrate (recovered : List (VirtualPartitionId × RecoveredCursor)) (now : Int)
  /-- Read the clock, and under the lock the epoch, an assignment is sent with. -/
  | readEpoch (assignment : List VirtualPartitionId) (releaseDeliveryFence : Bool)
  | sendAssignment (assignment : List VirtualPartitionId) (now : Int) (releaseDeliveryFence : Bool)
      (readEpoch : ReadEpoch)
  /-- `apply_active_assignment`, under the lock. -/
  | activate (assignment : List VirtualPartitionId)
  /-- Refuse a seek of a fenced partition, under the lock. -/
  | checkSeek (partition : VirtualPartitionId) (target : ConsumerSeekTarget) (now : Int)
  | sendSeek (partition : VirtualPartitionId) (target : ConsumerSeekTarget) (now : Int)
  /-- Await the release of all leases at shutdown. -/
  | releaseOwned (now : Int)
  | stopPrefetch

structure Driver where
  coordinator : Coordinator := {}
  activeAssignment : List VirtualPartitionId := []
  pendingAssignment : Option (List VirtualPartitionId) := none
  /-- A revocation waits for the application. -/
  awaitingAcknowledgement : Bool := false
  pendingRevocationPartitions : Option (List VirtualPartitionId) := none
  membershipLeaseExpiresAt : Int
  /-- Earliest expiration of the active leases. -/
  activePartitionLeaseExpirationDeadline : Int
  todo : List DriverOp := []

namespace Driver

variable (config : DriverConfig) (driver : Driver)

/-- Past this instant a failed heartbeat fences everything. -/
def heartbeatRetryDeadline : Int :=
  min driver.membershipLeaseExpiresAt driver.activePartitionLeaseExpirationDeadline

def continueWith (operations rest : List DriverOp) : Driver :=
  { driver with todo := operations ++ rest }

def applyAssignment (assignment : List VirtualPartitionId) (releaseDeliveryFence : Bool) :
    List DriverOp :=
  [.readEpoch assignment releaseDeliveryFence, .activate assignment]

def hydrateCursors (recovered : List (VirtualPartitionId × RecoveredCursor)) (now : Int) :
    List DriverOp :=
  if recovered.isEmpty then [] else [.publishCursors recovered now, .sendHydrate recovered now]

/-! ### Heartbeats -/

def membershipAnswered (succeeded : Bool) (now : Int) (commits : PendingCommits)
    (rest : List DriverOp) : Driver :=
  if succeeded then
    { driver with
      membershipLeaseExpiresAt := config.persistedLeaseExpiresAt now
      todo := .passCursors .scheduled now commits :: rest }
  else if driver.heartbeatRetryDeadline ≤ now then
    driver.continueWith [.fencePartitions driver.activeAssignment] rest
  else { driver with todo := rest }

def maintenanceOperation : HeartbeatTrigger → LeaseMaintenanceOperation
  | .scheduled => .heartbeat
  | .commit => .commitCursor

def committedCursors (commits : PendingCommits) : StagedCursors :=
  commits.mapValues fun partition commit =>
    ⟨partition, commit.offset, some commit.sourceCheckpoint⟩

/-- The coordinator answered: a failure reveals lost leases through the leases it still tracks. -/
def maintenanceAnswered (trigger : HeartbeatTrigger) (now : Int) (commits : PendingCommits)
    (outcomes : List MaintenanceOutcome) (rest : List DriverOp) : Driver :=
  let (coordinator, result) := driver.coordinator.finishMaintenance outcomes
  let driver := { driver with coordinator }
  match result with
  | .ok report =>
    { driver with
      activePartitionLeaseExpirationDeadline :=
        match trigger with
        | .scheduled => config.persistedLeaseExpiresAt now
        | .commit => driver.activePartitionLeaseExpirationDeadline
      todo := .recordSuccess report.renewedPartitions commits
        :: .removeFenced report.fencedPartitions :: rest }
  | .error _ =>
    let lost := driver.activeAssignment.filter (· ∉ coordinator.owned)
    let overdue := trigger = .scheduled ∧ driver.heartbeatRetryDeadline ≤ now
    driver.continueWith
      (.fencePartitions lost
        :: if overdue then [.fencePartitions driver.activeAssignment] else []) rest

/-! ### Rebalances and revocations -/

def sameAssignment (first second : List VirtualPartitionId) : Bool :=
  first.all (· ∈ second) && second.all (· ∈ first)

def rebalanceOperations (report : RebalanceReport) (now : Int) : List DriverOp :=
  let next := report.ownedPartitions
  let revoked := driver.activeAssignment.filter (· ∉ next)
  hydrateCursors report.recoveredCursors now
    ++ if sameAssignment driver.activeAssignment next then []
      else if revoked.isEmpty then applyAssignment next false
      else [.revoke revoked next]

/-- A rebalance assigns only if nothing active is missing from the report. -/
theorem mem_rebalanceOperations {driver : Driver} {report : RebalanceReport} {now : Int}
    {operation : DriverOp} (member : operation ∈ driver.rebalanceOperations report now) :
    operation = .publishCursors report.recoveredCursors now
      ∨ operation = .sendHydrate report.recoveredCursors now
      ∨ (∀ partition ∈ driver.activeAssignment, partition ∈ report.ownedPartitions)
        ∧ (operation = .readEpoch report.ownedPartitions false
          ∨ operation = .activate report.ownedPartitions)
      ∨ operation = .revoke (driver.activeAssignment.filter (· ∉ report.ownedPartitions))
        report.ownedPartitions := by
  simp only [rebalanceOperations, hydrateCursors, applyAssignment, List.mem_append] at member
  rcases member with hydrated | assigned
  · split at hydrated
    · cases hydrated
    · simp only [List.mem_cons, List.not_mem_nil, or_false] at hydrated
      exact hydrated.imp_right .inl
  · split at assigned
    · cases assigned
    · split at assigned
      next keeps =>
        simp only [List.mem_cons, List.not_mem_nil, or_false] at assigned
        refine .inr (.inr (.inl ⟨fun partition active => ?_, assigned⟩))
        by_contra missing
        rw [List.isEmpty_iff, List.filter_eq_nil_iff] at keeps
        exact keeps partition active (by simpa using missing)
      next => exact .inr (.inr (.inr (List.mem_singleton.mp assigned)))

def rebalanced (plan : Option ConsumerGroupAssignmentPlan) (outcomes : List ClaimOutcome)
    (now : Int) : Driver :=
  let (coordinator, report) :=
    (driver.coordinator.accept plan).finishRebalance config.memberId (desiredAssignment plan) outcomes
  { driver with
    coordinator
    activePartitionLeaseExpirationDeadline :=
      match report.activePartitionLeaseExpirationDeadlineMs with
      | some millis => instantOfUnixMillis millis
      | none => driver.activePartitionLeaseExpirationDeadline
    todo := driver.rebalanceOperations report now }

/-- The leases of a revocation that are still tracked are released one after the other. -/
def releasable (revoked : List VirtualPartitionId) : List VirtualPartitionId :=
  revoked.filter (· ∈ driver.coordinator.owned)

def dropLeases (released : List VirtualPartitionId) : Coordinator :=
  released.foldl Coordinator.finishRelease driver.coordinator

def shutdownOperations (now : Int) : List DriverOp :=
  [.collectCommits .commit now, .releaseOwned now, .stopPrefetch]

/-- The leases of a revocation were released, or a call failed and ends the driver. -/
def releaseAnswered (released : List VirtualPartitionId) (succeeded : Bool) (now : Int)
    (rest : List DriverOp) : Driver :=
  if succeeded then
    { driver with
      coordinator := driver.dropLeases released
      pendingAssignment := none
      awaitingAcknowledgement := false
      todo := applyAssignment (driver.pendingAssignment.getD []) true ++ rest }
  else
    { driver with
      coordinator := driver.dropLeases released
      todo := shutdownOperations now }

end Driver

end BlobStream.Consumer
