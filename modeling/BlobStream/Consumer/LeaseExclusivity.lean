import BlobStream.Consumer.Coordinator
import BlobStream.Store.LeaseProgress

/-!
# One holder per partition

Each store call of a member is one step, with the clock value its operation captured when it began.
Two things let two members believe that they hold a partition: a release drops the local copy only
after the store has given the partition up, and an operation with an older clock value shortens the
lease in the store while a longer copy is around. Without them a copy never outlives the row.
-/

namespace BlobStream.Consumer

open GroupMembership ConsumerLeases Machine

structure GroupConfig where
  topic : Topic
  groupId : String
  /-- Lease duration each member is configured with. -/
  leaseDuration : String → Int

def GroupConfig.key (config : GroupConfig) (partition : VirtualPartitionId) :
    ConsumerGroupLeaseKey :=
  ⟨config.topic, config.groupId, partition⟩

/-- An operation in progress: the calls still to make and the answers so far. -/
inductive CoordinatorOperation
  | rebalance (desired : AssignmentMap) (now : Int) (pending : List VirtualPartitionId)
      (outcomes : List ClaimOutcome)
  | maintain (operation : LeaseMaintenanceOperation) (cursors : StagedCursors) (now : Int)
      (pending : List (VirtualPartitionId × Nat)) (outcomes : List MaintenanceOutcome)
  /-- `answered` was released in the store and is still in the local map. -/
  | release (now : Int) (remaining : List VirtualPartitionId) (answered : Option VirtualPartitionId)

def CoordinatorOperation.now : CoordinatorOperation → Int
  | .rebalance _ now _ _ => now
  | .maintain _ _ now _ _ => now
  | .release now _ _ => now

structure GroupMemberState where
  coordinator : Coordinator := {}
  operation : Option CoordinatorOperation := none

structure GroupWorld where
  clock : Int
  store : LeaseStore := fun _ => none
  members : String → GroupMemberState := fun _ => {}

inductive GroupAction
  | tick (clock : Int)
  | rebalance (memberId : String) (plan : Option ConsumerGroupAssignmentPlan)
      (partitions : List VirtualPartitionId) (now : Int)
  | maintain (memberId : String) (operation : LeaseMaintenanceOperation) (cursors : StagedCursors)
      (now : Int)
  | release (memberId : String) (partitions : List VirtualPartitionId) (now : Int)
  /-- The store call for one partition; a failing call has no effect. -/
  | call (memberId : String) (partition : VirtualPartitionId) (failure : Option String)
  /-- The member takes the answers into account. -/
  | finish (memberId : String)

/-! ### Steps -/

def storeFailure {Outcome : Type} : Except ConsumerLeaseError Outcome → Except String Outcome
  | .ok outcome => .ok outcome
  | .error error => .error error.message

def GroupWorld.setMember (world : GroupWorld) (memberId : String) (member : GroupMemberState) :
    GroupWorld :=
  { world with members := Function.update world.members memberId member }

def GroupWorld.setRow (world : GroupWorld) (key : ConsumerGroupLeaseKey) (row : Option LeaseState) :
    GroupWorld :=
  { world with store := Function.update world.store key row }

section Updates

variable (world : GroupWorld) {memberId other : String} (member : GroupMemberState)
variable {key otherKey : ConsumerGroupLeaseKey} (row : Option LeaseState)

@[simp] theorem GroupWorld.setMember_clock :
    (world.setMember memberId member).clock = world.clock := rfl

@[simp] theorem GroupWorld.setMember_store :
    (world.setMember memberId member).store = world.store := rfl

@[simp] theorem GroupWorld.setMember_self :
    (world.setMember memberId member).members memberId = member :=
  Function.update_self _ _ _

theorem GroupWorld.setMember_other (differs : other ≠ memberId) :
    (world.setMember memberId member).members other = world.members other :=
  Function.update_of_ne differs _ _

@[simp] theorem GroupWorld.setRow_clock : (world.setRow key row).clock = world.clock := rfl

@[simp] theorem GroupWorld.setRow_self : (world.setRow key row).store key = row :=
  Function.update_self _ _ _

theorem GroupWorld.setRow_other (differs : otherKey ≠ key) :
    (world.setRow key row).store otherKey = world.store otherKey :=
  Function.update_of_ne differs _ _

end Updates

/-- An operation begins when the previous one is over; its clock value was captured before. -/
def GroupWorld.begin (world : GroupWorld) (memberId : String) (now : Int)
    (start : Coordinator → GroupMemberState) : Option GroupWorld :=
  let member := world.members memberId
  if member.operation.isNone && decide (now ≤ world.clock) then
    some (world.setMember memberId (start member.coordinator))
  else none

section Calls

variable (config : GroupConfig) (world : GroupWorld) (memberId : String)
variable (coordinator : Coordinator) (now : Int) (partition : VirtualPartitionId)

def claimCall (failure : Option String) :
    Except String ConsumerGroupAssignmentOutcome × Option LeaseState :=
  let row := world.store (config.key partition)
  match failure with
  | some error => (.error error, row)
  | none => (assignPartition row (config.key partition) memberId coordinator.generation now
      (config.leaseDuration memberId)).map storeFailure id

def maintainCall (operation : LeaseMaintenanceOperation) (cursors : StagedCursors) (generation : Nat)
    (failure : Option String) : Except String LeaseMaintenanceOutcome × Option LeaseState :=
  let row := world.store (config.key partition)
  match failure with
  | some error => (.error error, row)
  | none =>
    match operation, cursors.lookup partition with
    | .heartbeat, cursor =>
      (heartbeatPartition row (config.key partition) memberId generation now
        (config.leaseDuration memberId) cursor).map
        (fun reply => (storeFailure reply).map maintenanceOfHeartbeat) id
    | .commitCursor, some cursor =>
      (ConsumerLeases.commitCursor row (config.key partition) memberId generation now cursor).map
        (fun reply => (storeFailure reply).map maintenanceOfCommit) id
    -- Commits only target staged partitions.
    | .commitCursor, none => (.error "", row)

end Calls

namespace GroupWorld

variable (config : GroupConfig) (world : GroupWorld)

def call (memberId : String) (partition : VirtualPartitionId) (failure : Option String) :
    Option GroupWorld :=
  let member := world.members memberId
  let key := config.key partition
  match member.operation with
  | some (.rebalance desired now pending outcomes) =>
    if partition ∈ pending then
      let called := claimCall config world memberId member.coordinator now partition failure
      some ((world.setRow key called.2).setMember memberId { member with
        operation := some (.rebalance desired now (pending.erase partition)
          (outcomes ++ [(partition, called.1)])) })
    else none
  | some (.maintain operation cursors now pending outcomes) =>
    match pending.lookup partition with
    | some generation =>
      let called := maintainCall config world memberId now partition operation cursors generation
        failure
      some ((world.setRow key called.2).setMember memberId { member with
        operation := some (.maintain operation cursors now
          (pending.eraseP fun entry => entry.1 == partition) (outcomes ++ [(partition, called.1)])) })
    | none => none
  | some (.release now (next :: remaining) none) =>
    if partition = next then
      match member.coordinator.owned.lookup partition, failure with
      | none, _ => some (world.setMember memberId { member with
          operation := some (.release now remaining none) })
      -- The first failing call ends the operation.
      | some _, some _ => some (world.setMember memberId { member with operation := none })
      | some lease, none =>
        let called := releasePartition (world.store key) key memberId lease.generation now
        some ((world.setRow key called.2).setMember memberId { member with
          operation := match called.1 with
            | .ok _ => some (.release now remaining (some partition))
            | .error _ => none })
    else none
  | _ => none

def finish (memberId : String) : Option GroupWorld :=
  let member := world.members memberId
  match member.operation with
  | some (.rebalance desired _ [] outcomes) => some (world.setMember memberId
      { coordinator := (member.coordinator.finishRebalance memberId desired outcomes).1 })
  | some (.maintain _ _ _ [] outcomes) => some (world.setMember memberId
      { coordinator := (member.coordinator.finishMaintenance outcomes).1 })
  | some (.release now remaining (some partition)) => some (world.setMember memberId
      { coordinator := member.coordinator.finishRelease partition
        operation := some (.release now remaining none) })
  | some (.release _ [] none) => some (world.setMember memberId { member with operation := none })
  | _ => none

def step : GroupAction → Option GroupWorld
  | .tick clock => if world.clock ≤ clock then some { world with clock } else none
  | .rebalance memberId plan partitions now =>
    world.begin memberId now fun coordinator =>
      let accepted := coordinator.accept plan
      let desired := desiredAssignment plan
      { coordinator := accepted
        operation := some (.rebalance desired now
          (accepted.partitionsToClaim memberId desired partitions) []) }
  | .maintain memberId operation cursors now =>
    world.begin memberId now fun coordinator =>
      { coordinator
        operation := some (.maintain operation cursors now
          (coordinator.partitionsToMaintain cursors operation) []) }
  | .release memberId partitions now =>
    world.begin memberId now fun coordinator =>
      { coordinator, operation := some (.release now partitions none) }
  | .call memberId partition failure => world.call config memberId partition failure
  | .finish memberId => world.finish memberId

end GroupWorld

/-! ### What members believe -/

def inForce (clock : Int) (lease : ConsumerGroupLease) : Bool :=
  clock < lease.leaseExpirationTsMs * 1000000

def claimedLease : Except String ConsumerGroupAssignmentOutcome → Option ConsumerGroupLease
  | .ok (.assigned lease _ _) => some lease
  | _ => none

def maintainedLease : Except String LeaseMaintenanceOutcome → Option ConsumerGroupLease
  | .ok (.renewed lease) => some lease
  | _ => none

/-- The member has the partition in its map, with an expiration that lies ahead. -/
def GroupWorld.holds (world : GroupWorld) (memberId : String) (partition : VirtualPartitionId) :
    Bool :=
  ((world.members memberId).coordinator.owned.lookup partition).any (inForce world.clock)

def CoordinatorOperation.reported (partition : VirtualPartitionId) :
    CoordinatorOperation → List ConsumerGroupLease
  | .rebalance _ _ _ outcomes => outcomes.filterMap fun outcome =>
    if outcome.1 = partition then claimedLease outcome.2 else none
  | .maintain _ _ _ _ outcomes => outcomes.filterMap fun outcome =>
    if outcome.1 = partition then maintainedLease outcome.2 else none
  | .release .. => []

def GroupMemberState.copies (member : GroupMemberState) (partition : VirtualPartitionId) :
    List ConsumerGroupLease :=
  (member.coordinator.owned.lookup partition).toList
    ++ (member.operation.map (·.reported partition)).getD []

/-- The store has released the partition and the member has not dropped its copy yet. -/
def GroupMemberState.releasing (member : GroupMemberState) (partition : VirtualPartitionId) : Bool :=
  match member.operation with
  | some (.release _ _ (some answered)) => answered = partition
  | _ => false

/-- A copy that is in force is backed by the row: the member owns it, for at least as long, unless it
is being released. -/
def Backed (config : GroupConfig) (world : GroupWorld) (memberId : String)
    (partition : VirtualPartitionId) (lease : ConsumerGroupLease) : Prop :=
  ∃ state, world.store (config.key partition) = some state ∧ state.ownerId = memberId
    ∧ (lease.leaseExpirationTsMs ≤ state.leaseExpirationTsMs
      ∨ (world.members memberId).releasing partition = true)

structure GroupSound (config : GroupConfig) (world : GroupWorld) : Prop where
  captured : ∀ memberId operation, (world.members memberId).operation = some operation →
    operation.now ≤ world.clock
  backed : ∀ memberId partition, ∀ lease ∈ (world.members memberId).copies partition,
    inForce world.clock lease = true → Backed config world memberId partition lease

/-- The two things that let a copy outlive the row do not happen: nobody is granted a partition whose
owner is still releasing a copy in force, and no call of a member shortens its lease below a copy in
force. -/
def exclusivityContract (config : GroupConfig) (world : GroupWorld) : GroupAction → Prop
  | .call memberId partition none =>
    let member := world.members memberId
    let expiration (now : Int) := now / 1000000 + wholeMilliseconds (config.leaseDuration memberId)
    let keepsCopies (now : Int) := ∀ lease ∈ member.copies partition,
      inForce world.clock lease = true → lease.leaseExpirationTsMs ≤ expiration now
    match member.operation with
    | some (.rebalance _ now _ _) =>
      keepsCopies now ∧
        match world.store (config.key partition) with
        | some state => state.ownerId ≠ memberId →
          (world.members state.ownerId).releasing partition = true →
          ∀ lease ∈ (world.members state.ownerId).copies partition,
            inForce world.clock lease = false
        | none => True
    | some (.maintain .heartbeat _ now _ _) => keepsCopies now
    | _ => True
  | _ => True

section Invariant

variable {config : GroupConfig} {world : GroupWorld}
variable {member : GroupMemberState} {partition : VirtualPartitionId}

theorem mem_copies_owned {lease : ConsumerGroupLease}
    (owned : member.coordinator.owned.lookup partition = some lease) :
    lease ∈ member.copies partition := by
  simp [GroupMemberState.copies, owned]

theorem key_ne {partition other : VirtualPartitionId} (differs : other ≠ partition) :
    config.key other ≠ config.key partition := by
  intro same
  exact differs (congrArg ConsumerGroupLeaseKey.virtualPartitionId same)

section

variable (sound : GroupSound config world)
variable (captured : ∀ operation, member.operation = some operation → operation.now ≤ world.clock)

include sound captured

/-- A step of one member on the row of one partition keeps the invariant when the member's copies of
the partition are backed by the new row, and nobody else has a copy in force if the row changes. -/
theorem GroupSound.update {memberId : String} {row : Option LeaseState}
    (elsewhere : ∀ other, other ≠ partition → ∀ lease ∈ member.copies other,
      lease ∈ (world.members memberId).copies other
        ∧ (world.members memberId).releasing other = false)
    (others : row = world.store (config.key partition) ∨ ∀ other, other ≠ memberId →
      ∀ lease ∈ (world.members other).copies partition, inForce world.clock lease = false)
    (own : ∀ lease ∈ member.copies partition, inForce world.clock lease = true →
      ∃ state, row = some state ∧ state.ownerId = memberId
        ∧ (lease.leaseExpirationTsMs ≤ state.leaseExpirationTsMs
          ∨ member.releasing partition = true)) :
    GroupSound config ((world.setRow (config.key partition) row).setMember memberId member) := by
  constructor
  · intro other operation active
    by_cases same : other = memberId
    · subst same
      rw [GroupWorld.setMember_self] at active
      exact captured operation active
    · rw [GroupWorld.setMember_other _ _ same] at active
      exact sound.captured other operation active
  · intro other touched lease known force
    unfold Backed
    rw [GroupWorld.setMember_store]
    by_cases same : other = memberId
    · subst same
      rw [GroupWorld.setMember_self] at known ⊢
      by_cases here : touched = partition
      · subst here
        rw [GroupWorld.setRow_self]
        exact own lease known force
      · -- Another partition of the same member: nothing happened there.
        obtain ⟨known, idle⟩ := elsewhere touched here lease known
        obtain ⟨state, isState, owner, covered⟩ := sound.backed other touched lease known force
        rw [GroupWorld.setRow_other _ _ (key_ne here)]
        refine ⟨state, isState, owner, Or.inl (covered.resolve_right ?_)⟩
        simp [idle]
    · rw [GroupWorld.setMember_other _ _ same] at known ⊢
      obtain ⟨state, isState, owner, covered⟩ := sound.backed other touched lease known force
      by_cases here : touched = partition
      · subst here
        rw [GroupWorld.setRow_self]
        rcases others with kept | none
        · rw [kept]
          exact ⟨state, isState, owner, covered⟩
        · rw [GroupWorld.setMember_clock, GroupWorld.setRow_clock,
            none other same lease known] at force
          cases force
      · rw [GroupWorld.setRow_other _ _ (key_ne here)]
        exact ⟨state, isState, owner, covered⟩

/-- A step that only changes what one member knows, without adding copies. -/
theorem GroupSound.local {memberId : String}
    (fewer : ∀ partition, ∀ lease ∈ member.copies partition,
      lease ∈ (world.members memberId).copies partition
        ∧ (world.members memberId).releasing partition = false) :
    GroupSound config (world.setMember memberId member) := by
  have unchanged : world.setRow (config.key 0) (world.store (config.key 0)) = world := by
    simp [GroupWorld.setRow]
  rw [← unchanged]
  refine sound.update captured (fun other _ => fewer other) (Or.inl rfl) ?_
  intro lease known force
  obtain ⟨known, idle⟩ := fewer 0 lease known
  obtain ⟨state, isState, owner, covered⟩ := sound.backed memberId 0 lease known force
  refine ⟨state, isState, owner, Or.inl (covered.resolve_right ?_)⟩
  simp [idle]

end

end Invariant

/-! ### Calls -/

/-- What a claim, a heartbeat or a commit does: nothing, or the row is the member's and the member is
told how long. Only claims take expired rows of others, and calls without a duration leave the
expiration alone. -/
inductive RowEffect (claims : Bool) (memberId : String) (now : Int) (duration : Option Int)
    (row : Option LeaseState) : Option LeaseState → Option ConsumerGroupLease → Prop
  | kept : RowEffect claims memberId now duration row row none
  | held {state : LeaseState} {lease : ConsumerGroupLease} {nowTsMs : Int}
      (isNow : unixMillis now = some nowTsMs) (owner : state.ownerId = memberId)
      (reported : lease.leaseExpirationTsMs = state.leaseExpirationTsMs)
      (free : ∀ before, row = some before →
        (claims = true ∧ before.isExpired nowTsMs = true) ∨ before.ownerId = memberId)
      (term : (∃ leaseDuration, duration = some leaseDuration
          ∧ state.leaseExpirationTsMs = nowTsMs + wholeMilliseconds leaseDuration)
        ∨ ∃ before, row = some before ∧ before.leaseExpirationTsMs = state.leaseExpirationTsMs) :
      RowEffect claims memberId now duration row (some state) (some lease)

/-- Only heartbeats renew the lease. -/
def LeaseMaintenanceOperation.term (leaseDuration : Int) : LeaseMaintenanceOperation → Option Int
  | .heartbeat => some leaseDuration
  | .commitCursor => none

variable {failure : Option String}

section Effects

variable {key : ConsumerGroupLeaseKey} {now leaseDuration : Int} {row after : Option LeaseState}
variable {memberId : String} {generation : Nat}

theorem assignPartition_rowEffect :
    RowEffect true memberId now (some leaseDuration) row
      (assignPartition row key memberId generation now leaseDuration).2
      (claimedLease (storeFailure (assignPartition row key memberId generation now leaseDuration).1)) := by
  have result := runCall_result row key now (.assign memberId generation leaseDuration)
  simp only [runCall] at result
  generalize assignPartition row key memberId generation now leaseDuration = called at result ⊢
  obtain ⟨reply, after⟩ := called
  simp only [Prod.map] at result ⊢
  generalize isAnswer : reply.map LeaseReply.assignment = answer at result
  cases result with
  | kept refused =>
    rcases reply with _ | _ | _
    · exact .kept
    · cases isAnswer
      cases refused
    · exact .kept
  | done succeeded isNow performed reported =>
    rcases reply with _ | ⟨lease, _, _⟩ | _ <;> cases isAnswer
    · have isLease := reported lease rfl
      subst isLease
      cases performed with
      | inserted term => exact .held isNow rfl rfl (by rintro before ⟨⟩) (Or.inl ⟨_, rfl, term⟩)
      | claimed free term =>
        refine .held isNow rfl rfl ?_ (Or.inl ⟨_, rfl, term⟩)
        rintro before ⟨⟩
        exact free.imp (fun expired => ⟨rfl, expired⟩) And.left
    · cases succeeded

theorem heartbeatPartition_rowEffect {cursor : Option CommittedCursor} :
    RowEffect false memberId now (some leaseDuration) row
      (heartbeatPartition row key memberId generation now leaseDuration cursor).2
      (maintainedLease ((storeFailure
        (heartbeatPartition row key memberId generation now leaseDuration cursor).1).map
          maintenanceOfHeartbeat)) := by
  have result := runCall_result row key now (.heartbeat memberId generation leaseDuration cursor)
  simp only [runCall] at result
  generalize heartbeatPartition row key memberId generation now leaseDuration cursor = called
    at result ⊢
  obtain ⟨reply, after⟩ := called
  simp only [Prod.map] at result ⊢
  generalize isAnswer : reply.map LeaseReply.heartbeat = answer at result
  cases result with
  | kept refused =>
    rcases reply with _ | _ | _ | _
    · exact .kept
    · cases isAnswer
      cases refused
    · exact .kept
    · exact .kept
  | done succeeded isNow performed reported =>
    rcases reply with _ | lease | _ | _ <;> cases isAnswer
    · have isLease := reported lease rfl
      subst isLease
      cases performed with
      | renewed live term isRenewed =>
        subst isRenewed
        refine .held isNow ?_ rfl (by rintro before ⟨⟩; exact Or.inr rfl) (Or.inl ⟨_, rfl, ?_⟩)
        · cases cursor <;> rfl
        · cases cursor <;> exact term
    · cases succeeded
    · cases succeeded

theorem commitCursor_rowEffect {cursor : CommittedCursor} :
    RowEffect false memberId now none row
      (ConsumerLeases.commitCursor row key memberId generation now cursor).2
      (maintainedLease ((storeFailure
        (ConsumerLeases.commitCursor row key memberId generation now cursor).1).map
          maintenanceOfCommit)) := by
  have result := runCall_result row key now (.commit memberId generation cursor)
  simp only [runCall] at result
  generalize ConsumerLeases.commitCursor row key memberId generation now cursor = called at result ⊢
  obtain ⟨reply, after⟩ := called
  simp only [Prod.map] at result ⊢
  generalize isAnswer : reply.map LeaseReply.commit = answer at result
  cases result with
  | kept refused =>
    rcases reply with _ | _ | _ | _
    · exact .kept
    · cases isAnswer
      cases refused
    · exact .kept
    · exact .kept
  | done succeeded isNow performed reported =>
    rcases reply with _ | lease | _ | _ <;> cases isAnswer
    · have isLease := reported lease rfl
      subst isLease
      cases performed with
      | committed live =>
        exact .held isNow rfl rfl (by rintro before ⟨⟩; exact Or.inr rfl) (Or.inr ⟨_, rfl, rfl⟩)
    · cases succeeded
    · cases succeeded

/-- A release leaves the row alone, or the row was the member's and still names it. -/
theorem releasePartition_row :
    (releasePartition row key memberId generation now).2 = row
      ∨ ∃ before state, row = some before ∧ before.ownerId = memberId
        ∧ (releasePartition row key memberId generation now) = (.ok .released, some state)
        ∧ state.ownerId = memberId := by
  have result := runCall_result row key now (.release memberId generation)
  simp only [runCall] at result
  generalize releasePartition row key memberId generation now = called at result ⊢
  obtain ⟨reply, after⟩ := called
  simp only [Prod.map] at result ⊢
  generalize isAnswer : reply.map LeaseReply.release = answer at result
  cases result with
  | kept refused => exact Or.inl rfl
  | done succeeded isNow performed reported =>
    rcases reply with _ | _ | _ | _ <;> cases isAnswer
    · cases performed with
      | released live => exact Or.inr ⟨_, _, rfl, rfl, rfl, rfl⟩
    · cases succeeded
    · cases succeeded

variable {config : GroupConfig} {world : GroupWorld} {partition : VirtualPartitionId}

theorem maintainCall_rowEffect {operation : LeaseMaintenanceOperation} {cursors : StagedCursors} :
    RowEffect false memberId now (operation.term (config.leaseDuration memberId))
      (world.store (config.key partition))
      (maintainCall config world memberId now partition operation cursors generation failure).2
      (maintainedLease
        (maintainCall config world memberId now partition operation cursors generation failure).1) := by
  unfold maintainCall
  cases failure with
  | some error => exact .kept
  | none =>
    cases operation with
    | heartbeat => exact heartbeatPartition_rowEffect
    | commitCursor =>
      cases cursors.lookup partition with
      | none => exact .kept
      | some cursor => exact commitCursor_rowEffect

/-- A claim, a heartbeat or a commit keeps the invariant, with a claim taking no partition whose owner
is releasing a copy in force and no call shortening the lease below a copy in force. -/
theorem GroupSound.called (sound : GroupSound config world)
    {operation answered : CoordinatorOperation} {claims : Bool} {duration : Option Int}
    {reported : Option ConsumerGroupLease}
    (active : (world.members memberId).operation = some operation)
    (idle : ∀ other, (world.members memberId).releasing other = false)
    (effect : RowEffect claims memberId operation.now duration (world.store (config.key partition))
      after reported)
    (captured : answered.now = operation.now)
    (reports : ∀ other, answered.reported other
      = operation.reported other ++ if partition = other then reported.toList else [])
    (grants : claims = true → ∀ state, world.store (config.key partition) = some state →
      state.ownerId ≠ memberId → (world.members state.ownerId).releasing partition = true →
      ∀ lease ∈ (world.members state.ownerId).copies partition, inForce world.clock lease = false)
    (keeps : ∀ leaseDuration, duration = some leaseDuration →
      ∀ lease ∈ (world.members memberId).copies partition, inForce world.clock lease = true →
        lease.leaseExpirationTsMs ≤ operation.now / 1000000 + wholeMilliseconds leaseDuration) :
    GroupSound config ((world.setRow (config.key partition) after).setMember memberId
      { world.members memberId with operation := some answered }) := by
  have started := sound.captured memberId operation active
  have copies (other : VirtualPartitionId) : ({ world.members memberId with
      operation := some answered } : GroupMemberState).copies other
        = (world.members memberId).copies other
          ++ if partition = other then reported.toList else [] := by
    simp [GroupMemberState.copies, active, reports]
  refine sound.update ?_ ?_ ?_ ?_
  · rintro _ ⟨⟩
    exact captured ▸ started
  · intro other differs lease known
    rw [copies, if_neg (Ne.symm differs), List.append_nil] at known
    exact ⟨known, idle other⟩
  · cases effect with
    | kept => exact Or.inl rfl
    | held isNow owner reported free term =>
      refine Or.inr fun other differs lease known => ?_
      by_contra force
      rw [Bool.not_eq_false] at force
      obtain ⟨state, isState, isOwner, covered⟩ := sound.backed other partition lease known force
      subst isOwner
      rcases free state isState with ⟨claims, expired⟩ | own
      · rcases covered with covered | releasing
        · -- A row that has expired for an old clock value backs no copy in force.
          have isMillis := Word.toInt64_eq_some isNow
          have expired := of_decide_eq_true expired
          have force := of_decide_eq_true force
          omega
        · rw [grants claims state isState differs releasing lease known] at force
          cases force
      · exact differs own
  · intro lease known force
    rw [copies, if_pos rfl] at known
    cases effect with
    | kept =>
      rw [Option.toList_none, List.append_nil] at known
      obtain ⟨state, isState, owner, covered⟩ := sound.backed memberId partition lease known force
      refine ⟨state, isState, owner, Or.inl (covered.resolve_right ?_)⟩
      simp [idle]
    | @held state _ nowTsMs isNow owner reported free term =>
      refine ⟨state, rfl, owner, Or.inl ?_⟩
      rcases List.mem_append.mp known with known | known
      · obtain ⟨before, isBefore, -, covered⟩ :=
          sound.backed memberId partition lease known force
        have covered := covered.resolve_right (by simp [idle])
        rcases term with ⟨leaseDuration, isDuration, isTerm⟩ | ⟨same, isSame, isTerm⟩
        · have bound := keeps leaseDuration isDuration lease known force
          have isMillis := Word.toInt64_eq_some isNow
          omega
        · cases isBefore.symm.trans isSame
          omega
      · obtain rfl := List.mem_singleton.mp known
        exact le_of_eq reported

end Effects

/-! ### Answers taken into account -/

section Answers

variable {partition : VirtualPartitionId} {lease : ConsumerGroupLease}

variable {owned : OwnedLeases}
variable {touched : VirtualPartitionId}

theorem lookup_insert_or {fresh : ConsumerGroupLease}
    (known : (owned.insert touched fresh).lookup partition = some lease) :
    (touched = partition ∧ fresh = lease) ∨ owned.lookup partition = some lease := by
  by_cases here : partition = touched
  · subst here
    rw [AList.lookup_insert] at known
    exact Or.inl ⟨rfl, Option.some.inj known⟩
  · rw [AList.lookup_insert_ne here] at known
    exact Or.inr known

theorem lookup_of_erase (known : (owned.erase touched).lookup partition = some lease) :
    owned.lookup partition = some lease := by
  by_cases here : partition = touched
  · subst here
    rw [AList.lookup_erase] at known
    cases known
  · rwa [AList.lookup_erase_ne here] at known

/-- Answers taken into account one by one add only copies that they reported. -/
theorem lookup_folded {State Outcome : Type} (owned : State → OwnedLeases)
    (apply : State → VirtualPartitionId × Outcome → State)
    (report : Outcome → Option ConsumerGroupLease)
    (adds : ∀ state outcome, (owned (apply state outcome)).lookup partition = some lease →
      (owned state).lookup partition = some lease
        ∨ (outcome.1 = partition ∧ report outcome.2 = some lease))
    {outcomes : List (VirtualPartitionId × Outcome)} {start : State}
    (known : (owned (outcomes.foldl apply start)).lookup partition = some lease) :
    (owned start).lookup partition = some lease ∨ lease ∈ outcomes.filterMap fun outcome =>
      if outcome.1 = partition then report outcome.2 else none := by
  induction outcomes generalizing start with
  | nil => exact Or.inl known
  | cons outcome rest ih =>
    rcases ih known with applied | later
    · rcases adds start outcome applied with before | ⟨here, reported⟩
      · exact Or.inl before
      · exact Or.inr (by simp [here, reported])
    · obtain ⟨found, mem, isLease⟩ := List.mem_filterMap.mp later
      exact Or.inr (List.mem_filterMap.mpr ⟨found, List.mem_cons_of_mem _ mem, isLease⟩)

theorem lookup_claimed {progress : ClaimProgress} {outcome : ClaimOutcome}
    (known : (progress.apply outcome.1 outcome.2).owned.lookup partition = some lease) :
    progress.owned.lookup partition = some lease
      ∨ (outcome.1 = partition ∧ claimedLease outcome.2 = some lease) := by
  match outcome with
  | (_, .error _) => exact Or.inl known
  | (_, .ok (.assigned fresh _ _)) =>
    rcases lookup_insert_or known with ⟨here, rfl⟩ | before
    · exact Or.inr ⟨here, rfl⟩
    · exact Or.inl before
  | (_, .ok (.heldByOther _)) => exact Or.inl (lookup_of_erase known)

theorem lookup_maintained {outcome : MaintenanceOutcome}
    (known : (maintainLease owned outcome).lookup partition = some lease) :
    owned.lookup partition = some lease
      ∨ (outcome.1 = partition ∧ maintainedLease outcome.2 = some lease) := by
  match outcome with
  | (_, .error _) => exact Or.inl known
  | (_, .ok (.renewed fresh)) =>
    rcases lookup_insert_or known with ⟨here, rfl⟩ | before
    · exact Or.inr ⟨here, rfl⟩
    · exact Or.inl before
  | (_, .ok (.heldByOther _)) => exact Or.inl (lookup_of_erase known)
  | (_, .ok .expired) => exact Or.inl (lookup_of_erase known)

end Answers

/-! ### Every step keeps copies backed -/

section Preservation

variable {config : GroupConfig} {world next : GroupWorld} {memberId : String}

theorem GroupSound.finish (sound : GroupSound config world)
    (stepped : world.finish memberId = some next) : GroupSound config next := by
  unfold GroupWorld.finish at stepped
  cases active : (world.members memberId).operation with
  | none => simp [active] at stepped
  | some operation =>
    have started := sound.captured memberId operation active
    have copies (partition : VirtualPartitionId) : (world.members memberId).copies partition
        = ((world.members memberId).coordinator.owned.lookup partition).toList
          ++ operation.reported partition := by
      simp [GroupMemberState.copies, active]
    -- An operation that ends only keeps copies it had or copies its answers report.
    have done (idle : ∀ partition, (world.members memberId).releasing partition = false)
        (coordinator : Coordinator) (kept : ∀ partition lease,
          coordinator.owned.lookup partition = some lease →
            (world.members memberId).coordinator.owned.lookup partition = some lease
              ∨ lease ∈ operation.reported partition) :
        GroupSound config (world.setMember memberId { coordinator, operation := none }) := by
      refine sound.local (by rintro operation ⟨⟩) fun partition lease known => ⟨?_, idle partition⟩
      simp only [GroupMemberState.copies, Option.map_none, Option.getD_none, List.append_nil,
        Option.mem_toList] at known
      rw [copies, List.mem_append, Option.mem_toList]
      exact kept partition lease known
    cases operation with
    | rebalance desired now pending outcomes =>
      cases pending with
      | cons first rest => simp [active] at stepped
      | nil =>
        simp only [active, Option.some.injEq] at stepped
        subst stepped
        exact done (by simp [GroupMemberState.releasing, active]) _ fun partition lease =>
          lookup_folded ClaimProgress.owned _ claimedLease (fun _ _ => lookup_claimed)
    | maintain operation cursors now pending outcomes =>
      cases pending with
      | cons first rest => simp [active] at stepped
      | nil =>
        simp only [active, Option.some.injEq] at stepped
        subst stepped
        exact done (by simp [GroupMemberState.releasing, active]) _ fun partition lease =>
          lookup_folded id _ maintainedLease (fun _ _ => lookup_maintained)
    | release now remaining answered =>
      cases answered with
      | some answered =>
        simp only [active, Option.some.injEq] at stepped
        subst stepped
        refine sound.local (by rintro operation ⟨⟩; exact started) fun partition lease known => ?_
        simp only [GroupMemberState.copies, Coordinator.finishRelease, Option.map_some,
          CoordinatorOperation.reported, Option.getD_some, List.append_nil,
          Option.mem_toList] at known
        -- Only the released partition was without backing, and its copy is gone.
        by_cases here : partition = answered
        · subst here
          rw [AList.lookup_erase] at known
          cases known
        · refine ⟨?_, by simpa [GroupMemberState.releasing, active] using Ne.symm here⟩
          rw [copies, List.mem_append, Option.mem_toList]
          exact Or.inl (lookup_of_erase known)
      | none =>
        cases remaining with
        | cons first rest => simp [active] at stepped
        | nil =>
          simp only [active, Option.some.injEq] at stepped
          subst stepped
          exact done (by simp [GroupMemberState.releasing, active]) _ fun _ _ => Or.inl

/-- An operation begins without answers, so no copy is added. -/
theorem GroupSound.begin (sound : GroupSound config world) {now : Int}
    {start : Coordinator → GroupMemberState}
    (captures : ∀ coordinator operation, (start coordinator).operation = some operation →
      operation.now = now)
    (same : ∀ coordinator partition, (start coordinator).copies partition
      = (coordinator.owned.lookup partition).toList)
    (stepped : world.begin memberId now start = some next) : GroupSound config next := by
  simp only [GroupWorld.begin] at stepped
  obtain ⟨guard, rfl⟩ := Machine.enabled stepped
  rw [Bool.and_eq_true, Option.isNone_iff_eq_none] at guard
  refine sound.local ?_ fun partition lease known => ⟨?_, ?_⟩
  · intro operation active
    rw [captures _ _ active]
    exact of_decide_eq_true guard.2
  · rw [same, Option.mem_toList] at known
    exact mem_copies_owned known
  · simp [GroupMemberState.releasing, guard.1]

theorem filterMap_answer {Outcome : Type} (touched partition : VirtualPartitionId) (answer : Outcome)
    (report : Outcome → Option ConsumerGroupLease) :
    ([(touched, answer)].filterMap fun outcome =>
      if outcome.1 = partition then report outcome.2 else none)
      = if touched = partition then (report answer).toList else [] := by
  by_cases here : touched = partition
  · cases isReport : report answer <;> simp [here, isReport]
  · simp [here]

variable {pending left : List VirtualPartitionId}

section

variable (sound : GroupSound config world)

include sound

theorem GroupSound.claim {partition : VirtualPartitionId} {desired : AssignmentMap} {now : Int}
    {outcomes : List ClaimOutcome}
    {called : Except String ConsumerGroupAssignmentOutcome × Option LeaseState}
    (active : (world.members memberId).operation = some (.rebalance desired now pending outcomes))
    (meets : exclusivityContract config world (.call memberId partition failure))
    (isCalled : called = claimCall config world memberId (world.members memberId).coordinator now
      partition failure) :
    GroupSound config ((world.setRow (config.key partition) called.2).setMember memberId
      { world.members memberId with
        operation := some (.rebalance desired now left (outcomes ++ [(partition, called.1)])) }) := by
  have idle : ∀ other, (world.members memberId).releasing other = false := by
    simp [GroupMemberState.releasing, active]
  have reports (other : VirtualPartitionId) :
      (CoordinatorOperation.rebalance desired now left (outcomes ++ [(partition, called.1)])).reported
        other = (CoordinatorOperation.rebalance desired now pending outcomes).reported other
          ++ if partition = other then (claimedLease called.1).toList else [] := by
    simp only [CoordinatorOperation.reported, List.filterMap_append, filterMap_answer]
  subst isCalled
  cases failure with
  | some error =>
    -- A call that fails has no effect on the row and no lease to report.
    have effect : RowEffect false memberId now none (world.store (config.key partition))
        (world.store (config.key partition)) none := .kept
    exact sound.called active idle effect rfl reports (by rintro ⟨⟩) (by rintro _ ⟨⟩)
  | none =>
    simp only [exclusivityContract, active] at meets
    refine sound.called active idle assignPartition_rowEffect rfl reports ?_ ?_
    · intro _ state isState
      simpa only [isState] using meets.2
    · rintro leaseDuration ⟨⟩
      exact meets.1

theorem GroupSound.maintain {partition : VirtualPartitionId} {operation : LeaseMaintenanceOperation}
    {cursors : StagedCursors} {now : Int} {pending left : List (VirtualPartitionId × Nat)}
    {outcomes : List MaintenanceOutcome} {generation : Nat}
    {called : Except String LeaseMaintenanceOutcome × Option LeaseState}
    (active : (world.members memberId).operation
      = some (.maintain operation cursors now pending outcomes))
    (meets : exclusivityContract config world (.call memberId partition failure))
    (isCalled : called = maintainCall config world memberId now partition operation cursors
      generation failure) :
    GroupSound config ((world.setRow (config.key partition) called.2).setMember memberId
      { world.members memberId with
        operation := some (.maintain operation cursors now left
          (outcomes ++ [(partition, called.1)])) }) := by
  have idle : ∀ other, (world.members memberId).releasing other = false := by
    simp [GroupMemberState.releasing, active]
  have reports (other : VirtualPartitionId) :
      (CoordinatorOperation.maintain operation cursors now left
        (outcomes ++ [(partition, called.1)])).reported other
        = (CoordinatorOperation.maintain operation cursors now pending outcomes).reported other
          ++ if partition = other then (maintainedLease called.1).toList else [] := by
    simp only [CoordinatorOperation.reported, List.filterMap_append, filterMap_answer]
  subst isCalled
  cases failure with
  | some error =>
    have effect : RowEffect false memberId now none (world.store (config.key partition))
        (world.store (config.key partition)) none := .kept
    exact sound.called active idle effect rfl reports (by rintro ⟨⟩) (by rintro _ ⟨⟩)
  | none =>
    simp only [exclusivityContract, active] at meets
    refine sound.called active idle maintainCall_rowEffect rfl reports (by rintro ⟨⟩) ?_
    cases operation with
    | heartbeat =>
      rintro leaseDuration ⟨⟩
      exact meets
    | commitCursor => rintro leaseDuration ⟨⟩

/-- The store releases a partition the member holds; the copy is dropped by a later step. -/
theorem GroupSound.released {partition : VirtualPartitionId} {now : Int} {generation : Nat}
    {called : StoreCall ConsumerGroupReleaseOutcome} {operation : Option CoordinatorOperation}
    (active : (world.members memberId).operation = some (.release now pending none))
    (isCalled : called = releasePartition (world.store (config.key partition))
      (config.key partition) memberId generation now)
    (isOperation : operation = match called.1 with
      | .ok _ => some (.release now left (some partition))
      | .error _ => none) :
    GroupSound config ((world.setRow (config.key partition) called.2).setMember memberId
      { world.members memberId with operation }) := by
  have started : now ≤ world.clock := sound.captured memberId _ active
  have idle : ∀ other, (world.members memberId).releasing other = false := by
    simp [GroupMemberState.releasing, active]
  have ends : operation = none ∨ operation = some (.release now left (some partition)) := by
    rw [isOperation]
    cases called.1 <;> simp
  have same (other : VirtualPartitionId) :
      ({ world.members memberId with operation } : GroupMemberState).copies other
        = (world.members memberId).copies other := by
    rcases ends with rfl | rfl <;>
      simp [GroupMemberState.copies, active, CoordinatorOperation.reported]
  refine sound.update ?_ ?_ ?_ ?_
  · rintro current isCurrent
    rcases ends with gone | stays
    · cases gone.symm.trans isCurrent
    · cases stays.symm.trans isCurrent
      exact started
  · intro other _ lease known
    rw [same] at known
    exact ⟨known, idle other⟩
  · rw [isCalled]
    rcases releasePartition_row with kept | ⟨before, state, isBefore, owner, -, -⟩
    · exact Or.inl kept
    · -- The row was this member's, so it backed no copy of another.
      refine Or.inr fun other differs lease known => ?_
      by_contra force
      rw [Bool.not_eq_false] at force
      obtain ⟨row, isRow, isOwner, -⟩ := sound.backed other partition lease known force
      cases isBefore.symm.trans isRow
      exact differs (isOwner.symm.trans owner)
  · intro lease known force
    rw [same] at known
    obtain ⟨row, isRow, isOwner, covered⟩ := sound.backed memberId partition lease known force
    have covered := covered.resolve_right (by simp [idle])
    rcases releasePartition_row with kept | ⟨before, state, isBefore, owner, isReply, isState⟩
    · rw [← isCalled] at kept
      exact ⟨row, kept.trans isRow, isOwner, Or.inl covered⟩
    · rw [← isCalled] at isReply
      rw [isReply] at isOperation ⊢
      exact ⟨state, rfl, isState, Or.inr (by simp [GroupMemberState.releasing, isOperation])⟩

theorem GroupSound.call {partition : VirtualPartitionId}
    (meets : exclusivityContract config world (.call memberId partition failure))
    (stepped : world.call config memberId partition failure = some next) :
    GroupSound config next := by
  simp only [GroupWorld.call] at stepped
  cases active : (world.members memberId).operation with
  | none => simp [active] at stepped
  | some operation =>
    have started := sound.captured memberId operation active
    cases operation with
    | rebalance desired now pending outcomes =>
      simp only [active] at stepped
      obtain ⟨-, rfl⟩ := Machine.enabled stepped
      exact sound.claim active meets rfl
    | maintain operation cursors now pending outcomes =>
      simp only [active] at stepped
      split at stepped
      · cases stepped
        exact sound.maintain active meets rfl
      · cases stepped
    | release now remaining answered =>
      have idle : answered = none → ∀ other, (world.members memberId).releasing other = false := by
        rintro rfl
        simp [GroupMemberState.releasing, active]
      have fewer (isNone : answered = none) (operation : Option CoordinatorOperation)
          (empty : ∀ other, (operation.map (·.reported other)).getD [] = [])
          (other : VirtualPartitionId) (lease : ConsumerGroupLease)
          (known : lease ∈ ({ world.members memberId with operation } :
            GroupMemberState).copies other) :
          lease ∈ (world.members memberId).copies other
            ∧ (world.members memberId).releasing other = false := by
        refine ⟨?_, idle isNone other⟩
        rw [GroupMemberState.copies, empty, List.append_nil, Option.mem_toList] at known
        exact mem_copies_owned known
      simp only [active] at stepped
      cases answered with
      | some answered => simp at stepped
      | none =>
        cases remaining with
        | nil => simp at stepped
        | cons first rest =>
          simp only at stepped
          split at stepped
          · split at stepped
            · cases stepped
              exact sound.local (by rintro operation ⟨⟩; exact started)
                (fewer rfl _ fun _ => rfl)
            · cases stepped
              exact sound.local (by rintro operation ⟨⟩) (fewer rfl _ fun _ => rfl)
            · cases stepped
              exact sound.released active rfl rfl
          · cases stepped

theorem GroupSound.step {action : GroupAction} (meets : exclusivityContract config world action)
    (stepped : world.step config action = some next) : GroupSound config next := by
  cases action with
  | tick clock =>
    simp only [GroupWorld.step] at stepped
    obtain ⟨order, rfl⟩ := Machine.enabled stepped
    refine ⟨fun memberId operation active => ?_, fun memberId partition lease known force => ?_⟩
    · exact le_trans (sound.captured memberId operation active) order
    · have later : clock < _ := of_decide_eq_true force
      exact sound.backed memberId partition lease known (decide_eq_true (by omega))
  | rebalance memberId plan partitions now =>
    simp only [GroupWorld.step] at stepped
    refine sound.begin ?_ (fun coordinator partition => ?_) stepped
    · rintro coordinator operation ⟨⟩
      rfl
    · have accepted : (coordinator.accept plan).owned = coordinator.owned := by cases plan <;> rfl
      simp [GroupMemberState.copies, CoordinatorOperation.reported, accepted]
  | maintain memberId operation cursors now | release =>
    simp only [GroupWorld.step] at stepped
    refine sound.begin ?_ (fun coordinator partition => ?_) stepped
    · rintro coordinator operation ⟨⟩
      rfl
    · simp [GroupMemberState.copies, CoordinatorOperation.reported]
  | call memberId partition failure => exact sound.call meets stepped
  | finish memberId => exact sound.finish stepped

end

end Preservation

theorem groupSound_reachable {config : GroupConfig} {clock : Int} {world : GroupWorld}
    (reached : Reachable (GroupWorld.step config) (exclusivityContract config) { clock } world) :
    GroupSound config world := by
  induction reached with
  | refl =>
    refine ⟨by rintro memberId operation ⟨⟩, fun memberId partition lease known => ?_⟩
    simp [GroupMemberState.copies] at known
  | tail _ meets stepped ih => exact ih.step meets stepped

/-- In every run whose calls meet the contract, at most one member has a partition in its map with an
expiration that lies ahead. -/
theorem one_holder {config : GroupConfig} {clock : Int} {world : GroupWorld}
    (reached : Reachable (GroupWorld.step config) (exclusivityContract config) { clock } world)
    {one two : String} {partition : VirtualPartitionId}
    (holdsOne : world.holds one partition = true) (holdsTwo : world.holds two partition = true) :
    one = two := by
  have sound := groupSound_reachable reached
  obtain ⟨first, ownedOne, forceOne⟩ := (Option.any_eq_true _ _).mp holdsOne
  obtain ⟨second, ownedTwo, forceTwo⟩ := (Option.any_eq_true _ _).mp holdsTwo
  obtain ⟨state, isState, ownerOne, -⟩ := sound.backed one partition first
    (mem_copies_owned ownedOne) forceOne
  obtain ⟨other, isOther, ownerTwo, -⟩ := sound.backed two partition second
    (mem_copies_owned ownedTwo) forceTwo
  cases isState.symm.trans isOther
  exact ownerOne.symm.trans ownerTwo

/-! ### Copies that outlive the row -/

def ordersConfig : GroupConfig where
  topic := "orders"
  groupId := "billing"
  leaseDuration := fun _ => 100000000

def planFor (memberId : String) (version : Nat) : ConsumerGroupAssignmentPlan where
  version := version
  plannerMemberId := memberId
  members := [memberId]
  memberTopology := none
  colocateLogicalPartitions := true
  assignments := [⟨0, memberId⟩, ⟨1, memberId⟩]
  publishedTsMs := 0

def claimsZero (memberId : String) (now : Int) : List GroupAction :=
  [.rebalance memberId (some (planFor memberId 1)) [0] (now * 1000000), .call memberId 0 none,
    .finish memberId]

/-- `a` holds both partitions until 150 ms and begins a heartbeat with a clock value of 10 ms, which
shortens the lease on 0 to 110 ms; while the call for 1 is under way, `b` claims 0 at 120 ms. -/
def staleHeartbeat : List GroupAction :=
  [.tick 50000000, .rebalance "a" (some (planFor "a" 1)) [0, 1] 50000000, .call "a" 0 none,
    .call "a" 1 none, .finish "a", .maintain "a" .heartbeat ∅ 10000000, .call "a" 0 none,
    .tick 120000000] ++ claimsZero "b" 120

/-- `a` holds 0 until 100 ms and releases it at 10 ms; before the copy is dropped, `b` claims 0. -/
def lateRemoval : List GroupAction :=
  claimsZero "a" 0 ++ [.tick 10000000, .release "a" [0] 10000000, .call "a" 0 none]
    ++ claimsZero "b" 10

/-- `a` and `b` both hold partition 0 with an expiration ahead, after either run. -/
theorem two_holders :
    [staleHeartbeat, lateRemoval].Forall fun actions =>
      ∃ world, Reachable (GroupWorld.step ordersConfig) anyAction { clock := 0 } world
        ∧ Machine.run (GroupWorld.step ordersConfig) { clock := 0 } actions = some world
        ∧ world.holds "a" 0 = true ∧ world.holds "b" 0 = true := by
  have outcome : ∀ actions ∈ [staleHeartbeat, lateRemoval],
      (Machine.run (GroupWorld.step ordersConfig) { clock := 0 } actions).map
        (fun world => (world.holds "a" 0, world.holds "b" 0)) = some (true, true) := by decide
  refine List.forall_iff_forall_mem.mpr fun actions chosen => ?_
  obtain ⟨world, executed, holds⟩ := Option.map_eq_some_iff.mp (outcome actions chosen)
  obtain ⟨holdsA, holdsB⟩ := Prod.mk.inj holds
  exact ⟨world, reachable_of_run (runAllowed_anyAction _ _ _) executed, executed, holdsA, holdsB⟩

/-- `b` claims 0 after the lease of `a` has expired, and renews it with the current clock. -/
def expiryTakeover : List GroupAction :=
  claimsZero "a" 0 ++ [.tick 110000000] ++ claimsZero "b" 110
    ++ [.tick 150000000, .maintain "b" .heartbeat ∅ 150000000, .call "b" 0 none, .finish "b"]

instance (config : GroupConfig) (world : GroupWorld) :
    DecidablePred (exclusivityContract config world) := fun action => by
  unfold exclusivityContract
  dsimp only
  repeat' split
  all_goals infer_instance

theorem one_holder_takeover :
    ∃ world, Reachable (GroupWorld.step ordersConfig) (exclusivityContract ordersConfig)
        { clock := 0 } world
      ∧ world.holds "b" 0 = true
      ∧ ∀ other, world.holds other 0 = true → other = "b" := by
  have outcome : (Machine.run (GroupWorld.step ordersConfig) { clock := 0 } expiryTakeover).map
      (fun world => world.holds "b" 0) = some true := by decide
  have meets : RunAllowed (GroupWorld.step ordersConfig) (exclusivityContract ordersConfig)
      { clock := 0 } expiryTakeover := by decide
  obtain ⟨world, executed, holdsB⟩ := Option.map_eq_some_iff.mp outcome
  have reached := reachable_of_run meets executed
  exact ⟨world, reached, holdsB, fun other holdsOther => one_holder reached holdsOther holdsB⟩

end BlobStream.Consumer
