import BlobStream.Types

/-!
# Consumer group membership, in memory

For each group the store keeps the registered members, the planner lease and the current assignment
plan. Instants are Unix milliseconds, as the store truncates them on entry. Every operation runs
under the store's lock and touches one group only.
-/

namespace BlobStream.GroupMembership

structure ConsumerGroupMember where
  memberId : String
  podId : Option String
  clusterId : Option String
deriving DecidableEq, Repr

structure ConsumerGroupAssignment where
  virtualPartitionId : VirtualPartitionId
  memberId : String
deriving DecidableEq, Repr

/-- Versioned desired ownership map shared by all consumers of a group. -/
structure ConsumerGroupAssignmentPlan where
  version : Nat
  plannerMemberId : String
  members : List String
  memberTopology : Option (List ConsumerGroupMember)
  colocateLogicalPartitions : Bool
  assignments : List ConsumerGroupAssignment
  publishedTsMs : Int
deriving DecidableEq, Repr

structure ConsumerGroupPlannerLease where
  memberId : String
  plannerSessionId : String
  leaseExpirationTsMs : Int
deriving DecidableEq, Repr

inductive ConsumerGroupPlannerLeaseOutcome
  | acquired
  | heldByOther
deriving DecidableEq, Repr

structure MemberState where
  leaseExpirationTsMs : Int
  podId : Option String
  clusterId : Option String
deriving DecidableEq, Repr

structure GroupState where
  members : List (String × MemberState) := []
  planner : Option ConsumerGroupPlannerLease := none
  plan : Option ConsumerGroupAssignmentPlan := none
deriving DecidableEq, Repr

inductive MembershipError
  | ttlNotPositive
  | expirationOverflow
deriving DecidableEq, Repr

def MembershipError.message : MembershipError → String
  | .ttlNotPositive => "membership ttl must be greater than zero"
  | .expirationOverflow => "membership expiration overflow"

def expiresAt (nowTsMs ttlMs : Int) : Except MembershipError Int :=
  if ttlMs ≤ 0 then .error .ttlNotPositive
  else if Word.int64Max < nowTsMs + ttlMs then .error .expirationOverflow
  else .ok (nowTsMs + ttlMs)

namespace GroupState

def registerMember (group : GroupState) (memberId : String) (podId clusterId : Option String)
    (nowTsMs ttlMs : Int) : Except MembershipError GroupState := do
  let expiration ← expiresAt nowTsMs ttlMs
  return { group with
    members := group.members.filter (·.1 ≠ memberId)
      ++ [(memberId, ⟨expiration, podId, clusterId⟩)] }

def deregisterMember (group : GroupState) (memberId : String) : GroupState :=
  { group with members := group.members.filter (·.1 ≠ memberId) }

/-- Members whose registration has not expired, in order of their ids. -/
def listActiveMembers (group : GroupState) (nowTsMs : Int) : List ConsumerGroupMember :=
  let active := group.members.filter fun (_, state) => nowTsMs < state.leaseExpirationTsMs
  (active.map fun (memberId, state) =>
    (⟨memberId, state.podId, state.clusterId⟩ : ConsumerGroupMember)).insertionSort
      fun left right => left.memberId ≤ right.memberId

/-- The planner lease is in force for someone other than this session. -/
def heldByOther (group : GroupState) (memberId plannerSessionId : String) (nowTsMs : Int) : Bool :=
  group.planner.any fun planner =>
    nowTsMs < planner.leaseExpirationTsMs
      && (planner.memberId ≠ memberId || planner.plannerSessionId ≠ plannerSessionId)

def acquireOrRenewPlanner (group : GroupState) (memberId plannerSessionId : String)
    (nowTsMs ttlMs : Int) :
    Except MembershipError (ConsumerGroupPlannerLeaseOutcome × GroupState) := do
  let expiration ← expiresAt nowTsMs ttlMs
  if group.heldByOther memberId plannerSessionId nowTsMs then return (.heldByOther, group)
  else return (.acquired, { group with planner := some ⟨memberId, plannerSessionId, expiration⟩ })

def isPlanner (group : GroupState) (memberId plannerSessionId : String) : Bool :=
  group.planner.any fun planner =>
    planner.memberId = memberId && planner.plannerSessionId = plannerSessionId

def releasePlanner (group : GroupState) (memberId plannerSessionId : String) : Bool × GroupState :=
  if group.isPlanner memberId plannerSessionId then (true, { group with planner := none })
  else (false, group)

/-- Publish a plan while the caller's planner lease is in force. -/
def publishAssignmentPlan (group : GroupState) (memberId plannerSessionId : String) (nowTsMs : Int)
    (plan : ConsumerGroupAssignmentPlan) : Bool × GroupState :=
  match group.planner with
  | none => (false, group)
  | some planner =>
    if planner.memberId ≠ memberId || planner.plannerSessionId ≠ plannerSessionId
        || planner.leaseExpirationTsMs ≤ nowTsMs || plan.plannerMemberId ≠ memberId then
      (false, group)
    else (true, { group with plan := some plan })

/-! ### What planner operations do -/

variable {group after : GroupState} {memberId plannerSessionId : String} {nowTsMs ttlMs : Int}

/-- An acquisition keeps the plan; it either installs the caller or leaves the group alone. -/
theorem acquireOrRenewPlanner_cases {outcome : ConsumerGroupPlannerLeaseOutcome}
    (called : group.acquireOrRenewPlanner memberId plannerSessionId nowTsMs ttlMs
      = .ok (outcome, after)) :
    (outcome = .heldByOther ∧ after = group)
      ∨ (outcome = .acquired ∧ group.heldByOther memberId plannerSessionId nowTsMs = false
        ∧ ∃ expiration, after =
          { group with planner := some ⟨memberId, plannerSessionId, expiration⟩ }) := by
  unfold acquireOrRenewPlanner at called
  cases expires : expiresAt nowTsMs ttlMs with
  | error error =>
    rw [expires] at called
    cases called
  | ok expiration =>
    rw [expires] at called
    simp only [Bind.bind, Except.bind] at called
    split at called
    next held =>
      cases called
      exact Or.inl ⟨rfl, rfl⟩
    next free =>
      cases called
      exact Or.inr ⟨rfl, by simpa using free, expiration, rfl⟩

/-- A publication that succeeds finds its own session on the planner row. -/
theorem publishAssignmentPlan_cases (group : GroupState) (memberId plannerSessionId : String)
    (nowTsMs : Int) (plan : ConsumerGroupAssignmentPlan) :
    group.publishAssignmentPlan memberId plannerSessionId nowTsMs plan = (false, group)
      ∨ (group.isPlanner memberId plannerSessionId = true
        ∧ group.publishAssignmentPlan memberId plannerSessionId nowTsMs plan
          = (true, { group with plan := some plan })) := by
  unfold publishAssignmentPlan
  split
  · exact Or.inl rfl
  next planner present =>
    split
    · exact Or.inl rfl
    next allowed =>
      simp only [Bool.or_eq_true, decide_eq_true_eq, not_or, ne_eq, not_not] at allowed
      refine Or.inr ⟨?_, rfl⟩
      simp [isPlanner, present, allowed.1.1.1, allowed.1.1.2]

end GroupState

end BlobStream.GroupMembership
