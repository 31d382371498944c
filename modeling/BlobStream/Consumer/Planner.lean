import BlobStream.Consumer.AssignmentPlan
import BlobStream.Lib.Machine

/-!
# Planners of one consumer group

Every member resolves the shared assignment by store calls: it reads the plan, may take the planner
lease, and publishes a successor of the plan it read. `PlanCall` is one such resolution in progress;
steps of different members interleave freely. A member is named by its planner session.
-/

namespace BlobStream.Consumer

open Word GroupMembership

structure CoordinatorConfig where
  memberId : String
  podId : Option String
  clusterId : Option String
  leaseDurationMs : Int
deriving DecidableEq, Repr

structure PlacementInput where
  members : List String
  partitions : List VirtualPartitionId
  memberTopology : Option (List ConsumerGroupMember)
  previousTopology : List ConsumerGroupMember
  previousAssignment : AssignmentMap
  localMemberId : String
  /-- Optional consolidation is only allowed when the membership changed. -/
  membershipChanged : Bool

/-- The placement policy, cooperative and sticky. -/
abbrev Placement := PlacementInput → AssignmentMap

inductive StoreOperation
  | getAssignmentPlan
  | listActiveMembers
  | getPlannerLease
  | retainPlanner
  | acquirePlanner
  | publishAssignmentPlan (plan : ConsumerGroupAssignmentPlan)
  | refreshAssignmentPlan
deriving DecidableEq, Repr

structure PlanCall where
  members : List String
  partitions : List VirtualPartitionId
  /-- The instant captured when the call began; every store call uses it. -/
  nowTsMs : Int
  currentPlan : Option ConsumerGroupAssignmentPlan := none
  memberTopology : Option (List ConsumerGroupMember) := none
  next : StoreOperation := .getAssignmentPlan
deriving DecidableEq, Repr

structure SharedAssignment where
  plan : Option ConsumerGroupAssignmentPlan
  rejectedAssignmentPlanVersion : Option Nat
deriving DecidableEq, Repr

inductive PlanningError
  | store (error : MembershipError)
  | invalidPlan (reason : AssignmentPlanValidationError)
deriving DecidableEq, Repr

inductive PlanProgress
  | pending (call : PlanCall)
  | returned (assignment : SharedAssignment)
  | failed (error : PlanningError)
deriving DecidableEq, Repr

def PlanProgress.call : PlanProgress → Option PlanCall
  | .pending call => some call
  | _ => none

namespace PlanCall

def validationError (call : PlanCall) : Option AssignmentPlanValidationError :=
  call.currentPlan.bind (assignmentPlanValidationError · call.partitions)

def currentPlanIsValid (call : PlanCall) : Bool :=
  call.currentPlan.isSome && call.validationError.isNone

def rejectedVersion (call : PlanCall) : Option Nat :=
  call.currentPlan.bind fun plan => call.validationError.map fun _ => plan.version

def currentMembers (call : PlanCall) (config : CoordinatorConfig) : List String :=
  canonicalMembersWithLocal call.members config.memberId

def membershipChanged (call : PlanCall) (config : CoordinatorConfig) : Bool :=
  call.currentPlan.any fun plan =>
    call.currentPlanIsValid && plan.members ≠ call.currentMembers config

def topologyChanged (call : PlanCall) (config : CoordinatorConfig) : Bool :=
  call.currentPlan.any fun plan =>
    plan.members ≠ call.currentMembers config || plan.memberTopology ≠ call.memberTopology

/-- With the topology known, a valid plan is first checked against the planner lease. -/
def afterTopology (call : PlanCall) : PlanCall :=
  { call with next := if call.currentPlanIsValid then .getPlannerLease else .acquirePlanner }

def afterPlanRead (call : PlanCall) (config : CoordinatorConfig) : PlanCall :=
  if config.podId.isSome then { call with next := .listActiveMembers } else call.afterTopology

def successor (call : PlanCall) (place : Placement) (config : CoordinatorConfig) :
    ConsumerGroupAssignmentPlan :=
  let previousTopology := match call.currentPlan with
    | some plan => if call.currentPlanIsValid then plan.memberTopology.getD [] else []
    | none => []
  let assignment := place
    { members := call.members
      partitions := call.partitions
      memberTopology := call.memberTopology
      previousTopology := previousTopology
      previousAssignment := match call.currentPlan with
        | some plan => planAssignmentMap plan
        | none => fun _ => none
      localMemberId := config.memberId
      membershipChanged := call.membershipChanged config }
  let version := match call.currentPlan with
    | some plan => saturatingAdd u64Max plan.version 1
    | none => 1
  assignmentPlan version call.members call.partitions assignment call.memberTopology
    config.memberId call.nowTsMs

def afterPlannerLease (call : PlanCall) (config : CoordinatorConfig)
    (plan : ConsumerGroupAssignmentPlan) (lease : Option ConsumerGroupPlannerLease) :
    PlanProgress :=
  let plannerIsActive := lease.any fun lease =>
    lease.memberId = plan.plannerMemberId && call.nowTsMs < lease.leaseExpirationTsMs
  if plannerIsActive && plan.plannerMemberId ≠ config.memberId then
    .returned ⟨some plan, call.rejectedVersion⟩
  else if plannerIsActive && !call.topologyChanged config then
    .pending { call with next := .retainPlanner }
  else .pending { call with next := .acquirePlanner }

def afterRefresh (call : PlanCall) (refreshed : Option ConsumerGroupAssignmentPlan) :
    SharedAssignment :=
  match refreshed with
  | none => ⟨none, call.rejectedVersion⟩
  | some plan =>
    if (assignmentPlanValidationError plan call.partitions).isSome then
      ⟨none, call.rejectedVersion.or (some plan.version)⟩
    else ⟨some plan, call.rejectedVersion⟩

def planSuccessor (call : PlanCall) (place : Placement) (config : CoordinatorConfig) :
    PlanProgress :=
  let plan := call.successor place config
  match assignmentPlanValidationError plan call.partitions with
  | some reason => .failed (.invalidPlan reason)
  | none => .pending { call with next := .publishAssignmentPlan plan }

def execute (call : PlanCall) (place : Placement) (config : CoordinatorConfig)
    (plannerSessionId : String) (group : GroupState) : PlanProgress × GroupState :=
  match call.next with
  | .getAssignmentPlan =>
    (.pending ({ call with currentPlan := group.plan }.afterPlanRead config), group)
  | .listActiveMembers =>
    let memberTopology := canonicalMemberTopology (call.currentMembers config)
      (group.listActiveMembers call.nowTsMs) config.memberId config.podId config.clusterId
    (.pending { call with memberTopology := memberTopology }.afterTopology, group)
  | .getPlannerLease =>
    match call.currentPlan with
    | some plan => (call.afterPlannerLease config plan group.planner, group)
    | none => (.pending { call with next := .acquirePlanner }, group)
  | .retainPlanner =>
    match group.acquireOrRenewPlanner config.memberId plannerSessionId call.nowTsMs
        config.leaseDurationMs with
    | .error error => (.failed (.store error), group)
    | .ok (.acquired, group) => (.returned ⟨call.currentPlan, call.rejectedVersion⟩, group)
    | .ok (.heldByOther, group) => (.pending { call with next := .acquirePlanner }, group)
  | .acquirePlanner =>
    match group.acquireOrRenewPlanner config.memberId plannerSessionId call.nowTsMs
        config.leaseDurationMs with
    | .error error => (.failed (.store error), group)
    | .ok (.acquired, group) => (call.planSuccessor place config, group)
    | .ok (.heldByOther, group) => (.pending { call with next := .refreshAssignmentPlan }, group)
  | .publishAssignmentPlan plan =>
    match group.publishAssignmentPlan config.memberId plannerSessionId call.nowTsMs plan with
    | (true, group) => (.returned ⟨some plan, call.rejectedVersion⟩, group)
    | (false, group) => (.pending { call with next := .refreshAssignmentPlan }, group)
  | .refreshAssignmentPlan => (.returned (call.afterRefresh group.plan), group)

def publishes (call : PlanCall) (config : CoordinatorConfig) (plannerSessionId : String)
    (group : GroupState) : List ConsumerGroupAssignmentPlan :=
  match call.next with
  | .publishAssignmentPlan plan =>
    if (group.publishAssignmentPlan config.memberId plannerSessionId call.nowTsMs plan).1
    then [plan] else []
  | _ => []

end PlanCall

/-! ### All members of the group -/

structure PlannerWorld where
  clock : Int
  group : GroupState := {}
  /-- The resolution each session has in progress. -/
  calls : String → Option PlanCall := fun _ => none
  /-- Every plan stored so far, oldest first. -/
  published : List ConsumerGroupAssignmentPlan := []

inductive PlannerAction
  | tick (now : Int)
  | register (session : String)
  | deregister (session : String)
  | start (session : String) (members : List String) (partitions : List VirtualPartitionId)
      (nowTsMs : Int)
  | execute (session : String)
  /-- The call ends early: a store error, or the caller was dropped. -/
  | abort (session : String)
  | releasePlanner (session : String)
deriving DecidableEq

def PlannerWorld.setCall (world : PlannerWorld) (session : String) (call : Option PlanCall) :
    PlannerWorld :=
  { world with calls := Function.update world.calls session call }

def plannerStep (place : Placement) (config : String → CoordinatorConfig) (world : PlannerWorld) :
    PlannerAction → Option PlannerWorld
  | .tick now => if world.clock ≤ now then some { world with clock := now } else none
  | .register session =>
    match world.group.registerMember (config session).memberId (config session).podId
        (config session).clusterId world.clock (config session).leaseDurationMs with
    | .ok group => some { world with group := group }
    | .error _ => none
  | .deregister session =>
    some { world with group := world.group.deregisterMember (config session).memberId }
  | .start session members partitions nowTsMs =>
    if nowTsMs ≤ world.clock ∧ world.calls session = none then
      some (world.setCall session (some { members, partitions, nowTsMs }))
    else none
  | .execute session =>
    match world.calls session with
    | none => none
    | some call =>
      let (progress, group) := call.execute place (config session) session world.group
      some { world.setCall session progress.call with
        group := group
        published := world.published ++ call.publishes (config session) session world.group }
  | .abort session => some (world.setCall session none)
  | .releasePlanner session =>
    if world.calls session = none then
      some { world with
        group := (world.group.releasePlanner (config session).memberId session).2 }
    else none

end BlobStream.Consumer
