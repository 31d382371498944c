import BlobStream.Consumer.Planner

/-!
# Versions of published plans

A planner derives the version of its plan from the plan it read before it acquired the planner
lease; publication only checks the lease. Versions increase with every publication as long as a
planner that acquires the lease still finds the plan it read.
-/

namespace BlobStream.Consumer

open Word GroupMembership

def PlanCall.publishing (call : PlanCall) : Option ConsumerGroupAssignmentPlan :=
  match call.next with
  | .publishAssignmentPlan plan => some plan
  | _ => none

def PlanProgress.publishing (progress : PlanProgress) : Option ConsumerGroupAssignmentPlan :=
  progress.call.bind PlanCall.publishing

/-! ### What one store call can do -/

section Execute

variable (call : PlanCall) (place : Placement) (config : CoordinatorConfig) (session : String)
variable (group : GroupState)

theorem afterTopology_publishing : call.afterTopology.publishing = none := by
  unfold PlanCall.afterTopology PlanCall.publishing
  split
  next plan chosen => split at chosen <;> cases chosen
  next => rfl

theorem afterPlanRead_publishing : (call.afterPlanRead config).publishing = none := by
  unfold PlanCall.afterPlanRead
  split
  · rfl
  · exact afterTopology_publishing call

theorem afterPlannerLease_publishing (plan : ConsumerGroupAssignmentPlan)
    (lease : Option ConsumerGroupPlannerLease) :
    (call.afterPlannerLease config plan lease).publishing = none := by
  unfold PlanCall.afterPlannerLease
  simp only
  split
  · rfl
  · split <;> rfl

theorem planSuccessor_publishing {plan : ConsumerGroupAssignmentPlan}
    (planned : (call.planSuccessor place config).publishing = some plan) :
    plan = call.successor place config := by
  unfold PlanCall.planSuccessor at planned
  simp only at planned
  split at planned
  · cases planned
  · cases planned
    rfl

/-- The effect of one store call: nothing, the planner lease, or a publication. -/
inductive ExecuteEffect : PlanProgress → GroupState → List ConsumerGroupAssignmentPlan → Prop
  | quiet {progress : PlanProgress} (silent : progress.publishing = none) :
      ExecuteEffect progress group []
  | acquired {progress : PlanProgress} {expiration : Int}
      (free : group.heldByOther config.memberId session call.nowTsMs = false)
      (planned : ∀ plan, progress.publishing = some plan →
        call.next = .acquirePlanner ∧ plan = call.successor place config) :
      ExecuteEffect progress
        { group with planner := some ⟨config.memberId, session, expiration⟩ } []
  | published {plan : ConsumerGroupAssignmentPlan} {assignment : SharedAssignment}
      (pending : call.publishing = some plan)
      (holder : group.isPlanner config.memberId session = true) :
      ExecuteEffect (.returned assignment) { group with plan := some plan } [plan]

theorem execute_effect :
    ExecuteEffect call place config session group
      (call.execute place config session group).1 (call.execute place config session group).2
      (call.publishes config session group) := by
  unfold PlanCall.execute PlanCall.publishes
  cases next : call.next with
  | getAssignmentPlan => exact .quiet (afterPlanRead_publishing _ config)
  | listActiveMembers => exact .quiet (afterTopology_publishing _)
  | getPlannerLease =>
    simp only
    split
    · exact .quiet (afterPlannerLease_publishing _ config _ _)
    · exact .quiet rfl
  | retainPlanner =>
    simp only
    split
    · exact .quiet rfl
    next after acquires =>
      rcases group.acquireOrRenewPlanner_cases acquires with ⟨⟨⟩, -⟩ | ⟨-, free, expiration, rfl⟩
      exact .acquired free (by simp [PlanProgress.publishing, PlanProgress.call])
    next after acquires =>
      rcases group.acquireOrRenewPlanner_cases acquires with ⟨-, rfl⟩ | ⟨⟨⟩, -⟩
      exact .quiet rfl
  | acquirePlanner =>
    simp only
    split
    · exact .quiet rfl
    next after acquires =>
      rcases group.acquireOrRenewPlanner_cases acquires with ⟨⟨⟩, -⟩ | ⟨-, free, expiration, rfl⟩
      refine .acquired free fun plan planned => ⟨next, ?_⟩
      exact planSuccessor_publishing call place config planned
    next after acquires =>
      rcases group.acquireOrRenewPlanner_cases acquires with ⟨-, rfl⟩ | ⟨⟨⟩, -⟩
      exact .quiet rfl
  | publishAssignmentPlan plan =>
    simp only
    rcases group.publishAssignmentPlan_cases config.memberId session call.nowTsMs plan with
      refused | ⟨holder, stored⟩
    · rw [refused]
      exact .quiet rfl
    · rw [stored]
      exact .published (by simp [PlanCall.publishing, next]) holder
  | refreshAssignmentPlan => exact .quiet rfl

end Execute

/-! ### The invariant -/

/-- Conditions on the acquisition that precedes a publication: the plan read before is still the
stored one, unless the acquisition is refused anyway, and its version has a successor. -/
def planContract (config : String → CoordinatorConfig) (world : PlannerWorld) :
    PlannerAction → Bool
  | .execute session =>
    match world.calls session with
    | some call =>
      call.next ≠ .acquirePlanner
        || world.group.heldByOther (config session).memberId session call.nowTsMs
        || (world.group.plan.map ConsumerGroupAssignmentPlan.version
            == call.currentPlan.map ConsumerGroupAssignmentPlan.version
          && call.currentPlan.all fun plan => plan.version < u64Max)
    | none => true
  | _ => true

/-- Every published plan is older than `version`. -/
def AllOlder (published : List ConsumerGroupAssignmentPlan) (version : Nat) : Prop :=
  ∀ plan ∈ published, plan.version < version

structure VersionsSound (config : String → CoordinatorConfig) (world : PlannerWorld) : Prop where
  ordered : world.published.Pairwise fun earlier later => earlier.version < later.version
  stored : ∀ earlier ∈ world.published, ∃ plan, world.group.plan = some plan
    ∧ earlier.version ≤ plan.version
  /-- Whoever holds the planner row and is about to publish has a newer plan than all before. -/
  pending : ∀ session call plan, world.calls session = some call → call.publishing = some plan →
    world.group.isPlanner (config session).memberId session = true →
    AllOlder world.published plan.version

theorem isPlanner_session {group : GroupState} {memberId other session otherSession : String}
    (own : group.isPlanner memberId session = true)
    (held : group.isPlanner other otherSession = true) : session = otherSession := by
  unfold GroupState.isPlanner at own held
  cases present : group.planner with
  | none => simp [present] at own
  | some planner =>
    rw [present] at own held
    simp only [Option.any_some, Bool.and_eq_true, decide_eq_true_eq] at own held
    exact own.2.symm.trans held.2

/-- The successor of a current plan is newer than everything published. -/
theorem successor_newer {config : String → CoordinatorConfig} {world : PlannerWorld}
    (sound : VersionsSound config world) (place : Placement) (call : PlanCall) (session : String)
    (current : world.group.plan.map ConsumerGroupAssignmentPlan.version
      = call.currentPlan.map ConsumerGroupAssignmentPlan.version)
    (bounded : call.currentPlan.all (fun plan => plan.version < u64Max) = true) :
    AllOlder world.published (call.successor place (config session)).version := by
  intro earlier member
  obtain ⟨plan, stored, older⟩ := sound.stored earlier member
  rw [stored] at current
  cases read : call.currentPlan with
  | none => simp [read] at current
  | some before =>
    rw [read] at current bounded
    simp only [Option.map_some, Option.some.injEq] at current
    simp only [Option.all_some, decide_eq_true_eq] at bounded
    have version : (call.successor place (config session)).version
        = saturatingAdd u64Max before.version 1 := by
      simp [PlanCall.successor, assignmentPlan, read]
    rw [version, saturatingAdd_of_le (by omega)]
    omega

/-! ### Steps and runs -/

section Runs

variable {place : Placement} {config : String → CoordinatorConfig} {world after : PlannerWorld}

section

variable (sound : VersionsSound config world)

include sound

/-- A step that publishes nothing and lets nobody else publish. -/
theorem VersionsSound.frame (plan : after.group.plan = world.group.plan)
    (published : after.published = world.published)
    (pending : ∀ session call plan, after.calls session = some call →
      call.publishing = some plan →
      after.group.isPlanner (config session).memberId session = true →
      AllOlder world.published plan.version) : VersionsSound config after := by
  refine ⟨?_, ?_, ?_⟩
  · rw [published]
    exact sound.ordered
  · rw [published, plan]
    exact sound.stored
  · rw [published]
    exact pending

/-- Replacing a session's resolution by one that is not about to publish. -/
theorem VersionsSound.setCall (session : String) {call? : Option PlanCall}
    (silent : ∀ call, call? = some call → call.publishing = none) :
    VersionsSound config (world.setCall session call?) := by
  refine sound.frame rfl rfl ?_
  intro other call plan owned publishing holder
  by_cases same : other = session
  · subst same
    simp only [PlannerWorld.setCall, Function.update_self] at owned
    rw [silent call owned] at publishing
    cases publishing
  · simp only [PlannerWorld.setCall, Function.update_of_ne same] at owned
    exact sound.pending other call plan owned publishing holder

theorem VersionsSound.setMembers {group : GroupState} (plan : group.plan = world.group.plan)
    (planner : group.planner = world.group.planner) :
    VersionsSound config { world with group := group } := by
  refine sound.frame plan rfl ?_
  intro session call planned owned publishing holder
  refine sound.pending session call planned owned publishing ?_
  simpa only [GroupState.isPlanner, planner] using holder

end

theorem registerMember_frame {group registered : GroupState} {memberId : String}
    {podId clusterId : Option String} {nowTsMs ttlMs : Int}
    (called : group.registerMember memberId podId clusterId nowTsMs ttlMs = .ok registered) :
    registered.plan = group.plan ∧ registered.planner = group.planner := by
  unfold GroupState.registerMember at called
  cases expires : expiresAt nowTsMs ttlMs with
  | error error =>
    rw [expires] at called
    cases called
  | ok expiration =>
    rw [expires] at called
    cases called
    exact ⟨rfl, rfl⟩

theorem versionsSound_execute (sound : VersionsSound config world) {session : String}
    {call : PlanCall} (owned : world.calls session = some call)
    (meets : planContract config world (.execute session) = true)
    {progress : PlanProgress} {group : GroupState} {stored : List ConsumerGroupAssignmentPlan}
    (effect : ExecuteEffect call place (config session) session world.group progress group stored) :
    VersionsSound config
      { world.setCall session progress.call with
        group := group, published := world.published ++ stored } := by
  have next {plan : ConsumerGroupAssignmentPlan} {after : PlanCall}
      (kept : progress.call = some after) (publishing : after.publishing = some plan) :
      progress.publishing = some plan := by
    rw [PlanProgress.publishing, kept]
    exact publishing
  cases effect with
  | quiet silent =>
    rw [List.append_nil]
    refine sound.setCall session fun after kept => ?_
    cases publishing : after.publishing with
    | none => rfl
    | some plan =>
      rw [next kept publishing] at silent
      cases silent
  | @acquired progress expiration free planned =>
    rw [List.append_nil]
    have own : GroupState.isPlanner
        { world.group with planner := some ⟨(config session).memberId, session, expiration⟩ }
        (config session).memberId session = true := by simp [GroupState.isPlanner]
    refine sound.frame rfl rfl ?_
    intro other after plan kept publishing holder
    have same : other = session := isPlanner_session holder own
    subst same
    simp only [PlannerWorld.setCall, Function.update_self] at kept
    obtain ⟨acquiring, rfl⟩ := planned plan (next kept publishing)
    simp only [planContract, owned, acquiring, ne_eq, not_true_eq_false, decide_false,
      Bool.false_or, free, Bool.and_eq_true, beq_iff_eq] at meets
    exact successor_newer sound place call other meets.1 meets.2
  | @published plan assignment pending holder =>
    have newer := sound.pending session call plan owned pending holder
    refine ⟨?_, ?_, ?_⟩
    · refine List.pairwise_append.mpr ⟨sound.ordered, List.pairwise_singleton _ _, ?_⟩
      intro earlier before later last
      rw [List.mem_singleton.mp last]
      exact newer earlier before
    · intro earlier member
      refine ⟨plan, rfl, ?_⟩
      rcases List.mem_append.mp member with before | last
      · exact Nat.le_of_lt (newer earlier before)
      · rw [List.mem_singleton.mp last]
    · intro other after later kept publishing held
      have same : other = session := isPlanner_session held holder
      subst same
      simp only [PlannerWorld.setCall, Function.update_self] at kept
      cases kept

theorem versionsSound_step {action : PlannerAction} (sound : VersionsSound config world)
    (meets : planContract config world action = true)
    (stepped : plannerStep place config world action = some after) :
    VersionsSound config after := by
  cases action <;> simp only [plannerStep] at stepped
  case tick now =>
    obtain ⟨-, rfl⟩ := Machine.enabled stepped
    exact ⟨sound.ordered, sound.stored, sound.pending⟩
  case register session =>
    split at stepped
    next group registered =>
      cases stepped
      obtain ⟨plan, planner⟩ := registerMember_frame registered
      exact sound.setMembers plan planner
    next => cases stepped
  case deregister session =>
    cases stepped
    exact sound.setMembers rfl rfl
  case start session members partitions nowTsMs =>
    obtain ⟨-, rfl⟩ := Machine.enabled stepped
    refine sound.setCall session ?_
    rintro call ⟨⟩
    rfl
  case execute session =>
    split at stepped
    · cases stepped
    next call owned =>
      cases stepped
      exact versionsSound_execute sound owned meets (execute_effect call place (config session)
        session world.group)
  case abort session =>
    cases stepped
    exact sound.setCall session (by simp)
  case releasePlanner session =>
    obtain ⟨-, rfl⟩ := Machine.enabled stepped
    unfold GroupState.releasePlanner
    split
    · refine sound.frame rfl rfl ?_
      intro other call plan owned publishing holder
      simp [GroupState.isPlanner] at holder
    · exact sound.setMembers rfl rfl

/-- In every run that meets `planContract`, each published plan has a larger version than all plans
published before it. -/
theorem plan_versions_increase (place : Placement) (config : String → CoordinatorConfig)
    (clock : Int) {world : PlannerWorld}
    (reached : Machine.Reachable (plannerStep place config)
      (fun world action => planContract config world action = true) { clock := clock } world) :
    world.published.Pairwise fun earlier later => earlier.version < later.version := by
  have initial : VersionsSound config { clock := clock } :=
    ⟨List.Pairwise.nil, by simp, by simp⟩
  have sound := reached.invariant initial
    fun _ _ _ before meets stepped => versionsSound_step before meets stepped
  exact sound.ordered

end Runs

/-! ### Two planners with one version -/

/-- Versions have a successor; nothing else is asked of a run. -/
def boundedVersions (world : PlannerWorld) : PlannerAction → Bool
  | .execute session =>
    (world.calls session).all fun call => call.currentPlan.all fun plan => plan.version < u64Max
  | _ => true

def soleOwner : Placement := fun input _ => some input.localMemberId

/-- Members are named by their sessions and hold leases of a hundred milliseconds. -/
def flatGroup (session : String) : CoordinatorConfig where
  memberId := session
  podId := none
  clusterId := none
  leaseDurationMs := 100

/-- `a` acquires the planner lease and is slow to publish; `b` reads the plan before `a` publishes
and takes the expired lease afterwards. -/
def slowPlanner : List PlannerAction :=
  [.start "a" ["a"] [0] 0, .execute "a", .execute "a", .tick 200,
    .start "b" ["b"] [0] 200, .execute "b", .execute "a", .execute "b", .execute "b"]

def promptPlanner : List PlannerAction :=
  [.start "a" ["a"] [0] 0, .execute "a", .execute "a", .execute "a", .tick 200,
    .start "b" ["b"] [0] 200, .execute "b", .execute "b", .execute "b", .execute "b"]

/-- Without the contract two plans share a version. -/
theorem plan_versions_repeat :
    ¬ ∀ (place : Placement) (config : String → CoordinatorConfig) (clock : Int)
      (world : PlannerWorld),
      Machine.Reachable (plannerStep place config)
        (fun world action => boundedVersions world action = true) { clock := clock } world →
      world.published.Pairwise fun earlier later => earlier.version < later.version := by
  intro increasing
  have allowed : Machine.RunAllowed (plannerStep soleOwner flatGroup)
      (fun world action => boundedVersions world action = true) { clock := 0 } slowPlanner := by
    decide
  have observed : (Machine.run (plannerStep soleOwner flatGroup) { clock := 0 } slowPlanner).map
      (fun world => world.published.map ConsumerGroupAssignmentPlan.version)
      = some [1, 1] := by decide
  obtain ⟨world, executed, versions⟩ := Option.map_eq_some_iff.mp observed
  have ordered := increasing soleOwner flatGroup 0 world
    (Machine.reachable_of_run allowed executed)
  have mapped : [1, 1].Pairwise (· < ·) := versions ▸ List.pairwise_map.mpr ordered
  exact absurd mapped (by decide)

/-- Planners that read the stored plan publish successive versions. -/
theorem plan_versions_increase_prompt :
    ∃ world, Machine.Reachable (plannerStep soleOwner flatGroup)
        (fun world action => planContract flatGroup world action = true) { clock := 0 } world
      ∧ world.published.map ConsumerGroupAssignmentPlan.version = [1, 2]
      ∧ world.published.Pairwise fun earlier later => earlier.version < later.version := by
  have allowed : Machine.RunAllowed (plannerStep soleOwner flatGroup)
      (fun world action => planContract flatGroup world action = true) { clock := 0 }
      promptPlanner := by decide
  have observed : (Machine.run (plannerStep soleOwner flatGroup) { clock := 0 } promptPlanner).map
      (fun world => world.published.map ConsumerGroupAssignmentPlan.version)
      = some [1, 2] := by decide
  obtain ⟨world, executed, versions⟩ := Option.map_eq_some_iff.mp observed
  have reached := Machine.reachable_of_run allowed executed
  exact ⟨world, reached, versions, plan_versions_increase soleOwner flatGroup 0 reached⟩

end BlobStream.Consumer
