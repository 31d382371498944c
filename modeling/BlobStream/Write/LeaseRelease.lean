import BlobStream.Write.PublicationOrder

/-!
# Releasing a lease after the work is terminal

A release task drains its partition before it calls `release_lease`. Meanwhile the partition is excluded
from admission, so what was drained stays drained; the terminal result clears the local lease before the
partition can be assigned again.
-/

namespace BlobStream.Write.Cluster

open Machine

/-! ### Drained partitions stay drained -/

/-- A release task past draining has a drained partition. -/
def DrainedView (view : View) : Prop :=
  ∀ phase, view.release = some phase → phase.drained = true → view.partition.isDrained = true

theorem isDrained_iff {state : PartitionState} : state.isDrained = true
    ↔ state.outstandingFlushes = 0 ∧ state.allocationInFlight = false
      ∧ state.buffer.batches = [] := by
  simp [PartitionState.isDrained]

theorem heartbeatPhase_drained (outcome : Except ProducerLeases.LeaseStoreError
    ProducerLeases.LeaseHeartbeatOutcome) : (heartbeatPhase outcome).drained = false := by
  unfold heartbeatPhase
  split <;> rfl

section Drained

variable {contract : Contract} {config : BrokerConfig} {session : String} {key : PartitionKey}
variable {clock : Int} {row nextRow : Option ProducerLeases.LeaseState} {view next : View}
variable {emitted : List SeqRange}

theorem drainedView_local (shape : ViewShape view) (drained : DrainedView view)
    (did : LocalStep contract config session key clock view row next nextRow emitted) :
    DrainedView next := by
  cases did with
  | @produce batch now read summarized assigned meets =>
    intro phase isPhase
    have excluded := shape.excluded (by simp [show view.release = some phase from isPhase])
    simp [excluded] at assigned
  | @claim generation recordCount now origin read assigned meets =>
    intro phase isPhase
    have same : (view.claim config key generation recordCount now origin).release = view.release := by
      unfold View.claim
      simp only
      split <;> rfl
    have excluded := shape.excluded (by simp [same.symm.trans isPhase])
    simp [excluded] at assigned
  | @finish inFlight response owned answered meets | @dropOwner inFlight owned =>
    intro phase isPhase past
    have idle := (shape.drained phase isPhase past).1
    cases idle.symm.trans owned
  | @refresh generation release kept opened excluded =>
    intro phase isPhase past
    cases before : view.release with
    | some old =>
      have same := kept old before
      cases same.symm.trans isPhase
      exact drained _ before past
    | none =>
      rcases opened before with none | started
      · cases none.symm.trans isPhase
      · cases started.symm.trans isPhase
        cases past
  | startRelease started =>
    intro phase isPhase past
    cases absent : view.state with
    | none => simp [View.partition, PartitionState.isDrained]
    | some state =>
      simp only [absent, Option.isSome_some, if_true, Option.some.injEq] at isPhase
      subst isPhase
      cases past
  | @drainHeartbeat now responseLost read draining =>
    intro phase isPhase past
    simp only [Option.some.injEq] at isPhase
    subst isPhase
    split at past
    · cases past
    · rw [heartbeatPhase_drained] at past
      cases past
  | applyHeartbeat renewed =>
    intro phase isPhase past
    cases isPhase
    cases past
  | finishDrain draining empty =>
    intro _ _ _
    unfold View.partition
    cases present : view.state with
    | none => rfl
    | some state => simpa [present] using empty
  | callRelease read releasing reached => exact fun _ _ _ => drained _ releasing rfl
  | clearReleased released =>
    intro _ _ _
    have known := drained _ released rfl
    show (view.cleared.getD {}).isDrained = true
    unfold View.cleared
    unfold View.partition at known
    cases present : view.state with
    | none => rfl
    | some state =>
      rw [present] at known
      simp only
      split
      · rfl
      · exact known
  | completeRelease ended =>
    intro phase isPhase
    cases isPhase
  | @takeFlush state trigger requireFence channel present meets =>
    intro phase isPhase past
    have known := drained phase isPhase past
    rw [View.partition_of_some present, isDrained_iff] at known
    obtain ⟨outstanding, idle, empty⟩ := known
    simp [View.partition, takeFlushPartition, empty, PartitionState.isDrained, outstanding, idle]
  | @completeFlush state publications present meets =>
    intro phase isPhase past
    have known := drained phase isPhase past
    rw [View.partition_of_some present, isDrained_iff] at known
    obtain ⟨outstanding, idle, empty⟩ := known
    simp [View.partition, PartitionState.flushCompleted, PartitionState.isDrained, outstanding, idle,
      empty]
  | beginShutdownDrain | resumeAdmission =>
    intro phase isPhase past
    have known := drained phase isPhase past
    rcases view.map_partition _ with same | same <;> exact (congrArg _ same).trans known
  | _ => exact drained

end Drained

/-! ### No lease, no acceptance -/

/-- The partition is under release, or its broker knows of no lease on it. -/
def Unleased (view : View) : Prop :=
  (∃ phase, view.release = some phase ∧ phase ≠ .done) ∨ view.partition.leaseExpirationAt = none

/-- Finishing with this response installs a lease if it is applied. -/
def installsLease (inFlight : InFlight) (response : StoreResponse) : Bool :=
  (Broker.finishArguments inFlight.work inFlight.origin response).lease.isSome

/-- No acquisition is applied. -/
def unacquired : Contract where
  finish := fun _ assignmentIsCurrent inFlight response =>
    !(assignmentIsCurrent && installsLease inFlight response)

section Unleased

variable {config : BrokerConfig} {session : String} {key : PartitionKey}
variable {clock : Int} {row nextRow : Option ProducerLeases.LeaseState} {view next : View}
variable {emitted : List SeqRange}

theorem finishArguments_update (work : AllocationTransitionWork) (origin : LeaseAcquisitionOrigin)
    (response : StoreResponse) :
    (Broker.finishArguments work origin response).lease.isSome
      ∨ (Broker.finishArguments work origin response).update = .preserve
      ∨ (Broker.finishArguments work origin response).update = .set none := by
  unfold Broker.finishArguments
  split
  · split
    · exact Or.inr (Or.inl rfl)
    · exact Or.inl rfl
  · exact Or.inr (Or.inl rfl)
  · exact Or.inl rfl
  · exact Or.inr (Or.inr rfl)
  · exact Or.inr (Or.inl rfl)

variable {state : PartitionState}

theorem finished_unleased {inFlight : InFlight} {response : StoreResponse}
    (without : (!(view.isCurrent inFlight.work && installsLease inFlight response)) = true)
    (unleased : state.leaseExpirationAt = none) :
    (view.finished inFlight response state).leaseExpirationAt = none := by
  cases current : view.isCurrent inFlight.work with
  | false =>
    rw [View.finished_stale response state current]
    exact unleased
  | true =>
    simp only [current, Bool.true_and, Bool.not_eq_true'] at without
    rw [View.finished_leaseExpirationAt response state current]
    rcases finishArguments_update inFlight.work inFlight.origin response with
      installs | preserved | cleared
    · cases installs.symm.trans without
    · rw [preserved]
      exact unleased
    · rw [cleared]
      rfl

theorem produceFastPath_unleased (batch : ProduceBatch) (now : Int)
    (unleased : state.leaseExpirationAt = none) :
    (∀ range, (state.produceFastPath batch now).1 ≠ .ok (some range))
      ∧ (state.produceFastPath batch now).2 = state := by
  rcases state.produceFastPath_cases batch now with ⟨_, _, -, -, -, valid, -⟩ | refused
  · simp [PartitionState.needsLease, unleased] at valid
  · exact refused

theorem unleased_map {update : PartitionState → PartitionState}
    (keeps : ∀ state : PartitionState, state.leaseExpirationAt = none →
      (update state).leaseExpirationAt = none)
    (unleased : view.partition.leaseExpirationAt = none) :
    ((view.state.map update).getD {}).leaseExpirationAt = none := by
  rcases view.map_partition update with same | changed
  · rw [same]
    exact unleased
  · rw [changed]
    exact keeps _ unleased

theorem cleared_unleased (view : View) : (view.cleared.getD {}).leaseExpirationAt = none := by
  unfold View.cleared
  split
  · rfl
  · simp only
    split <;> rfl

/-- A broker step that installs no lease keeps the partition without one. -/
theorem unleased_local (shape : ViewShape view) (unleased : Unleased view)
    (did : LocalStep unacquired config session key clock view row next nextRow emitted) :
    Unleased next := by
  cases did with
  | @produce batch now read summarized assigned meets =>
    rcases unleased with ⟨phase, isPhase, -⟩ | unleased
    · -- A partition under release is not assigned.
      have excluded := shape.excluded (by simp [isPhase])
      simp [excluded] at assigned
    · obtain ⟨-, kept⟩ := produceFastPath_unleased batch now unleased
      rw [kept]
      exact Or.inr unleased
  | @claim generation recordCount now origin read assigned meets =>
    rcases view.claim_cases config key generation recordCount now origin with
      ⟨work, claimedState, -, -, spec, claimed⟩ | ⟨target, claimed⟩
    · rw [claimed]
      obtain ⟨target, rfl⟩ := spec.changed
      exact unleased
    · rw [claimed]
      exact unleased
  | @finish inFlight response owned answered meets =>
    exact unleased.imp_right (unleased_map fun _ => finished_unleased meets)
  | dropOwner | beginShutdownDrain | resumeAdmission =>
    exact unleased.imp_right (unleased_map fun _ => id)
  | @refresh generation release kept opened excluded =>
    rcases unleased with ⟨phase, isPhase, active⟩ | unleased
    · exact Or.inl ⟨phase, kept phase isPhase, active⟩
    · exact Or.inr unleased
  | startRelease started =>
    cases present : view.state with
    | none => exact Or.inr rfl
    | some state => exact Or.inl ⟨.draining true none, by simp, by simp⟩
  | @drainHeartbeat now responseLost read draining =>
    refine Or.inl ⟨_, rfl, ?_⟩
    intro ended
    split at ended
    · cases ended
    · have drained := heartbeatPhase_drained (ProducerLeases.heartbeatLease row key config.holderId
        session now config.leaseDuration view.sequenceProgress).1
      rw [ended] at drained
      cases drained
  | applyHeartbeat | finishDrain => exact Or.inl ⟨_, rfl, by simp⟩
  | callRelease read releasing reached =>
    refine Or.inl ⟨_, rfl, ?_⟩
    rintro rfl
    simp at reached
  | clearReleased released => exact Or.inr (cleared_unleased view)
  | completeRelease ended =>
    refine Or.inr ?_
    rcases unleased with ⟨phase, isPhase, active⟩ | unleased
    · cases ended.symm.trans isPhase
      exact absurd rfl active
    · exact unleased
  | @takeFlush state trigger requireFence channel present meets =>
    refine unleased.imp_right fun unleased => ?_
    rw [View.partition_of_some present] at unleased
    show (takeFlushPartition ..).state.leaseExpirationAt = none
    unfold takeFlushPartition
    split
    · exact unleased
    · simp only
      split <;> exact unleased
  | completeFlush present meets =>
    refine unleased.imp_right fun unleased => ?_
    rw [View.partition_of_some present] at unleased
    exact unleased
  | _ => exact unleased

end Unleased

/-- The action applies a lease acquisition for the partition in the broker's local state. -/
def appliesAcquisition (world : World) (session : String) (key : PartitionKey) : Action → Bool
  | .finish actor target =>
    actor = session && target = key &&
      match (world.brokers actor).transitions target with
      | some inFlight =>
        match inFlight.response with
        | some response =>
          (world.brokers actor).isCurrent inFlight.work && installsLease inFlight response
        | none => false
      | none => false
  | _ => false

def World.acceptedAt (world : World) (session : String) (key : PartitionKey) : List Accepted :=
  world.accepted.filter fun batch => batch.session = session && batch.key = key

section Cluster

variable {config : String → BrokerConfig} {world next : World} {session : String}
variable {key : PartitionKey} {action : Action}

theorem unacquired_allows (finishes : ∀ actor target, action ≠ .finish actor target) (world : World) :
    unacquired.allows world action := by
  cases action with
  | finish actor target => exact absurd rfl (finishes actor target)
  | callStore actor target =>
    simp only [Contract.allows, Contract.check]
    split <;> rfl
  | _ => rfl

/-- Finishing a transition of another broker or partition leaves the view alone. -/
theorem finish_view_other {actor : String} {target : PartitionKey} (keyed : TransitionsKeyed world)
    (stepped : step config world (.finish actor target) = some next)
    (other : actor ≠ session ∨ target ≠ key) :
    (next.brokers session).view key = (world.brokers session).view key := by
  simp only [step] at stepped
  split at stepped
  next inFlight owned =>
    split at stepped
    next response answered =>
      cases stepped
      by_cases same : session = actor
      · subst same
        have differs : key ≠ target := by
          rintro rfl
          simp at other
        simp [World.setBroker, Broker.view_finish (keyed session target inFlight owned), differs]
      · simp [World.setBroker, same]
    · cases stepped
  · cases stepped

theorem unleased_step (keyed : TransitionsKeyed world)
    (shape : ViewShape ((world.brokers session).view key))
    (unleased : Unleased ((world.brokers session).view key))
    (stepped : step config world action = some next)
    (without : appliesAcquisition world session key action = false) :
    Unleased ((next.brokers session).view key) := by
  have kept (meets : unacquired.allows world action) :
      Unleased ((next.brokers session).view key) :=
    step_view (fun before after => ViewShape before → Unleased before → Unleased after) keyed meets
      stepped session key (fun _ _ => id) (fun did shape unleased => unleased_local shape unleased did)
      shape unleased
  by_cases finishes : ∃ actor target, action = .finish actor target
  · obtain ⟨actor, target, rfl⟩ := finishes
    by_cases own : actor = session ∧ target = key
    · obtain ⟨rfl, rfl⟩ := own
      refine kept ?_
      simp only [appliesAcquisition, decide_true, Bool.true_and] at without
      simp only [Contract.allows, Contract.check]
      split
      next inFlight owned =>
        rw [owned] at without
        split
        next response answered =>
          simp only [answered] at without
          simpa [unacquired, ← Bool.not_eq_true, imp_iff_not_or] using without
        · rfl
      · rfl
    · rw [finish_view_other keyed stepped (not_and_or.mp own)]
      exact unleased
  · exact kept (unacquired_allows (fun actor target same => finishes ⟨actor, target, same⟩) world)

theorem step_accepted (stepped : step config world action = some next) :
    next.accepted = world.accepted ∨ ∃ actor batch now, action = .produce actor batch now
      ∧ next.accepted = world.accepted ++ acceptedBatch actor batch.key
        (produceFastPath (world.brokers actor).write batch now).1 := by
  cases action with
  | produce actor batch now =>
    simp only [step] at stepped
    obtain ⟨-, rfl⟩ := Machine.enabled stepped
    exact Or.inr ⟨actor, batch, now, rfl, rfl⟩
  | _ =>
    left
    simp only [step] at stepped
    repeat' split at stepped
    all_goals cases stepped
    all_goals rfl

theorem acceptedAt_step (shape : ViewShape ((world.brokers session).view key))
    (unleased : Unleased ((world.brokers session).view key))
    (stepped : step config world action = some next) :
    next.acceptedAt session key = world.acceptedAt session key := by
  unfold World.acceptedAt
  rcases step_accepted stepped with same | ⟨actor, batch, now, rfl, appended⟩
  · rw [same]
  · rw [appended, List.filter_append]
    have nothing : (acceptedBatch actor batch.key
        (produceFastPath (world.brokers actor).write batch now).1).filter
          (fun batch => batch.session = session && batch.key = key) = [] := by
      by_cases own : actor = session ∧ batch.key = key
      · obtain ⟨rfl, rfl⟩ := own
        have refused : ∀ range, (produceFastPath (world.brokers actor).write batch now).1
            ≠ .ok (some range) := by
          intro range
          unfold produceFastPath
          split
          · simp
          next generation assigned =>
            rcases unleased with ⟨phase, isPhase, -⟩ | unleased
            · have excluded := shape.excluded (by simp [isPhase])
              cases assigned.symm.trans excluded
            · exact (produceFastPath_unleased batch now unleased).1 range
        unfold acceptedBatch
        split
        next range accepted => exact absurd accepted (refused range)
        · rfl
      · unfold acceptedBatch
        split
        · have elsewhere : (decide (actor = session) && decide (batch.key = key)) = false := by
            simpa using own
          simp [elsewhere]
        · rfl
    rw [nothing, List.append_nil]

/-- Between a release and the next applied acquisition the broker accepts nothing. -/
theorem acceptedAt_reachable {start : World} (shapes : WorldShape start)
    (unleased : Unleased ((start.brokers session).view key))
    (reached : Reachable (step config)
      (fun before action => appliesAcquisition before session key action = false) start world) :
    WorldShape world ∧ Unleased ((world.brokers session).view key)
      ∧ world.acceptedAt session key = start.acceptedAt session key := by
  induction reached with
  | refl => exact ⟨shapes, unleased, rfl⟩
  | @tail before after action _ without stepped ih =>
    obtain ⟨shape, open_, same⟩ := ih
    refine ⟨shape.step (noContract_allows before action) stepped, ?_, ?_⟩
    · exact unleased_step shape.keyed (shape.views key session) open_ stepped without
    · rw [acceptedAt_step (shape.views key session) open_ stepped]
      exact same

theorem drainedView_reachable {clock : Int}
    (reached : Reachable (step config) anyAction { clock := clock } world) (session : String)
    (key : PartitionKey) : DrainedView ((world.brokers session).view key) := by
  induction reached with
  | refl =>
    intro phase isPhase
    cases isPhase
  | @tail before after action earlier _ stepped ih =>
    have met : Reachable (step config) noContract.allows { clock := clock } before :=
      earlier.mono fun before action _ => noContract_allows before action
    have shape := reachable_shape met
    exact step_view (fun view next => ViewShape view → DrainedView view → DrainedView next)
      shape.keyed (noContract_allows before action) stepped session key (fun _ _ => id)
      (fun did shape drained => drainedView_local shape drained did) (shape.views key session) ih

end Cluster

/-! ### Brokers with their flush tasks -/

/-- The step applies no acquisition of the partition in the broker's local state. -/
def withoutAcquisition (session : String) (key : PartitionKey) (world : FlushWorld) :
    FlushAction → Prop
  | .cluster action => appliesAcquisition world.cluster session key action = false
  | .collect .. | .flush .. => True

section Flushes

variable {config : String → BrokerConfig} {codec : Codec} {segments : SegmentConfig}
variable {world next : FlushWorld} {action : FlushAction}
variable {allowed : World → Action → Prop}

/-- What the flush machinery does to the brokers is a run of the cluster. -/
theorem flushStep_reachable
    (own : ∀ before action, action.movesEpochs = true → allowed before action)
    (given : ∀ clusterAction, action = .cluster clusterAction → allowed world.cluster clusterAction)
    (stepped : world.step config codec segments action = some next) :
    Reachable (step config) allowed world.cluster next.cluster := by
  cases FlushWorld.step_move stepped with
  | @cluster action cluster still acted =>
    exact Reachable.refl.tail (given action rfl) acted
  | collect session request =>
    obtain ⟨_, _, _, adds⟩ := collect_adds world session request
    exact adds.takes.reachable own
  | @flush index run input task effect found answers taken =>
    rcases @advance_cluster world index run input task effect config with
      same | ⟨action, moves, acted⟩
    · rw [same]
      exact .refl
    · exact Reachable.refl.tail (own _ action moves) acted

/-- The tasks of a run without any contract: channels are completed in the order of their plans, and
every unfinished one is counted. -/
structure FlushesCounted (world : FlushWorld) : Prop where
  keys : ∀ run ∈ world.tasks,
    (run.task.plan.publicationCompletions.map FlushPublicationCompletion.key).Nodup
  suffix : ∀ run ∈ world.tasks, run.task.unfinished <:+ run.task.plan.publicationCompletions
  counted : ∀ session key,
    world.tasks.countP (outstandingRun session key) ≤ (world.partition session key).outstandingFlushes

theorem flushesCounted_cluster {action : Action} {cluster : World} (counts : FlushesCounted world)
    (keyed : TransitionsKeyed world.cluster) (still : action.movesEpochs = false)
    (stepped : step config world.cluster action = some cluster) :
    FlushesCounted { world with cluster := cluster } := by
  refine ⟨counts.keys, counts.suffix, fun session key => ?_⟩
  have counted := counts.counted session key
  show _ ≤ ((cluster.brokers session).write.partitionState key).outstandingFlushes
  rcases step_epochFrame keyed still stepped session key with same | ⟨idle, retired⟩
  · rw [(Prod.mk.inj same).2]
    exact counted
  · have idle : (world.partition session key).outstandingFlushes = 0 := idle
    rw [idle] at counted
    exact Nat.le_trans counted (Nat.zero_le _)

theorem flushesCounted_collect (counts : FlushesCounted world) (session : String)
    (request : CollectRequest) : FlushesCounted (world.collect session request) := by
  obtain ⟨opened, added, runs, adds⟩ := collect_adds world session request
  have distinct : (added.map Prod.fst).Nodup :=
    (adds.perm.map _).nodup_iff.mp adds.takes.accounted.distinct
  refine ⟨?_, ?_, outstanding_collect counts.counted⟩
  all_goals
    intro run member
    rw [adds.tasks] at member
    rcases List.mem_append.mp member with old | new
  · exact counts.keys run old
  · obtain ⟨-, plan, rfl, rfl, filed⟩ := adds.started run new
    have keyed := congrArg (List.map Prod.fst) (completions_opened filed)
    rw [List.map_map, List.map_map] at keyed
    exact keyed ▸ distinct
  · exact counts.suffix run old
  · obtain ⟨-, plan, rfl, -⟩ := adds.started run new
    exact List.suffix_rfl

theorem flushesCounted_advance {index : Nat} {run : RunningFlush} {input : FlushInput}
    {task : FlushTask} {effect : Option FlushEffect} (counts : FlushesCounted world)
    (found : world.tasks[index]? = some run)
    (took : FlushTask.Took codec segments run.task input task effect) :
    FlushesCounted (world.advance index run input task effect) := by
  have inside := List.mem_of_getElem? found
  refine ⟨?_, ?_, outstanding_advance counts.counted (counts.keys run inside)
    (counts.suffix run inside) found took⟩
  all_goals
    intro other member
    rcases List.mem_or_eq_of_mem_set member with old | rfl
  · exact counts.keys other old
  · show (task.plan.publicationCompletions.map FlushPublicationCompletion.key).Nodup
    rw [took.plan]
    exact counts.keys run inside
  · exact counts.suffix other old
  · show task.unfinished <:+ task.plan.publicationCompletions
    have suffix := counts.suffix run inside
    rw [took.plan]
    rcases unfinished_took took with ⟨same, -⟩ | ⟨completion, rest, outcome, before, after, -⟩
    · rw [same]
      exact suffix
    · simp only [FlushTask.unfinished, before] at suffix
      simp only [FlushTask.unfinished, after]
      exact (List.suffix_cons completion rest).trans suffix

/-- The cluster of every run of brokers with their flush tasks is a cluster of some run. -/
theorem flushCluster_reachable {start : FlushWorld} {contract : FlushWorld → FlushAction → Prop}
    (own : ∀ before action, action.movesEpochs = true → allowed before action)
    (given : ∀ (before : FlushWorld) action, contract before (.cluster action) →
      allowed before.cluster action)
    (reached : Reachable (FlushWorld.step config codec segments) contract start world) :
    Reachable (step config) allowed start.cluster world.cluster := by
  induction reached with
  | refl => exact .refl
  | @tail before after action _ meets stepped ih =>
    refine ih.trans (flushStep_reachable own ?_ stepped)
    rintro clusterAction rfl
    exact given before clusterAction meets

theorem flushCluster_shape {clock : Int}
    (reached : Reachable (FlushWorld.step config codec segments) anyAction
      { cluster := { clock := clock } } world) : WorldShape world.cluster := by
  have met : Reachable (step config) noContract.allows { clock := clock } world.cluster :=
    flushCluster_reachable (fun before action _ => noContract_allows before action)
      (fun before action _ => noContract_allows before.cluster action) reached
  exact reachable_shape met

theorem flushesCounted_reachable {clock : Int}
    (reached : Reachable (FlushWorld.step config codec segments) anyAction
      { cluster := { clock := clock } } world) : FlushesCounted world := by
  induction reached with
  | refl => exact ⟨by simp, by simp, fun _ _ => Nat.zero_le _⟩
  | @tail before after action earlier _ stepped ih =>
    cases FlushWorld.step_move stepped with
    | @cluster action cluster still acted =>
      exact flushesCounted_cluster ih (flushCluster_shape earlier).keyed
        still acted
    | collect session request =>
      exact flushesCounted_collect ih session request
    | @flush index run input task effect found answers taken =>
      exact flushesCounted_advance ih found (FlushTask.step_took taken)

end Flushes

/-- A release task calls `release_lease` only when the partition has no buffered batch, no outstanding
flush and no allocation transition, and the broker accepts nothing between the call and the next
acquisition it applies. -/
theorem released_after_terminal_work (config : String → BrokerConfig) (codec : Codec)
    (segments : SegmentConfig) (clock : Int) (world after : FlushWorld)
    (reached : Reachable (FlushWorld.step config codec segments) anyAction
      { cluster := { clock := clock } } world)
    (session : String) (key : PartitionKey) (now : Int) (responseLost : Bool)
    (called : world.step config codec segments
      (.cluster (.callRelease session key now responseLost)) = some after) :
    (world.partition session key).buffer.batches = []
      ∧ (world.partition session key).outstandingFlushes = 0
      ∧ (∀ run ∈ world.tasks, run.session = session →
        ∀ completion ∈ run.task.unfinished, completion.key ≠ key)
      ∧ (world.partition session key).allocationInFlight = false
      ∧ (world.cluster.brokers session).transitions key = none
      ∧ ∀ later, Reachable (FlushWorld.step config codec segments) (withoutAcquisition session key)
          after later →
        later.cluster.acceptedAt session key = world.cluster.acceptedAt session key := by
  have shape := flushCluster_shape reached
  have counts := flushesCounted_reachable reached
  have cluster : Reachable (step config) anyAction { clock := clock } world.cluster :=
    flushCluster_reachable (fun _ _ _ => trivial) (fun _ _ _ => trivial) reached
  have applied : Reachable (step config)
      (fun before action => appliesAcquisition before session key action = false)
      world.cluster after.cluster :=
    flushStep_reachable (fun _ action moves => by cases action <;> first | rfl | cases moves)
      (fun _ is => by cases is; rfl) called
  simp only [FlushWorld.step, Action.movesEpochs, Bool.false_eq_true, if_false] at called
  obtain ⟨next, stepped, rfl⟩ := Option.map_eq_some_iff.mp called
  have releasing : (world.cluster.brokers session).releases key = some .releasing := by
    simp only [step] at stepped
    split at stepped
    next releasing => exact releasing
    next => cases stepped
  have drained := drainedView_reachable cluster session key .releasing releasing rfl
  obtain ⟨idle, free, empty⟩ := isDrained_iff.mp drained
  have unleased : Unleased ((world.cluster.brokers session).view key) :=
    Or.inl ⟨.releasing, releasing, by simp⟩
  have counted := counts.counted session key
  have idle : (world.partition session key).outstandingFlushes = 0 := idle
  have unfinished : world.tasks.countP (outstandingRun session key) = 0 := by omega
  refine ⟨empty, idle, fun run member own completion waiting keyed => ?_, free,
    ((shape.views key session).drained .releasing releasing rfl).1, ?_⟩
  · refine List.countP_eq_zero.mp unfinished run member ?_
    simp only [outstandingRun, own, decide_true, Bool.true_and, List.any_eq_true, decide_eq_true_eq]
    exact ⟨completion, waiting, keyed⟩
  intro later reached
  have quietRun : Reachable (step config)
      (fun before action => appliesAcquisition before session key action = false)
      next later.cluster :=
    flushCluster_reachable (fun _ action moves => by cases action <;> first | rfl | cases moves)
      (fun _ _ without => without) reached
  exact (acceptedAt_reachable shape unleased (applied.trans quietRun)).2.2

/-- `a` publishes one batch, loses the partition and drains it. -/
def publishedThenLost : List FlushAction :=
  acquireOrders ++ openEpoch 0 ++ identify 0 5 ++ uploadObject 0 ++ publishRow 0
    ++ [.refreshAssignment "a" ∅, .startRelease "a" orders, .finishDrain "a" orders].map .cluster

theorem released_after_terminal_work_published :
    ∃ world after, Reachable (FlushWorld.step shortLeases plainCodec plainSegments) anyAction
        { cluster := { clock := 0 } } world
      ∧ world.step shortLeases plainCodec plainSegments
        (.cluster (.callRelease "a" orders 0 false)) = some after
      ∧ (world.cluster.acceptedAt "a" orders).map (·.range) = [⟨0, 0⟩]
      ∧ (world.partition "a" orders).outstandingFlushes = 0
      ∧ ∀ later, Reachable (FlushWorld.step shortLeases plainCodec plainSegments)
          (withoutAcquisition "a" orders) after later →
        (later.cluster.acceptedAt "a" orders).map (·.range) = [⟨0, 0⟩] := by
  have outcome : (Machine.run (FlushWorld.step shortLeases plainCodec plainSegments)
      { cluster := { clock := 0 } } publishedThenLost).map
        (fun world => ((world.cluster.acceptedAt "a" orders).map (·.range),
          (world.step shortLeases plainCodec plainSegments
            (.cluster (.callRelease "a" orders 0 false))).isSome))
      = some ([⟨0, 0⟩], true) := by decide +kernel
  obtain ⟨world, executed, observed⟩ := Option.map_eq_some_iff.mp outcome
  obtain ⟨accepted, enabled⟩ := Prod.mk.inj observed
  obtain ⟨after, called⟩ := Option.isSome_iff_exists.mp enabled
  have reached := reachable_of_run (runAllowed_anyAction _ _ _) executed
  obtain ⟨-, idle, -, -, -, nothing⟩ := released_after_terminal_work shortLeases plainCodec
    plainSegments 0 world after reached "a" orders 0 false called
  refine ⟨world, after, reached, called, accepted, idle, fun later quietRun => ?_⟩
  rw [nothing later quietRun]
  exact accepted

end BlobStream.Write.Cluster
