import BlobStream.Write.Draining
import BlobStream.Write.FlushLoop
import BlobStream.Write.PublicationOrder

/-!
# When the flush loop leaves nothing behind

After the shutdown request a scan leaves a draining buffer alone only while the partition's last epoch
waits for its segment identity; the loop looks at the exit test before it scans again. So it needs a
task in flight when it learns of the shutdown, and a scan after its last task got its identities.
-/

namespace BlobStream.Write.Cluster

open Machine

/-! ### Every pending tail has an unfinished task -/

def FlushWorld.Owns (world : FlushWorld) (session : String) (channel : PublicationChannel) : Prop :=
  ∃ (index : Nat) (run : RunningFlush), world.tasks[index]? = some run ∧ run.session = session
    ∧ ∃ completion ∈ run.task.plan.publicationCompletions, completion.state = channel

/-- Publication tails are channels of tasks, and a task that has ended has moved all its channels. -/
structure TasksSound (config : String → BrokerConfig) (clock : Int) (world : FlushWorld) : Prop where
  cluster : Reachable (Cluster.step config) anyAction { clock := clock } world.cluster
  tails : ∀ session key channel, (world.partition session key).publicationTail = some channel →
    world.Owns session channel
  moved : ∀ (index : Nat) (run : RunningFlush), world.tasks[index]? = some run →
    ∀ completion ∈ run.task.plan.publicationCompletions,
      completion.state < (world.cluster.brokers run.session).nextPublication
        ∧ (completion ∈ run.task.unfinished
          ∨ world.publications run.session completion.state ≠ .pending)

variable {action : FlushAction} {index : Nat} {opened : List Opened}

section Tasks

variable {config : String → BrokerConfig} {codec : Codec} {segments : SegmentConfig} {clock : Int}
variable {world : FlushWorld}

theorem TasksSound.keyed (sound : TasksSound config clock world) :
    TransitionsKeyed world.cluster := by
  have met : Reachable (Cluster.step config) noContract.allows { clock := clock } world.cluster :=
    sound.cluster.mono fun before action _ => noContract_allows before action
  exact (reachable_shape met).keyed

theorem tasksSound_cluster {action : Action} {cluster : World}
    (sound : TasksSound config clock world) (still : action.movesEpochs = false)
    (stepped : Cluster.step config world.cluster action = some cluster) :
    TasksSound config clock { world with cluster := cluster } := by
  have channels := step_channels still stepped
  refine ⟨sound.cluster.tail trivial stepped, ?_, ?_⟩
  · intro session key channel tail
    refine sound.tails session key channel ?_
    rcases step_epochFrame sound.keyed still stepped session key with same | ⟨-, retired⟩
    · exact (Prod.mk.inj same).1.symm.trans tail
    · cases (Prod.mk.inj retired).1.symm.trans tail
  · intro index run found completion member
    obtain ⟨fresh, moved⟩ := sound.moved index run found completion member
    obtain ⟨publications, nextPublication⟩ := Prod.mk.inj (channels run.session)
    refine ⟨?_, moved.imp_right fun started => ?_⟩
    · show _ < (cluster.brokers run.session).nextPublication
      rw [nextPublication]
      exact fresh
    · show (cluster.brokers run.session).publications _ ≠ _
      rw [publications]
      exact started

variable {channel : PublicationChannel} {effect : Option FlushEffect} {input : FlushInput}
variable {plan : FlushPlan}

theorem effect_moves {phase later : FlushPhase} {added : List StorageEvent}
    {publications : Publications}
    (turn : FlushTask.Turn codec segments plan phase input later added effect)
    (started : publications channel ≠ .pending) :
    FlushEffect.publications publications effect channel ≠ .pending := by
  have updated (own : PublicationChannel) (state : FlushPublicationState) (later : state ≠ .pending) :
      Function.update publications own state channel ≠ .pending := by
    by_cases same : channel = own
    · subst same
      rwa [Function.update_self]
    · rwa [Function.update_of_ne same]
  cases turn with
  | signalled => exact updated _ _ (identityState_started _ _)
  | failureSignalled => exact updated _ _ (by simp)
  | completed => exact updated _ _ (by simp)
  | _ => exact started

variable {run : RunningFlush} {next : FlushTask}

/-- Tasks keep their broker and their plan, and stay ended. -/
structure TasksKept (world next : FlushWorld) : Prop where
  kept : ∀ (index : Nat) (run : RunningFlush), world.tasks[index]? = some run →
    ∃ later : RunningFlush, next.tasks[index]? = some later ∧ later.session = run.session
      ∧ later.task.plan = run.task.plan
      ∧ (run.task.phase = .done → later.task.phase = .done)

theorem tasksKept_step {after : FlushWorld}
    (stepped : world.step config codec segments action = some after) : TasksKept world after := by
  constructor
  intro index run found
  cases FlushWorld.step_move stepped with
  | @cluster action cluster still acted =>
    exact ⟨run, found, rfl, rfl, id⟩
  | collect session request =>
    refine ⟨run, ?_, rfl, rfl, id⟩
    simp only [FlushWorld.collect]
    exact List.getElem?_append_left (List.getElem?_eq_some_iff.mp found).1 ▸ found
  | @flush position actor input task effect here answers taken =>
    by_cases same : position = index
    · subst same
      cases here.symm.trans found
      have took := FlushTask.step_took taken
      refine ⟨{ run with task := task }, ?_, rfl, took.plan, fun ended => ?_⟩
      · simp [FlushWorld.advance, (List.getElem?_eq_some_iff.mp found).1]
      · -- A task that has ended takes no further turn.
        obtain ⟨added, -, turn⟩ := took.turn
        rw [ended] at turn
        cases turn
    · refine ⟨run, ?_, rfl, rfl, id⟩
      simpa [FlushWorld.advance, List.getElem?_set_ne same] using found

theorem TasksKept.owns {after : FlushWorld} {session : String} (kept : TasksKept world after)
    (owns : world.Owns session channel) : after.Owns session channel := by
  obtain ⟨index, run, found, isSession, completion, member, isChannel⟩ := owns
  obtain ⟨later, present, same, plan, -⟩ := kept.kept index run found
  exact ⟨index, later, present, same.trans isSession, completion, plan ▸ member, isChannel⟩

theorem tasksSound_advance (sound : TasksSound config clock world)
    (found : world.tasks[index]? = some run)
    (took : FlushTask.Took codec segments run.task input next effect)
    (kept : TasksKept world (world.advance index run input next effect)) :
    TasksSound config clock (world.advance index run input next effect) := by
  obtain ⟨added, -, turn⟩ := took.turn
  -- A channel of the broker that has left `pending` stays so.
  have started : ∀ session channel, world.publications session channel ≠ .pending →
      (world.advance index run input next effect).publications session channel ≠ .pending := by
    intro session channel left
    by_cases same : session = run.session
    · subst same
      rw [advance_publications_self]
      exact effect_moves turn left
    · unfold FlushWorld.publications
      rw [advance_broker_of_ne same]
      exact left
  have nextPublication : ∀ session,
      ((world.advance index run input next effect).cluster.brokers session).nextPublication
        = (world.cluster.brokers session).nextPublication := by
    intro session
    by_cases same : session = run.session
    · subst same
      rw [advance_broker_self, applyEffect_nextPublication]
    · rw [advance_broker_of_ne same]
  refine ⟨?_, ?_, ?_⟩
  · rcases advance_cluster config with same | ⟨_, -, stepped⟩
    · rw [same]
      exact sound.cluster
    · exact sound.cluster.tail trivial stepped
  · intro session key channel tail
    refine kept.owns (sound.tails session key channel ?_)
    by_cases same : session = run.session
    · subst same
      unfold FlushWorld.partition at tail ⊢
      rw [advance_broker_self] at tail
      rcases applyEffect_partitionState (world.cluster.brokers run.session) effect key with
        ⟨kept, -⟩ | ⟨-, ended⟩
      · exact (Prod.mk.inj kept).1.symm.trans tail
      · have cleared := (Prod.mk.inj ended).1.symm.trans tail
        split at cleared
        · cases cleared
        · exact cleared
    · unfold FlushWorld.partition at tail ⊢
      rwa [advance_broker_of_ne same] at tail
  · intro position other present completion member
    rw [nextPublication]
    by_cases same : index = position
    · subst same
      have isOther : other = { run with task := next } := by
        have inside := (List.getElem?_eq_some_iff.mp found).1
        simpa [FlushWorld.advance, inside, eq_comm] using present
      subst isOther
      rw [show ({ run with task := next } : RunningFlush).task.plan = run.task.plan from took.plan]
        at member
      obtain ⟨fresh, moved⟩ := sound.moved index run found completion member
      refine ⟨fresh, ?_⟩
      rcases moved with unfinished | left
      · rcases unfinished_took took with ⟨same, -⟩ | ⟨first, rest, outcome, before, after, -, sent⟩
        · exact Or.inl (same ▸ unfinished)
        · simp only [FlushTask.unfinished, before, List.mem_cons] at unfinished
          rcases unfinished with rfl | later
          · -- This is the channel that is being completed.
            right
            rw [advance_publications_self, sent]
            simp [FlushEffect.publications]
          · left
            simpa only [FlushTask.unfinished, after] using later
      · exact Or.inr (started run.session completion.state left)
    · have before : world.tasks[position]? = some other := by
        simpa [FlushWorld.advance, List.getElem?_set_ne same] using present
      obtain ⟨fresh, moved⟩ := sound.moved position other before completion member
      exact ⟨fresh, moved.imp_right (started other.session completion.state)⟩

/-- Tails after some takes are old ones or channels of opened epochs. -/
theorem Takes.tails {broker after : Broker} {requireFence : Bool} {lost : List FlushCompletion}
    (takes : Takes requireFence broker opened lost after) {key : PartitionKey}
    (tail : (after.write.partitionState key).publicationTail = some channel) :
    (broker.write.partitionState key).publicationTail = some channel
      ∨ ∃ epoch ∈ opened, epoch.2.publicationState = channel := by
  unfold WriteState.partitionState at tail ⊢
  cases start : broker.write.partitions key with
  | none =>
    rw [takes.accounted.absent key start] at tail
    exact Or.inl tail
  | some state =>
    obtain ⟨next, there, fate⟩ := takes.accounted.fate key state start
    rw [there] at tail
    cases fate with
    | kept | cleared | dropped => exact Or.inl tail
    | @planned flush member => exact Or.inr ⟨(key, flush), member, Option.some.inj tail⟩

/-- The channels of a plan are those of the epochs its pass opened. -/
theorem completions_of_opened (perm : opened.Perm plan.opened)
    (filed : plan.publicationCompletions = plan.topics.flatMap TopicFlushPlan.completions)
    (channel : PublicationChannel) :
    (∃ completion ∈ plan.publicationCompletions, completion.state = channel)
      ↔ ∃ epoch ∈ opened, epoch.2.publicationState = channel := by
  have states : plan.publicationCompletions.map FlushPublicationCompletion.state
      = plan.opened.map fun epoch => epoch.2.publicationState := by
    simpa [Function.comp_def] using congrArg (List.map Prod.snd) (completions_opened filed)
  have member : channel ∈ plan.publicationCompletions.map FlushPublicationCompletion.state
      ↔ channel ∈ opened.map fun epoch => epoch.2.publicationState := by
    rw [states]
    exact ((perm.map _).mem_iff).symm
  simpa only [List.mem_map] using member

theorem tasksSound_collect {session : String} {request : CollectRequest}
    (sound : TasksSound config clock world) (kept : TasksKept world (world.collect session request)) :
    TasksSound config clock (world.collect session request) := by
  obtain ⟨opened, takes, nothing, planned⟩ :=
    collectNextFlushPlan_takes request (world.cluster.brokers session)
  have epochs := takes.takesEpochs
  refine ⟨?_, ?_, ?_⟩
  · exact sound.cluster.trans (takes.reachable fun _ _ _ => trivial)
  · intro owner key channel tail
    by_cases same : owner = session
    · subst same
      unfold FlushWorld.partition at tail
      rw [collect_broker_self] at tail
      rcases takes.tails tail with old | new
      · exact kept.owns (sound.tails owner key channel old)
      · cases isPlan : (collectNextFlushPlan request (world.cluster.brokers owner)).plan with
        | none =>
          rw [nothing isPlan] at new
          obtain ⟨epoch, member, -⟩ := new
          cases member
        | some plan =>
          obtain ⟨perm, filed⟩ := planned plan isPlan
          refine ⟨world.tasks.length, ⟨owner, .start plan⟩, ?_, rfl, ?_⟩
          · simp [FlushWorld.collect, isPlan]
          · exact (completions_of_opened perm filed channel).mpr new
    · unfold FlushWorld.partition at tail
      rw [collect_brokers_of_ne same] at tail
      exact kept.owns (sound.tails owner key channel tail)
  · intro index run found completion member
    by_cases old : index < world.tasks.length
    · have before : world.tasks[index]? = some run := by
        simpa [FlushWorld.collect, List.getElem?_append_left old] using found
      obtain ⟨fresh, moved⟩ := sound.moved index run before completion member
      by_cases same : run.session = session
      · unfold FlushWorld.publications at moved ⊢
        rw [same] at fresh moved ⊢
        rw [collect_broker_self, epochs.old completion.state fresh]
        exact ⟨Nat.lt_of_lt_of_le fresh epochs.later, moved⟩
      · unfold FlushWorld.publications at moved ⊢
        rw [collect_brokers_of_ne same]
        exact ⟨fresh, moved⟩
    · simp only [FlushWorld.collect, List.getElem?_append_right (Nat.le_of_not_lt old)] at found
      have isNew := List.mem_of_getElem? found
      obtain ⟨plan, isPlan, rfl⟩ := Option.map_eq_some_iff.mp (Option.mem_toList.mp isNew)
      obtain ⟨perm, filed⟩ := planned plan isPlan
      obtain ⟨epoch, inOpened, isChannel⟩ :=
        (completions_of_opened perm filed completion.state).mp ⟨completion, member, rfl⟩
      refine ⟨?_, Or.inl member⟩
      rw [collect_broker_self, ← isChannel]
      exact (epochs.new epoch inOpened).2

theorem tasksSound_step {next : FlushWorld} (sound : TasksSound config clock world)
    (stepped : world.step config codec segments action = some next) :
    TasksSound config clock next := by
  have kept := tasksKept_step stepped
  cases FlushWorld.step_move stepped with
  | @cluster action cluster still acted =>
    exact tasksSound_cluster sound still acted
  | collect session request =>
    exact tasksSound_collect sound kept
  | @flush index run input task effect found answers taken =>
    exact tasksSound_advance sound found (FlushTask.step_took taken) kept

end Tasks

/-! ### The loop of one broker -/

/-- What holds of a loop: older batches drain, and while there are some a task is in flight. After a
scan that found a permit, each of them waits for an epoch whose task is in flight. -/
structure LoopSound (world : FlushWorld) (session : String) (loop : FlushLoop) : Prop where
  unrequested : loop.shutdownRequested = false → ∀ key, loop.older key = 0
  bounded : ∀ key, loop.older key ≤ (world.buffered session key).length
  draining : ∀ key, loop.older key ≠ 0 → (world.partition session key).draining = true
  busy : ∀ key, loop.older key ≠ 0 → loop.inFlight world session ≠ []
  waiting : loop.phase = .waiting → loop.outOfPermits = false → ∀ key, loop.older key ≠ 0 →
    ∃ index ∈ loop.inFlight world session, ∃ run : RunningFlush, world.tasks[index]? = some run
      ∧ ∃ completion ∈ run.task.plan.publicationCompletions,
        loop.scanned completion.state = .pending
  returned : loop.phase = .returned → ∀ key, loop.older key = 0
  joined : ∀ index ∈ loop.joined, ∃ run : RunningFlush, world.tasks[index]? = some run
    ∧ run.task.phase = .done

section Loop

variable {config : String → BrokerConfig} {codec : Codec} {segments : SegmentConfig} {clock : Int}
variable {world next : FlushWorld} {session : String} {loop : FlushLoop}

theorem mem_inFlight : index ∈ loop.inFlight world session
    ↔ (∃ run : RunningFlush, world.tasks[index]? = some run ∧ run.session = session)
      ∧ index ∉ loop.joined := by
  unfold FlushLoop.inFlight
  rw [List.mem_filter, List.mem_range, Bool.and_eq_true, Option.any_eq_true]
  simp only [decide_eq_true_eq, Bool.not_eq_true', List.contains_eq_mem, decide_eq_false_iff_not]
  constructor
  · rintro ⟨-, found, absent⟩
    exact ⟨found, absent⟩
  · rintro ⟨⟨run, found, isSession⟩, absent⟩
    exact ⟨(List.getElem?_eq_some_iff.mp found).1, ⟨run, found, isSession⟩, absent⟩

theorem TasksKept.inFlight (kept : TasksKept world next)
    (member : index ∈ loop.inFlight world session) : index ∈ loop.inFlight next session := by
  obtain ⟨⟨run, found, isSession⟩, absent⟩ := mem_inFlight.mp member
  obtain ⟨later, present, same, -⟩ := kept.kept index run found
  exact mem_inFlight.mpr ⟨⟨later, present, same.trans isSession⟩, absent⟩

theorem LoopSound.settle (sound : LoopSound world session loop) (kept : TasksKept world next)
    (drains : ∀ key, loop.older key ≠ 0 →
      DrainFrame (world.partition session key) (next.partition session key)) :
    LoopSound next session (loop.settle next session) := by
  have older : ∀ key, (loop.settle next session).older key ≠ 0 → loop.older key ≠ 0 := by
    intro key positive
    simp only [FlushLoop.settle] at positive
    omega
  have inFlight : ∀ index ∈ loop.inFlight world session,
      index ∈ (loop.settle next session).inFlight next session :=
    fun index member => kept.inFlight member
  refine ⟨?_, fun key => Nat.min_le_right _ _, ?_, ?_, ?_, ?_, ?_⟩
  · intro unrequested key
    simp only [FlushLoop.settle, sound.unrequested unrequested key, Nat.zero_min]
  · intro key positive
    rcases drains key (older key positive) with empty | draining
    · have : (next.buffered session key) = [] := empty
      simp [FlushLoop.settle, this] at positive
    · exact draining (sound.draining key (older key positive))
  · intro key positive
    obtain ⟨index, member⟩ := List.exists_mem_of_ne_nil _ (sound.busy key (older key positive))
    exact List.ne_nil_of_mem (inFlight index member)
  · intro waiting permits key positive
    obtain ⟨index, member, run, found, completion, inPlan, pending⟩ :=
      sound.waiting waiting permits key (older key positive)
    obtain ⟨later, present, -, plan, -⟩ := kept.kept index run found
    exact ⟨index, inFlight index member, later, present, completion, plan ▸ inPlan, pending⟩
  · intro returned key
    simp only [FlushLoop.settle, sound.returned returned key, Nat.zero_min]
  · intro index member
    obtain ⟨run, found, ended⟩ := sound.joined index member
    obtain ⟨later, present, -, -, still⟩ := kept.kept index run found
    exact ⟨later, present, still ended⟩

theorem applyEffect_drainFrame (broker : Broker) (effect : Option FlushEffect)
    (key : PartitionKey) :
    DrainFrame (broker.write.partitionState key)
      ((broker.applyEffect effect).write.partitionState key) := by
  cases effect with
  | none => exact Or.inr id
  | some effect =>
    cases effect with
    | signal channel state => exact Or.inr id
    | completeFlush target channel error =>
      simp only [Broker.applyEffect, Broker.completeFlush]
      split
      next state present =>
        by_cases same : key = target
        · subst same
          have here : broker.write.partitionState key = state := by
            simp [WriteState.partitionState, present]
          rw [here]
          refine Or.inr fun draining => ?_
          simpa [WriteState.partitionState, Broker.setPartition, Broker.signal,
            PartitionState.flushCompleted] using draining
        · refine Or.inr fun draining => ?_
          simpa [WriteState.partitionState, Broker.setPartition, Broker.signal, same] using draining
      · exact Or.inr id

theorem drainContract_allows {action : Action} (still : action.movesEpochs = false)
    (resumes : ∀ session key, action ≠ .resumeAdmission session key) (cluster : World) :
    drainContract.allows cluster action := by
  cases action with
  | resumeAdmission session key => exact absurd rfl (resumes session key)
  | callStore session key =>
    simp only [Contract.allows, Contract.check]
    split <;> rfl
  | finish session key =>
    simp only [Contract.allows, Contract.check]
    repeat' split
    all_goals rfl
  | takeFlush => cases still
  | signal => cases still
  | completeFlush => cases still
  | _ => rfl

/-- Steps outside the loop leave draining partitions draining, if the broker reopens no partition with
buffered batches. -/
theorem flush_drainFrame (keyed : TransitionsKeyed world.cluster)
    (stepped : world.step config codec segments action = some next)
    (resumes : ∀ key, action = .cluster (.resumeAdmission session key) →
      drainContract.allows world.cluster (.resumeAdmission session key)) (key : PartitionKey) :
    DrainFrame (world.partition session key) (next.partition session key) := by
  cases FlushWorld.step_move stepped with
  | @cluster action cluster still acted =>
    by_cases own : ∃ target, action = .resumeAdmission session target
    · obtain ⟨target, rfl⟩ := own
      exact step_drainFrame keyed (resumes target rfl) acted session key
    · by_cases other : ∃ actor target, action = .resumeAdmission actor target
      · -- Another broker reopens a partition.
        obtain ⟨actor, target, rfl⟩ := other
        have differs : session ≠ actor := by
          rintro rfl
          exact own ⟨target, rfl⟩
        have untouched : cluster.brokers session = world.cluster.brokers session := by
          simp only [Cluster.step] at acted
          obtain ⟨-, rfl⟩ := Machine.enabled acted
          simp [World.setBroker, differs]
        unfold FlushWorld.partition
        rw [untouched]
        exact Or.inr id
      · have allowed : drainContract.allows world.cluster action :=
          drainContract_allows still (fun actor target same => other ⟨actor, target, same⟩) _
        exact step_drainFrame keyed allowed acted session key
  | collect actor request =>
    unfold FlushWorld.partition
    by_cases same : session = actor
    · subst same
      rw [collect_broker_self]
      obtain ⟨opened, takes, -⟩ :=
        collectNextFlushPlan_takes request (world.cluster.brokers session)
      unfold WriteState.partitionState
      rcases takes.kept key with same | ⟨state, present, empty⟩
      · rw [same]
        exact Or.inr id
      · rw [present]
        exact Or.inl empty
    · rw [collect_brokers_of_ne same]
      exact Or.inr id
  | @flush index run input task effect found answers taken =>
    unfold FlushWorld.partition
    by_cases same : session = run.session
    · subst same
      rw [advance_broker_self]
      exact applyEffect_drainFrame ..
    · rw [advance_broker_of_ne same]
      exact Or.inr id

end Loop

/-! ### Partitions of configured topics -/

def Broker.Within (configured : List PartitionKey) (broker : Broker) : Prop :=
  ∀ key, key ∈ broker.write.assignment.partitions ∨ (broker.write.partitions key).isSome →
    key ∈ configured

section Configured

variable {configured : List PartitionKey} {broker after : Broker}

section

variable (within : broker.Within configured)

include within

theorem Broker.Within.mono (assignment : after.write.assignment = broker.write.assignment)
    (tracked : ∀ key, (after.write.partitions key).isSome → (broker.write.partitions key).isSome) :
    after.Within configured := by
  rintro key (assigned | present)
  · exact within key (Or.inl (assignment ▸ assigned))
  · exact within key (Or.inr (tracked key present))

theorem Broker.Within.takes {requireFence : Bool} {lost : List FlushCompletion}
    (takes : Takes requireFence broker opened lost after) : after.Within configured := by
  induction takes with
  | refl => exact within
  | @take opened lost before target state trigger earlier present eligible ih =>
    refine ih.mono ?_ fun key tracked => ?_
    · simp only [Broker.takeFlush]
      split <;> rfl
    · rw [takeFlush_partitions] at tracked
      by_cases same : key = target
      · subst same
        simp [present]
      · rwa [Function.update_of_ne same] at tracked

theorem Broker.Within.applyEffect (effect : Option FlushEffect) :
    (broker.applyEffect effect).Within configured := by
  cases effect with
  | none => exact within
  | some effect =>
    cases effect with
    | signal channel state => exact within
    | completeFlush target channel error =>
      simp only [Broker.applyEffect, Broker.completeFlush]
      split
      next state present =>
        refine within.mono rfl fun key tracked => ?_
        by_cases same : key = target
        · subst same
          simp [present]
        · simpa [Broker.setPartition, Broker.signal, same] using tracked
      · exact within

end

/-- Steps outside the loops keep every broker within the configured partitions. -/
theorem within_step {config : LoopConfig} {world next : FlushWorld}
    (keyed : TransitionsKeyed world.cluster) (outside : config.outside action = true)
    (stepped : world.step config.brokers config.codec config.segments action = some next)
    (within : ∀ session, (world.cluster.brokers session).Within config.configured)
    (session : String) : (next.cluster.brokers session).Within config.configured := by
  cases FlushWorld.step_move stepped with
  | @cluster action cluster still acted =>
    have tracked : ∀ key, ((cluster.brokers session).write.partitions key).isSome →
        key ∈ config.configured := by
      intro key present
      rcases step_tracked keyed acted session key present with before | assigned
      · exact within session key (Or.inr before)
      · refine within session key (Or.inl ?_)
        unfold WriteState.assignmentGenerationForPartition at assigned
        split at assigned
        next active => exact active.2
        · cases assigned
    rintro key (assigned | present)
    · by_cases refreshes : ∃ desired, action = .refreshAssignment session desired
      · obtain ⟨desired, rfl⟩ := refreshes
        cases acted
        have listed := of_decide_eq_true outside
        simp only [World.setBroker, Function.update_self, Broker.refreshAssignment,
          WriteState.publishAssignment, Finset.mem_filter] at assigned
        exact List.mem_toFinset.mp (listed assigned.1)
      · rw [step_assignment acted session fun desired same => refreshes ⟨desired, same⟩] at assigned
        exact within session key (Or.inl assigned)
    · exact tracked key present
  | collect actor request => cases outside
  | @flush index run input task effect found answers taken =>
    by_cases same : session = run.session
    · subst same
      rw [advance_broker_self]
      exact (within run.session).applyEffect effect
    · rw [advance_broker_of_ne same]
      exact within session

end Configured

/-! ### Runs of the loops -/

/-- What the exit test relies on: the loop learns of the shutdown with a task in flight or with empty
buffers; before it joins its last task, it has scanned with a permit after all epochs of the task got
their identities; and maintenance reopens no partition that still has batches. -/
def shutdownContract (config : LoopConfig) (world : LoopWorld) : LoopAction → Prop
  | .shutdown session => world.inFlight session ≠ []
    ∨ ∀ key ∈ config.configured, world.flush.buffered session key = []
  | .join session index =>
    let loop := world.loops session
    loop.shutdownRequested = true → (∀ other ∈ world.inFlight session, other = index) →
      loop.outOfPermits = false ∧ ∀ run ∈ world.flush.tasks[index]?,
        ∀ completion ∈ run.task.plan.publicationCompletions,
          loop.scanned completion.state ≠ .pending
  | .environment (.cluster (.resumeAdmission session key)) =>
    (world.loops session).shutdownRequested = true →
      drainContract.allows world.flush.cluster (.resumeAdmission session key)
  | _ => True

structure LoopWorldSound (config : LoopConfig) (clock : Int) (world : LoopWorld) : Prop where
  tasks : TasksSound config.brokers clock world.flush
  within : ∀ session, (world.flush.cluster.brokers session).Within config.configured
  loops : ∀ session, LoopSound world.flush session (world.loops session)

section Runs

variable {config : LoopConfig} {clock : Int} {world : LoopWorld} {session : String}
variable {loop : FlushLoop}

theorem LoopWorldSound.setLoop (sound : LoopWorldSound config clock world)
    (own : LoopSound world.flush session loop) :
    LoopWorldSound config clock (world.setLoop session loop) := by
  refine ⟨sound.tasks, sound.within, fun other => ?_⟩
  simp only [LoopWorld.setLoop, Function.update_apply]
  split
  next same =>
    subst same
    exact own
  · exact sound.loops other

theorem LoopSound.moveOn {flush : FlushWorld} (sound : LoopSound flush session loop)
    {phase : LoopPhase} (busy : phase ≠ .waiting ∧ phase ≠ .returned) :
    LoopSound flush session { loop with phase } where
  unrequested := sound.unrequested
  bounded := sound.bounded
  draining := sound.draining
  busy := sound.busy
  waiting := fun waiting => absurd waiting busy.1
  returned := fun returned => absurd returned busy.2
  joined := sound.joined

theorem LoopWorldSound.environment (sound : LoopWorldSound config clock world)
    {flush : FlushWorld} (meets : shutdownContract config world (.environment action))
    (outside : config.outside action = true)
    (stepped : world.flush.step config.brokers config.codec config.segments action = some flush) :
    LoopWorldSound config clock (world.settle flush) := by
  refine ⟨tasksSound_step sound.tasks stepped, within_step sound.tasks.keyed outside stepped
    sound.within, fun session => ?_⟩
  refine (sound.loops session).settle (tasksKept_step stepped) fun key positive => ?_
  refine flush_drainFrame sound.tasks.keyed stepped ?_ key
  rintro target rfl
  refine meets ?_
  by_contra unrequested
  exact positive ((sound.loops session).unrequested (by simpa using unrequested) key)

theorem LoopWorldSound.collect (sound : LoopWorldSound config clock world) (session : String)
    (request : CollectRequest) :
    LoopWorldSound config clock (world.settle (world.flush.collect session request)) := by
  have stepped : world.flush.step config.brokers config.codec config.segments
      (.collect session request) = some (world.flush.collect session request) := rfl
  refine ⟨tasksSound_step sound.tasks stepped, fun other => ?_, fun other => ?_⟩
  · by_cases same : other = session
    · subst same
      obtain ⟨opened, takes, -⟩ :=
        collectNextFlushPlan_takes request (world.flush.cluster.brokers other)
      simp only [LoopWorld.settle]
      rw [collect_broker_self]
      exact (sound.within other).takes takes
    · simp only [LoopWorld.settle]
      rw [collect_brokers_of_ne same]
      exact sound.within other
  · refine (sound.loops other).settle (tasksKept_step stepped) fun key _ => ?_
    exact flush_drainFrame sound.tasks.keyed stepped (by rintro target ⟨⟩) key

variable {request : CollectRequest}

/-- After a pass without a plan, every older batch waits for an epoch whose task is in flight. -/
theorem LoopWorldSound.emptyPass (sound : LoopWorldSound config clock world)
    (keys : request.partitionKeys = world.partitionKeys config session)
    (nothing : (collectNextFlushPlan request (world.flush.cluster.brokers session)).plan = none)
    {key : PartitionKey}
    (positive : ((world.settle (world.flush.collect session request)).loops session).older key ≠ 0) :
    ∃ index ∈ (world.settle (world.flush.collect session request)).inFlight session,
      ∃ run : RunningFlush, (world.flush.collect session request).tasks[index]? = some run
        ∧ ∃ completion ∈ run.task.plan.publicationCompletions,
          (world.flush.collect session request).publications session completion.state = .pending := by
  have after := sound.collect session request
  have loop := sound.loops session
  have older : (world.loops session).older key ≠ 0
      ∧ ((world.flush.collect session request).buffered session key) ≠ [] := by
    simp only [LoopWorld.settle, FlushLoop.settle] at positive
    refine ⟨by omega, fun empty => ?_⟩
    simp [empty] at positive
  have draining := loop.draining key older.1
  have bounded := loop.bounded key
  cases present : (world.flush.cluster.brokers session).write.partitions key with
  | none =>
    simp [FlushWorld.buffered, WriteState.partitionState, present] at bounded
    exact absurd bounded older.1
  | some state =>
    have here : world.flush.partition session key = state := by
      simp [FlushWorld.partition, WriteState.partitionState, present]
    have listed : key ∈ request.partitionKeys := by
      have tracked : key ∈ config.configured :=
        sound.within session key (Or.inr (by simp [present]))
      rw [keys]
      exact List.mem_filter.mpr ⟨tracked, by simp [present]⟩
    have settled := collect_settled nothing listed present (here ▸ draining)
    obtain ⟨opened, takes, -⟩ :=
      collectNextFlushPlan_takes request (world.flush.cluster.brokers session)
    rcases takes.kept key with same | ⟨emptied, found, empty⟩
    · -- The partition was passed over, so its last epoch is pending.
      have stays := same.trans present
      have isState : (world.flush.collect session request).partition session key = state := by
        simp [FlushWorld.partition, WriteState.partitionState, collect_broker_self, stays]
      have buffered : state.buffer.batches ≠ [] := by
        have nonempty := older.2
        unfold FlushWorld.buffered at nonempty
        unfold FlushWorld.partition at isState
        rwa [isState] at nonempty
      have pending := (settled state stays (here ▸ draining)).resolve_left buffered
      cases tail : state.publicationTail with
      | none =>
        rw [tail] at pending
        cases pending
      | some channel =>
        rw [tail] at pending
        have isPending : (world.flush.collect session request).publications session channel
            = .pending := by
          unfold FlushWorld.publications
          rw [collect_broker_self]
          exact of_decide_eq_true pending
        have isTail : ((world.flush.collect session request).partition session key).publicationTail
            = some channel := by rw [isState, tail]
        obtain ⟨index, run, found, isSession, completion, member, isChannel⟩ :=
          after.tasks.tails session key channel isTail
        have active : run.task.phase ≠ .done := by
          intro ended
          rcases (after.tasks.moved index run found completion member).2 with unfinished | left
          · simp [FlushTask.unfinished, ended] at unfinished
          · rw [isSession, isChannel] at left
            exact left isPending
        refine ⟨index, ?_, run, found, completion, member, isChannel ▸ isPending⟩
        refine mem_inFlight.mpr ⟨⟨run, found, isSession⟩, fun joined => ?_⟩
        obtain ⟨ended, isEnded, done⟩ := (after.loops session).joined index joined
        cases found.symm.trans isEnded
        exact active done
    · refine absurd ?_ older.2
      simpa [FlushWorld.buffered, WriteState.partitionState, collect_broker_self, found] using empty

variable {next : LoopWorld}

section

variable (sound : LoopWorldSound config clock world)

include sound

theorem LoopWorldSound.scan (stepped : world.step config (.scan session request) = some next) :
    LoopWorldSound config clock next := by
  simp only [LoopWorld.step] at stepped
  split at stepped
  next scheduled phase =>
    split at stepped
    · generalize isRequest : ({ request with
        partitionKeys := world.partitionKeys config session } : CollectRequest) = listing at stepped
      have keys : listing.partitionKeys = world.partitionKeys config session := by rw [← isRequest]
      have after := sound.collect session listing
      split at stepped
      · cases stepped
        exact after.setLoop ((after.loops session).moveOn ⟨by simp, by simp⟩)
      next unplanned =>
        cases stepped
        have nothing : (collectNextFlushPlan listing
            (world.flush.cluster.brokers session)).plan = none := by simpa using unplanned
        have loop := after.loops session
        refine after.setLoop ⟨loop.unrequested, loop.bounded, loop.draining, loop.busy, ?_, ?_,
          loop.joined⟩
        · intro _ _ key positive
          exact sound.emptyPass keys nothing positive
        · intro returned
          split at returned <;> cases returned
    · cases stepped
  · cases stepped

/-- The exit test passes only without older batches. -/
theorem LoopWorldSound.turn (stepped : world.step config (.turn session) = some next) :
    LoopWorldSound config clock next := by
  simp only [LoopWorld.step] at stepped
  obtain ⟨-, rfl⟩ := Machine.enabled stepped
  have loop := sound.loops session
  refine sound.setLoop ⟨loop.unrequested, loop.bounded, loop.draining, loop.busy, ?_, ?_,
    loop.joined⟩
  · intro waiting
    split at waiting <;> cases waiting
  · intro returned key
    split at returned
    next exits =>
      by_contra positive
      rw [Bool.and_eq_true, List.isEmpty_iff] at exits
      exact loop.busy key positive exits.2
    · cases returned

theorem LoopWorldSound.saturate (stepped : world.step config (.saturate session) = some next) :
    LoopWorldSound config clock next := by
  simp only [LoopWorld.step] at stepped
  split at stepped
  · split at stepped
    · cases stepped
    · cases stepped
      have loop := sound.loops session
      refine sound.setLoop ⟨loop.unrequested, loop.bounded, loop.draining, loop.busy, ?_, ?_,
        loop.joined⟩
      · intro _ permits
        cases permits
      · intro returned
        split at returned <;> cases returned
  · cases stepped

/-- Joining a task leaves another one in flight, or nothing to wait for. -/
theorem LoopWorldSound.join (meets : shutdownContract config world (.join session index))
    (stepped : world.step config (.join session index) = some next) :
    LoopWorldSound config clock next := by
  simp only [LoopWorld.step] at stepped
  obtain ⟨guard, rfl⟩ := Machine.enabled stepped
  obtain ⟨phase, member, ended⟩ := guard
  have loop := sound.loops session
  refine sound.setLoop ⟨loop.unrequested, loop.bounded, loop.draining, ?_, ?_, ?_, ?_⟩
  · intro key positive
    have requested : (world.loops session).shutdownRequested = true := by
      by_contra unrequested
      exact positive (loop.unrequested (by simpa using unrequested) key)
    by_cases last : ∀ other ∈ world.inFlight session, other = index
    · -- The last task: the scan before has seen its epochs, so no older batch waits for them.
      obtain ⟨permits, started⟩ := meets requested last
      obtain ⟨waited, inFlight, run, found, completion, inPlan, pending⟩ :=
        loop.waiting phase permits key positive
      obtain rfl := last waited inFlight
      exact absurd pending (started run found completion inPlan)
    · simp only [not_forall] at last
      obtain ⟨other, inFlight, differs⟩ := last
      obtain ⟨found, absent⟩ := mem_inFlight.mp inFlight
      refine List.ne_nil_of_mem (mem_inFlight.mpr ⟨found, ?_⟩)
      simp only [List.mem_cons, not_or]
      exact ⟨differs, absent⟩
  · intro waiting
    cases waiting
  · intro returned
    cases returned
  · intro joined isJoined
    rcases List.mem_cons.mp isJoined with rfl | before
    · obtain ⟨run, found, done⟩ := (Option.any_eq_true _ _).mp ended
      exact ⟨run, found, of_decide_eq_true done⟩
    · exact loop.joined joined before

end

theorem drain_buffered (flush : FlushWorld) (session owner : String) (key : PartitionKey) :
    (flush.drain session).buffered owner key = flush.buffered owner key := by
  by_cases same : owner = session
  · subst same
    simp only [FlushWorld.drain, FlushWorld.buffered, World.setBroker, Function.update_self,
      Broker.beginShutdownDrain, WriteState.partitionState]
    cases (flush.cluster.brokers owner).write.partitions key <;> rfl
  · simp [FlushWorld.drain, FlushWorld.buffered, World.setBroker, same]

section

variable (sound : LoopWorldSound config clock world)

include sound

theorem LoopWorldSound.drain (session : String) :
    LoopWorldSound config clock { world with flush := world.flush.drain session } := by
  have acted : Cluster.step config.brokers world.flush.cluster (.beginShutdownDrain session)
      = some (world.flush.drain session).cluster := rfl
  refine ⟨tasksSound_cluster sound.tasks rfl acted, fun owner => ?_, fun owner => ?_⟩
  · refine (sound.within owner).mono (step_assignment acted owner (by rintro desired ⟨⟩)) ?_
    intro key tracked
    by_cases same : owner = session
    · subst same
      simpa [FlushWorld.drain, World.setBroker, Broker.beginShutdownDrain] using tracked
    · simpa [FlushWorld.drain, World.setBroker, same] using tracked
  · have loop := sound.loops owner
    have kept : TasksKept world.flush (world.flush.drain session) :=
      ⟨fun index run found => ⟨run, found, rfl, rfl, id⟩⟩
    have frame : ∀ key, DrainFrame (world.flush.partition owner key)
        ((world.flush.drain session).partition owner key) := fun key =>
      step_drainFrame sound.tasks.keyed (drainContract_allows rfl (by rintro _ _ ⟨⟩) _) acted owner
        key
    have settled := loop.settle kept fun key _ => frame key
    have same : (world.loops owner).settle (world.flush.drain session) owner = world.loops owner := by
      have older : (fun key => min ((world.loops owner).older key)
          ((world.flush.drain session).buffered owner key).length) = (world.loops owner).older := by
        funext key
        rw [drain_buffered]
        exact Nat.min_eq_left (loop.bounded key)
      unfold FlushLoop.settle
      rw [older]
    rw [same] at settled
    exact settled

/-- The shutdown request turns every buffered batch into an older one. -/
theorem LoopWorldSound.shutdown (meets : shutdownContract config world (.shutdown session))
    (stepped : world.step config (.shutdown session) = some next) :
    LoopWorldSound config clock next := by
  simp only [LoopWorld.step] at stepped
  obtain ⟨-, rfl⟩ := Machine.enabled stepped
  have after := sound.drain session
  have loop := sound.loops session
  refine after.setLoop ⟨?_, ?_, ?_, ?_, ?_, ?_, loop.joined⟩
  · intro unrequested
    cases unrequested
  · intro key
    rw [drain_buffered]
  · intro key positive
    have nonempty : world.flush.buffered session key ≠ [] := by simpa using positive
    unfold FlushWorld.buffered WriteState.partitionState at nonempty
    simp only [FlushWorld.drain, FlushWorld.partition, World.setBroker, Function.update_self,
      Broker.beginShutdownDrain, WriteState.partitionState]
    cases present : (world.flush.cluster.brokers session).write.partitions key with
    | none => simp [present] at nonempty
    | some state => rfl
  · intro key positive
    have nonempty : world.flush.buffered session key ≠ [] := by simpa using positive
    rcases meets with busy | empty
    · exact busy
    · refine absurd (empty key (sound.within session key (Or.inr ?_))) nonempty
      unfold FlushWorld.buffered WriteState.partitionState at nonempty
      cases present : (world.flush.cluster.brokers session).write.partitions key with
      | none => simp [present] at nonempty
      | some state => rfl
  · intro waiting
    cases waiting
  · intro returned
    cases returned

theorem loopWorldSound_step {action : LoopAction} (meets : shutdownContract config world action)
    (stepped : world.step config action = some next) : LoopWorldSound config clock next := by
  cases action with
  | environment action =>
    simp only [LoopWorld.step] at stepped
    split at stepped
    next outside =>
      obtain ⟨flush, moved, rfl⟩ := Option.map_eq_some_iff.mp stepped
      exact sound.environment meets outside moved
    · cases stepped
  | turn session => exact sound.turn stepped
  | scan session request => exact sound.scan stepped
  | saturate session => exact sound.saturate stepped
  | shutdown session => exact sound.shutdown meets stepped
  | wake session =>
    simp only [LoopWorld.step] at stepped
    obtain ⟨-, rfl⟩ := Machine.enabled stepped
    exact sound.setLoop ((sound.loops session).moveOn ⟨by simp, by simp⟩)
  | join session index => exact sound.join meets stepped

end

theorem loopWorldSound_reachable
    (reached : Reachable (LoopWorld.step config) (shutdownContract config)
      { flush := { cluster := { clock } } } world) : LoopWorldSound config clock world := by
  induction reached with
  | refl =>
    refine ⟨⟨.refl, by rintro session key channel ⟨⟩, by simp⟩, ?_, fun session => ?_⟩
    · rintro session key (assigned | tracked)
      · simp at assigned
      · cases tracked
    · exact ⟨fun _ _ => rfl, fun _ => Nat.zero_le _, by simp, by simp, by simp, fun _ _ => rfl, by simp⟩
  | tail _ meets stepped ih => exact loopWorldSound_step ih meets stepped

/-- In every run that meets the contract, a flush loop that has returned has left no batch behind
that was accepted before it learned of the shutdown. -/
theorem flush_loop_drains
    (reached : Reachable (LoopWorld.step config) (shutdownContract config)
      { flush := { cluster := { clock } } } world)
    (returned : (world.loops session).phase = .returned) (key : PartitionKey) :
    world.leftover session key = [] := by
  unfold LoopWorld.leftover
  rw [((loopWorldSound_reachable reached).loops session).returned returned key, List.take_zero]

end Runs

/-! ### Batches left behind -/

def ordersLoop : LoopConfig where
  brokers := shortLeases
  codec := plainCodec
  segments := plainSegments
  configured := [orders]

/-- One turn of the loop of `a` with the given passes; the last one finds nothing. -/
def scans (times : List Int) : List LoopAction :=
  .turn "a" :: times.map fun now => .scan "a" (duePass now)

def accepts (completion : FlushCompletion) : LoopAction :=
  .environment (.cluster (.produce "a" (oneRecord completion) 0))

/-- The request arrives while one batch is buffered and nothing is in flight. -/
def idleShutdown : List LoopAction :=
  acquireOrders.map .environment ++ scans [0] ++ [accepts 0, .shutdown "a", .turn "a"]

/-- The request arrives while one batch is being flushed and a second one is buffered. -/
def busyShutdown : List LoopAction :=
  acquireOrders.map .environment ++ [accepts 0] ++ scans [20, 20] ++ scans [20]
    ++ [accepts 1, .shutdown "a"] ++ scans [20]

/-- The loop joins the flush of the first batch before it scans again. -/
def hastyJoin : List LoopAction :=
  busyShutdown ++ (identify 0 5 ++ uploadObject 0 ++ publishRow 0).map .environment
    ++ [.join "a" 0, .turn "a"]

/-- After either run the loop has returned and one batch is left in the buffer. -/
theorem flush_loop_leaves_batch :
    [idleShutdown, hastyJoin].Forall fun actions => ∃ world,
      Machine.run (LoopWorld.step ordersLoop) { flush := { cluster := { clock := 0 } } } actions
        = some world
      ∧ Reachable (LoopWorld.step ordersLoop) anyAction { flush := { cluster := { clock := 0 } } }
        world
      ∧ (world.loops "a").phase = .returned ∧ (world.leftover "a" orders).length = 1 := by
  have outcome : ∀ actions ∈ [idleShutdown, hastyJoin],
      (Machine.run (LoopWorld.step ordersLoop) { flush := { cluster := { clock := 0 } } } actions).map
        (fun world => ((world.loops "a").phase, (world.leftover "a" orders).length))
      = some (.returned, 1) := by decide +kernel
  refine List.forall_iff_forall_mem.mpr fun actions chosen => ?_
  obtain ⟨world, executed, observed⟩ := Option.map_eq_some_iff.mp (outcome actions chosen)
  obtain ⟨returned, left⟩ := Prod.mk.inj observed
  exact ⟨world, executed, reachable_of_run (runAllowed_anyAction _ _ _) executed, returned, left⟩

/-- The loop is woken when the identities of the first flush are assigned, and scans. -/
def patientJoin : List LoopAction :=
  busyShutdown ++ (identify 0 5).map .environment ++ [.wake "a"] ++ scans [20, 20] ++ scans [20]
    ++ (uploadObject 0 ++ publishRow 0).map .environment ++ [.join "a" 0] ++ scans [20]
    ++ (identify 1 6 ++ uploadObject 1 ++ [FlushAction.flush 1 (.predecessor 0 0 none)]
      ++ publishRow 1).map .environment
    ++ [.wake "a"] ++ scans [20] ++ [.join "a" 1, .turn "a"]

instance (config : LoopConfig) (world : LoopWorld) :
    DecidablePred (shutdownContract config world) := fun action => by
  unfold shutdownContract
  dsimp only
  repeat' split
  all_goals infer_instance

theorem flush_loop_drains_patient :
    ∃ world, Reachable (LoopWorld.step ordersLoop) (shutdownContract ordersLoop)
        { flush := { cluster := { clock := 0 } } } world
      ∧ (world.loops "a").phase = .returned ∧ world.flush.rows.length = 2
      ∧ world.leftover "a" orders = [] := by
  have outcome : (Machine.run (LoopWorld.step ordersLoop) { flush := { cluster := { clock := 0 } } }
      patientJoin).map (fun world => ((world.loops "a").phase, world.flush.rows.length))
      = some (.returned, 2) := by decide +kernel
  have meets : RunAllowed (LoopWorld.step ordersLoop) (shutdownContract ordersLoop)
      { flush := { cluster := { clock := 0 } } } patientJoin := by decide +kernel
  obtain ⟨world, executed, observed⟩ := Option.map_eq_some_iff.mp outcome
  obtain ⟨returned, rows⟩ := Prod.mk.inj observed
  have reached := reachable_of_run meets executed
  exact ⟨world, reached, returned, rows, flush_loop_drains reached returned orders⟩

end BlobStream.Write.Cluster
