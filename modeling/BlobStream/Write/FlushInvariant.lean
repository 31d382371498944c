import BlobStream.Write.EpochState
import BlobStream.Write.FlushBarriers
import BlobStream.Write.FlushWorld

/-!
# What holds across all flush tasks

The epochs of every partition form one chain, and a task writes the row of a partition only after
all earlier epochs of the partition have ended. This holds as long as the publication tail of a
partition is dropped only when all its epochs have ended (`tailContract`).
-/

namespace BlobStream.Write

def FlushTask.unfinished (task : FlushTask) : List FlushPublicationCompletion :=
  match task.phase with
  | .completing rest _ => rest
  | .done => []
  | _ => task.plan.publicationCompletions

/-- The partition is ready for its metadata row or has it. -/
def FlushTask.Reaches (key : PartitionKey) (task : FlushTask) : Prop :=
  task.phase.Ready key
    ∨ ∃ metadata fences, StorageEvent.row metadata fences ∈ task.log ∧ metadata.Carries key

/-- Every identity the task has used or will write is allowed. -/
def FlushTask.Identities (allowed : SnowflakeId → Prop) (task : FlushTask) : Prop :=
  task.phase.Identities allowed ∧ RowIdentities allowed task.log

variable {codec : Codec} {segments : SegmentConfig} {input : FlushInput}
variable {effect : Option FlushEffect}

/-- What a turn does to the channels of its plan: nothing, or one channel moves on; it is set to
success only after a row with its partition was written. -/
theorem effect_cases {plan : FlushPlan} {phase later : FlushPhase} {log added : List StorageEvent}
    {publications : Publications}
    (turn : FlushTask.Turn codec segments plan phase input later added effect)
    (sound : PhaseSound (plan.Encodes codec segments) plan log phase)
    (barrier : Barrier codec segments publications plan log phase) :
    effect = none ∨ ∃ completion ∈ plan.publicationCompletions, ∃ state,
      FlushEffect.publications publications effect
        = Function.update publications completion.state state
      ∧ state ≠ .pending
      ∧ ((publications completion.state).ended = true → state.ended = true)
      ∧ (state = .completed .succeeded → ∃ metadata fences,
        StorageEvent.row metadata fences ∈ log ∧ metadata.Carries completion.key) := by
  cases turn with
  | @signalled completion rest objects failed =>
    obtain ⟨⟨⟨front, split, -⟩, pending⟩, -⟩ := barrier
    refine Or.inr ⟨completion, by simp [split], _, rfl, identityState_started _ _, ?_, ?_⟩
    · rw [pending completion List.mem_cons_self]
      intro ended
      cases ended
    · unfold identityState
      split <;> intro succeeded <;> cases succeeded
  | @failureSignalled completion rest =>
    obtain ⟨⟨front, split, -⟩, -⟩ := barrier
    exact Or.inr ⟨completion, by simp [split], _, rfl, by simp, fun _ => rfl, by simp⟩
  | @completed completion rest outcome =>
    obtain ⟨⟨front, split, -⟩, -⟩ := barrier
    refine Or.inr ⟨completion, by simp [split], _, rfl, by simp, fun _ => rfl, ?_⟩
    intro succeeded
    have ok : partitionResultError outcome.partitionResults completion.topic
        completion.virtualPartitionId outcome.fallbackError = none := by
      cases error : partitionResultError outcome.partitionResults completion.topic
          completion.virtualPartitionId outcome.fallbackError with
      | none => rfl
      | some error' =>
        rw [error] at succeeded
        cases succeeded
    obtain ⟨result, member, topicEq, idEq, free⟩ := partitionResultError_none ok
    obtain ⟨earlier, metadata, fences, later, object, entry, encoded, split, -, window, looked, -⟩ :=
      sound result member free
    refine ⟨metadata, fences, by simp [split], window.trans topicEq, ?_⟩
    show completion.virtualPartitionId ∈ _
    rw [← idEq]
    exact List.mem_map.mpr ⟨_, mem_of_lookup looked, rfl⟩
  | _ => exact Or.inl rfl

/-- Only a completion takes a channel off the unfinished ones. -/
theorem unfinished_took {task next : FlushTask}
    (took : FlushTask.Took codec segments task input next effect) :
    (next.unfinished = task.unfinished ∧ ∀ key channel error,
        effect ≠ some (.completeFlush key channel error))
      ∨ ∃ completion rest outcome, task.phase = .completing (completion :: rest) outcome
        ∧ next.phase = .completing rest outcome ∧ input = .complete
        ∧ effect = some (.completeFlush completion.key completion.state
          (partitionResultError outcome.partitionResults completion.topic
            completion.virtualPartitionId outcome.fallbackError)) := by
  obtain ⟨added, -, turn⟩ := took.turn
  unfold FlushTask.unfinished
  rw [took.plan]
  generalize task.phase = phase at turn
  generalize next.phase = later at turn
  cases turn with
  | @completed completion rest outcome =>
    exact Or.inr ⟨completion, rest, outcome, rfl, rfl, rfl, rfl⟩
  | _ => exact Or.inl ⟨rfl, by simp⟩

theorem countP_set_add {α : Type} (counts : α → Bool) {items : List α} {position : Nat} {item : α}
    (found : items[position]? = some item) (changed : α) :
    (items.set position changed).countP counts + (if counts item then 1 else 0)
      = items.countP counts + if counts changed then 1 else 0 := by
  have total := (cons_set found changed).countP_eq counts
  simpa only [List.countP_cons] using total

end BlobStream.Write

namespace BlobStream.Write.Cluster

open Machine
open FlushTask (Turn)

/-! ### The epochs of a broker -/

def RunningFlush.origin (run : RunningFlush) : String × FlushPlan := (run.session, run.task.plan)

def openedBy (session : String) (origins : List (String × FlushPlan)) : List Opened :=
  (origins.filter fun origin => origin.1 = session).flatMap fun origin => origin.2.opened

theorem openedBy_append (session : String) (first second : List (String × FlushPlan)) :
    openedBy session (first ++ second) = openedBy session first ++ openedBy session second := by
  simp [openedBy]

theorem mem_openedBy {session : String} {origins : List (String × FlushPlan)} {epoch : Opened} :
    epoch ∈ openedBy session origins ↔ ∃ plan, (session, plan) ∈ origins ∧ epoch ∈ plan.opened := by
  unfold openedBy
  constructor
  · intro member
    obtain ⟨⟨actor, plan⟩, kept, inPlan⟩ := List.mem_flatMap.mp member
    obtain ⟨present, same⟩ := List.mem_filter.mp kept
    have : actor = session := of_decide_eq_true same
    subst this
    exact ⟨plan, present, inPlan⟩
  · rintro ⟨plan, present, inPlan⟩
    exact List.mem_flatMap.mpr ⟨(session, plan), List.mem_filter.mpr ⟨present, by simp⟩, inPlan⟩

namespace FlushWorld

def origins (world : FlushWorld) : List (String × FlushPlan) :=
  world.tasks.map RunningFlush.origin

def publications (world : FlushWorld) (session : String) : Publications :=
  (world.cluster.brokers session).publications

def partition (world : FlushWorld) (session : String) (key : PartitionKey) : PartitionState :=
  (world.cluster.brokers session).write.partitionState key

end FlushWorld

def RunningFlush.Opens (key : PartitionKey) (run : RunningFlush) : Prop :=
  ∃ epoch, (key, epoch) ∈ run.task.plan.opened

/-- The task of the broker still has to complete an epoch of the partition. -/
def outstandingRun (session : String) (key : PartitionKey) (run : RunningFlush) : Bool :=
  run.session = session && run.task.unfinished.any fun completion => completion.key = key

section Invariant

variable (config : String → BrokerConfig) (codec : Codec) (segments : SegmentConfig) (clock : Int)

structure RunSound (world : FlushWorld) (index : Nat) (run : RunningFlush) : Prop where
  filed : run.task.plan.publicationCompletions
    = run.task.plan.topics.flatMap TopicFlushPlan.completions
  distinct : (run.task.plan.opened.map Prod.fst).Nodup
  task : TaskSound (run.task.plan.Encodes codec segments) run.task.plan run.task
  barrier : Barrier codec segments (world.publications run.session) run.task.plan run.task.log
    run.task.phase
  /-- A row is written only after all earlier epochs of its partitions have ended. -/
  cleared : ∀ key, run.task.Reaches key →
    ∀ epoch ∈ epochsAt key (openedBy run.session (world.origins.take index)),
      (world.publications run.session epoch.publicationState).ended = true
  carried : ∀ metadata fences key, StorageEvent.row metadata fences ∈ run.task.log →
    metadata.Carries key → run.Opens key
  identities : run.task.Identities (· < world.nextIdentity run.session)
  recorded : ∀ metadata fences, StorageEvent.row metadata fences ∈ run.task.log →
    ⟨run.session, index, metadata⟩ ∈ world.rows

/-- The identities of an earlier epoch of a partition lie below those of a later one. -/
def IdentityOrder (world : FlushWorld) (earlier later : RunningFlush) : Prop :=
  earlier.session = later.session → ∀ key, earlier.Opens key → later.Opens key →
    ∃ bound : SnowflakeId, bound ≤ world.nextIdentity earlier.session
      ∧ earlier.task.Identities (· < bound) ∧ later.task.Identities (bound ≤ ·)

/-- Rows of one partition follow the order of its epochs. -/
def RowOrder (earlier later : WrittenRow) : Prop :=
  earlier.session = later.session → ∀ key, earlier.metadata.Carries key →
    later.metadata.Carries key →
    earlier.task ≤ later.task
      ∧ (earlier.task < later.task → earlier.metadata.snowflakeId < later.metadata.snowflakeId)

structure FlushSound (world : FlushWorld) : Prop where
  cluster : Reachable (Cluster.step config) anyAction { clock := clock } world.cluster
  epochs : ∀ session, EpochsSound (world.cluster.brokers session) (openedBy session world.origins)
  own : ∀ session key, OwnSound (world.cluster.leases key)
    (epochRanges key (openedBy session world.origins)) ((world.cluster.brokers session).view key)
  outstanding : ∀ session key,
    world.tasks.countP (outstandingRun session key) ≤ (world.partition session key).outstandingFlushes
  runs : ∀ (index : Nat) (run : RunningFlush), world.tasks[index]? = some run →
    RunSound codec segments world index run
  ordered : ∀ (first second : Nat) (earlier later : RunningFlush), first < second →
    world.tasks[first]? = some earlier → world.tasks[second]? = some later →
    IdentityOrder world earlier later
  rows : world.rows.Pairwise RowOrder
  written : ∀ row ∈ world.rows, ∃ run : RunningFlush, world.tasks[row.task]? = some run
    ∧ run.session = row.session
    ∧ ∃ fences, StorageEvent.row row.metadata fences ∈ run.task.log

end Invariant

variable {config : String → BrokerConfig} {codec : Codec} {segments : SegmentConfig} {clock : Int}
variable {world : FlushWorld} {session : String} {key : PartitionKey} {index : Nat}
variable {run : RunningFlush} {epoch : FlushPartition}

theorem mem_origins (found : world.tasks[index]? = some run) :
    run.origin ∈ world.origins :=
  List.mem_map_of_mem (List.mem_of_getElem? found)

theorem exists_run (member : epoch ∈ epochsAt key (openedBy session world.origins)) :
    ∃ (index : Nat) (run : RunningFlush), world.tasks[index]? = some run ∧ run.session = session
      ∧ (key, epoch) ∈ run.task.plan.opened := by
  obtain ⟨plan, present, inPlan⟩ := mem_openedBy.mp (mem_epochsAt.mp member)
  obtain ⟨run, inTasks, same⟩ := List.mem_map.mp present
  obtain ⟨index, found⟩ := List.mem_iff_getElem?.mp inTasks
  obtain ⟨rfl, rfl⟩ := Prod.mk.inj same
  exact ⟨index, run, found, rfl, inPlan⟩

/-- A channel the plan completes belongs to one of its epochs. -/
theorem exists_epoch {plan : FlushPlan}
    (filed : plan.publicationCompletions = plan.topics.flatMap TopicFlushPlan.completions)
    {completion : FlushPublicationCompletion} (member : completion ∈ plan.publicationCompletions) :
    ∃ epoch, (completion.key, epoch) ∈ plan.opened ∧ epoch.publicationState = completion.state := by
  have paired : (completion.key, completion.state) ∈ plan.publicationCompletions.map
      fun completion => (completion.key, completion.state) := List.mem_map.mpr ⟨_, member, rfl⟩
  rw [completions_opened filed] at paired
  obtain ⟨⟨other, epoch⟩, inPlan, same⟩ := List.mem_map.mp paired
  obtain ⟨rfl, channel⟩ := Prod.mk.inj same
  exact ⟨epoch, inPlan, channel⟩

variable {allowed wider : SnowflakeId → Prop}

theorem FlushPhase.Identities.mono {phase : FlushPhase} (identities : phase.Identities allowed)
    (widens : ∀ id, allowed id → wider id) : phase.Identities wider := by
  have objects {items : List PersistedObject}
      (each : ∀ object ∈ items, object.Identities allowed) :
      ∀ object ∈ items, object.Identities wider :=
    fun object member topic inTopics => widens _ (each object member topic inTopics)
  cases phase with
  | identifying _ _ _ => exact objects identities
  | signalling _ _ _ => exact objects identities
  | registering | uploading => exact ⟨objects identities.1, objects identities.2⟩
  | publishing _ _ => exact fun publication member => widens _ (identities publication member)
  | _ => trivial

theorem FlushTask.Identities.mono {task : FlushTask} (identities : task.Identities allowed)
    (widens : ∀ id, allowed id → wider id) : task.Identities wider :=
  ⟨FlushPhase.Identities.mono identities.1 widens, fun metadata fences member =>
    widens _ (identities.2 metadata fences member)⟩

section Runs

variable (sound : RunSound codec segments world index run)

include sound

theorem RunSound.completion (member : (key, epoch) ∈ run.task.plan.opened) :
    ∃ completion ∈ run.task.plan.publicationCompletions, completion.key = key
      ∧ completion.state = epoch.publicationState := by
  have paired : (key, epoch.publicationState) ∈ run.task.plan.opened.map
      fun epoch => (epoch.1, epoch.2.publicationState) := List.mem_map.mpr ⟨_, member, rfl⟩
  rw [← completions_opened sound.filed] at paired
  obtain ⟨completion, inPlan, same⟩ := List.mem_map.mp paired
  obtain ⟨keyed, channel⟩ := Prod.mk.inj same
  exact ⟨completion, inPlan, keyed, channel⟩

theorem RunSound.same_epoch {first second : FlushPartition}
    (one : (key, first) ∈ run.task.plan.opened) (two : (key, second) ∈ run.task.plan.opened) :
    first = second :=
  congrArg Prod.snd (List.inj_on_of_nodup_map sound.distinct one two rfl)

theorem RunSound.keys :
    (run.task.plan.publicationCompletions.map FlushPublicationCompletion.key).Nodup := by
  have keyed := congrArg (List.map Prod.fst) (completions_opened sound.filed)
  rw [List.map_map, List.map_map] at keyed
  have distinct := sound.distinct
  exact keyed ▸ distinct

theorem RunSound.suffix :
    run.task.unfinished <:+ run.task.plan.publicationCompletions := by
  have barrier := sound.barrier
  unfold FlushTask.unfinished
  cases phase : run.task.phase with
  | completing rest outcome =>
    rw [phase] at barrier
    obtain ⟨⟨front, split, -⟩, -⟩ := barrier
    exact ⟨front, split.symm⟩
  | done => exact List.nil_suffix
  | _ => exact List.suffix_rfl

theorem RunSound.ended (member : (key, epoch) ∈ run.task.plan.opened)
    (finished : ∀ completion ∈ run.task.unfinished, completion.key ≠ key) :
    (world.publications run.session epoch.publicationState).ended = true := by
  obtain ⟨completion, inPlan, keyed, channel⟩ := sound.completion member
  have barrier := sound.barrier
  unfold FlushTask.unfinished at finished
  rw [← channel]
  cases phase : run.task.phase with
  | completing rest outcome =>
    rw [phase] at finished barrier
    obtain ⟨⟨front, split, ended⟩, -⟩ := barrier
    rw [split] at inPlan
    rcases List.mem_append.mp inPlan with done | waiting
    · exact ended completion done
    · exact absurd keyed (finished completion waiting)
  | done =>
    rw [phase] at barrier
    exact barrier completion inPlan
  | _ =>
    rw [phase] at finished
    exact absurd keyed (finished completion inPlan)

theorem RunSound.move {next : FlushWorld}
    (origins : next.origins.take index = world.origins.take index)
    (own : ∀ completion ∈ run.task.plan.publicationCompletions,
      next.publications run.session completion.state
        = world.publications run.session completion.state)
    (ended : ∀ epoch ∈ openedBy run.session (world.origins.take index),
      (world.publications run.session epoch.2.publicationState).ended = true →
      (next.publications run.session epoch.2.publicationState).ended = true)
    (identities : world.nextIdentity run.session ≤ next.nextIdentity run.session)
    (rows : ∀ row ∈ world.rows, row ∈ next.rows) :
    RunSound codec segments next index run where
  filed := sound.filed
  distinct := sound.distinct
  task := sound.task
  barrier := sound.barrier.congr own
  cleared := by
    intro key reaches epoch member
    rw [origins] at member
    exact ended (key, epoch) (mem_epochsAt.mp member) (sound.cleared key reaches epoch member)
  carried := sound.carried
  identities := FlushTask.Identities.mono sound.identities fun id below =>
    Nat.lt_of_lt_of_le below identities
  recorded := fun metadata fences member => rows _ (sound.recorded metadata fences member)

end Runs

/-! ### Actions of the cluster -/

section Actions

variable (sound : FlushSound config codec segments clock world)

include sound

/-- Without outstanding flushes all epochs of a partition have ended. -/
theorem FlushSound.all_ended (none_ : (world.partition session key).outstandingFlushes = 0) :
    ∀ epoch ∈ epochsAt key (openedBy session world.origins),
      (world.publications session epoch.publicationState).ended = true := by
  intro epoch member
  obtain ⟨index, run, found, rfl, inPlan⟩ := exists_run member
  refine (sound.runs index run found).ended inPlan fun completion waiting keyed => ?_
  have counted := sound.outstanding run.session key
  have idle : world.tasks.countP (outstandingRun run.session key) = 0 := by omega
  have := List.countP_eq_zero.mp idle run (List.mem_of_getElem? found)
  refine this ?_
  simp only [outstandingRun, decide_true, Bool.true_and, List.any_eq_true, decide_eq_true_eq]
  exact ⟨completion, waiting, keyed⟩

theorem FlushSound.shape :
    WorldShape world.cluster := by
  have met : Reachable (Cluster.step config) noContract.allows { clock := clock } world.cluster :=
    sound.cluster.mono fun before action _ => noContract_allows before action
  exact reachable_shape met

variable {action : Action} {cluster : World}

/-- Every action of the cluster keeps the order of the ranges handed out. -/
theorem FlushSound.own_step (stepped : Cluster.step config world.cluster action = some cluster)
    (session : String) (key : PartitionKey) :
    OwnSound (cluster.leases key) (epochRanges key (openedBy session world.origins))
      ((cluster.brokers session).view key) := by
  have shape := sound.shape
  exact ownSound_step (fun session => epochRanges key (openedBy session world.origins))
    (shape.views key) (fun session => sound.own session key)
    (step_focus shape.keyed (noContract_allows world.cluster action) stepped key) session

theorem flushSound_cluster (still : action.movesEpochs = false)
    (stepped : Cluster.step config world.cluster action = some cluster) :
    FlushSound config codec segments clock { world with cluster := cluster } := by
  have channels := step_channels still stepped
  have publications : ∀ session, (cluster.brokers session).publications = world.publications session :=
    fun session => (Prod.mk.inj (channels session)).1
  have frame : ∀ session key, EpochFrame (world.partition session key)
      ((cluster.brokers session).write.partitionState key) :=
    step_epochFrame sound.shape.keyed still stepped
  refine ⟨sound.cluster.tail trivial stepped, fun session => ⟨(sound.epochs session).distinct, ?_, ?_⟩,
    ?_, ?_, ?_, sound.ordered, sound.rows, sound.written⟩
  · show ∀ epoch ∈ _, _ < (cluster.brokers session).nextPublication
    rw [(Prod.mk.inj (channels session)).2]
    exact (sound.epochs session).fresh
  · intro key
    show ChainSound (cluster.brokers session).publications
      ((cluster.brokers session).write.partitionState key).publicationTail _
    have chain := (sound.epochs session).chain key
    rw [publications session]
    rcases frame session key with same | ⟨idle, retired⟩
    · rw [(Prod.mk.inj same).1]
      exact chain
    · -- A retired partition has no epoch left that could be overtaken.
      rw [(Prod.mk.inj retired).1]
      exact chain.clear (sound.all_ended idle)
  · exact sound.own_step stepped
  · intro session key
    have counted := sound.outstanding session key
    show _ ≤ ((cluster.brokers session).write.partitionState key).outstandingFlushes
    rcases frame session key with same | ⟨idle, retired⟩
    · rw [(Prod.mk.inj same).2]
      exact counted
    · rw [idle] at counted
      exact Nat.le_trans counted (Nat.zero_le _)
  · intro index run found
    refine (sound.runs index run found).move rfl ?_ ?_ (Nat.le_refl _) fun _ member => member
    · exact fun completion _ => congrFun (publications run.session) completion.state
    · intro epoch _ ended
      show ((cluster.brokers run.session).publications _).ended = true
      rw [publications run.session]
      exact ended

end Actions

/-! ### Scheduler passes -/

theorem epochsAt_length_le {key : PartitionKey} {epochs : List Opened}
    (distinct : (epochs.map Prod.fst).Nodup) : (epochsAt key epochs).length ≤ 1 := by
  induction epochs with
  | nil => simp [epochsAt]
  | cons epoch rest ih =>
    rw [List.map_cons, List.nodup_cons] at distinct
    have later := ih distinct.2
    by_cases same : epoch.1 = key
    · have absent : epochsAt key rest = [] := by
        rw [List.eq_nil_iff_forall_not_mem]
        intro other member
        exact distinct.1 (same ▸ List.mem_map.mpr ⟨_, mem_epochsAt.mp member, rfl⟩)
      simp only [epochsAt, List.filter_cons, same, decide_true, if_true, List.map_cons,
        List.length_cons] at absent ⊢
      rw [absent]
      rfl
    · simpa [epochsAt, List.filter_cons, same] using later

/-- Reordering epochs of different partitions changes no chain. -/
theorem epochsAt_perm {key : PartitionKey} {first second : List Opened} (perm : first.Perm second)
    (distinct : (first.map Prod.fst).Nodup) : epochsAt key first = epochsAt key second := by
  have same : (epochsAt key first).Perm (epochsAt key second) := (perm.filter _).map _
  have short : (epochsAt key first).length ≤ 1 := epochsAt_length_le distinct
  generalize epochsAt key first = one at same short
  match one with
  | [] => exact (List.nil_perm.mp same).symm
  | [epoch] => exact List.singleton_perm.mp same
  | _ :: _ :: _ => simp at short

theorem EpochsSound.perm {broker : Broker} {epochs first second : List Opened}
    (sound : EpochsSound broker (epochs ++ first)) (perm : first.Perm second)
    (distinct : (first.map Prod.fst).Nodup) : EpochsSound broker (epochs ++ second) where
  distinct := by
    refine (List.Perm.nodup_iff ?_).mp sound.distinct
    exact (perm.append_left epochs).map _
  fresh := fun epoch member => sound.fresh epoch ((perm.append_left epochs).mem_iff.mpr member)
  chain := by
    intro key
    have chain := sound.chain key
    rw [epochsAt_append] at chain ⊢
    rwa [← epochsAt_perm perm distinct]

section Passes

variable {request : CollectRequest}

theorem runSound_start {next : FlushWorld} {plan : FlushPlan} {index : Nat}
    (filed : plan.publicationCompletions = plan.topics.flatMap TopicFlushPlan.completions)
    (distinct : (plan.opened.map Prod.fst).Nodup)
    (pending : ∀ epoch ∈ plan.opened,
      next.publications session epoch.2.publicationState = .pending) :
    RunSound codec segments next index ⟨session, .start plan⟩ where
  filed := filed
  distinct := distinct
  task := taskSound_start plan _
  barrier := by
    refine ⟨fun completion member => ?_, ?_, fun _ member => by cases member⟩
    · obtain ⟨epoch, inPlan, same⟩ := exists_epoch filed member
      rw [← same]
      exact pending _ inPlan
    · have keys : (plan.topics.flatMap fun topicPlan => topicPlan.partitions.map fun partition =>
          (topicPlan, partition)).map remainingKey = plan.opened.map Prod.fst := by
        rw [FlushPlan.opened, List.map_flatMap, List.map_flatMap]
        congr 1
        funext topicPlan
        simp [TopicFlushPlan.opened, sectionOpened, remainingKey, Function.comp_def]
      simp only [List.map_nil, List.append_nil]
      rw [keys]
      exact distinct
  cleared := by
    rintro key (ready | ⟨_, _, member, -⟩)
    · exact absurd ready id
    · cases member
  carried := fun _ _ _ member => by cases member
  identities := ⟨trivial, fun _ _ member => by cases member⟩
  recorded := fun _ _ member => by cases member

theorem collect_brokers_of_ne {other : String} (different : other ≠ session) :
    (world.collect session request).cluster.brokers other = world.cluster.brokers other := by
  simp [FlushWorld.collect, World.setBroker, different]

theorem collect_broker_self :
    (world.collect session request).cluster.brokers session
      = (collectNextFlushPlan request (world.cluster.brokers session)).broker := by
  simp [FlushWorld.collect, World.setBroker]

/-- What a pass adds: the epochs it opened, in the order of its plan, and at most one task. -/
structure PassAdds (world : FlushWorld) (session : String) (request : CollectRequest)
    (opened added : List Opened) (runs : List RunningFlush) : Prop where
  takes : Takes request.fencedMetadataWrites (world.cluster.brokers session) opened
    (collectNextFlushPlan request (world.cluster.brokers session)).fenceLost
    (collectNextFlushPlan request (world.cluster.brokers session)).broker
  perm : opened.Perm added
  epochs : ∀ other, openedBy other (world.collect session request).origins
    = openedBy other world.origins ++ if other = session then added else []
  tasks : (world.collect session request).tasks = world.tasks ++ runs
  started : ∀ run ∈ runs, runs = [run] ∧ ∃ plan, run = ⟨session, .start plan⟩ ∧ plan.opened = added
    ∧ plan.publicationCompletions = plan.topics.flatMap TopicFlushPlan.completions

theorem collect_adds (world : FlushWorld) (session : String) (request : CollectRequest) :
    ∃ opened added runs, PassAdds world session request opened added runs := by
  obtain ⟨opened, takes, nothing, planned⟩ :=
    collectNextFlushPlan_takes request (world.cluster.brokers session)
  cases made : (collectNextFlushPlan request (world.cluster.brokers session)).plan with
  | none =>
    refine ⟨opened, [], [], takes, by rw [nothing made], fun other => ?_, ?_, by simp⟩
    · simp [FlushWorld.origins, FlushWorld.collect, made]
    · simp [FlushWorld.collect, made]
  | some plan =>
    obtain ⟨perm, filed⟩ := planned plan made
    refine ⟨opened, plan.opened, [⟨session, .start plan⟩], takes, perm, fun other => ?_, ?_, ?_⟩
    · have single : (world.collect session request).origins
          = world.origins ++ [(session, plan)] := by
        simp [FlushWorld.origins, FlushWorld.collect, made, RunningFlush.origin, FlushTask.start]
      rw [single, openedBy_append]
      congr 1
      by_cases same : other = session
      · simp [openedBy, same]
      · simp [openedBy, same, Ne.symm same]
    · simp [FlushWorld.collect, made]
    · intro run member
      rw [List.mem_singleton.mp member]
      exact ⟨rfl, plan, rfl, rfl, filed⟩

theorem outstanding_collect
    (counted : ∀ session key, world.tasks.countP (outstandingRun session key)
      ≤ (world.partition session key).outstandingFlushes)
    (other : String) (key : PartitionKey) :
    (world.collect session request).tasks.countP (outstandingRun other key)
      ≤ ((world.collect session request).partition other key).outstandingFlushes := by
  obtain ⟨opened, added, runs, adds⟩ := collect_adds world session request
  have facts := adds.takes.takesEpochs
  have distinct := adds.takes.accounted.distinct
  have counted := counted other key
  unfold FlushWorld.partition at counted ⊢
  rw [adds.tasks, List.countP_append]
  by_cases same : other = session
  · subst same
    rw [collect_broker_self, facts.outstanding key]
    refine Nat.add_le_add counted ?_
    rw [epochsAt_perm adds.perm distinct]
    match runs, adds.started with
    | [], _ => simp
    | [run], started =>
      obtain ⟨-, plan, rfl, rfl, filed⟩ := started run List.mem_cons_self
      rw [List.countP_singleton]
      split
      next counts =>
        simp only [outstandingRun, decide_true, Bool.true_and, List.any_eq_true,
          decide_eq_true_eq, FlushTask.unfinished, FlushTask.start] at counts
        obtain ⟨completion, member, rfl⟩ := counts
        obtain ⟨epoch, inPlan, -⟩ := exists_epoch filed member
        exact List.length_pos_of_mem (mem_epochsAt.mpr inPlan)
      next => exact Nat.zero_le _
    | first :: second :: rest, started => simpa using (started first List.mem_cons_self).1
  · rw [collect_brokers_of_ne same]
    have idle : runs.countP (outstandingRun other key) = 0 := by
      refine List.countP_eq_zero.mpr fun run member => ?_
      obtain ⟨-, plan, rfl, -⟩ := adds.started run member
      simp [outstandingRun, Ne.symm same]
    rw [idle]
    exact counted

theorem flushSound_collect (sound : FlushSound config codec segments clock world)
    (session : String) (request : CollectRequest) :
    FlushSound config codec segments clock (world.collect session request) := by
  obtain ⟨opened, added, runs, takes, perm, epochsEq, tasks, started⟩ :=
    collect_adds world session request
  have facts := takes.takesEpochs
  have distinct := takes.accounted.distinct
  have self := @collect_broker_self world session request
  have distinctAdded : (added.map Prod.fst).Nodup := (perm.map _).nodup_iff.mp distinct
  -- Channels that were in use keep their states.
  have old : ∀ other, ∀ epoch ∈ openedBy other world.origins,
      (world.collect session request).publications other epoch.2.publicationState
        = world.publications other epoch.2.publicationState := by
    intro other epoch member
    unfold FlushWorld.publications
    by_cases same : other = session
    · subst same
      rw [self]
      exact facts.old _ ((sound.epochs other).fresh epoch member)
    · rw [collect_brokers_of_ne same]
  have originsTake : ∀ index ≤ world.tasks.length,
      (world.collect session request).origins.take index = world.origins.take index := by
    intro index inside
    unfold FlushWorld.origins
    rw [tasks, List.map_append, List.take_append_of_le_length (by simpa using inside)]
  have before : ∀ index < world.tasks.length,
      (world.collect session request).tasks[index]? = world.tasks[index]? := by
    intro index inside
    rw [tasks, List.getElem?_append_left inside]
  have fresh : ∀ index run, (world.collect session request).tasks[index]? = some run →
      world.tasks.length ≤ index → index = world.tasks.length ∧ run ∈ runs := by
    intro index run found outside
    rw [tasks, List.getElem?_append_right outside] at found
    have member := List.mem_of_getElem? found
    obtain ⟨inside, -⟩ := List.getElem?_eq_some_iff.mp found
    rw [(started run member).1] at inside
    refine ⟨?_, member⟩
    simp only [List.length_singleton] at inside
    omega
  refine ⟨?_, ?_, ?_, ?_, ?_, ?_, sound.rows, ?_⟩
  · exact sound.cluster.trans (takes.reachable fun _ _ _ => trivial)
  · intro other
    rw [epochsEq]
    by_cases same : other = session
    · subst same
      rw [self, if_pos rfl]
      exact (takes.epochsSound (sound.epochs other)).perm perm distinct
    · rw [collect_brokers_of_ne same, if_neg same, List.append_nil]
      exact sound.epochs other
  · intro other key
    rw [epochsEq]
    by_cases same : other = session
    · subst same
      rw [self, if_pos rfl]
      have own := takes.ownSound (sound.own other) key
      rw [epochRanges_append] at own ⊢
      unfold epochRanges at own ⊢
      rwa [← epochsAt_perm perm distinct]
    · rw [collect_brokers_of_ne same, if_neg same, List.append_nil]
      exact sound.own other key
  · exact outstanding_collect sound.outstanding
  · intro index run found
    by_cases inside : index < world.tasks.length
    · rw [before index inside] at found
      have runSound := sound.runs index run found
      refine runSound.move (originsTake index (Nat.le_of_lt inside)) ?_ ?_ (Nat.le_refl _)
        fun _ member => member
      · intro completion member
        obtain ⟨epoch, inPlan, same⟩ := exists_epoch runSound.filed member
        rw [← same]
        exact old run.session _ (mem_openedBy.mpr ⟨_, mem_origins found, inPlan⟩)
      · intro epoch member ended
        obtain ⟨plan, present, inPlan⟩ := mem_openedBy.mp member
        rw [old run.session epoch
          (mem_openedBy.mpr ⟨plan, List.mem_of_mem_take present, inPlan⟩)]
        exact ended
    · obtain ⟨-, member⟩ := fresh index run found (Nat.le_of_not_lt inside)
      obtain ⟨-, plan, rfl, rfl, filed⟩ := started run member
      refine runSound_start filed distinctAdded fun epoch inPlan => ?_
      unfold FlushWorld.publications
      rw [self]
      exact (facts.new epoch (perm.mem_iff.mpr inPlan)).1
  · intro first second earlier later order foundFirst foundSecond
    by_cases inside : second < world.tasks.length
    · rw [before second inside] at foundSecond
      rw [before first (by omega)] at foundFirst
      exact sound.ordered first second earlier later order foundFirst foundSecond
    · obtain ⟨rfl, member⟩ := fresh second later foundSecond (Nat.le_of_not_lt inside)
      obtain ⟨-, plan, rfl, -⟩ := started later member
      rw [before first order] at foundFirst
      intro _ key _ _
      exact ⟨world.nextIdentity earlier.session, Nat.le_refl _,
        (sound.runs first earlier foundFirst).identities, trivial, fun _ _ member => by cases member⟩
  · intro row member
    obtain ⟨run, found, rest⟩ := sound.written row member
    have inside := (List.getElem?_eq_some_iff.mp found).1
    exact ⟨run, (before row.task inside).trans found, rest⟩

end Passes

/-! ### Turns of flush tasks -/

def FlushWorld.epochsEnded (world : FlushWorld) (publications : Publications) (session : String)
    (key : PartitionKey) : Bool :=
  world.tasks.all fun run => run.session ≠ session || run.task.plan.opened.all fun epoch =>
    epoch.1 ≠ key || (publications epoch.2.publicationState).ended

/-- A completion that drops the publication tail of its partition does so after the last epoch of
the partition has ended. -/
def tailContract (world : FlushWorld) : FlushAction → Prop
  | .flush index .complete =>
    match world.tasks[index]? with
    | some run =>
      match run.task.phase with
      | .completing (completion :: _) outcome =>
        let publications := Function.update (world.publications run.session) completion.state
          (.completed (FlushPublicationResult.ofError (partitionResultError
            outcome.partitionResults completion.topic completion.virtualPartitionId
            outcome.fallbackError)))
        tailFailed publications (world.partition run.session completion.key).publicationTail = true →
          world.epochsEnded publications run.session completion.key = true
      | _ => True
    | none => True
  | _ => True

instance (world : FlushWorld) (action : FlushAction) : Decidable (tailContract world action) := by
  unfold tailContract
  split
  · split
    · split
      · exact inferInstance
      · exact inferInstance
    · exact inferInstance
  · exact inferInstance

section Flushes

variable {input : FlushInput} {next : FlushTask} {effect : Option FlushEffect}

theorem advance_origins (found : world.tasks[index]? = some run)
    (plan : next.plan = run.task.plan) :
    (world.advance index run input next effect).origins = world.origins := by
  obtain ⟨inside, here⟩ := List.getElem?_eq_some_iff.mp found
  apply List.ext_getElem?
  intro position
  simp only [FlushWorld.origins, FlushWorld.advance, List.map_set, List.getElem?_set]
  split
  next same =>
    subst same
    simp [inside, here, RunningFlush.origin, plan]
  next => rfl

theorem advance_broker_of_ne {session : String} (different : session ≠ run.session) :
    (world.advance index run input next effect).cluster.brokers session
      = world.cluster.brokers session := by
  simp [FlushWorld.advance, World.setBroker, different]

theorem advance_broker_self :
    (world.advance index run input next effect).cluster.brokers run.session
      = (world.cluster.brokers run.session).applyEffect effect := by
  simp [FlushWorld.advance, World.setBroker]

theorem applyEffect_publications (broker : Broker) (effect : Option FlushEffect) :
    (broker.applyEffect effect).publications = FlushEffect.publications broker.publications effect := by
  cases effect with
  | none => rfl
  | some effect =>
    cases effect with
    | signal channel state => rfl
    | completeFlush key channel error =>
      simp only [Broker.applyEffect, Broker.completeFlush]
      split <;> rfl

theorem applyEffect_nextPublication (broker : Broker) (effect : Option FlushEffect) :
    (broker.applyEffect effect).nextPublication = broker.nextPublication := by
  cases effect with
  | none => rfl
  | some effect =>
    cases effect with
    | signal channel state => rfl
    | completeFlush key channel error =>
      simp only [Broker.applyEffect, Broker.completeFlush]
      split <;> rfl

theorem advance_publications_self :
    (world.advance index run input next effect).publications run.session
      = FlushEffect.publications (world.publications run.session) effect := by
  unfold FlushWorld.publications
  rw [advance_broker_self, applyEffect_publications]

theorem openedBy_split (found : world.tasks[index]? = some run) :
    openedBy run.session world.origins
      = openedBy run.session (world.origins.take index)
        ++ (run.task.plan.opened ++ openedBy run.session (world.origins.drop (index + 1))) := by
  have origin : world.origins[index]? = some run.origin := by
    unfold FlushWorld.origins
    rw [List.getElem?_map, found]
    rfl
  obtain ⟨inside, here⟩ := List.getElem?_eq_some_iff.mp origin
  have parts : world.origins
      = world.origins.take index ++ run.origin :: world.origins.drop (index + 1) := by
    rw [← here, List.getElem_cons_drop, List.take_append_drop]
  have own : openedBy run.session [run.origin] = run.task.plan.opened := by
    simp [openedBy, RunningFlush.origin]
  rw [← own, ← openedBy_append, ← openedBy_append]
  exact congrArg _ parts

theorem FlushSound.split (sound : FlushSound config codec segments clock world)
    (found : world.tasks[index]? = some run) (inPlan : (key, epoch) ∈ run.task.plan.opened) :
    ∃ rest, epochsAt key (openedBy run.session world.origins)
        = epochsAt key (openedBy run.session (world.origins.take index)) ++ epoch :: rest
      ∧ (∀ earlier ∈ openedBy run.session (world.origins.take index),
        earlier.2.publicationState ≠ epoch.publicationState)
      ∧ ∀ later ∈ rest, later.publicationState ≠ epoch.publicationState := by
  have alone : epochsAt key run.task.plan.opened = [epoch] := by
    have short : (epochsAt key run.task.plan.opened).length ≤ 1 :=
      epochsAt_length_le (sound.runs index run found).distinct
    have member := mem_epochsAt.mpr inPlan
    generalize epochsAt key run.task.plan.opened = epochs at short member
    match epochs with
    | [] => cases member
    | [_] => rw [List.mem_singleton.mp member]
    | _ :: _ :: _ => simp at short
  have all := openedBy_split found
  have distinct := (sound.epochs run.session).distinct
  rw [all, List.map_append, List.map_append] at distinct
  obtain ⟨-, behind, apart⟩ := List.nodup_append.mp distinct
  obtain ⟨-, -, after⟩ := List.nodup_append.mp behind
  have here' : epoch.publicationState ∈ run.task.plan.opened.map fun epoch => epoch.2.publicationState :=
    List.mem_map.mpr ⟨_, inPlan, rfl⟩
  refine ⟨epochsAt key (openedBy run.session (world.origins.drop (index + 1))), ?_, ?_, ?_⟩
  · rw [all, epochsAt_append, epochsAt_append, alone, List.singleton_append]
  · exact fun earlier member => apart _ (List.mem_map_of_mem member) _ (List.mem_append_left _ here')
  · intro later member same
    exact after _ here' _ (List.mem_map.mpr ⟨_, mem_epochsAt.mp member, rfl⟩) same.symm

/-- An effect leaves a partition alone, or ends one of its flushes. -/
theorem applyEffect_partitionState (broker : Broker) (effect : Option FlushEffect)
    (key : PartitionKey) :
    (((broker.applyEffect effect).write.partitionState key).epochState
        = (broker.write.partitionState key).epochState
        ∧ ∀ channel error, effect ≠ some (.completeFlush key channel error))
      ∨ (∃ channel error, effect = some (.completeFlush key channel error))
        ∧ ((broker.applyEffect effect).write.partitionState key).epochState
          = (if tailFailed (FlushEffect.publications broker.publications effect)
              (broker.write.partitionState key).publicationTail then none
            else (broker.write.partitionState key).publicationTail,
            (broker.write.partitionState key).outstandingFlushes - 1) := by
  cases effect with
  | none => exact Or.inl ⟨rfl, by simp⟩
  | some effect =>
    cases effect with
    | signal channel state => exact Or.inl ⟨rfl, by simp⟩
    | completeFlush target channel error =>
      by_cases same : target = key
      · subst same
        refine Or.inr ⟨⟨channel, error, rfl⟩, ?_⟩
        cases present : broker.write.partitions target with
        | none =>
          simp [Broker.applyEffect, Broker.completeFlush, present, WriteState.partitionState,
            PartitionState.epochState, tailFailed, Broker.signal]
        | some state =>
          simp [Broker.applyEffect, Broker.completeFlush, present, WriteState.partitionState,
            PartitionState.epochState, PartitionState.flushCompleted, Broker.setPartition,
            FlushEffect.publications, Broker.signal]
          rfl
      · refine Or.inl ⟨?_, by simp [same]⟩
        unfold Broker.applyEffect Broker.completeFlush
        simp only
        split
        · simp [WriteState.partitionState, Broker.setPartition, Broker.signal, Ne.symm same]
        · rfl

/-- The dropped tail of a run that meets the contract was the last of its partition. -/
theorem tailContract_ended (meets : tailContract world (.flush index input))
    (found : world.tasks[index]? = some run)
    {completion : FlushPublicationCompletion} {rest : List FlushPublicationCompletion}
    {outcome : FlushOutcome} (phase : run.task.phase = .completing (completion :: rest) outcome)
    (completing : input = .complete) {publications : Publications}
    (updated : publications = Function.update (world.publications run.session) completion.state
      (.completed (FlushPublicationResult.ofError (partitionResultError outcome.partitionResults
        completion.topic completion.virtualPartitionId outcome.fallbackError))))
    (failed : tailFailed publications
      (world.partition run.session completion.key).publicationTail = true) :
    ∀ epoch ∈ epochsAt completion.key (openedBy run.session world.origins),
      (publications epoch.publicationState).ended = true := by
  subst completing
  simp only [tailContract, found, phase] at meets
  rw [← updated] at meets
  have ended := meets failed
  intro epoch member
  obtain ⟨position, other, foundOther, sameSession, inPlan⟩ := exists_run member
  simp only [FlushWorld.epochsEnded, List.all_eq_true, Bool.or_eq_true] at ended
  have here := ended other (List.mem_of_getElem? foundOther)
  rcases here with elsewhere | here
  · exact absurd sameSession (by simpa using elsewhere)
  · rcases here _ inPlan with otherKey | ended
    · simp at otherKey
    · exact ended

/-- What a task does to its broker is an action of the cluster. -/
theorem advance_cluster (config : String → BrokerConfig) :
    (world.advance index run input next effect).cluster = world.cluster
      ∨ ∃ action, action.movesEpochs = true ∧ Cluster.step config world.cluster action
        = some (world.advance index run input next effect).cluster := by
  cases effect with
  | none => exact Or.inl (by simp [FlushWorld.advance, Broker.applyEffect, World.setBroker])
  | some effect =>
    cases effect with
    | signal channel state => exact Or.inr ⟨.signal run.session channel state, rfl, rfl⟩
    | completeFlush key channel error =>
      exact Or.inr ⟨.completeFlush run.session key channel error, rfl, rfl⟩

/-- Every unfinished epoch of a partition is counted among its outstanding flushes. -/
theorem outstanding_advance
    (counted : ∀ session key, world.tasks.countP (outstandingRun session key)
      ≤ (world.partition session key).outstandingFlushes)
    (keys : (run.task.plan.publicationCompletions.map FlushPublicationCompletion.key).Nodup)
    (suffix : run.task.unfinished <:+ run.task.plan.publicationCompletions)
    (found : world.tasks[index]? = some run)
    (took : FlushTask.Took codec segments run.task input next effect) (session : String)
    (key : PartitionKey) :
    (world.advance index run input next effect).tasks.countP (outstandingRun session key)
      ≤ ((world.advance index run input next effect).partition session key).outstandingFlushes := by
  have counted := counted session key
  have changed := countP_set_add (outstandingRun session key) found { run with task := next }
  show (world.tasks.set index { run with task := next }).countP (outstandingRun session key) ≤ _
  unfold FlushWorld.partition at counted ⊢
  by_cases same : session = run.session
  · subst same
    rw [advance_broker_self]
    rcases unfinished_took took with ⟨unfinished, never⟩ |
        ⟨completion, rest, outcome, before, after, -, is⟩
    · -- No flush ends, so the same tasks count.
      have alike : outstandingRun run.session key { run with task := next }
          = outstandingRun run.session key run := by
        simp only [outstandingRun, unfinished]
      rcases applyEffect_partitionState (world.cluster.brokers run.session) effect key with
        ⟨kept, -⟩ | ⟨⟨channel, error, ends⟩, -⟩
      · rw [(Prod.mk.inj kept).2]
        rw [alike] at changed
        omega
      · exact absurd ends (never _ _ _)
    · obtain ⟨front, split⟩ := suffix
      simp only [FlushTask.unfinished, before] at split
      have counts (other : PartitionKey) :
          outstandingRun run.session other run
            = (completion.key = other || outstandingRun run.session other { run with task := next }) := by
        simp [outstandingRun, FlushTask.unfinished, before, after, List.any_cons]
      rcases applyEffect_partitionState (world.cluster.brokers run.session) effect key with
        ⟨kept, never⟩ | ⟨⟨channel, error, ends⟩, ended⟩
      · have different : completion.key ≠ key := by
          rintro rfl
          exact never _ _ is
        have alike := counts key
        simp only [different, decide_false, Bool.false_or] at alike
        rw [(Prod.mk.inj kept).2]
        rw [alike] at changed
        omega
      · rw [is, Option.some.injEq, FlushEffect.completeFlush.injEq] at ends
        obtain ⟨rfl, -, -⟩ := ends
        -- The completed channel was the task's only one for this partition.
        have gone : outstandingRun run.session completion.key { run with task := next } = false := by
          rw [← split, List.map_append, List.map_cons] at keys
          have tail := (List.nodup_append.mp keys).2.1
          simp only [outstandingRun, FlushTask.unfinished, after, decide_true, Bool.true_and,
            List.any_eq_false, decide_eq_true_eq]
          intro other member clash
          exact (List.nodup_cons.mp tail).1 (clash ▸ List.mem_map_of_mem member)
        have counted' := counts completion.key
        simp only [decide_true, Bool.true_or] at counted'
        rw [(Prod.mk.inj ended).2]
        rw [gone, counted'] at changed
        simp only [if_true, Bool.false_eq_true, if_false] at changed
        omega
  · rw [advance_broker_of_ne same]
    have other (task : FlushTask) : outstandingRun session key { run with task := task } = false := by
      simp [outstandingRun, Ne.symm same]
    rw [other next, show outstandingRun session key run = false from other run.task] at changed
    simp only [Bool.false_eq_true, if_false] at changed
    omega

variable {position : Nat} {other : RunningFlush}

theorem mem_openedBy_take (before : position < index) (found : world.tasks[position]? = some other)
    {epoch : Opened} (inPlan : epoch ∈ other.task.plan.opened) :
    epoch ∈ openedBy other.session (world.origins.take index) := by
  refine mem_openedBy.mpr ⟨other.task.plan, ?_, inPlan⟩
  refine List.mem_of_getElem? (i := position) ?_
  rw [List.getElem?_take_of_lt before, FlushWorld.origins, List.getElem?_map, found]
  rfl

theorem usedIdentity_le (answers : world.answers run input = true) :
    world.nextIdentity run.session ≤ usedIdentity (world.nextIdentity run.session) input
      ∧ ∀ snowflakeId now, input = .segmentId (some (snowflakeId, now)) →
        world.nextIdentity run.session ≤ snowflakeId
          ∧ snowflakeId < usedIdentity (world.nextIdentity run.session) input := by
  unfold usedIdentity
  split
  next snowflakeId now =>
    have allowed : world.nextIdentity run.session ≤ snowflakeId := by
      simpa [FlushWorld.answers] using answers
    refine ⟨Nat.le_succ_of_le allowed, ?_⟩
    rintro _ _ ⟨⟩
    exact ⟨allowed, Nat.lt_succ_self _⟩
  next other =>
    refine ⟨Nat.le_refl _, ?_⟩
    rintro snowflakeId now rfl
    exact absurd rfl (other snowflakeId now)

theorem nextIdentity_advance (answers : world.answers run input = true) (session : String) :
    world.nextIdentity session
      ≤ (world.advance index run input next effect).nextIdentity session := by
  show _ ≤ Function.update world.nextIdentity run.session _ session
  by_cases same : session = run.session
  · subst same
    rw [Function.update_self]
    exact (usedIdentity_le answers).1
  · rw [Function.update_of_ne same]

theorem identities_took {allowed : SnowflakeId → Prop}
    (took : FlushTask.Took codec segments run.task input next effect)
    (identities : run.task.Identities allowed)
    (generated : ∀ snowflakeId now, input = .segmentId (some (snowflakeId, now)) →
      allowed snowflakeId) : next.Identities allowed := by
  obtain ⟨added, logged, turn⟩ := took.turn
  obtain ⟨phase, rows⟩ := identities_turn turn identities.1 generated
  refine ⟨phase, fun metadata fences member => ?_⟩
  rw [logged] at member
  rcases List.mem_append.mp member with old | new
  · exact identities.2 metadata fences old
  · exact rows metadata fences new

variable {row : WrittenRow}

theorem mem_writtenRows {session : String} {events : List StorageEvent} :
    row ∈ events.filterMap (writtenRow session index)
      ↔ ∃ metadata fences, StorageEvent.row metadata fences ∈ events
        ∧ row = ⟨session, index, metadata⟩ := by
  constructor
  · intro member
    obtain ⟨event, inEvents, is⟩ := List.mem_filterMap.mp member
    cases event with
    | put blobKey payload => cases is
    | row metadata fences =>
      cases is
      exact ⟨metadata, fences, inEvents, rfl⟩
  · rintro ⟨metadata, fences, inEvents, rfl⟩
    exact List.mem_filterMap.mpr ⟨.row metadata fences, inEvents, rfl⟩

variable (sound : FlushSound config codec segments clock world)
variable (found : world.tasks[index]? = some run)

include sound found

variable {added : List StorageEvent}

theorem written_advance (logged : next.log = run.task.log ++ added)
    (member : row ∈ world.rows ++ added.filterMap (writtenRow run.session index)) :
    ∃ other : RunningFlush,
      (world.advance index run input next effect).tasks[row.task]? = some other
      ∧ other.session = row.session
      ∧ ∃ fences, StorageEvent.row row.metadata fences ∈ other.task.log := by
  have inside := (List.getElem?_eq_some_iff.mp found).1
  simp only [FlushWorld.advance, List.getElem?_set]
  rcases List.mem_append.mp member with old | new
  · obtain ⟨other, foundOther, session, fences, inLog⟩ := sound.written row old
    by_cases here : index = row.task
    · rw [here] at found inside
      rw [found] at foundOther
      cases foundOther
      rw [if_pos here, if_pos (here ▸ inside)]
      refine ⟨_, rfl, session, fences, ?_⟩
      show _ ∈ next.log
      rw [logged]
      exact List.mem_append_left _ inLog
    · rw [if_neg here]
      exact ⟨other, foundOther, session, fences, inLog⟩
  · obtain ⟨metadata, fences, inEvents, rfl⟩ := mem_writtenRows.mp new
    rw [if_pos rfl, if_pos inside]
    refine ⟨_, rfl, rfl, fences, ?_⟩
    show _ ∈ next.log
    rw [logged]
    exact List.mem_append_right _ inEvents

variable (took : FlushTask.Took codec segments run.task input next effect)

include took

theorem epochsSound_advance (meets : tailContract world (.flush index input)) (session : String) :
    EpochsSound ((world.advance index run input next effect).cluster.brokers session)
      (openedBy session world.origins) := by
  by_cases same : session = run.session
  · subst same
    have runSound := sound.runs index run found
    obtain ⟨added, -, turn⟩ := took.turn
    have before := sound.epochs run.session
    rw [advance_broker_self]
    refine ⟨before.distinct, ?_, fun key => ?_⟩
    · rw [applyEffect_nextPublication]
      exact before.fresh
    · rw [applyEffect_publications]
      -- First the channels move, then the tail may be dropped.
      have moved : ChainSound (FlushEffect.publications (world.publications run.session) effect)
          (world.partition run.session key).publicationTail
          (epochsAt key (openedBy run.session world.origins)) := by
        rcases effect_cases turn runSound.task.phase runSound.barrier with
          rfl | ⟨completion, inPlan, state, updated, started, ended, settled⟩
        · exact before.chain key
        · rw [updated]
          refine (before.chain key).update started ended fun succeeded => ?_
          obtain ⟨metadata, fences, row, carries⟩ := settled succeeded
          obtain ⟨epoch, opened, channel⟩ := exists_epoch runSound.filed inPlan
          by_cases sameKey : key = completion.key
          · subst sameKey
            obtain ⟨rest, split, apart, behind⟩ := sound.split found opened
            have cleared := runSound.cleared completion.key (Or.inr ⟨metadata, fences, row, carries⟩)
            rw [split]
            refine List.pairwise_append.mpr ⟨?_, ?_, ?_⟩
            · refine List.pairwise_of_forall_mem_list fun earlier first later second clash => ?_
              exact cleared earlier first
            · refine List.pairwise_cons.mpr ⟨fun later member clash => ?_, ?_⟩
              · exact absurd (clash.trans channel.symm) (behind later member)
              · refine List.pairwise_of_forall_mem_list fun earlier first later second clash => ?_
                exact absurd (clash.trans channel.symm) (behind later second)
            · exact fun earlier first later _ _ => cleared earlier first
          · refine List.pairwise_of_forall_mem_list fun earlier _ later member clash => ?_
            -- The channel belongs to another partition.
            have one := mem_epochsAt.mp member
            have two : (completion.key, epoch) ∈ openedBy run.session world.origins :=
              mem_openedBy.mpr ⟨_, mem_origins found, opened⟩
            have equal := List.inj_on_of_nodup_map before.distinct one two (clash.trans channel.symm)
            exact absurd (congrArg Prod.fst equal) sameKey
      rcases applyEffect_partitionState (world.cluster.brokers run.session) effect key with
        ⟨kept, -⟩ | ⟨⟨channel, error, ends⟩, changed⟩
      · rw [(Prod.mk.inj kept).1]
        exact moved
      · rw [(Prod.mk.inj changed).1]
        split
        next failed =>
          refine moved.clear ?_
          rcases unfinished_took took with ⟨-, never⟩ | ⟨completion, rest, outcome, phase, -, rfl, is⟩
          · exact absurd ends (never _ _ _)
          · rw [is, Option.some.injEq, FlushEffect.completeFlush.injEq] at ends
            obtain ⟨rfl, -, -⟩ := ends
            exact tailContract_ended meets found phase rfl (by rw [is]; rfl) failed
        next => exact moved
  · rw [advance_broker_of_ne same]
    exact sound.epochs session

theorem ended_advance (session : String) {channel : PublicationChannel}
    (ended : (world.publications session channel).ended = true) :
    ((world.advance index run input next effect).publications session channel).ended = true := by
  by_cases same : session = run.session
  · subst same
    have runSound := sound.runs index run found
    obtain ⟨added, -, turn⟩ := took.turn
    rw [advance_publications_self]
    rcases effect_cases turn runSound.task.phase runSound.barrier with
      rfl | ⟨completion, -, state, updated, -, kept, -⟩
    · exact ended
    · rw [updated]
      by_cases here : channel = completion.state
      · subst here
        rw [Function.update_self]
        exact kept ended
      · rw [Function.update_of_ne here]
        exact ended
  · unfold FlushWorld.publications at ended ⊢
    rw [advance_broker_of_ne same]
    exact ended

/-- A task that still assigns identities has the newest epochs of its partitions. -/
theorem identifying_newest {snowflakeId : SnowflakeId} {now : Int}
    (generated : input = .segmentId (some (snowflakeId, now))) (later : index < position)
    (foundOther : world.tasks[position]? = some other) (same : run.session = other.session)
    (opens : run.Opens key) (alsoOpens : other.Opens key) : False := by
  subst generated
  have runSound := sound.runs index run found
  obtain ⟨epoch, opened⟩ := opens
  obtain ⟨newer, alsoOpened⟩ := alsoOpens
  obtain ⟨completion, inPlan, -, channel⟩ := runSound.completion opened
  have pending : world.publications run.session completion.state = .pending := by
    obtain ⟨added, -, turn⟩ := took.turn
    have barrier := runSound.barrier
    generalize run.task.phase = phase at turn barrier
    generalize next.phase = entered at turn
    cases turn
    exact barrier.1 completion inPlan
  obtain ⟨rest, split, -⟩ := sound.split foundOther alsoOpened
  have started := ((sound.epochs other.session).chain key).started
  rw [split] at started
  have before : epoch ∈ epochsAt key (openedBy other.session (world.origins.take position)) :=
    mem_epochsAt.mpr (same ▸ mem_openedBy_take later found opened)
  have moved := (List.pairwise_append.mp started).2.2 epoch before newer List.mem_cons_self
  rw [channel, same] at pending
  exact moved pending

variable (answers : world.answers run input = true)

include answers

theorem runSound_advance_self :
    RunSound codec segments (world.advance index run input next effect) index
      { run with task := next } := by
  have runSound := sound.runs index run found
  obtain ⟨added, logged, turn⟩ := took.turn
  have plan := took.plan
  have channels : (run.task.plan.publicationCompletions.map
      FlushPublicationCompletion.state).Nodup := by
    have paired := congrArg (List.map Prod.snd) (completions_opened runSound.filed)
    rw [List.map_map, List.map_map] at paired
    have distinct := (sound.epochs run.session).distinct
    rw [openedBy_split found, List.map_append, List.map_append] at distinct
    exact paired ▸ (List.nodup_append.mp (List.nodup_append.mp distinct).2.1).1
  refine ⟨?_, ?_, ?_, ?_, ?_, ?_, ?_, ?_⟩
  · rw [plan]
    exact runSound.filed
  · rw [plan]
    exact runSound.distinct
  · rw [plan]
    exact taskSound_took runSound.task took
  · rw [plan, advance_publications_self]
    show Barrier codec segments _ _ next.log next.phase
    rw [logged]
    exact barrier_turn turn channels runSound.task.phase runSound.barrier
  · intro key reaches epoch member
    rw [advance_origins found plan] at member
    refine ended_advance sound found took run.session ?_
    -- A partition that becomes ready only now has no predecessor, or a successful one.
    have ready : run.task.Reaches key ∨ ∃ partition, run.task.phase.Holds key partition
        ∧ (partition.publicationPredecessor = none
          ∨ ∃ position, input = .predecessor position key.virtualPartitionId none
            ∧ run.task.phase.waitingPartition position key.virtualPartitionId = some partition) := by
      rcases reaches with ready | ⟨metadata, fences, row, carries⟩
      · exact (ready_turn turn ready).imp_left Or.inl
      · have row : StorageEvent.row metadata fences ∈ next.log := row
        rw [logged] at row
        rcases List.mem_append.mp row with old | new
        · exact Or.inl (Or.inr ⟨metadata, fences, old, carries⟩)
        · exact Or.inl (Or.inl (row_turn turn new carries))
    rcases ready with before | ⟨partition, holds, free⟩
    · exact runSound.cleared key before epoch member
    · obtain ⟨own, opened, same⟩ := holds_epoch runSound.task.phase holds
      obtain ⟨rest, split, -⟩ := sound.split found opened
      refine ((sound.epochs run.session).chain key).before_ended split ?_ epoch member
      intro channel named
      rw [same] at named
      rcases free with none_ | ⟨position, rfl, waits⟩
      · rw [none_] at named
        cases named
      · simp only [FlushWorld.answers, waits, named, waitForPredecessor, decide_eq_true_eq] at answers
        split at answers <;> simp_all
  · intro metadata fences key row carries
    have row : StorageEvent.row metadata fences ∈ next.log := row
    show ∃ epoch, (key, epoch) ∈ next.plan.opened
    rw [plan]
    rw [logged] at row
    rcases List.mem_append.mp row with old | new
    · exact runSound.carried metadata fences key old carries
    · exact (runSound.barrier.ready (row_turn turn new carries)).1
  · refine identities_took took (FlushTask.Identities.mono runSound.identities fun id below => ?_)
      fun snowflakeId now generated => ?_
    · exact Nat.lt_of_lt_of_le below (nextIdentity_advance answers run.session)
    · show snowflakeId < Function.update world.nextIdentity run.session _ run.session
      rw [Function.update_self]
      exact ((usedIdentity_le answers).2 snowflakeId now generated).2
  · intro metadata fences row
    have row : StorageEvent.row metadata fences ∈ next.log := row
    show _ ∈ world.rows ++ (next.log.drop run.task.log.length).filterMap _
    rw [logged] at row ⊢
    rcases List.mem_append.mp row with old | new
    · exact List.mem_append_left _ (runSound.recorded metadata fences old)
    · refine List.mem_append_right _ (List.mem_filterMap.mpr ⟨.row metadata fences, ?_, rfl⟩)
      rw [List.drop_left]
      exact new

theorem ordered_advance (first second : Nat) (earlier later : RunningFlush) (order : first < second)
    (foundFirst : (world.advance index run input next effect).tasks[first]? = some earlier)
    (foundSecond : (world.advance index run input next effect).tasks[second]? = some later) :
    IdentityOrder (world.advance index run input next effect) earlier later := by
  have inside := (List.getElem?_eq_some_iff.mp found).1
  have grown := @nextIdentity_advance world index run input next effect answers
  intro same key opens alsoOpens
  simp only [FlushWorld.advance, List.getElem?_set] at foundFirst foundSecond
  by_cases here : index = first
  · subst here
    rw [if_neg (by omega)] at foundSecond
    simp only [inside, if_true, Option.some.injEq] at foundFirst
    subst foundFirst
    have opens : run.Opens key := by
      obtain ⟨epoch, opened⟩ := opens
      exact ⟨epoch, took.plan ▸ opened⟩
    obtain ⟨bound, below, low, high⟩ :=
      sound.ordered index second run later order found foundSecond same key opens alsoOpens
    refine ⟨bound, Nat.le_trans below (grown _), identities_took took low ?_, high⟩
    intro snowflakeId now generated
    exact (identifying_newest sound found took generated order foundSecond same opens alsoOpens).elim
  · rw [if_neg here] at foundFirst
    by_cases there : index = second
    · subst there
      simp only [inside, if_true, Option.some.injEq] at foundSecond
      subst foundSecond
      have alsoOpens : run.Opens key := by
        obtain ⟨epoch, opened⟩ := alsoOpens
        exact ⟨epoch, took.plan ▸ opened⟩
      obtain ⟨bound, below, low, high⟩ :=
        sound.ordered first index earlier run order foundFirst found same key opens alsoOpens
      refine ⟨bound, Nat.le_trans below (grown _), low, identities_took took high ?_⟩
      intro snowflakeId now generated
      have same : earlier.session = run.session := same
      rw [same] at below
      exact Nat.le_trans below ((usedIdentity_le answers).2 snowflakeId now generated).1
    · rw [if_neg there] at foundSecond
      obtain ⟨bound, below, low, high⟩ :=
        sound.ordered first second earlier later order foundFirst foundSecond same key opens alsoOpens
      exact ⟨bound, Nat.le_trans below (grown _), low, high⟩

/-- A row is written after all rows of earlier epochs and before all rows of later ones. -/
theorem rowOrder_advance (logged : next.log = run.task.log ++ added)
    (turn : Turn codec segments run.task.plan run.task.phase input next.phase added effect)
    {metadata : SegmentMetadata} {fences : Option (List ProducerPartitionFence)}
    (new : StorageEvent.row metadata fences ∈ added) (member : row ∈ world.rows) :
    RowOrder row ⟨run.session, index, metadata⟩ := by
  intro same key carries alsoCarries
  have same : row.session = run.session := same
  have runSound := sound.runs index run found
  obtain ⟨other, foundOther, session, otherFences, inLog⟩ := sound.written row member
  have otherSound := sound.runs row.task other foundOther
  have otherOpens := otherSound.carried _ _ key inLog carries
  obtain ⟨opens, assigned⟩ := runSound.barrier.ready (row_turn turn new alsoCarries)
  rcases Nat.lt_trichotomy row.task index with earlier | here | later
  · refine ⟨Nat.le_of_lt earlier, fun _ => ?_⟩
    obtain ⟨bound, below, low, high⟩ := sound.ordered row.task index other run earlier foundOther
      found (session.trans same) key otherOpens opens
    rw [session, same] at below
    have written := (identities_took took high fun snowflakeId now generated =>
      Nat.le_trans below ((usedIdentity_le answers).2 snowflakeId now generated).1).2
    have low := low.2 row.metadata otherFences inLog
    have high := written metadata fences (by rw [logged]; exact List.mem_append_right _ new)
    exact Nat.lt_of_lt_of_le low high
  · exact ⟨Nat.le_of_eq here, fun less => absurd less (by simp [here])⟩
  · -- A later epoch with a row would have waited for this one to end.
    obtain ⟨epoch, opened⟩ := opens
    obtain ⟨completion, inPlan, keyed, channel⟩ := runSound.completion opened
    have waited := otherSound.cleared key (Or.inr ⟨_, _, inLog, carries⟩) epoch
      (mem_epochsAt.mpr ((session.trans same) ▸ mem_openedBy_take later found opened))
    rw [session, same, ← channel, assigned completion inPlan keyed] at waited
    cases waited

theorem flushSound_advance (meets : tailContract world (.flush index input)) :
    FlushSound config codec segments clock (world.advance index run input next effect) := by
  obtain ⟨added, logged, turn⟩ := took.turn
  have inside := (List.getElem?_eq_some_iff.mp found).1
  have origins := @advance_origins world index run input next effect found took.plan
  have runSound := sound.runs index run found
  refine ⟨?_, ?_, ?_, outstanding_advance sound.outstanding runSound.keys runSound.suffix found took,
    ?_, ordered_advance sound found took answers, ?_, ?_⟩
  · rcases @advance_cluster world index run input next effect config with same | ⟨_, -, acted⟩
    · rw [same]
      exact sound.cluster
    · exact sound.cluster.tail trivial acted
  · rw [origins]
    exact epochsSound_advance sound found took meets
  · intro session key
    rw [origins]
    rcases @advance_cluster world index run input next effect config with same | ⟨_, -, acted⟩
    · rw [same]
      exact sound.own session key
    · exact sound.own_step acted session key
  · intro position other foundOther
    simp only [FlushWorld.advance, List.getElem?_set] at foundOther
    by_cases here : index = position
    · subst here
      simp only [inside, if_true, Option.some.injEq] at foundOther
      subst foundOther
      exact runSound_advance_self sound found took answers
    · rw [if_neg here] at foundOther
      have otherSound := sound.runs position other foundOther
      refine otherSound.move (by rw [origins]) ?_ ?_ (nextIdentity_advance answers _)
        fun _ member => List.mem_append_left _ member
      · intro completion member
        by_cases same : other.session = run.session
        · rw [same, advance_publications_self]
          rcases effect_cases turn runSound.task.phase runSound.barrier with
            rfl | ⟨moved, inPlan, state, updated, -⟩
          · rfl
          · obtain ⟨one, opened, channel⟩ := exists_epoch runSound.filed inPlan
            obtain ⟨two, alsoOpened, otherChannel⟩ := exists_epoch otherSound.filed member
            rw [updated, Function.update_of_ne]
            rw [← channel, ← otherChannel]
            -- Two tasks of one broker have different channels.
            rcases Nat.lt_or_gt_of_ne (Ne.symm here) with earlier | later
            · obtain ⟨-, -, apart, -⟩ := sound.split found opened
              exact apart _ (same ▸ mem_openedBy_take earlier foundOther alsoOpened)
            · obtain ⟨-, -, apart, -⟩ := sound.split foundOther alsoOpened
              exact (apart _ (same.symm ▸ mem_openedBy_take later found opened)).symm
        · unfold FlushWorld.publications
          rw [advance_broker_of_ne same]
      · exact fun epoch _ ended => ended_advance sound found took other.session ended
  · show (world.rows ++ _).Pairwise RowOrder
    rw [logged, List.drop_left]
    refine List.pairwise_append.mpr ⟨sound.rows, ?_, ?_⟩
    · refine List.pairwise_of_forall_mem_list fun one first two second => ?_
      obtain ⟨_, _, -, rfl⟩ := mem_writtenRows.mp first
      obtain ⟨_, _, -, rfl⟩ := mem_writtenRows.mp second
      exact fun _ _ _ _ => ⟨Nat.le_refl _, fun less => absurd less (Nat.lt_irrefl _)⟩
    · intro row member other new
      obtain ⟨metadata, fences, inEvents, rfl⟩ := mem_writtenRows.mp new
      exact rowOrder_advance sound found took answers logged turn inEvents member
  · intro row member
    have member : row ∈ world.rows ++ (next.log.drop run.task.log.length).filterMap
      (writtenRow run.session index) := member
    rw [logged, List.drop_left] at member
    exact written_advance sound found logged member

end Flushes

/-! ### Whole runs -/

theorem flushSound_start (config : String → BrokerConfig) (codec : Codec) (segments : SegmentConfig)
    (clock : Int) : FlushSound config codec segments clock { cluster := { clock := clock } } where
  cluster := .refl
  epochs := fun _ => ⟨List.nodup_nil, fun _ member => (List.not_mem_nil member).elim,
    fun _ => ChainSound.nil _⟩
  own := fun _ _ => ownSound_default _
  outstanding := fun _ _ => Nat.zero_le _
  runs := fun _ _ found => by simp at found
  ordered := fun _ _ _ _ _ found => by simp at found
  rows := .nil
  written := fun _ member => (List.not_mem_nil member).elim

theorem flushSound_reachable (reached : Reachable (FlushWorld.step config codec segments)
      tailContract { cluster := { clock := clock } } world) :
    FlushSound config codec segments clock world := by
  refine reached.invariant (flushSound_start config codec segments clock)
    fun before action after sound meets stepped => ?_
  cases FlushWorld.step_move stepped with
  | cluster still acted => exact flushSound_cluster sound still acted
  | collect session request => exact flushSound_collect sound session request
  | flush found answers taken => exact flushSound_advance sound found (FlushTask.step_took taken) answers meets

end BlobStream.Write.Cluster
