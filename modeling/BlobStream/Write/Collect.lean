import BlobStream.Write.Cluster

/-!
# Collecting a flush plan

One scheduler pass empties the buffers of the partitions it selects, under the write-state lock, and
opens a flush epoch for each: whole topics when a buffer is due by time, single partitions otherwise.
However the selection goes, a pass is a sequence of single takes (`Takes`).
-/

namespace BlobStream.Write

def TopicFlushPlan.completions (plan : TopicFlushPlan) : List FlushPublicationCompletion :=
  plan.partitions.map fun partition =>
    ⟨plan.topic, partition.virtualPartitionId, partition.publicationState⟩

abbrev Opened := PartitionKey × FlushPartition

def sectionOpened (topic : Topic) (partitions : List FlushPartition) : List Opened :=
  partitions.map fun partition => (⟨topic, partition.virtualPartitionId⟩, partition)

def TopicFlushPlan.opened (plan : TopicFlushPlan) : List Opened :=
  sectionOpened plan.topic plan.partitions

def FlushPlan.opened (plan : FlushPlan) : List Opened :=
  plan.topics.flatMap TopicFlushPlan.opened

theorem forall_append_singleton {α : Type} {property : α → Prop} {items : List α} {item : α}
    (known : ∀ each ∈ items, property each) (new : property item) :
    ∀ each ∈ items ++ [item], property each := by
  intro each member
  rcases List.mem_append.mp member with old | added
  · exact known each old
  · rw [List.mem_singleton.mp added]
    exact new

end BlobStream.Write

namespace BlobStream.Write.Cluster

open Word

/-- Most partitions whose fences one metadata transaction can check. -/
def maxFencedMetadataPartitions : Nat := 99

structure TopicInfo where
  maxMetadataPublicationLag : Int
  metadataWindowSize : Int

structure CollectRequest where
  now : Int
  flushConfig : EffectiveFlushConfig
  fencedMetadataWrites : Bool
  maxSegmentBytes : Nat
  topics : Topic → TopicInfo
  /-- The keys of the partition map, in the map's order. -/
  partitionKeys : List PartitionKey
  lastFlushTopic : Option Topic

def flushTrigger (state : PartitionState) (now : Int) (config : EffectiveFlushConfig) :
    Option FlushTrigger :=
  if state.draining then some .leaseDrain
  else if state.buffer.isTimeDue now config then some .maxDelay
  else state.buffer.flushTrigger now config

/-- A partition that a pass with the given trigger has to leave alone. -/
def Broker.skips (broker : Broker) (state : PartitionState) (trigger : FlushTrigger) : Bool :=
  (trigger = .maxDelay && state.draining) || tailPending broker.publications state.publicationTail

/-- Epochs opened by a pass, and the senders of batches it dropped for want of a fence. -/
structure Taken where
  broker : Broker
  partitions : List FlushPartition := []
  fenceLost : List FlushCompletion := []

/-- `take_flush_partitions`, stopping once `maxPartitions` epochs have been opened. -/
def takeFlushPartitions (topic : Topic) (trigger : FlushTrigger) (requireFence : Bool) :
    (maxPartitions : Nat) → List VirtualPartitionId → Broker → Taken
  | 0, _, broker => { broker }
  | _, [], broker => { broker }
  | maxPartitions + 1, virtualPartitionId :: rest, broker =>
    let key : PartitionKey := ⟨topic, virtualPartitionId⟩
    match broker.write.partitions key with
    | none => takeFlushPartitions topic trigger requireFence (maxPartitions + 1) rest broker
    | some state =>
      if broker.skips state trigger then
        takeFlushPartitions topic trigger requireFence (maxPartitions + 1) rest broker
      else
        let taken := takeFlushPartition state virtualPartitionId trigger requireFence
          broker.nextPublication
        let next := broker.takeFlush key state trigger requireFence
        match taken.flush with
        | none =>
          let later := takeFlushPartitions topic trigger requireFence (maxPartitions + 1) rest next
          { later with fenceLost := taken.fenceLost ++ later.fenceLost }
        | some flush =>
          let later := takeFlushPartitions topic trigger requireFence maxPartitions rest next
          { later with partitions := flush :: later.partitions }

def PartitionKey.before (left right : PartitionKey) : Bool :=
  left.topic < right.topic
    || (left.topic = right.topic && left.virtualPartitionId ≤ right.virtualPartitionId)

/-- Keys in the order the pass visits them: sorted, starting after the last planned topic. -/
def CollectRequest.visitOrder (request : CollectRequest) : List PartitionKey :=
  let sorted := request.partitionKeys.insertionSort fun left right => PartitionKey.before left right
  match request.lastFlushTopic with
  | none => sorted
  | some lastTopic =>
    match sorted.findIdx? fun key => lastTopic < key.topic with
    | none => sorted
    | some start => sorted.drop start ++ sorted.take start

def CollectRequest.idsOfTopic (request : CollectRequest) (topic : Topic) :
    List VirtualPartitionId :=
  ((request.partitionKeys.insertionSort fun left right => PartitionKey.before left right).filter
    fun key => key.topic = topic).map PartitionKey.virtualPartitionId

/-- Some tracked partition is due by time, so buffered peers of all topics join. -/
def sharedTimeFlush (request : CollectRequest) (broker : Broker) : Bool :=
  request.partitionKeys.any fun key =>
    (broker.write.partitions key).any fun state =>
      flushTrigger state request.now request.flushConfig = some .maxDelay

def hasFlushablePartition (request : CollectRequest) (broker : Broker) : Bool :=
  request.partitionKeys.any fun key =>
    (broker.write.partitions key).any fun state =>
      (flushTrigger state request.now request.flushConfig).isSome

structure PlanPass where
  broker : Broker
  topicPlans : List TopicFlushPlan := []
  selectedSharedTimeFlush : Option Bool := none
  lastPlannedTopic : Option Topic := none
  fenceLost : List FlushCompletion := []

/-- The trigger under which the pass considers a partition. -/
def passTrigger (request : CollectRequest) (shared : Bool) (state : PartitionState) :
    Option FlushTrigger :=
  if shared && !state.draining && !state.buffer.batches.isEmpty then some .maxDelay
  else flushTrigger state request.now request.flushConfig

/-- The partition cannot join the section its topic already has. -/
def requiresNewTopicPlan (fenced : Bool) (trigger : FlushTrigger) (existing : Option TopicFlushPlan) :
    Bool :=
  match existing.bind fun plan => plan.partitions.head? with
  | none => true
  | some first =>
    first.trigger ≠ trigger
      || (fenced && (existing.map fun plan => plan.partitions.length)
          = some maxFencedMetadataPartitions)

def joinsSelectedPlan (selected : Option Bool) (trigger : FlushTrigger) (requiresNew : Bool)
    (existing : Option TopicFlushPlan) : Bool :=
  match selected with
  | none => true
  -- A shared plan adds topics; a second section of a topic waits for a later pass.
  | some true => (trigger = .maxDelay && requiresNew) && (!requiresNew || existing.isNone)
  | some false => !requiresNew

def PlanPass.add (request : CollectRequest) (pass : PlanPass) (topic : Topic)
    (trigger : FlushTrigger) (requiresNew : Bool) (taken : Taken) : PlanPass :=
  let pass := { pass with broker := taken.broker, fenceLost := pass.fenceLost ++ taken.fenceLost }
  if taken.partitions.isEmpty then pass
  else if requiresNew then
    { pass with
      topicPlans := pass.topicPlans.filter (fun plan => plan.topic ≠ topic) ++
        [{ topic
           partitions := taken.partitions
           maxMetadataPublicationLag := (request.topics topic).maxMetadataPublicationLag
           metadataWindowSize := (request.topics topic).metadataWindowSize
           fencedMetadataWrites := request.fencedMetadataWrites }]
      selectedSharedTimeFlush := pass.selectedSharedTimeFlush.or
        (some (trigger = .maxDelay && requiresNew))
      lastPlannedTopic := some topic }
  else
    { pass with
      topicPlans := pass.topicPlans.map fun plan =>
        if plan.topic = topic then { plan with partitions := plan.partitions ++ taken.partitions }
        else plan }

def planPartition (request : CollectRequest) (shared : Bool) (pass : PlanPass) (key : PartitionKey) :
    PlanPass :=
  match (pass.broker.write.partitions key).bind (passTrigger request shared) with
  | none => pass
  | some trigger =>
    let existing := pass.topicPlans.find? fun plan => plan.topic = key.topic
    let existingCount := (existing.map fun plan => plan.partitions.length).getD 0
    let requiresNew := requiresNewTopicPlan request.fencedMetadataWrites trigger existing
    if !joinsSelectedPlan pass.selectedSharedTimeFlush trigger requiresNew existing then pass
    else
      let maxPartitions :=
        if request.fencedMetadataWrites then
          if requiresNew then maxFencedMetadataPartitions
          else maxFencedMetadataPartitions - existingCount
        else u64Max
      let ids := match trigger with
        | .maxDelay => request.idsOfTopic key.topic
        | .maxBytes | .leaseDrain => [key.virtualPartitionId]
      pass.add request key.topic trigger requiresNew
        (takeFlushPartitions key.topic trigger request.fencedMetadataWrites maxPartitions ids
          pass.broker)

structure Collected where
  plan : Option FlushPlan
  broker : Broker
  lastFlushTopic : Option Topic
  fenceLost : List FlushCompletion

def collectNextFlushPlan (request : CollectRequest) (broker : Broker) : Collected :=
  if !hasFlushablePartition request broker then ⟨none, broker, request.lastFlushTopic, []⟩
  else
    let pass := request.visitOrder.foldl (planPartition request (sharedTimeFlush request broker))
      { broker }
    let topics := pass.topicPlans.insertionSort fun left right => left.topic ≤ right.topic
    { plan := pass.selectedSharedTimeFlush.map fun _ =>
        { topics
          maxSegmentBytes := request.maxSegmentBytes
          publicationCompletions := topics.flatMap TopicFlushPlan.completions }
      broker := pass.broker
      lastFlushTopic := pass.lastPlannedTopic.or request.lastFlushTopic
      fenceLost := pass.fenceLost }

/-! ### A pass is a sequence of takes -/

/-- What taking a partition of a broker results in. -/
abbrev Broker.taking (broker : Broker) (key : PartitionKey) (state : PartitionState)
    (trigger : FlushTrigger) (requireFence : Bool) : TakenFlush :=
  takeFlushPartition state key.virtualPartitionId trigger requireFence broker.nextPublication

/-- Takes made one after the other, the epochs they opened and the senders they dropped. -/
inductive Takes (requireFence : Bool) (broker : Broker) :
    List Opened → List FlushCompletion → Broker → Prop
  | refl : Takes requireFence broker [] [] broker
  | take {opened : List Opened} {lost : List FlushCompletion} {before : Broker} {key : PartitionKey}
      {state : PartitionState} {trigger : FlushTrigger}
      (earlier : Takes requireFence broker opened lost before)
      (present : before.write.partitions key = some state)
      (eligible : before.skips state trigger = false) :
      Takes requireFence broker
        (opened ++ ((before.taking key state trigger requireFence).flush.map (key, ·)).toList)
        (lost ++ (before.taking key state trigger requireFence).fenceLost)
        (before.takeFlush key state trigger requireFence)

variable {broker : Broker} {topic : Topic} {trigger : FlushTrigger} {pass : PlanPass}
variable {opened : List Opened} {request : CollectRequest}
variable {requireFence : Bool}

theorem takeFlushPartitions_takes :
    ∀ (maxPartitions : Nat) (ids : List VirtualPartitionId) {before : Broker} {opened : List Opened}
      {lost : List FlushCompletion}, Takes requireFence broker opened lost before →
      Takes requireFence broker
        (opened ++ sectionOpened topic
          (takeFlushPartitions topic trigger requireFence maxPartitions ids before).partitions)
        (lost ++ (takeFlushPartitions topic trigger requireFence maxPartitions ids before).fenceLost)
        (takeFlushPartitions topic trigger requireFence maxPartitions ids before).broker := by
  intro maxPartitions ids
  induction ids generalizing maxPartitions with
  | nil =>
    intro before opened lost earlier
    cases maxPartitions <;> simpa [takeFlushPartitions, sectionOpened] using earlier
  | cons id rest ih =>
    intro before opened lost earlier
    cases maxPartitions with
    | zero => simpa [takeFlushPartitions, sectionOpened] using earlier
    | succ remaining =>
      simp only [takeFlushPartitions]
      split
      next => exact ih _ earlier
      next state present =>
        split
        next => exact ih _ earlier
        next eligible =>
          have one : Takes requireFence broker _ _
              (before.takeFlush ⟨topic, id⟩ state trigger requireFence) :=
            .take earlier present (Bool.eq_false_of_not_eq_true eligible)
          -- Either the turn goes on with as many partitions left, or one epoch is opened.
          split
          next nothing =>
            rw [nothing, Option.map_none, Option.toList_none, List.append_nil] at one
            have later := ih (remaining + 1) one
            rwa [List.append_assoc] at later
          next flush taken =>
            obtain ⟨isId, -, nobody⟩ := takeFlushPartition_some taken
            rw [taken, Option.map_some, Option.toList_some, nobody, List.append_nil] at one
            have later := ih remaining one
            rw [List.append_assoc] at later
            simp only [sectionOpened, List.map_cons, isId]
            exact later

structure PassSound (requireFence : Bool) (broker : Broker) (pass : PlanPass)
    (opened : List Opened) : Prop where
  takes : Takes requireFence broker opened pass.fenceLost pass.broker
  sections : opened.Perm (pass.topicPlans.flatMap TopicFlushPlan.opened)
  topics : (pass.topicPlans.map TopicFlushPlan.topic).Nodup
  selected : pass.selectedSharedTimeFlush = none → pass.topicPlans = []

variable {plans : List TopicFlushPlan}

/-- Appending to the section of one topic appends its epochs, up to order. -/
theorem extend_section {taken : List FlushPartition}
    (topics : (plans.map TopicFlushPlan.topic).Nodup)
    (present : topic ∈ plans.map TopicFlushPlan.topic) :
    (plans.flatMap TopicFlushPlan.opened ++ sectionOpened topic taken).Perm
      ((plans.map fun plan =>
        if plan.topic = topic then { plan with partitions := plan.partitions ++ taken }
        else plan).flatMap TopicFlushPlan.opened) := by
  induction plans with
  | nil => cases present
  | cons plan rest ih =>
    rw [List.map_cons, List.nodup_cons] at topics
    simp only [List.map_cons, List.flatMap_cons]
    by_cases same : plan.topic = topic
    · -- The rest of the sections belong to other topics and stay as they are.
      have others : (rest.map fun plan =>
          if plan.topic = topic then { plan with partitions := plan.partitions ++ taken } else plan)
          = rest := by
        refine (List.map_congr_left fun other member => if_neg fun clash => ?_).trans
          (List.map_id rest)
        exact topics.1 (List.mem_map.mpr ⟨other, member, clash.trans same.symm⟩)
      rw [others, if_pos same]
      simp only [TopicFlushPlan.opened, sectionOpened, List.map_append, same, List.append_assoc]
      exact (List.perm_append_comm).append_left _
    · rw [if_neg same, List.append_assoc]
      refine (ih topics.2 ?_).append_left _
      simpa [Ne.symm same] using present

theorem requiresNewTopicPlan_none {fenced : Bool} {existing : Option TopicFlushPlan}
    (joins : requiresNewTopicPlan fenced trigger existing = false) : existing.isSome := by
  cases existing with
  | none => simp [requiresNewTopicPlan] at joins
  | some plan => rfl

theorem existing_mem {fenced : Bool}
    (joins : requiresNewTopicPlan fenced trigger (plans.find? fun plan => plan.topic = topic) = false) :
    topic ∈ plans.map TopicFlushPlan.topic := by
  obtain ⟨plan, found⟩ := Option.isSome_iff_exists.mp (requiresNewTopicPlan_none joins)
  refine List.mem_map.mpr ⟨plan, List.mem_of_find?_eq_some found, ?_⟩
  simpa using List.find?_some found

theorem existing_none {requiresNew : Bool} (sound : PassSound requireFence broker pass opened)
    (joins : joinsSelectedPlan pass.selectedSharedTimeFlush trigger requiresNew
      (pass.topicPlans.find? fun plan => plan.topic = topic) = true) (fresh : requiresNew = true) :
    topic ∉ pass.topicPlans.map TopicFlushPlan.topic := by
  subst fresh
  have absent : (pass.topicPlans.find? fun plan => plan.topic = topic) = none := by
    cases selected : pass.selectedSharedTimeFlush with
    | none =>
      rw [sound.selected selected]
      rfl
    | some shared =>
      rw [selected] at joins
      cases shared with
      | true =>
        simp only [joinsSelectedPlan, Bool.not_true, Bool.false_or, Bool.and_eq_true,
          Option.isNone_iff_eq_none] at joins
        exact joins.2
      | false => simp [joinsSelectedPlan] at joins
  intro member
  obtain ⟨plan, inPlans, same⟩ := List.mem_map.mp member
  have := List.find?_eq_none.mp absent plan inPlans
  simp [same] at this

theorem PassSound.add {requiresNew : Bool} {taken : Taken}
    (sound : PassSound requireFence broker pass opened)
    (takes : Takes requireFence broker (opened ++ sectionOpened topic taken.partitions)
      (pass.fenceLost ++ taken.fenceLost) taken.broker)
    (fresh : requiresNew = true → topic ∉ pass.topicPlans.map TopicFlushPlan.topic)
    (joined : requiresNew = false → topic ∈ pass.topicPlans.map TopicFlushPlan.topic) :
    PassSound requireFence broker (pass.add request topic trigger requiresNew taken)
      (opened ++ sectionOpened topic taken.partitions) := by
  unfold PlanPass.add
  split
  next nothing =>
    rw [List.isEmpty_iff.mp nothing] at takes ⊢
    exact ⟨takes, by simpa [sectionOpened] using sound.sections, sound.topics, sound.selected⟩
  next =>
    split
    next new =>
      have kept : pass.topicPlans.filter (fun plan => plan.topic ≠ topic) = pass.topicPlans := by
        refine List.filter_eq_self.mpr fun plan member => ?_
        have : plan.topic ≠ topic := fun same =>
          fresh new (List.mem_map.mpr ⟨plan, member, same⟩)
        simpa using this
      refine ⟨takes, ?_, ?_, ?_⟩
      · simp only [kept, List.flatMap_append]
        refine (sound.sections.append_right _).trans ?_
        simp [TopicFlushPlan.opened]
      · simp only [kept, List.map_append]
        refine List.nodup_append.mpr ⟨sound.topics, by simp, ?_⟩
        intro left inPlans right isNew same
        subst same
        rw [List.map_cons, List.map_nil, List.mem_singleton] at isNew
        rw [isNew] at inPlans
        exact fresh new inPlans
      · simp
    next old =>
      have present := joined (Bool.eq_false_of_not_eq_true old)
      refine ⟨takes, ?_, ?_, ?_⟩
      · exact (sound.sections.append_right _).trans (extend_section sound.topics present)
      · have : (fun plan : TopicFlushPlan => (if plan.topic = topic then
            { plan with partitions := plan.partitions ++ taken.partitions } else plan).topic)
            = TopicFlushPlan.topic := by
          funext plan
          split <;> rfl
        rw [List.map_map]
        simpa only [Function.comp_def, this] using sound.topics
      · intro none
        rw [sound.selected none] at present
        cases present

theorem planPartition_sound {shared : Bool}
    (sound : ∃ opened, PassSound request.fencedMetadataWrites broker pass opened)
    (key : PartitionKey) :
    ∃ opened, PassSound request.fencedMetadataWrites broker (planPartition request shared pass key)
      opened := by
  unfold planPartition
  split
  next => exact sound
  next trigger _ =>
    obtain ⟨opened, sound⟩ := sound
    simp only
    split
    next => exact ⟨opened, sound⟩
    next joins =>
      exact ⟨_, sound.add (takeFlushPartitions_takes _ _ sound.takes)
        (existing_none sound (by simpa using joins)) existing_mem⟩

/-- The plan of a pass consists of the epochs its takes opened. -/
theorem collectNextFlushPlan_takes (request : CollectRequest) (broker : Broker) :
    ∃ opened, Takes request.fencedMetadataWrites broker opened
        (collectNextFlushPlan request broker).fenceLost (collectNextFlushPlan request broker).broker
      ∧ ((collectNextFlushPlan request broker).plan = none → opened = [])
      ∧ ∀ plan, (collectNextFlushPlan request broker).plan = some plan →
        opened.Perm plan.opened
          ∧ plan.publicationCompletions = plan.topics.flatMap TopicFlushPlan.completions := by
  unfold collectNextFlushPlan
  split
  next => exact ⟨[], .refl, by simp⟩
  next =>
    have start : ∃ opened, PassSound request.fencedMetadataWrites broker { broker } opened :=
      ⟨[], .refl, by simp, by simp, fun _ => rfl⟩
    obtain ⟨opened, sound⟩ := List.foldlRecOn
      (motive := fun pass => ∃ opened, PassSound request.fencedMetadataWrites broker pass opened)
      request.visitOrder (planPartition request (sharedTimeFlush request broker)) start
      fun _ sound key _ => planPartition_sound sound key
    refine ⟨opened, sound.takes, ?_, ?_⟩
    · intro nothing
      have sections := sound.sections
      rw [sound.selected (Option.map_eq_none_iff.mp nothing)] at sections
      exact List.perm_nil.mp sections
    · intro plan made
      obtain ⟨_, _, rfl⟩ := Option.map_eq_some_iff.mp made
      refine ⟨sound.sections.trans (List.Perm.flatMap_right _ ?_), rfl⟩
      exact (List.perm_insertionSort _ _).symm

/-! ### What takes leave behind -/

theorem takeFlush_partitions (broker : Broker) (key : PartitionKey) (state : PartitionState)
    (trigger : FlushTrigger) (requireFence : Bool) :
    (broker.takeFlush key state trigger requireFence).write.partitions
      = Function.update broker.write.partitions key
        (some (broker.taking key state trigger requireFence).state) := by
  unfold Broker.takeFlush
  simp only
  split <;> rfl

def Emptied (broker : Broker) (key : PartitionKey) : Prop :=
  ∃ state, broker.write.partitions key = some state ∧ state.buffer.batches = []

theorem takeFlush_emptied (broker : Broker) (key : PartitionKey) (state : PartitionState)
    (trigger : FlushTrigger) (requireFence : Bool) :
    Emptied (broker.takeFlush key state trigger requireFence) key := by
  unfold Emptied
  rw [takeFlush_partitions]
  exact ⟨_, Function.update_self .., by rw [takeFlushPartition_buffer]⟩

theorem emptied_takeFlush {target key : PartitionKey} {state : PartitionState}
    (empty : Emptied broker key) :
    Emptied (broker.takeFlush target state trigger requireFence) key := by
  by_cases same : key = target
  · subst same
    exact takeFlush_emptied ..
  · unfold Emptied
    rw [takeFlush_partitions, Function.update_of_ne same]
    exact empty

end BlobStream.Write.Cluster
