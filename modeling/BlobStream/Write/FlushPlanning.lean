import BlobStream.Write.Collect

/-!
# Flush planning accounts for every batch

A taken buffer becomes the epoch of its partition in the plan, or is dropped as a whole for want of a
common fence, and its senders are told so; everything else stays where it was.
-/

namespace BlobStream.Write

/-- The acceptance fences of the batches are missing or mixed. -/
def NoCommonFence (batches : List BufferedBatch) : Prop :=
  ¬ ∃ fence, ∀ batch ∈ batches, batch.acceptanceFence = some fence

inductive TakeEffect (state : PartitionState) (id : VirtualPartitionId) (trigger : FlushTrigger)
    (requireFence : Bool) (channel : PublicationChannel) : TakenFlush → Prop
  | empty (nothing : state.buffer.batches = []) :
      TakeEffect state id trigger requireFence channel ⟨none, { state with buffer := {} }, []⟩
  | dropped (some_ : state.buffer.batches ≠ []) (fenced : requireFence = true)
      (unfenced : NoCommonFence state.buffer.batches) :
      TakeEffect state id trigger requireFence channel
        ⟨none, { state with buffer := {} }, state.buffer.completions⟩
  | opened {flush : FlushPartition} (some_ : state.buffer.batches ≠ [])
      (isId : flush.virtualPartitionId = id) (carries : flush.batches = state.buffer.batches)
      (triggered : flush.trigger = trigger)
      (follows : flush.publicationPredecessor = state.publicationTail)
      (isChannel : flush.publicationState = channel) :
      TakeEffect state id trigger requireFence channel
        ⟨some flush,
          { state with
            buffer := {}
            publicationTail := some channel
            outstandingFlushes := state.outstandingFlushes + 1 }, []⟩

theorem takeFlushPartition_effect (state : PartitionState) (id : VirtualPartitionId)
    (trigger : FlushTrigger) (requireFence : Bool) (channel : PublicationChannel) :
    TakeEffect state id trigger requireFence channel
      (takeFlushPartition state id trigger requireFence channel) := by
  unfold takeFlushPartition
  split
  next nothing => exact .empty nothing
  next first rest batches =>
    have present : state.buffer.batches ≠ [] := by
      rw [batches]
      exact List.cons_ne_nil _ _
    simp only
    split
    next refused =>
      obtain ⟨fenced, unfenced⟩ := (Bool.and_eq_true _ _).mp refused
      refine .dropped present fenced ?_
      rintro ⟨fence, all⟩
      rw [batches] at all
      have firstFence := all first List.mem_cons_self
      have same : ((first :: rest).all fun batch => batch.acceptanceFence = first.acceptanceFence)
          = true := by
        refine List.all_eq_true.mpr fun batch member => decide_eq_true ?_
        rw [all batch member, firstFence]
      simp [firstFence] at unfenced same
      obtain ⟨batch, member, differs⟩ := unfenced
      exact differs (same batch member)
    next => exact .opened present rfl batches.symm rfl rfl rfl

end BlobStream.Write

namespace BlobStream.Write.Cluster

/-- What became of a partition: it was left alone, its empty buffer was cleared, its buffer was dropped,
or its buffer became its epoch. -/
inductive Fate (requireFence : Bool) (publications : Publications) (opened : List Opened)
    (lost : List FlushCompletion) (key : PartitionKey) (state : PartitionState) :
    PartitionState → Prop
  | kept (unplanned : key ∉ opened.map Prod.fst) :
      Fate requireFence publications opened lost key state state
  | cleared (unplanned : key ∉ opened.map Prod.fst) (nothing : state.buffer.batches = []) :
      Fate requireFence publications opened lost key state { state with buffer := {} }
  | dropped (unplanned : key ∉ opened.map Prod.fst) (some_ : state.buffer.batches ≠ [])
      (fenced : requireFence = true) (unfenced : NoCommonFence state.buffer.batches)
      (told : ∀ sender ∈ state.buffer.completions, sender ∈ lost) :
      Fate requireFence publications opened lost key state { state with buffer := {} }
  | planned {flush : FlushPartition} (member : (key, flush) ∈ opened)
      (some_ : state.buffer.batches ≠ []) (carries : flush.batches = state.buffer.batches)
      (follows : flush.publicationPredecessor = state.publicationTail)
      (settled : tailPending publications state.publicationTail = false) :
      Fate requireFence publications opened lost key state
        { state with
          buffer := {}
          publicationTail := some flush.publicationState
          outstandingFlushes := state.outstandingFlushes + 1 }

variable {publications : Publications} {state next : PartitionState} {trigger : FlushTrigger}
variable {topic : Topic} {pass : PlanPass}
variable {requireFence : Bool} {lost : List FlushCompletion} {key : PartitionKey}

/-- A partition with a nonempty buffer has not been taken yet. -/
theorem Fate.untouched {opened : List Opened}
    (fate : Fate requireFence publications opened lost key state next)
    (some_ : next.buffer.batches ≠ []) : next = state ∧ key ∉ opened.map Prod.fst := by
  cases fate with
  | kept unplanned => exact ⟨rfl, unplanned⟩
  | cleared | dropped | planned => exact absurd rfl some_

/-- More epochs of other partitions and more dropped senders change nothing. -/
theorem Fate.mono {opened newOpened : List Opened} {lost newLost : List FlushCompletion}
    (fate : Fate requireFence publications opened lost key state next)
    (others : key ∉ newOpened.map Prod.fst) :
    Fate requireFence publications (opened ++ newOpened) (lost ++ newLost) key state next := by
  have absent : key ∉ opened.map Prod.fst → key ∉ (opened ++ newOpened).map Prod.fst := by
    intro unplanned member
    rw [List.map_append] at member
    exact (List.mem_append.mp member).elim unplanned others
  cases fate with
  | kept unplanned => exact .kept (absent unplanned)
  | cleared unplanned nothing => exact .cleared (absent unplanned) nothing
  | dropped unplanned some_ fenced unfenced told =>
    exact .dropped (absent unplanned) some_ fenced unfenced
      fun sender member => List.mem_append_left _ (told sender member)
  | planned member some_ carries follows settled =>
    exact .planned (List.mem_append_left _ member) some_ carries follows settled

/-- What takes do to every partition, and whose senders they drop. -/
structure Accounted (requireFence : Bool) (broker : Broker) (opened : List Opened)
    (lost : List FlushCompletion) (after : Broker) : Prop where
  absent : ∀ key, broker.write.partitions key = none → after.write.partitions key = none
  fate : ∀ key state, broker.write.partitions key = some state →
    ∃ next, after.write.partitions key = some next
      ∧ Fate requireFence broker.publications opened lost key state next
  present : ∀ key ∈ opened.map Prod.fst, ∃ state, broker.write.partitions key = some state
  distinct : (opened.map Prod.fst).Nodup
  /-- Takes only add pending channels. -/
  pending : ∀ channel, broker.publications channel = .pending →
    after.publications channel = .pending
  lost : ∀ sender ∈ lost, ∃ key state, broker.write.partitions key = some state
    ∧ sender ∈ state.buffer.completions ∧ state.buffer.batches ≠ [] ∧ requireFence = true
    ∧ NoCommonFence state.buffer.batches ∧ Emptied after key ∧ key ∉ opened.map Prod.fst

theorem Accounted.refl (requireFence : Bool) (broker : Broker) :
    Accounted requireFence broker [] [] broker where
  absent _ none := none
  fate _ state here := ⟨state, here, .kept List.not_mem_nil⟩
  present _ member := absurd member List.not_mem_nil
  distinct := List.nodup_nil
  pending _ known := known
  lost _ member := absurd member List.not_mem_nil

variable {broker : Broker}

theorem takeFlush_pending {channel : PublicationChannel}
    (pending : broker.publications channel = .pending) :
    (broker.takeFlush key state trigger requireFence).publications channel = .pending := by
  unfold Broker.takeFlush
  simp only
  split
  · exact pending
  · show Function.update broker.publications broker.nextPublication .pending channel = .pending
    by_cases fresh : channel = broker.nextPublication
    · rw [fresh, Function.update_self]
    · rw [Function.update_of_ne fresh, pending]

theorem Fate.reset {opened : List Opened}
    (fate : Fate requireFence publications opened lost key state next)
    (nothing : next.buffer.batches = []) :
    Fate requireFence publications opened lost key state { next with buffer := {} } := by
  cases fate with
  | kept unplanned => exact .cleared unplanned nothing
  | cleared unplanned already => exact .cleared unplanned already
  | dropped unplanned some_ fenced unfenced told =>
    exact .dropped unplanned some_ fenced unfenced told
  | planned member some_ carries follows settled =>
    exact .planned member some_ carries follows settled

section Take

variable {requireFence : Bool} {broker before : Broker} {opened : List Opened}
variable {lost : List FlushCompletion} {key : PartitionKey} {current : PartitionState}

section

variable (accounted : Accounted requireFence broker opened lost before)

include accounted

/-- A partition that is there now was there before the pass. -/
theorem Accounted.origin (here : before.write.partitions key = some current) :
    ∃ state, broker.write.partitions key = some state
      ∧ Fate requireFence broker.publications opened lost key state current := by
  cases start : broker.write.partitions key with
  | none =>
    rw [accounted.absent key start] at here
    cases here
  | some state =>
    obtain ⟨next, there, fate⟩ := accounted.fate key state start
    rw [there] at here
    cases here
    exact ⟨state, rfl, fate⟩

/-- The bookkeeping of a take, from the fate it gives its own partition. -/
theorem Accounted.step {trigger : FlushTrigger} {state : PartitionState} {newOpened : List Opened}
    {newLost : List FlushCompletion} (start : broker.write.partitions key = some state)
    (fate : Fate requireFence broker.publications (opened ++ newOpened) (lost ++ newLost) key state
      (before.taking key current trigger requireFence).state)
    (own : ∀ epoch ∈ newOpened, epoch.1 = key)
    (fresh : newOpened ≠ [] → ¬ Emptied before key)
    (distinct : ((opened ++ newOpened).map Prod.fst).Nodup)
    (dropped : ∀ sender ∈ newLost, sender ∈ state.buffer.completions ∧ state.buffer.batches ≠ []
      ∧ requireFence = true ∧ NoCommonFence state.buffer.batches
      ∧ key ∉ (opened ++ newOpened).map Prod.fst) :
    Accounted requireFence broker (opened ++ newOpened) (lost ++ newLost)
      (before.takeFlush key current trigger requireFence) := by
  have others : ∀ {other : PartitionKey}, other ≠ key → other ∉ newOpened.map Prod.fst := by
    intro other differs member
    obtain ⟨epoch, inNew, rfl⟩ := List.mem_map.mp member
    exact differs (own epoch inNew)
  refine ⟨?_, ?_, ?_, distinct, fun channel known => takeFlush_pending (accounted.pending channel known),
    ?_⟩
  · intro other absent
    have differs : other ≠ key := by
      rintro rfl
      rw [start] at absent
      cases absent
    rw [takeFlush_partitions, Function.update_of_ne differs]
    exact accounted.absent other absent
  · intro other origin here
    by_cases same : other = key
    · subst same
      rw [start] at here
      cases here
      exact ⟨_, by rw [takeFlush_partitions, Function.update_self], fate⟩
    · obtain ⟨now, there, earlier⟩ := accounted.fate other origin here
      exact ⟨now, by rw [takeFlush_partitions, Function.update_of_ne same, there],
        earlier.mono (others same)⟩
  · intro other member
    rw [List.map_append] at member
    rcases List.mem_append.mp member with old | new
    · exact accounted.present other old
    · obtain ⟨epoch, inNew, rfl⟩ := List.mem_map.mp new
      exact ⟨state, by rw [own epoch inNew, start]⟩
  · intro sender member
    rcases List.mem_append.mp member with old | new
    · obtain ⟨other, origin, here, inBuffer, some_, fenced, unfenced, empty, unplanned⟩ :=
        accounted.lost sender old
      refine ⟨other, origin, here, inBuffer, some_, fenced, unfenced, emptied_takeFlush empty, ?_⟩
      intro planned
      rw [List.map_append] at planned
      rcases List.mem_append.mp planned with earlier | later
      · exact unplanned earlier
      · -- An epoch is opened for a buffer with batches only.
        obtain ⟨epoch, inNew, rfl⟩ := List.mem_map.mp later
        rw [own epoch inNew] at empty
        exact fresh (List.ne_nil_of_mem inNew) empty
    · obtain ⟨inBuffer, some_, fenced, unfenced, unplanned⟩ := dropped sender new
      exact ⟨key, state, start, inBuffer, some_, fenced, unfenced, takeFlush_emptied .., unplanned⟩

theorem Accounted.take {trigger : FlushTrigger} (here : before.write.partitions key = some current)
    (eligible : before.skips current trigger = false) :
    Accounted requireFence broker
      (opened ++ ((before.taking key current trigger requireFence).flush.map (key, ·)).toList)
      (lost ++ (before.taking key current trigger requireFence).fenceLost)
      (before.takeFlush key current trigger requireFence) := by
  obtain ⟨state, start, fate⟩ := accounted.origin here
  have effect : TakeEffect current key.virtualPartitionId trigger requireFence before.nextPublication
      (before.taking key current trigger requireFence) := takeFlushPartition_effect ..
  generalize isTaken : before.taking key current trigger requireFence = taken at effect
  cases effect with
  | empty nothing =>
    refine accounted.step start ?_ (by simp) (by simp) (by simpa using accounted.distinct) (by simp)
    rw [isTaken]
    simpa using fate.reset nothing
  | dropped some_ fenced unfenced =>
    obtain ⟨rfl, unplanned⟩ := fate.untouched some_
    refine accounted.step start ?_ (by simp) (by simp) (by simpa using accounted.distinct) ?_
    · rw [isTaken]
      exact .dropped (by simpa using unplanned) some_ fenced unfenced
        fun sender member => List.mem_append_right _ member
    · intro sender member
      exact ⟨member, some_, fenced, unfenced, by simpa using unplanned⟩
  | @opened flush some_ isId carries triggered follows isChannel =>
    obtain ⟨rfl, unplanned⟩ := fate.untouched some_
    have settled : tailPending before.publications current.publicationTail = false :=
      ((Bool.or_eq_false_iff).mp eligible).2
    refine accounted.step start ?_ (by simp) ?_ ?_ (by simp)
    · rw [isTaken, ← isChannel]
      refine .planned (List.mem_append_right _ List.mem_cons_self) some_ carries follows ?_
      -- A channel that is pending now was pending before.
      cases tail : current.publicationTail with
      | none => rfl
      | some channel =>
        simp only [tail, tailPending, decide_eq_false_iff_not] at settled ⊢
        exact fun pending => settled (accounted.pending channel pending)
    · rintro - ⟨other, there, empty⟩
      rw [here] at there
      cases there
      exact some_ empty
    · rw [List.map_append]
      refine List.nodup_append.mpr ⟨accounted.distinct, by simp, ?_⟩
      intro left old right new same
      subst same
      simp only [Option.map_some, Option.toList_some, List.map_cons, List.map_nil,
        List.mem_singleton] at new
      rw [new] at old
      exact unplanned old

end

end Take

section Kept

variable {after : Broker} {opened : List Opened}

theorem Takes.accounted (takes : Takes requireFence broker opened lost after) :
    Accounted requireFence broker opened lost after := by
  induction takes with
  | refl => exact .refl requireFence broker
  | take _ present eligible ih => exact ih.take present eligible

/-- After some takes a partition is as it was or has an empty buffer. -/
theorem Takes.kept (takes : Takes requireFence broker opened lost after) (key : PartitionKey) :
    after.write.partitions key = broker.write.partitions key ∨ Emptied after key := by
  cases start : broker.write.partitions key with
  | none => exact Or.inl (takes.accounted.absent key start)
  | some state =>
    obtain ⟨next, there, fate⟩ := takes.accounted.fate key state start
    cases fate with
    | kept => exact Or.inl there
    | cleared | dropped | planned => exact Or.inr ⟨_, there, rfl⟩

/-- An epoch carries the buffer its partition had before the takes, and follows a settled one. -/
theorem Accounted.carried (accounted : Accounted requireFence broker opened lost after)
    {flush : FlushPartition} (member : (key, flush) ∈ opened) :
    ∃ state, broker.write.partitions key = some state ∧ flush.batches = state.buffer.batches
      ∧ flush.publicationPredecessor = state.publicationTail
      ∧ tailPending broker.publications state.publicationTail = false := by
  have planned : key ∈ opened.map Prod.fst := List.mem_map.mpr ⟨_, member, rfl⟩
  obtain ⟨state, here⟩ := accounted.present key planned
  obtain ⟨next, -, fate⟩ := accounted.fate key state here
  cases fate with
  | kept unplanned | cleared unplanned | dropped unplanned => exact absurd planned unplanned
  | @planned own inPlan some_ carries follows settled =>
    obtain rfl : flush = own := (Prod.mk.inj
      (List.inj_on_of_nodup_map accounted.distinct member inPlan rfl)).2
    exact ⟨state, here, carries, follows, settled⟩

end Kept

/-! ### The takes of one turn -/

/-- The epochs of one turn share its trigger and keep to its limit. -/
structure SectionTaken (trigger : FlushTrigger) (maxPartitions : Nat)
    (partitions : List FlushPartition) : Prop where
  triggers : ∀ flush ∈ partitions, flush.trigger = trigger
  length : partitions.length ≤ maxPartitions

theorem SectionTaken.nil (trigger : FlushTrigger) (maxPartitions : Nat) :
    SectionTaken trigger maxPartitions [] :=
  ⟨fun _ member => absurd member List.not_mem_nil, Nat.zero_le _⟩

theorem SectionTaken.cons {maxPartitions : Nat} {flush : FlushPartition}
    {partitions : List FlushPartition} (triggered : flush.trigger = trigger)
    (rest : SectionTaken trigger maxPartitions partitions) :
    SectionTaken trigger (maxPartitions + 1) (flush :: partitions) := by
  refine ⟨?_, Nat.succ_le_succ rest.length⟩
  intro other member
  rcases List.mem_cons.mp member with rfl | later
  · exact triggered
  · exact rest.triggers other later

theorem takeFlushPartitions_section :
    ∀ (maxPartitions : Nat) (ids : List VirtualPartitionId) (broker : Broker),
      SectionTaken trigger maxPartitions
        (takeFlushPartitions topic trigger requireFence maxPartitions ids broker).partitions := by
  intro maxPartitions ids
  induction ids generalizing maxPartitions with
  | nil =>
    intro broker
    cases maxPartitions <;> exact .nil _ _
  | cons id rest ih =>
    intro broker
    cases maxPartitions with
    | zero => exact .nil _ _
    | succ remaining =>
      simp only [takeFlushPartitions]
      split
      next => exact ih (remaining + 1) broker
      next state _ =>
        split
        next => exact ih (remaining + 1) broker
        next =>
          have effect := takeFlushPartition_effect state id trigger requireFence
            broker.nextPublication
          split
          next => exact ih (remaining + 1) _
          next flush taken =>
            refine .cons ?_ (ih remaining _)
            generalize takeFlushPartition state id trigger requireFence broker.nextPublication
              = result at taken effect
            cases effect with
            | empty | dropped => cases taken
            | opened _ _ _ triggered =>
              cases taken
              exact triggered

/-! ### The sections of the plan -/

/-- A section has one trigger, and the fences of all its partitions fit one transaction. -/
structure SectionFits (fenced : Bool) (plan : TopicFlushPlan) : Prop where
  trigger : ∃ trigger, ∀ flush ∈ plan.partitions, flush.trigger = trigger
  limit : fenced = true → plan.partitions.length ≤ maxFencedMetadataPartitions

/-- A section that is joined has the trigger of the newcomer and room left. -/
theorem requiresNewTopicPlan_false {fenced : Bool} {plan : TopicFlushPlan}
    (joins : requiresNewTopicPlan fenced trigger (some plan) = false) :
    ∃ first, plan.partitions.head? = some first ∧ first.trigger = trigger := by
  unfold requiresNewTopicPlan at joins
  simp only [Option.bind_some] at joins
  split at joins
  · cases joins
  next first isFirst =>
    refine ⟨first, isFirst, ?_⟩
    have same := ((Bool.or_eq_false_iff).mp joins).1
    simpa using same

def sectionLimit (fenced requiresNew : Bool) (existingCount : Nat) : Nat :=
  if fenced then
    if requiresNew then maxFencedMetadataPartitions
    else maxFencedMetadataPartitions - existingCount
  else Word.u64Max

variable {request : CollectRequest}

theorem PlanPass.add_fits {taken : Taken} {requiresNew : Bool} {existing : Option TopicFlushPlan}
    (fits : ∀ plan ∈ pass.topicPlans, SectionFits request.fencedMetadataWrites plan)
    (topics : (pass.topicPlans.map TopicFlushPlan.topic).Nodup)
    (found : pass.topicPlans.find? (fun plan => plan.topic = topic) = existing)
    (required : requiresNewTopicPlan request.fencedMetadataWrites trigger existing = requiresNew)
    (taking : SectionTaken trigger
      (sectionLimit request.fencedMetadataWrites requiresNew
        ((existing.map fun plan => plan.partitions.length).getD 0)) taken.partitions) :
    ∀ plan ∈ (pass.add request topic trigger requiresNew taken).topicPlans,
      SectionFits request.fencedMetadataWrites plan := by
  have length := taking.length
  unfold PlanPass.add
  simp only
  split
  next => exact fits
  next =>
    cases requiresNew with
    | true =>
      intro plan member
      rcases List.mem_append.mp member with old | new
      · exact fits plan (List.mem_of_mem_filter old)
      · rw [List.mem_singleton.mp new]
        refine ⟨⟨trigger, taking.triggers⟩, ?_⟩
        intro fenced
        simpa only [sectionLimit, fenced, if_true] using length
    | false =>
      intro plan member
      obtain ⟨old, inPlans, rfl⟩ := List.mem_map.mp member
      split
      next same =>
        obtain ⟨section_, rfl⟩ := Option.isSome_iff_exists.mp (requiresNewTopicPlan_none required)
        -- The section found for a topic is the only one of the topic.
        have isTopic : section_.topic = topic := by simpa using List.find?_some found
        obtain rfl := List.inj_on_of_nodup_map topics inPlans (List.mem_of_find?_eq_some found)
          (same.trans isTopic.symm)
        obtain ⟨first, isFirst, triggered⟩ := requiresNewTopicPlan_false required
        obtain ⟨common, all⟩ := (fits old inPlans).trigger
        refine ⟨⟨trigger, ?_⟩, ?_⟩
        · intro flush inSection
          rcases List.mem_append.mp inSection with earlier | later
          · rw [all flush earlier, ← all first (List.mem_of_head? isFirst), triggered]
          · exact taking.triggers flush later
        · intro fenced
          have most := (fits old inPlans).limit fenced
          simp only [sectionLimit, fenced, if_true, Bool.false_eq_true, if_false, Option.map_some,
            Option.getD_some] at length
          rw [List.length_append]
          omega
      next => exact fits old inPlans

/-- What holds between two turns of the selection loop: the sections fit, and the pass is a sequence of
takes. -/
structure PassAccounted (request : CollectRequest) (broker : Broker) (pass : PlanPass) : Prop where
  takes : ∃ opened, PassSound request.fencedMetadataWrites broker pass opened
  fits : ∀ plan ∈ pass.topicPlans, SectionFits request.fencedMetadataWrites plan

theorem planPartition_accounted {shared : Bool} (accounted : PassAccounted request broker pass)
    (key : PartitionKey) :
    PassAccounted request broker (planPartition request shared pass key) := by
  unfold planPartition
  split
  next => exact accounted
  next trigger _ =>
    simp only
    split
    next => exact accounted
    next joins =>
      obtain ⟨opened, sound⟩ := accounted.takes
      constructor
      · exact ⟨_, sound.add (takeFlushPartitions_takes _ _ sound.takes)
          (existing_none sound (by simpa using joins)) existing_mem⟩
      · exact PlanPass.add_fits accounted.fits sound.topics rfl rfl
          (takeFlushPartitions_section _ _ _)

/-! ### The result of a pass -/

namespace Collected

def opened (collected : Collected) : List Opened := (collected.plan.map FlushPlan.opened).getD []

def Retains (collected : Collected) (key : PartitionKey) (state : PartitionState) : Prop :=
  collected.broker.write.partitions key = some state

/-- The whole buffer, in order, is the partition's epoch in the plan. -/
def Plans (collected : Collected) (key : PartitionKey) (state : PartitionState) : Prop :=
  Emptied collected.broker key
    ∧ ∃ flush, (key, flush) ∈ collected.opened ∧ flush.batches = state.buffer.batches

/-- The whole buffer was dropped, and every sender is told that the fence was lost. -/
def Discards (collected : Collected) (key : PartitionKey) (state : PartitionState) : Prop :=
  Emptied collected.broker key ∧ key ∉ collected.opened.map Prod.fst
    ∧ ∀ sender ∈ state.buffer.completions, sender ∈ collected.fenceLost

end Collected

def ExactlyOne (first second third : Prop) : Prop :=
  (first ∧ ¬ second ∧ ¬ third) ∨ (¬ first ∧ second ∧ ¬ third) ∨ (¬ first ∧ ¬ second ∧ third)

/-- What a scheduler pass does with the batches buffered before it. -/
structure PlanAccounts (request : CollectRequest) (broker : Broker) (collected : Collected) :
    Prop where
  fate : ∀ key state, broker.write.partitions key = some state → state.buffer.batches ≠ [] →
    ExactlyOne (collected.Retains key state) (collected.Plans key state)
      (collected.Discards key state)
  unfenced : ∀ key state, broker.write.partitions key = some state → state.buffer.batches ≠ [] →
    collected.Discards key state →
    request.fencedMetadataWrites = true ∧ NoCommonFence state.buffer.batches
  told : ∀ sender ∈ collected.fenceLost, ∃ key state, broker.write.partitions key = some state
    ∧ sender ∈ state.buffer.completions ∧ collected.Discards key state
  distinct : (collected.opened.map Prod.fst).Nodup
  sections : ∀ plan, collected.plan = some plan → ∀ part ∈ plan.topics,
    SectionFits request.fencedMetadataWrites part
  settled : ∀ key flush, (key, flush) ∈ collected.opened → ∃ state,
    broker.write.partitions key = some state
      ∧ flush.publicationPredecessor = state.publicationTail
      ∧ tailPending broker.publications state.publicationTail = false
  outstanding : ∀ key state, broker.write.partitions key = some state → ∃ next,
    collected.broker.write.partitions key = some next
      ∧ next.outstandingFlushes =
        state.outstandingFlushes + if key ∈ collected.opened.map Prod.fst then 1 else 0

section Result

variable {request : CollectRequest} {broker : Broker} {collected : Collected}
variable {opened : List Opened}

variable {state next : PartitionState}
variable {others : List Opened}

theorem Fate.perm {requireFence : Bool} {publications : Publications} {lost : List FlushCompletion}
    {key : PartitionKey} (fate : Fate requireFence publications opened lost key state next)
    (same : opened.Perm others) : Fate requireFence publications others lost key state next := by
  have keys : key ∉ opened.map Prod.fst → key ∉ others.map Prod.fst := fun absent member =>
    absent ((same.map Prod.fst).mem_iff.mpr member)
  cases fate with
  | kept unplanned => exact .kept (keys unplanned)
  | cleared unplanned nothing => exact .cleared (keys unplanned) nothing
  | dropped unplanned some_ fenced unfenced told =>
    exact .dropped (keys unplanned) some_ fenced unfenced told
  | planned member some_ carries follows settled =>
    exact .planned (same.mem_iff.mp member) some_ carries follows settled

theorem Accounted.perm {requireFence : Bool} {after : Broker} {lost : List FlushCompletion}
    (accounted : Accounted requireFence broker opened lost after) (same : opened.Perm others) :
    Accounted requireFence broker others lost after := by
  have keys := same.map Prod.fst
  refine ⟨accounted.absent, ?_, ?_, keys.nodup_iff.mp accounted.distinct, accounted.pending, ?_⟩
  · intro key state here
    obtain ⟨next, there, fate⟩ := accounted.fate key state here
    exact ⟨next, there, fate.perm same⟩
  · intro key member
    exact accounted.present key (keys.mem_iff.mpr member)
  · intro sender member
    obtain ⟨key, state, here, inBuffer, some_, fenced, unfenced, empty, unplanned⟩ :=
      accounted.lost sender member
    exact ⟨key, state, here, inBuffer, some_, fenced, unfenced, empty,
      fun planned => unplanned (keys.mem_iff.mpr planned)⟩

theorem fate_exactlyOne (key : PartitionKey)
    (there : collected.broker.write.partitions key = some next)
    (some_ : state.buffer.batches ≠ [])
    (fate : Fate request.fencedMetadataWrites broker.publications collected.opened
      collected.fenceLost key state next) :
    ExactlyOne (collected.Retains key state) (collected.Plans key state)
        (collected.Discards key state)
      ∧ (collected.Discards key state →
        request.fencedMetadataWrites = true ∧ NoCommonFence state.buffer.batches) := by
  -- A partition that was emptied is not as it was.
  have changed : Emptied collected.broker key → ¬ collected.Retains key state := by
    rintro ⟨other, here, empty⟩ retained
    rw [Collected.Retains, here] at retained
    cases retained
    exact some_ empty
  have unplanned : key ∉ collected.opened.map Prod.fst → ¬ collected.Plans key state := by
    rintro absent ⟨-, flush, member, -⟩
    exact absent (List.mem_map.mpr ⟨_, member, rfl⟩)
  cases fate with
  | kept absent =>
    have notEmptied : ¬ Emptied collected.broker key := fun empty => changed empty there
    exact ⟨Or.inl ⟨there, unplanned absent, fun dropped => notEmptied dropped.1⟩,
      fun dropped => absurd dropped.1 notEmptied⟩
  | cleared _ nothing => exact absurd nothing some_
  | dropped absent _ fenced unfenced told =>
    have empty : Emptied collected.broker key := ⟨_, there, rfl⟩
    exact ⟨Or.inr (Or.inr ⟨changed empty, unplanned absent, empty, absent, told⟩),
      fun _ => ⟨fenced, unfenced⟩⟩
  | planned member _ carries =>
    have empty : Emptied collected.broker key := ⟨_, there, rfl⟩
    have isPlanned : key ∈ collected.opened.map Prod.fst := List.mem_map.mpr ⟨_, member, rfl⟩
    have notDropped : ¬ collected.Discards key state := fun dropped => dropped.2.1 isPlanned
    exact ⟨Or.inr (Or.inl ⟨changed empty, ⟨empty, _, member, carries⟩, notDropped⟩),
      fun dropped => absurd dropped notDropped⟩

theorem PlanAccounts.of_accounted
    (accounted : Accounted request.fencedMetadataWrites broker collected.opened collected.fenceLost
      collected.broker)
    (sections : ∀ plan, collected.plan = some plan → ∀ part ∈ plan.topics,
      SectionFits request.fencedMetadataWrites part) :
    PlanAccounts request broker collected := by
  refine ⟨?_, ?_, ?_, accounted.distinct, sections, ?_, ?_⟩
  · intro key state here some_
    obtain ⟨next, there, fate⟩ := accounted.fate key state here
    exact (fate_exactlyOne key there some_ fate).1
  · intro key state here some_
    obtain ⟨next, there, fate⟩ := accounted.fate key state here
    exact (fate_exactlyOne key there some_ fate).2
  · intro sender member
    obtain ⟨key, state, here, inBuffer, some_, -, -, empty, unplanned⟩ :=
      accounted.lost sender member
    obtain ⟨next, there, fate⟩ := accounted.fate key state here
    -- The buffer was emptied without becoming an epoch, so all of it was dropped.
    rcases (fate_exactlyOne key there some_ fate).1 with kept | planned | dropped
    · obtain ⟨other, now, nothing⟩ := empty
      have retained : collected.broker.write.partitions key = some state := kept.1
      rw [retained] at now
      cases now
      exact absurd nothing some_
    · obtain ⟨-, flush, inPlan, -⟩ := planned.2.1
      exact absurd (List.mem_map.mpr ⟨_, inPlan, rfl⟩) unplanned
    · exact ⟨key, state, here, inBuffer, dropped.2.2⟩
  · intro key flush member
    obtain ⟨state, here, -, follows⟩ := accounted.carried member
    exact ⟨state, here, follows⟩
  · intro key state here
    obtain ⟨next, there, fate⟩ := accounted.fate key state here
    refine ⟨next, there, ?_⟩
    cases fate with
    | kept absent | cleared absent | dropped absent => rw [if_neg absent]; rfl
    | planned member => rw [if_pos (List.mem_map.mpr ⟨_, member, rfl⟩)]

end Result

/-- Flush planning neither loses nor duplicates a batch. -/
theorem collectNextFlushPlan_accounts (request : CollectRequest) (broker : Broker) :
    PlanAccounts request broker (collectNextFlushPlan request broker) := by
  unfold collectNextFlushPlan
  split
  next =>
    exact .of_accounted (.refl request.fencedMetadataWrites broker) (fun plan made => by cases made)
  next =>
    have start : PassAccounted request broker { broker } :=
      ⟨⟨[], .refl, by simp, by simp, fun _ => rfl⟩, fun plan member => by cases member⟩
    have swept := List.foldlRecOn request.visitOrder
      (planPartition request (sharedTimeFlush request broker)) start fun _ accounted key _ =>
        planPartition_accounted accounted key
    generalize request.visitOrder.foldl (planPartition request (sharedTimeFlush request broker))
      { broker } = pass at swept
    obtain ⟨⟨opened, sound⟩, fits⟩ := swept
    have sorted := List.perm_insertionSort (fun left right : TopicFlushPlan =>
      left.topic ≤ right.topic) pass.topicPlans
    refine .of_accounted (sound.takes.accounted.perm ?_) ?_
    · -- A pass that selected nothing has no sections.
      simp only [Collected.opened]
      cases selected : pass.selectedSharedTimeFlush with
      | none =>
        have sections := sound.sections
        rw [sound.selected selected] at sections
        simpa using sections
      | some _ => exact sound.sections.trans (List.Perm.flatMap_right _ sorted.symm)
    · intro plan made part member
      obtain ⟨_, _, rfl⟩ := Option.map_eq_some_iff.mp made
      exact fits part (sorted.mem_iff.mp member)

end BlobStream.Write.Cluster
