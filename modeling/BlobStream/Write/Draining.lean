import BlobStream.Write.EpochState

/-!
# Draining partitions

A scheduler pass that returns no plan leaves a draining buffer alone only while the partition's last
epoch has no segment identity yet. A partition goes on draining until its buffer is empty, unless
successful lease maintenance reopens it.
-/

namespace BlobStream.Write.Cluster

/-! ### What an empty pass leaves -/

/-- A draining partition has been taken or waits for the identity of its last epoch. -/
def Settled (broker : Broker) (key : PartitionKey) : Prop :=
  ∀ state, broker.write.partitions key = some state → state.draining = true →
    state.buffer.batches = [] ∨ tailPending broker.publications state.publicationTail = true

section Scans

variable {broker : Broker} {request : CollectRequest} {shared : Bool}

theorem tailPending_update {publications : Publications} {tail : Option PublicationChannel}
    (channel : PublicationChannel) (pending : tailPending publications tail = true) :
    tailPending (Function.update publications channel .pending) tail = true := by
  cases tail with
  | none => cases pending
  | some own =>
    by_cases same : own = channel
    · simp [tailPending, same]
    · simpa [tailPending, same] using pending

variable {key : PartitionKey} {state : PartitionState} {pass : PlanPass}
variable {trigger : FlushTrigger}

theorem Settled.takeFlush {target : PartitionKey} {requireFence : Bool}
    (settled : Settled broker key) :
    Settled (broker.takeFlush target state trigger requireFence) key := by
  intro after present draining
  rw [takeFlush_partitions] at present
  by_cases same : key = target
  · subst same
    rw [Function.update_self] at present
    cases present
    exact Or.inl (by rw [takeFlushPartition_buffer])
  · rw [Function.update_of_ne same] at present
    refine (settled after present draining).imp_right fun pending => ?_
    rcases takeFlush_cases broker target state trigger requireFence with
      ⟨-, channels, -⟩ | ⟨flush, -, channels, -⟩
    · rw [(Prod.mk.inj channels).1]
      exact pending
    · rw [(Prod.mk.inj channels).1]
      exact tailPending_update _ pending

theorem Settled.takes {after : Broker} {opened : List Opened} {lost : List FlushCompletion}
    (takes : Takes requireFence broker opened lost after) (settled : Settled broker key) : Settled after key := by
  induction takes with
  | refl => exact settled
  | take _ _ _ ih => exact ih.takeFlush

theorem takeFlushPartitions_settled (key : PartitionKey) (trigger : FlushTrigger)
    (requireFence : Bool) (maxPartitions : Nat) (drains : trigger ≠ .maxDelay) :
    Settled (takeFlushPartitions key.topic trigger requireFence (maxPartitions + 1)
      [key.virtualPartitionId] broker).broker key := by
  have same : (⟨key.topic, key.virtualPartitionId⟩ : PartitionKey) = key := rfl
  simp only [takeFlushPartitions, same]
  split
  next absent =>
    intro state present
    rw [absent] at present
    cases present
  next state present =>
    split
    next skipped =>
      intro other here _
      cases present.symm.trans here
      simp only [Broker.skips, drains, decide_false, Bool.false_and, Bool.false_or] at skipped
      exact Or.inr skipped
    next =>
      have emptied : Settled (broker.takeFlush key state trigger requireFence) key := by
        intro after here _
        rw [takeFlush_partitions, Function.update_self] at here
        cases here
        exact Or.inl (by rw [takeFlushPartition_buffer])
      split
      · exact emptied
      · cases maxPartitions <;> exact emptied

theorem planPass_add_broker (pass : PlanPass) (topic : Topic) (trigger : FlushTrigger)
    (requiresNew : Bool) (taken : Taken) :
    (pass.add request topic trigger requiresNew taken).broker = taken.broker := by
  unfold PlanPass.add
  simp only
  split
  · rfl
  · split <;> rfl

theorem planPass_add_selected {topic : Topic} {requiresNew : Bool} {taken : Taken}
    (nothing : (pass.add request topic trigger requiresNew taken).selectedSharedTimeFlush = none) :
    pass.selectedSharedTimeFlush = none := by
  unfold PlanPass.add at nothing
  simp only at nothing
  split at nothing
  · exact nothing
  · split at nothing
    · exact (Option.or_eq_none_iff.mp nothing).1
    · exact nothing

/-- One turn of the selection loop takes partitions, and never drops the selection. -/
theorem planPartition_takes (request : CollectRequest) (shared : Bool) (pass : PlanPass)
    (key : PartitionKey) :
    ∃ opened lost, Takes request.fencedMetadataWrites pass.broker opened lost
      (planPartition request shared pass key).broker := by
  unfold planPartition
  split
  · exact ⟨[], [], .refl⟩
  · simp only
    split
    · exact ⟨[], [], .refl⟩
    · rw [planPass_add_broker]
      exact ⟨_, _, takeFlushPartitions_takes _ _ .refl⟩

theorem planPartition_selected
    (nothing : (planPartition request shared pass key).selectedSharedTimeFlush = none) :
    pass.selectedSharedTimeFlush = none := by
  unfold planPartition at nothing
  split at nothing
  · exact nothing
  · simp only at nothing
    split at nothing
    · exact nothing
    · exact planPass_add_selected nothing

/-- Without a selection, the turn of a draining partition takes it if it can be taken. -/
theorem planPartition_settled (unselected : pass.selectedSharedTimeFlush = none)
    (empty : pass.topicPlans = []) (present : pass.broker.write.partitions key = some state)
    (draining : state.draining = true) :
    Settled (planPartition request shared pass key).broker key := by
  have trigger : (pass.broker.write.partitions key).bind (passTrigger request shared)
      = some .leaseDrain := by
    simp [present, passTrigger, flushTrigger, draining]
  simp only [planPartition, trigger, empty, unselected, List.find?_nil, joinsSelectedPlan,
    requiresNewTopicPlan, Option.bind_none, Bool.not_true, Bool.false_eq_true, if_false, if_true]
  rw [planPass_add_broker]
  split
  · exact takeFlushPartitions_settled key .leaseDrain _ 98 (by decide)
  · exact takeFlushPartitions_settled key .leaseDrain _ (Word.u64Max - 1) (by decide)

theorem swept_selected (visits : List PartitionKey)
    (nothing : (visits.foldl (planPartition request shared) pass).selectedSharedTimeFlush = none) :
    pass.selectedSharedTimeFlush = none := by
  induction visits generalizing pass with
  | nil => exact nothing
  | cons next rest ih => exact planPartition_selected (ih nothing)

/-- A sweep that selects nothing settles every draining partition it visits. -/
theorem swept_settled {start : Broker} (present : start.write.partitions key = some state)
    (draining : state.draining = true) (visits : List PartitionKey)
    (sound : ∃ opened, PassSound request.fencedMetadataWrites start pass opened)
    (nothing : (visits.foldl (planPartition request shared) pass).selectedSharedTimeFlush = none)
    (visited : key ∈ visits) :
    Settled (visits.foldl (planPartition request shared) pass).broker key := by
  induction visits generalizing pass with
  | nil => cases visited
  | cons next rest ih =>
    rcases List.mem_cons.mp visited with rfl | later
    · have unselected := planPartition_selected (swept_selected rest nothing)
      obtain ⟨opened, sound⟩ := sound
      refine List.foldlRecOn (motive := fun pass : PlanPass => Settled pass.broker key) rest _ ?_
        fun pass settled next _ =>
          settled.takes (planPartition_takes request shared pass next).choose_spec.choose_spec
      -- Up to here the partition was left alone or emptied.
      rcases sound.takes.kept key with same | ⟨emptied, here, empty⟩
      · exact planPartition_settled unselected (sound.selected unselected) (same.trans present)
          draining
      · have settled : Settled pass.broker key := by
          intro other present _
          cases here.symm.trans present
          exact Or.inl empty
        obtain ⟨_, _, takes⟩ := planPartition_takes request shared pass key
        exact settled.takes takes
    · exact ih (planPartition_sound sound next) nothing later

theorem mem_visitOrder (listed : key ∈ request.partitionKeys) : key ∈ request.visitOrder := by
  have sorted : key ∈ request.partitionKeys.insertionSort fun left right =>
      PartitionKey.before left right := (List.perm_insertionSort _ _).mem_iff.mpr listed
  unfold CollectRequest.visitOrder
  simp only
  split
  · exact sorted
  · split
    · exact sorted
    next start _ =>
      rw [List.mem_append, or_comm, ← List.mem_append, List.take_append_drop]
      exact sorted

/-- A pass without a plan has settled every draining partition. -/
theorem collect_settled (nothing : (collectNextFlushPlan request broker).plan = none)
    (listed : key ∈ request.partitionKeys) (present : broker.write.partitions key = some state)
    (draining : state.draining = true) :
    Settled (collectNextFlushPlan request broker).broker key := by
  have flushable : hasFlushablePartition request broker = true := by
    refine List.any_eq_true.mpr ⟨key, listed, ?_⟩
    simp [present, flushTrigger, draining]
  simp only [collectNextFlushPlan, flushable, Bool.not_true, Bool.false_eq_true, if_false,
    Option.map_eq_none_iff] at nothing ⊢
  exact swept_settled present draining _ ⟨[], .refl, by simp, by simp, fun _ => rfl⟩ nothing
    (mem_visitOrder listed)

end Scans

/-! ### Draining partitions stay draining -/

/-- No partition with buffered batches is reopened. -/
def drainContract : Contract where
  resume := fun state => state.buffer.batches.isEmpty
  flush := false

/-- The partition goes on draining or has nothing left to drain. -/
def DrainFrame (before after : PartitionState) : Prop :=
  after.buffer.batches = [] ∨ (before.draining = true → after.draining = true)

theorem DrainFrame.of_local {before after : PartitionState}
    (frame : LocalFrame drainContract before after) : DrainFrame before after := by
  rcases frame.drains with empty | draining | ⟨resumed, same⟩
  · exact Or.inl empty
  · exact Or.inr draining
  · -- Only an empty buffer is reopened.
    exact Or.inl (same.trans (List.isEmpty_iff.mp resumed))

section Frames

variable {config : String → BrokerConfig} {world next : World} {action : Action}

theorem step_drainFrame (keyed : TransitionsKeyed world) (meets : drainContract.allows world action)
    (stepped : step config world action = some next) (session : String) (key : PartitionKey) :
    DrainFrame ((world.brokers session).write.partitionState key)
      ((next.brokers session).write.partitionState key) :=
  step_view (fun before after => DrainFrame before.partition after.partition) keyed meets stepped
    session key (fun _ => Or.inr id) fun did => .of_local (localFrame rfl did)

theorem step_tracked (keyed : TransitionsKeyed world)
    (stepped : step config world action = some next) (session : String) (key : PartitionKey)
    (tracked : ((next.brokers session).write.partitions key).isSome) :
    ((world.brokers session).write.partitions key).isSome
      ∨ ((world.brokers session).write.assignmentGenerationForPartition key).isSome := by
  have related := step_view
    (fun before after => after.state.isSome → before.state.isSome ∨ before.generation.isSome)
    keyed (noContract_allows world action) stepped session key (fun _ => Or.inl) ?_
  · exact related tracked
  · intro view after row nextRow emitted did tracked
    cases did with
    | produce read summarized assigned meets => exact Or.inr assigned
    | claim read assigned meets => exact Or.inr (by simp [assigned])
    | finish | resumeAdmission | dropOwner | startRelease | applyHeartbeat | beginShutdownDrain =>
      exact Or.inl (by simpa using tracked)
    | clearReleased phase =>
      simp only [View.cleared] at tracked
      split at tracked
      · cases tracked
      next present => exact Or.inl (by simp [present])
    | takeFlush present meets => exact Or.inl (by simp [present])
    | completeFlush present meets => exact Or.inl (by simp [present])
    | _ => exact Or.inl tracked

theorem step_assignment (stepped : step config world action = some next) (session : String)
    (refreshes : ∀ desired, action ≠ .refreshAssignment session desired) :
    (next.brokers session).write.assignment = (world.brokers session).write.assignment := by
  have set (actor : String) {broker : Broker}
      (same : broker.write.assignment = (world.brokers actor).write.assignment) :
      ((world.setBroker actor broker).brokers session).write.assignment
        = (world.brokers session).write.assignment := by
    by_cases here : session = actor
    · subst here
      simpa [World.setBroker] using same
    · simp [World.setBroker, here]
  cases action with
  | refreshAssignment actor desired =>
    cases stepped
    have other : session ≠ actor := by
      rintro rfl
      exact refreshes desired rfl
    simp [World.setBroker, other]
  | takeFlush actor key trigger requireFence =>
    simp only [step] at stepped
    split at stepped
    · split at stepped <;> cases stepped
      refine set actor ?_
      simp only [Broker.takeFlush]
      split <;> rfl
    · cases stepped
  | signal actor channel state =>
    cases stepped
    exact set actor rfl
  | completeFlush actor key channel error =>
    cases stepped
    refine set actor ?_
    simp only [Broker.completeFlush]
    split <;> rfl
  | _ => exact congrArg Prod.fst (step_frame rfl stepped session)

end Frames

end BlobStream.Write.Cluster
