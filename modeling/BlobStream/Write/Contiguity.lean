import BlobStream.Write.Merge
import BlobStream.Write.ViewShape

/-!
# Contiguous partition buffers

The batches buffered for one partition have consecutive sequence ranges as long as no batch follows
the largest number and no applied transition moves the next number while it keeps buffered batches. A
reservation whose response was lost leaves a gap, and an expired lease resets the allocator even when
its fence turns out to be unchanged.
-/

namespace BlobStream.Write.Cluster

open Word ProducerLeases

/-- Finishing leaves the allocator at the same next sequence number. -/
def keepsNextSeq (allocator : SeqAllocator) (resets : Bool) : Option SeqRange → Bool
  | none => !resets
  | some range =>
    range.start = allocator.nextSeq
      || (!resets && allocator.reservation.any fun held => SeqAllocator.adjacent held range)

/-- Conditions under which partition buffers stay contiguous. -/
def contiguityContract : Contract where
  produce _ _ _ state :=
    state.buffer.batches.getLast?.all fun last => last.seqRange.end < u64Max
  finish state assignmentIsCurrent inFlight response :=
    let arguments := Broker.finishArguments inFlight.work inFlight.origin response
    !assignmentIsCurrent
      || state.buffer.batches.isEmpty
      || PartitionState.discardsBuffer state.leaseFence arguments.update arguments.lease
      || keepsNextSeq state.seqAllocator
        (PartitionState.resetsAllocation inFlight.work.leaseWasExpired arguments.update)
        arguments.reservation

variable {allocator : SeqAllocator}

theorem finishedAllocator_nextSeq {resetOnFinish : Bool} {update : LeaseExpirationUpdate}
    {reservation : Option SeqRange}
    (keeps : keepsNextSeq allocator (PartitionState.resetsAllocation resetOnFinish update)
      reservation = true) :
    (PartitionState.finishedAllocator allocator resetOnFinish update reservation).nextSeq
      = allocator.nextSeq := by
  unfold PartitionState.finishedAllocator
  cases resets : PartitionState.resetsAllocation resetOnFinish update with
  | true =>
    rw [resets] at keeps
    cases reservation with
    | none => cases keeps
    | some range =>
      simp only [keepsNextSeq, Bool.not_true, Bool.false_and, Bool.or_false,
        decide_eq_true_eq] at keeps
      exact keeps
  | false =>
    rw [resets] at keeps
    cases reservation with
    | none => rfl
    | some range =>
      simp only [keepsNextSeq, Bool.not_false, Bool.true_and, Bool.or_eq_true,
        decide_eq_true_eq] at keeps
      simp only [Bool.false_eq_true, if_false]
      unfold SeqAllocator.installOrExtendReservation
      split
      next absent =>
        rcases keeps with same | adjacent
        · exact same
        · simp [absent] at adjacent
      next held present =>
        split
        · rfl
        next apart =>
          rcases keeps with same | adjacent
          · exact same
          · simp [present, apart] at adjacent

/-- The buffer is contiguous and the allocator continues it. -/
structure BufferSound (state : PartitionState) : Prop where
  consecutive : Consecutive state.buffer.batches
  bounded : ∀ batch ∈ state.buffer.batches,
    batch.seqRange.start ≤ batch.seqRange.end ∧ batch.seqRange.end ≤ u64Max
  next : ∀ last, state.buffer.batches.getLast? = some last →
    state.seqAllocator.nextSeq = saturatingAdd u64Max last.seqRange.end 1

variable {state : PartitionState}

theorem BufferSound.of_empty (empty : state.buffer.batches = []) : BufferSound state := by
  refine ⟨?_, ?_, ?_⟩ <;> simp [empty, Consecutive]

theorem BufferSound.congr {state next : PartitionState} (sound : BufferSound state)
    (buffer : next.buffer = state.buffer)
    (nextSeq : next.seqAllocator.nextSeq = state.seqAllocator.nextSeq) : BufferSound next := by
  refine ⟨?_, ?_, ?_⟩
  · rw [buffer]
    exact sound.consecutive
  · rw [buffer]
    exact sound.bounded
  · rw [buffer, nextSeq]
    exact sound.next

theorem BufferSound.accept (sound : BufferSound state) {batch : ProduceBatch} {now : Int}
    {range : SeqRange}
    (room : state.buffer.batches.getLast?.all (fun last => last.seqRange.end < u64Max) = true)
    (allocated : state.seqAllocator.allocate batch.records.length = some (range, allocator)) :
    BufferSound (state.accept allocator range batch now) := by
  obtain ⟨reservation, -, -, -, bounded, rangeEq, rfl⟩ := SeqAllocator.allocate_eq_some allocated
  refine ⟨?_, ?_, ?_⟩
  · refine List.isChain_append.mpr ⟨sound.consecutive, List.isChain_singleton _, ?_⟩
    intro last member first starts
    have tail := sound.next last (Option.mem_def.mp member)
    rw [Option.mem_def.mp member] at room
    simp only [Option.all_some, decide_eq_true_eq] at room
    cases starts
    show range.start = last.seqRange.end + 1
    rw [rangeEq]
    show state.seqAllocator.nextSeq = last.seqRange.end + 1
    rw [tail, saturatingAdd_of_le (by omega)]
  · intro each member
    rcases List.mem_append.mp member with before | added
    · exact sound.bounded each before
    · rw [List.mem_singleton.mp added]
      refine ⟨?_, bounded⟩
      rw [rangeEq]
      exact Nat.le_add_right _ _
  · intro last ends
    have appended : last.seqRange = range := by
      simp only [PartitionState.accept, BufferState.push_batches, List.getLast?_append,
        List.getLast?_singleton, Option.some_or, Option.some.injEq] at ends
      rw [← ends]
    rw [appended]
    rfl

section Step

variable {config : BrokerConfig} {session : String} {key : PartitionKey} {clock : Int}
variable {row nextRow : Option LeaseState} {view next : View} {emitted : List SeqRange}

theorem bufferSound_finish (sound : BufferSound view.partition) (inFlight : InFlight)
    (response : StoreResponse)
    (meets : contiguityContract.finish view.partition (view.isCurrent inFlight.work) inFlight
      response) :
    BufferSound ((view.state.map (view.finished inFlight response)).getD {}) := by
  rcases view.map_partition (view.finished inFlight response) with same | same
  · rw [same]
    exact sound
  · rw [same]
    cases current : view.isCurrent inFlight.work with
    | false =>
      rw [View.finished_stale response _ current]
      exact sound.congr rfl rfl
    | true =>
      have buffer := View.finished_buffer response view.partition current
      have allocator := View.finished_seqAllocator response view.partition current
      simp only [contiguityContract, current, Bool.not_true, Bool.false_or, Bool.or_eq_true,
        List.isEmpty_iff] at meets
      split at buffer
      next discarded => exact .of_empty (by rw [buffer])
      next kept =>
        rcases meets with (empty | discarded) | keeps
        · exact .of_empty (by rw [buffer]; exact empty)
        · exact absurd discarded kept
        · refine sound.congr buffer ?_
          rw [allocator]
          exact finishedAllocator_nextSeq keeps

theorem bufferSound_local (shape : ViewShape view) (sound : BufferSound view.partition)
    (did : LocalStep contiguityContract config session key clock view row next nextRow emitted) :
    BufferSound next.partition := by
  cases did with
  | @produce batch now read summarized assigned meets =>
    rcases view.partition.produceFastPath_cases batch now with
      ⟨range, allocator, took, -, -, -, allocated⟩ | ⟨-, kept⟩
    · show BufferSound (view.partition.produceFastPath batch now).2
      rw [took]
      exact sound.accept meets allocated
    · show BufferSound (view.partition.produceFastPath batch now).2
      rw [kept]
      exact sound
  | @claim generation recordCount now origin read assigned meets =>
    rcases view.claim_cases config key generation recordCount now origin with
      ⟨work, next, -, -, spec, claimed⟩ | ⟨target, claimed⟩
    · rw [claimed]
      obtain ⟨target, rfl⟩ := spec.changed
      exact sound.congr rfl rfl
    · rw [claimed]
      exact sound.congr rfl rfl
  | readClock owned => exact sound
  | callStore owned meets => exact sound
  | failCall owned => exact sound
  | finish owned answered meets => exact bufferSound_finish sound _ _ meets
  | dropOwner owned =>
    show BufferSound ((view.state.map PartitionState.endAllocation).getD {})
    rcases view.map_partition PartitionState.endAllocation with same | same <;> rw [same]
    · exact sound
    · exact sound.congr rfl rfl
  | refresh kept opened excluded => exact sound
  | startRelease | applyHeartbeat | beginShutdownDrain | resumeAdmission =>
    show BufferSound ((view.state.map _).getD {})
    rcases view.map_partition _ with same | same <;> rw [same]
    · exact sound
    · exact sound.congr rfl rfl
  | drainHeartbeat read phase => exact sound
  | finishDrain phase drained => exact sound
  | callRelease read phase reached => exact sound
  | clearReleased phase =>
    -- The allocator is reset, but the release task only got here with an empty buffer.
    exact .of_empty (View.cleared_batches (shape.drained _ phase rfl).2)
  | completeRelease phase => exact sound
  | takeFlush present meets =>
    exact .of_empty (congrArg BufferState.batches (takeFlushPartition_buffer _ _ _ _ _))
  | completeFlush present meets =>
    rw [View.partition_of_some present] at sound
    exact sound.congr rfl rfl

end Step

/-! ### Whole runs -/

section Runs

variable {config : String → BrokerConfig}

/-- In every run that meets `contiguityContract`, the buffer of every partition holds consecutive
ranges, so the partition a flush collects from it is never rejected for a gap. -/
theorem buffers_contiguous (config : String → BrokerConfig) (clock : Int) {world : World}
    (reached : Machine.Reachable (step config) contiguityContract.allows { clock := clock } world)
    (session : String) (key : PartitionKey) (state : PartitionState)
    (present : (world.brokers session).write.partitions key = some state) :
    Consecutive state.buffer.batches
      ∧ ∀ trigger requireFence channel flush error,
        (takeFlushPartition state key.virtualPartitionId trigger requireFence channel).flush
          = some flush →
        mergePartitionBatches flush = .error error → error.rejectsGap = false := by
  have initial : (fun world : World => BufferSound ((world.brokers session).view key).partition)
      { clock := clock } := .of_empty rfl
  have own := reached.invariant_under (fun _ earlier => reachable_shape earlier) initial
    fun before action after shape sound meets stepped =>
      step_view (fun view next => ViewShape view → BufferSound view.partition →
        BufferSound next.partition) shape.keyed meets stepped session key (fun _ _ => id)
        (fun did shape sound => bufferSound_local shape sound did) (shape.views key session) sound
  have here : ((world.brokers session).view key).partition = state := View.partition_of_some present
  rw [here] at own
  refine ⟨own.consecutive, fun _ _ _ _ _ taken failed => ?_⟩
  have batches := (takeFlushPartition_some taken).2.1
  refine mergePartitionBatches_consecutive (batches ▸ own.consecutive) (fun batch member => ?_) failed
  have := own.bounded batch (batches ▸ member)
  omega

end Runs

/-! ### Runs outside the contract -/

/-- A reservation that took effect but whose owner was cancelled leaves a gap: the next one is not
adjacent and the allocator jumps to it while earlier batches are still buffered. -/
def lostReservation : List Action :=
  .refreshAssignment "a" {orders} :: maintain "a" 0
    ++ [.produce "a" (emptyRecords 5) 0,
      .claim "a" orders 8 0, .callStore "a" orders, .dropOwner "a" orders,
      .claim "a" orders 8 0, .callStore "a" orders, .finish "a" orders,
      .produce "a" (emptyRecords 8) 0]

def appliedReservation : List Action :=
  .refreshAssignment "a" {orders} :: maintain "a" 0
    ++ [.produce "a" (emptyRecords 5) 0,
      .claim "a" orders 8 0, .callStore "a" orders, .finish "a" orders,
      .produce "a" (emptyRecords 8) 0]

def bufferedRanges (world : World) : List SeqRange :=
  ((world.brokers "a").write.partitionState orders).buffer.batches.map BufferedBatch.seqRange

def collectedMerge (world : World) : Option (Except MergeError MergedPartition) :=
  (takeFlushPartition ((world.brokers "a").write.partitionState orders) orders.virtualPartitionId
    .maxBytes true 0).flush.map mergePartitionBatches

/-- Without the contract a buffer has a gap, and merging it fails. -/
theorem buffers_with_gap :
    ¬ ∀ (config : String → BrokerConfig) (clock : Int) (world : World),
      Machine.Reachable (step config) Machine.anyAction { clock := clock } world →
      ∀ session key state, (world.brokers session).write.partitions key = some state →
        Consecutive state.buffer.batches
          ∧ ∀ trigger requireFence channel flush error,
            (takeFlushPartition state key.virtualPartitionId trigger requireFence channel).flush
              = some flush →
            mergePartitionBatches flush = .error error → error.rejectsGap = false := by
  intro contiguous
  have observed : (Machine.run (step shortLeases) { clock := 0 } lostReservation).map
      (fun world => (bufferedRanges world, collectedMerge world,
        ((world.brokers "a").write.partitions orders).isSome))
      = some ([⟨0, 4⟩, ⟨30, 37⟩], some (.error (.noncontiguous 0 5 30)), true) := by decide
  obtain ⟨world, executed, facts⟩ := Option.map_eq_some_iff.mp observed
  simp only [Prod.mk.injEq] at facts
  obtain ⟨-, merged, present⟩ := facts
  obtain ⟨state, stored⟩ := Option.isSome_iff_exists.mp present
  obtain ⟨flush, taken, failed⟩ := Option.map_eq_some_iff.mp merged
  rw [WriteState.partitionState, stored] at taken
  have rejected := (contiguous shortLeases 0 world
    (Machine.reachable_of_run (Machine.runAllowed_anyAction _ _ _) executed) "a" orders state
      stored).2
      _ _ _ flush _ taken failed
  cases rejected

/-- A run that applies each reservation in turn meets the contract. -/
theorem buffers_contiguous_applied :
    ∃ world, Machine.Reachable (step shortLeases) contiguityContract.allows { clock := 0 } world
      ∧ bufferedRanges world = [⟨0, 4⟩, ⟨5, 12⟩]
      ∧ ∃ state, (world.brokers "a").write.partitions orders = some state
        ∧ Consecutive state.buffer.batches := by
  have allowed : Machine.RunAllowed (step shortLeases) contiguityContract.allows { clock := 0 }
      appliedReservation := by decide
  have observed : (Machine.run (step shortLeases) { clock := 0 } appliedReservation).map
      (fun world => (bufferedRanges world, ((world.brokers "a").write.partitions orders).isSome))
      = some ([⟨0, 4⟩, ⟨5, 12⟩], true) := by decide
  obtain ⟨world, executed, facts⟩ := Option.map_eq_some_iff.mp observed
  simp only [Prod.mk.injEq] at facts
  obtain ⟨ranges, present⟩ := facts
  obtain ⟨state, stored⟩ := Option.isSome_iff_exists.mp present
  have reached := Machine.reachable_of_run allowed executed
  exact ⟨world, reached, ranges, state, stored,
    (buffers_contiguous shortLeases 0 reached "a" orders state stored).1⟩

end BlobStream.Write.Cluster
