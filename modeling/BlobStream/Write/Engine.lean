import BlobStream.Write.Allocation

/-!
# The produce fast path

One pass of the `produce_batch` loop under the state mutex: it either appends the batch with freshly
allocated sequence numbers, or asks for an allocation transition.
-/

namespace BlobStream.Write

open Word

inductive WriteError
  | notLeaseHolder (key : PartitionKey)
  | overloaded (message : String)
deriving DecidableEq, Repr

/-- A validated produce request: its records, their summary and the acknowledgement sender. -/
structure ProduceBatch where
  key : PartitionKey
  records : List Record
  summary : BatchSummary
  completion : FlushCompletion
deriving DecidableEq, Repr

/-- `some range` when the batch was buffered, `none` when a transition is needed first. -/
abbrev FastPathResult := Except WriteError (Option SeqRange)

namespace PartitionState

/-- Buffer the batch at the range it was allocated, accepted under the current fence. -/
def accept (state : PartitionState) (allocator : SeqAllocator) (range : SeqRange)
    (batch : ProduceBatch) (now : Int) : PartitionState :=
  { state with
    seqAllocator := allocator
    recordsAllocatedSinceLeaseMaintenance :=
      saturatingAdd u64Max state.recordsAllocatedSinceLeaseMaintenance batch.records.length
    buffer := state.buffer.push
      { records := batch.records
        summary := batch.summary
        seqRange := range
        acceptanceFence := state.leaseFence
        completion := some batch.completion }
      now }

def produceFastPath (state : PartitionState) (batch : ProduceBatch) (now : Int) :
    FastPathResult × PartitionState :=
  if state.draining then (.error (.notLeaseHolder batch.key), state)
  else if state.allocationInFlight || state.needsLease now
      || !state.seqAllocator.canAllocate batch.records.length then
    (.ok none, state)
  else match state.seqAllocator.allocate batch.records.length with
    | none => (.error (.overloaded "sequence reservation exhausted"), state)
    | some (range, allocator) => (.ok (some range), state.accept allocator range batch now)

/-- A fast path that buffers the batch found an idle partition with a valid lease and room in its
reservation; any other leaves the partition alone. -/
theorem produceFastPath_cases (state : PartitionState) (batch : ProduceBatch) (now : Int) :
    (∃ range allocator, state.produceFastPath batch now
        = (.ok (some range), state.accept allocator range batch now)
      ∧ state.draining = false ∧ state.allocationInFlight = false ∧ state.needsLease now = false
      ∧ state.seqAllocator.allocate batch.records.length = some (range, allocator))
    ∨ ((∀ range, (state.produceFastPath batch now).1 ≠ .ok (some range))
      ∧ (state.produceFastPath batch now).2 = state) := by
  unfold produceFastPath
  split
  · exact Or.inr ⟨by simp, rfl⟩
  next admitted =>
    split
    · exact Or.inr ⟨by simp, rfl⟩
    next open_ =>
      simp only [Bool.or_eq_true, not_or, Bool.not_eq_true, Bool.not_eq_true',
        Bool.not_eq_false] at open_
      split
      · exact Or.inr ⟨by simp, rfl⟩
      next range allocator allocated =>
        exact Or.inl ⟨range, allocator, rfl, by simpa using admitted, open_.1.1, open_.1.2,
          allocated⟩

end PartitionState

def produceFastPath (state : WriteState) (batch : ProduceBatch) (now : Int) :
    FastPathResult × WriteState :=
  match state.assignmentGenerationForPartition batch.key with
  | none => (.error (.notLeaseHolder batch.key), state)
  | some _ =>
    let (result, partition) := (state.partitionState batch.key).produceFastPath batch now
    (result, state.setPartition batch.key (some partition))

end BlobStream.Write
