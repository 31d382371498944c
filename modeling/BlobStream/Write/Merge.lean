import BlobStream.Write.Buffer

/-!
# Merging the batches of one flush epoch

A flush epoch publishes the batches of a partition as one segment with one sequence range, so the
ranges of the batches have to be consecutive. Merging checks this and fails the flush plan on a gap.
-/

namespace BlobStream.Write

open Word

inductive MergeError
  | noBufferedBatches (virtualPartitionId : VirtualPartitionId)
  | rangeEndsAtMax
  | noncontiguous (virtualPartitionId : VirtualPartitionId) (expectedStart found : Nat)
  | recordCountOverflow
  | payloadBytesOverflow
deriving DecidableEq, Repr

def MergeError.message : MergeError → String
  | .noBufferedBatches partition =>
    "flush partition " ++ toString partition ++ " has no buffered batches"
  | .rangeEndsAtMax => "sequence range ends at u64::MAX"
  | .noncontiguous partition expectedStart found =>
    "flush partition " ++ toString partition ++ " has noncontiguous ranges: expected start "
      ++ toString expectedStart ++ ", found " ++ toString found
  | .recordCountOverflow => "merged record count exceeds u32"
  | .payloadBytesOverflow => "merged payload bytes exceed u64"

/-- The error says that no batch can follow the ranges merged so far at its start. -/
def MergeError.rejectsGap : MergeError → Bool
  | .rangeEndsAtMax | .noncontiguous _ _ _ => true
  | _ => false

structure MergedPartition where
  records : List Record
  summary : BatchSummary
  seqRange : SeqRange
deriving DecidableEq, Repr

def mergeBatch (virtualPartitionId : VirtualPartitionId) (merged : MergedPartition)
    (batch : BufferedBatch) : Except MergeError MergedPartition :=
  match checkedAdd u64Max merged.seqRange.end 1 with
  | none => .error .rangeEndsAtMax
  | some expectedStart =>
    if batch.seqRange.start ≠ expectedStart then
      .error (.noncontiguous virtualPartitionId expectedStart batch.seqRange.start)
    else match checkedAdd u32Max merged.summary.recordCount batch.summary.recordCount with
      | none => .error .recordCountOverflow
      | some recordCount =>
        match checkedAdd u64Max merged.summary.payloadBytes batch.summary.payloadBytes with
        | none => .error .payloadBytesOverflow
        | some payloadBytes =>
          .ok
            { records := merged.records ++ batch.records
              summary := ⟨recordCount, payloadBytes⟩
              seqRange := ⟨merged.seqRange.start, batch.seqRange.end⟩ }

def mergePartitionBatches (partition : FlushPartition) : Except MergeError MergedPartition :=
  match partition.batches with
  | [] => .error (.noBufferedBatches partition.virtualPartitionId)
  | first :: rest =>
    rest.foldlM (mergeBatch partition.virtualPartitionId)
      { records := first.records, summary := first.summary, seqRange := first.seqRange }

/-! ### Consecutive batches -/

/-- Each batch starts right after the previous one. -/
def Consecutive (batches : List BufferedBatch) : Prop :=
  batches.IsChain fun earlier later => later.seqRange.start = earlier.seqRange.end + 1

instance (batches : List BufferedBatch) : Decidable (Consecutive batches) :=
  inferInstanceAs (Decidable (List.IsChain _ batches))

section Merge

variable {virtualPartitionId : VirtualPartitionId} {merged next : MergedPartition}
variable {batch : BufferedBatch} {error : MergeError}

theorem mergeBatch_ok (added : mergeBatch virtualPartitionId merged batch = .ok next) :
    batch.seqRange.start = merged.seqRange.end + 1 ∧ next.records = merged.records ++ batch.records
      ∧ next.seqRange = ⟨merged.seqRange.start, batch.seqRange.end⟩ := by
  unfold mergeBatch at added
  split at added
  · cases added
  next expected starts =>
    split at added
    · cases added
    next same =>
      split at added
      · cases added
      · split at added
        · cases added
        · cases added
          have := (checkedAdd_eq_some.mp starts).1
          exact ⟨by omega, rfl, rfl⟩

theorem mergeBatch_continues (continues : batch.seqRange.start = merged.seqRange.end + 1)
    (bounded : batch.seqRange.start ≤ u64Max)
    (failed : mergeBatch virtualPartitionId merged batch = .error error) :
    error.rejectsGap = false := by
  have starts : checkedAdd u64Max merged.seqRange.end 1 = some batch.seqRange.start :=
    checkedAdd_eq_some.mpr ⟨continues.symm, bounded⟩
  simp only [mergeBatch, starts, ne_eq, not_true_eq_false, if_false] at failed
  split at failed
  · cases failed
    rfl
  · split at failed
    · cases failed
      rfl
    · cases failed

theorem mergeLoop_continues {rest : List BufferedBatch} :
    ∀ {merged : MergedPartition} {last : BufferedBatch}, merged.seqRange.end = last.seqRange.end →
      Consecutive (last :: rest) → (∀ batch ∈ rest, batch.seqRange.start ≤ u64Max) →
      rest.foldlM (mergeBatch virtualPartitionId) merged = .error error →
      error.rejectsGap = false := by
  induction rest with
  | nil =>
    intro merged last _ _ _ failed
    cases failed
  | cons batch rest ih =>
    intro merged last ends consecutive bounded failed
    obtain ⟨continues, later⟩ := List.isChain_cons_cons.mp consecutive
    have inBounds := bounded batch List.mem_cons_self
    rw [List.foldlM_cons] at failed
    cases turn : mergeBatch virtualPartitionId merged batch with
    | error first =>
      rw [turn] at failed
      cases failed
      exact mergeBatch_continues (by omega) inBounds turn
    | ok next =>
      rw [turn] at failed
      obtain ⟨-, -, range⟩ := mergeBatch_ok turn
      refine ih ?_ later (fun each member => bounded each (List.mem_cons_of_mem batch member)) failed
      rw [range]

theorem mergePartitionBatches_consecutive {partition : FlushPartition}
    (consecutive : Consecutive partition.batches)
    (bounded : ∀ batch ∈ partition.batches, batch.seqRange.start ≤ u64Max)
    (failed : mergePartitionBatches partition = .error error) : error.rejectsGap = false := by
  unfold mergePartitionBatches at failed
  split at failed
  · cases failed
    rfl
  next first rest batches =>
    rw [batches] at consecutive bounded
    exact mergeLoop_continues rfl consecutive
      (fun each member => bounded each (List.mem_cons_of_mem first member)) failed

end Merge

end BlobStream.Write
