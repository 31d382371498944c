import BlobStream.Write.State

/-!
# Flush epochs of one partition

Taking a partition's buffer opens a flush epoch: it replaces the partition's publication tail by a
fresh watch channel and remembers the old tail as the epoch's predecessor.
-/

namespace BlobStream.Write

open ProducerLeases (ProducerLeaseFence)

abbrev Publications := PublicationChannel → FlushPublicationState

def tailFailed (publications : Publications) : Option PublicationChannel → Bool
  | none => false
  | some channel =>
    match publications channel with
    | .completed (.failed _) => true
    | _ => false

/-- The tail's epoch has not assigned its segment identities yet. -/
def tailPending (publications : Publications) : Option PublicationChannel → Bool
  | none => false
  | some channel => publications channel = .pending

/-- What `take_flush_partition` returns: the epoch, if one was opened, and the senders of batches
that were dropped for want of a common fence. -/
structure TakenFlush where
  flush : Option FlushPartition
  state : PartitionState
  fenceLost : List FlushCompletion

def takeFlushPartition (state : PartitionState) (virtualPartitionId : VirtualPartitionId)
    (trigger : FlushTrigger) (requireFence : Bool) (channel : PublicationChannel) : TakenFlush :=
  let emptied := { state with buffer := {} }
  match state.buffer.batches with
  | [] => ⟨none, emptied, []⟩
  | first :: rest =>
    let leaseFence := first.acceptanceFence
    let matchingFences := (first :: rest).all fun batch => batch.acceptanceFence = leaseFence
    if requireFence && (leaseFence.isNone || !matchingFences) then
      ⟨none, emptied, state.buffer.completions⟩
    else
      ⟨some
        { virtualPartitionId := virtualPartitionId
          leaseFence := leaseFence
          batches := first :: rest
          trigger := trigger
          publicationPredecessor := state.publicationTail
          publicationState := channel },
        { emptied with
          publicationTail := some channel
          outstandingFlushes := state.outstandingFlushes + 1 },
        []⟩

/-- The update of one partition in `mark_flush_complete`, after its channel has been completed. -/
def PartitionState.flushCompleted (state : PartitionState) (publications : Publications) :
    PartitionState :=
  { state with
    outstandingFlushes := state.outstandingFlushes - 1
    publicationTail :=
      if tailFailed publications state.publicationTail then none else state.publicationTail }

theorem takeFlushPartition_buffer (state : PartitionState) (virtualPartitionId : VirtualPartitionId)
    (trigger : FlushTrigger) (requireFence : Bool) (channel : PublicationChannel) :
    (takeFlushPartition state virtualPartitionId trigger requireFence channel).state.buffer = {} := by
  unfold takeFlushPartition
  split
  · rfl
  · simp only
    split <;> rfl

theorem takeFlushPartition_seqAllocator (state : PartitionState)
    (virtualPartitionId : VirtualPartitionId) (trigger : FlushTrigger) (requireFence : Bool)
    (channel : PublicationChannel) :
    (takeFlushPartition state virtualPartitionId trigger requireFence channel).state.seqAllocator
      = state.seqAllocator := by
  unfold takeFlushPartition
  split
  · rfl
  · simp only
    split <;> rfl

/-- An opened epoch carries exactly the buffered batches, and drops no sender. -/
theorem takeFlushPartition_some {state : PartitionState} {virtualPartitionId : VirtualPartitionId}
    {trigger : FlushTrigger} {requireFence : Bool} {channel : PublicationChannel}
    {flush : FlushPartition}
    (taken : (takeFlushPartition state virtualPartitionId trigger requireFence channel).flush
      = some flush) :
    flush.virtualPartitionId = virtualPartitionId ∧ flush.batches = state.buffer.batches
      ∧ (takeFlushPartition state virtualPartitionId trigger requireFence channel).fenceLost = [] := by
  unfold takeFlushPartition at taken ⊢
  split at taken
  · simp at taken
  next first rest batches =>
    simp only at taken ⊢
    split at taken
    · simp at taken
    next fenced =>
      cases taken
      exact ⟨rfl, batches.symm, by rw [if_neg fenced]⟩

end BlobStream.Write
