import BlobStream.Types

/-!
# Bulk completions of the producer

One `produce` call owns a vector of result slots. Batches hold spans of these slots and fill them
with the batch's terminal result; the vector is delivered once the last pending slot is filled, or
when the last holder is dropped.
-/

namespace BlobStream.Producer

structure ProducerAck where
  topic : Topic
  virtualPartitionId : VirtualPartitionId
  attempts : Nat
deriving DecidableEq, Repr

inductive ProducerError
  | unknownTopic (topic : Topic)
  | noBrokersAvailable
  | retriesExhausted (message : String)
  | rejected (message : String)
  | shutdown
deriving DecidableEq, Repr

abbrev ProduceResult := Except ProducerError ProducerAck

instance : DecidableEq ProduceResult := fun left right =>
  match left, right with
  | .ok first, .ok second => decidable_of_iff (first = second) (by simp)
  | .error first, .error second => decidable_of_iff (first = second) (by simp)
  | .ok _, .error _ => isFalse (by simp)
  | .error _, .ok _ => isFalse (by simp)

abbrev BulkId := Nat

structure BulkCompletion where
  results : List (Option ProduceResult)
  remainingRecords : Nat
  /-- The result vector the caller received. -/
  delivered : Option (List ProduceResult) := none
deriving DecidableEq

/-- A contiguous range of one bulk call that receives the same terminal result. -/
structure BulkCompletionSpan where
  bulk : BulkId
  start : Nat
  stop : Nat
deriving DecidableEq, Repr

def BulkCompletionSpan.covers (span : BulkCompletionSpan) (bulk : BulkId) (slot : Nat) : Bool :=
  span.bulk = bulk && span.start ≤ slot && slot < span.stop

namespace BulkCompletion

def fill (results : List (Option ProduceResult)) (start stop : Nat) (result : ProduceResult) :
    List (Option ProduceResult) :=
  results.mapIdx fun slot before => if start ≤ slot ∧ slot < stop then some result else before

def complete (bulk : BulkCompletion) (start stop : Nat) (result : ProduceResult) :
    BulkCompletion :=
  -- A delivered vector has been moved out; there are no slots left to fill.
  if bulk.delivered.isSome then bulk
  else
    let results := fill bulk.results start stop result
    let remaining := bulk.remainingRecords - (stop - start)
    if 0 < remaining then { bulk with results := results, remainingRecords := remaining }
    else
      match results.mapM id with
      | some complete => { results := [], remainingRecords := 0, delivered := some complete }
      -- `expect`: an unfilled slot is a panic, and nothing is delivered.
      | none => { bulk with results := results, remainingRecords := 0 }

/-- `Drop`: every slot still pending reports shutdown. -/
def drop (bulk : BulkCompletion) : BulkCompletion :=
  if bulk.delivered.isSome then bulk
  else
    { results := []
      remainingRecords := bulk.remainingRecords
      delivered := some (bulk.results.map fun slot => slot.getD (.error .shutdown)) }

def OkAt (bulk : BulkCompletion) (slot : Nat) : Prop :=
  (∃ ack, bulk.results[slot]? = some (some (.ok ack)))
    ∨ ∃ delivered ack, bulk.delivered = some delivered ∧ delivered[slot]? = some (.ok ack)

variable {result : ProduceResult}

theorem fill_ok {results : List (Option ProduceResult)} {start stop slot : Nat} {ack : ProducerAck}
    (filled : (fill results start stop result)[slot]? = some (some (.ok ack))) :
    results[slot]? = some (some (.ok ack)) ∨ (start ≤ slot ∧ slot < stop ∧ result = .ok ack) := by
  simp only [fill, List.getElem?_mapIdx, Option.map_eq_some_iff] at filled
  obtain ⟨before, present, updated⟩ := filled
  split at updated
  next inside =>
    cases updated
    exact Or.inr ⟨inside.1, inside.2, rfl⟩
  next outside =>
    subst updated
    exact Or.inl present

theorem mapM_id_getElem? {slots : List (Option ProduceResult)} {values : List ProduceResult}
    (all : slots.mapM id = some values) (slot : Nat) {value : ProduceResult}
    (present : values[slot]? = some value) : slots[slot]? = some (some value) := by
  induction slots generalizing values slot with
  | nil =>
    cases all
    simp at present
  | cons first rest ih =>
    cases first with
    | none => simp at all
    | some head =>
      simp only [List.mapM_cons, id_eq, Option.pure_def, Option.bind_eq_bind,
        Option.bind_some, Option.bind_eq_some_iff, Option.some.injEq] at all
      obtain ⟨tail, allTail, rfl⟩ := all
      cases slot with
      | zero => simpa using present
      | succ slot => exact ih allTail slot (by simpa using present)

theorem complete_okAt {bulk : BulkCompletion} {start stop slot : Nat}
    (ok : (bulk.complete start stop result).OkAt slot) :
    bulk.OkAt slot ∨ (start ≤ slot ∧ slot < stop ∧ ∃ ack, result = .ok ack) := by
  unfold complete at ok
  split at ok
  · exact Or.inl ok
  next open_ =>
    have fresh : bulk.delivered = none := by simpa using open_
    have filled {ack : ProducerAck}
        (present : (fill bulk.results start stop result)[slot]? = some (some (.ok ack))) :
        bulk.OkAt slot ∨ (start ≤ slot ∧ slot < stop ∧ ∃ ack, result = .ok ack) := by
      rcases fill_ok present with before | ⟨above, below, same⟩
      · exact Or.inl (Or.inl ⟨ack, before⟩)
      · exact Or.inr ⟨above, below, ack, same⟩
    simp only at ok
    split at ok
    · rcases ok with ⟨ack, present⟩ | ⟨delivered, ack, sent, _⟩
      · exact filled present
      · rw [fresh] at sent
        cases sent
    · split at ok
      next values all =>
        rcases ok with ⟨ack, present⟩ | ⟨delivered, ack, sent, present⟩
        · simp at present
        · cases sent
          exact filled (mapM_id_getElem? all slot present)
      next =>
        rcases ok with ⟨ack, present⟩ | ⟨delivered, ack, sent, _⟩
        · exact filled present
        · rw [fresh] at sent
          cases sent

theorem drop_okAt {bulk : BulkCompletion} {slot : Nat} (ok : bulk.drop.OkAt slot) :
    bulk.OkAt slot := by
  unfold drop at ok
  split at ok
  · exact ok
  · rcases ok with ⟨ack, present⟩ | ⟨delivered, ack, sent, present⟩
    · simp at present
    · cases sent
      rw [List.getElem?_map, Option.map_eq_some_iff] at present
      obtain ⟨before, stored, same⟩ := present
      cases before with
      | none => cases same
      | some result =>
        cases same
        exact Or.inl ⟨ack, stored⟩

end BulkCompletion

/-! ### Spans of a batch -/

abbrev RecordCompletion := BulkId × Nat

/-- Extend the last span by a neighbouring slot of the same call, or open a new one. -/
def joinSlot (spans : List BulkCompletionSpan) (completion : RecordCompletion) :
    List BulkCompletionSpan :=
  match spans.getLast? with
  | some last =>
    if last.bulk = completion.1 ∧ last.stop = completion.2 then
      spans.dropLast ++ [{ last with stop := last.stop + 1 }]
    else spans ++ [⟨completion.1, completion.2, completion.2 + 1⟩]
  | none => [⟨completion.1, completion.2, completion.2 + 1⟩]

def completionSpans (completions : List RecordCompletion) : List BulkCompletionSpan :=
  completions.foldl joinSlot []

variable {bulk slot : Nat} {completion : RecordCompletion}

theorem covers_fresh
    (covered : (⟨completion.1, completion.2, completion.2 + 1⟩ : BulkCompletionSpan).covers bulk slot
      = true) : completion = (bulk, slot) := by
  simp only [BulkCompletionSpan.covers, Bool.and_eq_true, decide_eq_true_eq] at covered
  obtain ⟨⟨sameBulk, above⟩, below⟩ := covered
  exact Prod.ext sameBulk (by show completion.2 = slot; omega)

/-- Joining a slot covers nothing else that was not covered before. -/
theorem joinSlot_covers {spans : List BulkCompletionSpan}
    (covered : ∃ span ∈ joinSlot spans completion, span.covers bulk slot = true) :
    (∃ span ∈ spans, span.covers bulk slot = true) ∨ completion = (bulk, slot) := by
  obtain ⟨span, member, inside⟩ := covered
  unfold joinSlot at member
  split at member
  next last ends =>
    have lastMember : last ∈ spans := List.mem_of_getLast? ends
    split at member
    next joins =>
      rcases List.mem_append.mp member with earlier | extended
      · exact Or.inl ⟨span, (List.dropLast_sublist spans).subset earlier, inside⟩
      · rw [List.mem_singleton.mp extended] at inside
        simp only [BulkCompletionSpan.covers, Bool.and_eq_true, decide_eq_true_eq] at inside
        obtain ⟨⟨sameBulk, above⟩, below⟩ := inside
        by_cases before : slot < last.stop
        · refine Or.inl ⟨last, lastMember, ?_⟩
          simp [BulkCompletionSpan.covers, sameBulk, above, before]
        · refine Or.inr (Prod.ext (joins.1.symm.trans sameBulk) ?_)
          show completion.2 = slot
          omega
    next =>
      rcases List.mem_append.mp member with earlier | fresh
      · exact Or.inl ⟨span, earlier, inside⟩
      · rw [List.mem_singleton.mp fresh] at inside
        exact Or.inr (covers_fresh inside)
  next =>
    rw [List.mem_singleton.mp member] at inside
    exact Or.inr (covers_fresh inside)

/-- The spans of a batch only cover slots of its own records. -/
theorem completionSpans_covers {completions : List RecordCompletion}
    (covered : ∃ span ∈ completionSpans completions, span.covers bulk slot = true) :
    (bulk, slot) ∈ completions := by
  have joined : ∀ (rest : List RecordCompletion) (spans : List BulkCompletionSpan),
      (∃ span ∈ rest.foldl joinSlot spans, span.covers bulk slot = true) →
      (∃ span ∈ spans, span.covers bulk slot = true) ∨ (bulk, slot) ∈ rest := by
    intro rest
    induction rest with
    | nil => exact fun spans before => Or.inl before
    | cons completion rest ih =>
      intro spans after
      rcases ih (joinSlot spans completion) after with before | later
      · rcases joinSlot_covers before with earlier | same
        · exact Or.inl earlier
        · exact Or.inr (same ▸ List.mem_cons_self)
      · exact Or.inr (List.mem_cons_of_mem completion later)
  rcases joined completions [] covered with ⟨span, member, _⟩ | present
  · simp at member
  · exact present

end BlobStream.Producer
