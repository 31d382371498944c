import BlobStream.Consumer.Delivery

/-!
# Batch delivery equals repeated single delivery

`tryTakeBatch` takes records in runs and updates ranges, counters and gap baselines once for each run;
`tryTakeNextInner` does so for each record. Here a run is followed record by record.
-/

namespace BlobStream.Consumer.DeliveryState

open Word
open Write (Record)
open Payload (payloadLen)

variable {R : Type} [Payload R]

/-! ### Successive single takes -/

def takeNext (gathered : Gathered R) : Option (Gathered R) :=
  match gathered.delivery.tryTakeNextInner gathered.active with
  | (delivery, active, some ⟨.record record, gap⟩) =>
    some ⟨delivery, active, gathered.records ++ [record], gathered.gaps ++ gap.toList⟩
  | _ => none

def takeNexts : Nat → Gathered R → Option (Gathered R)
  | 0, gathered => some gathered
  | count + 1, gathered => (takeNexts count gathered).bind takeNext

/-- The two have handed out the same, and what they leave is the same once exhausted and inactive
batches at the front are discarded. -/
structure Alike (batch singles : Gathered R) : Prop where
  records : batch.records = singles.records
  gaps : batch.gaps = singles.gaps
  active : batch.active = singles.active
  delivery : batch.delivery.prepareCurrentBatch batch.active
    = singles.delivery.prepareCurrentBatch singles.active

/-- Offsets of held records lie below the largest one, and the byte counter fits its type. -/
structure Bounded (delivery : DeliveryState R) : Prop where
  offsets : delivery.AllHeld fun _ _ offset records =>
    ∀ index < records.length, offset + index < u64Max
  bytes : ∀ batch ∈ delivery.held, batch.remainingPayloadBytes ≤ u64Max

theorem takeNexts_add (first second : Nat) (gathered : Gathered R) :
    takeNexts (first + second) gathered = (takeNexts first gathered).bind (takeNexts second) := by
  induction second with
  | zero => simp [takeNexts]
  | succ second ih =>
    show (takeNexts (first + second) gathered).bind takeNext = _
    rw [ih, Option.bind_assoc]
    rfl

/-! ### Discarding -/

theorem prepareCurrentBatch_idem (active : ActivePartitions) (delivery : DeliveryState R) :
    (delivery.prepareCurrentBatch active).1.prepareCurrentBatch active
      = delivery.prepareCurrentBatch active := by
  unfold prepareCurrentBatch
  generalize delivery.currentBatch = current, delivery.bufferedBytes = bytes
  induction delivery.batches generalizing current bytes with
  | nil => by_cases ready : current.any (deliverable active) <;> simp [prepareFrom, ready]
  | cons first rest ih =>
    by_cases ready : current.any (deliverable active)
    · simp [prepareFrom, ready]
    · rw [prepareFrom, if_neg ready]
      exact ih _ _

/-- The records that can still be handed out, in their order. -/
def remaining (active : ActivePartitions) (current : Option (BufferedBatch R))
    (batches : List (ConsumerBatch R)) : List R :=
  (current.filter (·.virtualPartitionId ∈ active)).elim [] BufferedBatch.records
    ++ (batches.filter (·.virtualPartitionId ∈ active)).flatMap (·.records)

theorem remaining_prepareFrom (active : ActivePartitions) (delivery : DeliveryState R)
    (current : Option (BufferedBatch R)) (bytes : Nat) (batches : List (ConsumerBatch R)) :
    let prepared := (delivery.prepareFrom active current bytes batches).1
    remaining active prepared.currentBatch prepared.batches = remaining active current batches := by
  have exhausted : ∀ current : Option (BufferedBatch R), ¬ current.any (deliverable active) →
      (current.filter (·.virtualPartitionId ∈ active)).elim [] BufferedBatch.records = [] := by
    intro current unready
    cases current with
    | none => rfl
    | some batch =>
      simp only [Option.any_some, deliverable, Bool.and_eq_true, decide_eq_true_eq, not_and,
        Bool.not_eq_true', List.isEmpty_eq_false_iff, not_not] at unready
      by_cases member : batch.virtualPartitionId ∈ active <;> simp [Option.filter, member, unready]
  induction batches generalizing current bytes with
  | nil =>
    by_cases ready : current.any (deliverable active)
    · simp [prepareFrom, ready]
    · simp [prepareFrom, ready, remaining, exhausted current ready]
  | cons first rest ih =>
    by_cases ready : current.any (deliverable active)
    · simp [prepareFrom, ready]
    · rw [prepareFrom, if_neg ready]
      refine (ih _ _).trans ?_
      unfold remaining
      rw [exhausted current ready]
      by_cases member : first.virtualPartitionId ∈ active <;>
        simp [Option.filter, member, ConsumerBatch.buffered]

variable {delivery : DeliveryState R}

theorem Bounded.prepare (bounded : delivery.Bounded) (active : ActivePartitions) :
    (delivery.prepareCurrentBatch active).1.Bounded := by
  have fewer := (prepareFrom_spec active delivery delivery.currentBatch delivery.bufferedBytes
    delivery.batches).1
  exact ⟨fun batch member => bounded.offsets batch (fewer batch member),
    fun batch member => bounded.bytes batch (fewer batch member)⟩

/-! ### A run, record by record -/

variable {current : BufferedBatch R} {state : ActivePartitionState}

/-- A single take with a current batch to take from. -/
theorem takeNext_of_ready {gathered : Gathered R} {record : R} {rest : List R}
    (unrevoked : gathered.delivery.pendingRevocation = none)
    (idle : gathered.delivery.revocationInProgress = false)
    (prepared : gathered.delivery.prepareCurrentBatch gathered.active = (delivery, true))
    (isCurrent : delivery.currentBatch = some current) (records : current.records = record :: rest)
    (found : gathered.active.lookup current.virtualPartitionId = some state) :
    takeNext gathered = some
      { delivery := { delivery with
          currentBatch := some { current with
            records := rest
            remainingPayloadBytes := current.remainingPayloadBytes - payloadLen record
            nextOffset := saturatingAdd u64Max current.nextOffset 1 } }
        active := gathered.active.insert current.virtualPartitionId
          ((state.recordDeliveryOffset current current.nextOffset).1.recordDeliveredRange current
            current.nextOffset current.nextOffset)
        records := gathered.records
          ++ [⟨current.virtualPartitionId, current.nextOffset, current.sourceCheckpoint, record⟩]
        gaps := gathered.gaps
          ++ (state.recordDeliveryOffset current current.nextOffset).2.toList } := by
  simp [takeNext, tryTakeNextInner, unrevoked, idle, prepared, takeRecord, isCurrent, records, found]

/-- The range that ends at `last` is the one the next record of its batch extends. -/
theorem extendRanges_succ (ranges : List DeliveredSourceRange) (start : Nat) {last : Nat}
    (checkpoint : CommittedSourceCheckpoint) (source : ConsumerBatchSource)
    (below : last + 1 ≤ u64Max) :
    ActivePartitionState.extendRanges
        (ActivePartitionState.extendRanges ranges ⟨start, last, checkpoint, source⟩)
        ⟨last + 1, last + 1, checkpoint, source⟩
      = ActivePartitionState.extendRanges ranges ⟨start, last + 1, checkpoint, source⟩ := by
  have joined : saturatingAdd u64Max last 1 = last + 1 := saturatingAdd_of_le below
  unfold ActivePartitionState.extendRanges
  cases ranges.getLast? with
  | none => simp [joined]
  | some previous =>
    by_cases joins : saturatingAdd u64Max previous.endOffset 1 = start
      ∧ previous.sourceCheckpoint = checkpoint ∧ previous.source = source
    · simp [joins, joined]
    · simp [joins, joined]

variable {count : Nat}

theorem offsetAfter_eq {offset : Nat} (below : offset + count ≤ u64Max) :
    offsetAfter offset count = offset + count := by
  induction count generalizing offset with
  | zero => rfl
  | succ count ih =>
    rw [offsetAfter, saturatingAdd_of_le (by omega), ih (by omega)]
    omega

omit [Payload R] in
theorem numberRecords_append (batch : BufferedBatch R) (offset : Nat) (first : List R) (next : R) :
    numberRecords batch offset (first ++ [next])
      = numberRecords batch offset first
        ++ [⟨batch.virtualPartitionId, offsetAfter offset first.length, batch.sourceCheckpoint,
          next⟩] := by
  induction first generalizing offset with
  | nil => rfl
  | cons record rest ih => exact congrArg (List.cons _) (ih _)

omit [Payload R] in
theorem length_numberRecords (batch : BufferedBatch R) (offset : Nat) (records : List R) :
    (numberRecords batch offset records).length = records.length := by
  induction records generalizing offset with
  | nil => rfl
  | cons record rest ih => simp [numberRecords, ih]

section Runs

variable {gathered : Gathered R} {current : BufferedBatch R} {state : ActivePartitionState}

/-- The first record of a run. -/
theorem takeNext_prepared (unrevoked : gathered.delivery.pendingRevocation = none)
    (idle : gathered.delivery.revocationInProgress = false) {delivery : DeliveryState R}
    (prepared : gathered.delivery.prepareCurrentBatch gathered.active = (delivery, true))
    (isCurrent : delivery.currentBatch = some current) (nonempty : current.records ≠ [])
    (found : gathered.active.lookup current.virtualPartitionId = some state)
    (bounded : delivery.Bounded) :
    takeNext gathered = some (takeRun { gathered with delivery := delivery } current state 1) := by
  obtain ⟨record, rest, records⟩ := List.exists_cons_of_ne_nil nonempty
  have held := mem_held_of_current isCurrent
  have offset := bounded.offsets current held 0 (by simp [records])
  have bytes := bounded.bytes current held
  have sum : current.remainingPayloadBytes - saturatingAdd u64Max 0 (payloadLen record)
      = current.remainingPayloadBytes - payloadLen record := by
    unfold saturatingAdd
    omega
  have last : saturatingAdd u64Max current.nextOffset 0 = current.nextOffset :=
    saturatingAdd_of_le (by omega)
  rw [takeNext_of_ready unrevoked idle prepared isCurrent records found]
  simp [takeRun, records, numberRecords, offsetAfter, sum, last,
    ActivePartitionState.recordDeliveryOffset]

/-- A later record of a run. -/
theorem takeNext_takeRun (unrevoked : gathered.delivery.pendingRevocation = none)
    (idle : gathered.delivery.revocationInProgress = false)
    (more : count + 1 < current.records.length) (offset : current.nextOffset + count + 1 < u64Max)
    (bytes : current.remainingPayloadBytes ≤ u64Max) :
    takeNext (takeRun gathered current state (count + 1))
      = some (takeRun gathered current state (count + 2)) := by
  obtain ⟨record, left, taken⟩ : ∃ record,
      current.records.drop (count + 1) = record :: current.records.drop (count + 2)
        ∧ current.records.take (count + 2) = current.records.take (count + 1) ++ [record] :=
    ⟨_, List.drop_eq_getElem_cons more, (List.take_append_getElem more).symm⟩
  have length : (current.records.take (count + 1)).length = count + 1 :=
    List.length_take_of_le more.le
  -- Nothing saturates within the run.
  have plain (first : Nat) (below : first ≤ count + 1) :
      saturatingAdd u64Max current.nextOffset first = current.nextOffset + first :=
    saturatingAdd_of_le (by omega)
  have after (first : Nat) (below : first ≤ count + 2) :
      offsetAfter current.nextOffset first = current.nextOffset + first := offsetAfter_eq (by omega)
  have next : saturatingAdd u64Max (current.nextOffset + count + 1) 1
      = current.nextOffset + count + 1 + 1 := saturatingAdd_of_le offset
  have sum (taken : Nat) : current.remainingPayloadBytes - taken - payloadLen record
      = current.remainingPayloadBytes - saturatingAdd u64Max taken (payloadLen record) := by
    unfold saturatingAdd
    omega
  -- The current batch has records left, so nothing is discarded.
  have prepared : (takeRun gathered current state (count + 1)).delivery.prepareCurrentBatch
      (takeRun gathered current state (count + 1)).active
      = ((takeRun gathered current state (count + 1)).delivery, true) := by
    unfold prepareCurrentBatch prepareFrom
    rw [if_pos (by simp [deliverable, takeRun, left])]
  have step := @takeNext_of_ready R _ _ _ _ (takeRun gathered current state (count + 1)) record _
    unrevoked idle prepared rfl left (AList.lookup_insert _)
  rw [step]
  have joins := extendRanges_succ state.deliveredSourceRanges current.nextOffset
    current.sourceCheckpoint current.source offset.le
  have expected : checkedAdd u64Max (current.nextOffset + count) 1
      = some (current.nextOffset + count + 1) := by simp [checkedAdd, offset.le]
  simp [takeRun, taken, length, after, next, sum, plain, numberRecords_append,
    ActivePartitionState.recordDeliveryOffset, ActivePartitionState.recordDeliveredRange,
    ← Nat.add_assoc, joins, expected]

/-- A run is as many single takes as it has records. -/
theorem takeNexts_run (unrevoked : gathered.delivery.pendingRevocation = none)
    (idle : gathered.delivery.revocationInProgress = false) {delivery : DeliveryState R}
    (prepared : gathered.delivery.prepareCurrentBatch gathered.active = (delivery, true))
    (isCurrent : delivery.currentBatch = some current)
    (found : gathered.active.lookup current.virtualPartitionId = some state)
    (bounded : delivery.Bounded) (within : count + 1 ≤ current.records.length) :
    takeNexts (count + 1) gathered
      = some (takeRun { gathered with delivery := delivery } current state (count + 1)) := by
  have held := mem_held_of_current isCurrent
  induction count with
  | zero =>
    refine takeNext_prepared unrevoked idle prepared isCurrent ?_ found bounded
    exact List.ne_nil_of_length_pos within
  | succ count ih =>
    have offset := bounded.offsets current held (count + 1) within
    rw [takeNexts, ih (by omega)]
    have spec := HandsOut.prepare gathered.delivery gathered.active
    rw [prepared] at spec
    exact takeNext_takeRun (spec.pendingRevocation.trans unrevoked)
      (spec.revocationInProgress.trans idle) within offset (bounded.bytes current held)

end Runs

theorem bounded_takeRun (gathered : Gathered R) (bounded : gathered.delivery.Bounded)
    (isCurrent : gathered.delivery.currentBatch = some current)
    (found : gathered.active.lookup current.virtualPartitionId = some state) (positive : 0 < count)
    (within : count ≤ current.records.length) :
    (takeRun gathered current state count).delivery.Bounded := by
  obtain ⟨_, -, hands⟩ := takeRun_handsOut gathered count isCurrent found positive within
  constructor
  · refine (hands.held _ ?_ bounded.offsets).1
    intro _ _ offset record rest below index inside
    have first := below 0 (by simp)
    have here := below (index + 1) (by simpa using inside)
    rw [saturatingAdd_of_le (by omega)]
    omega
  · intro batch member
    rcases List.mem_append.mp member with front | queued
    · obtain rfl := Option.some_inj.mp (Option.mem_toList.mp front)
      exact (Nat.sub_le _ _).trans (bounded.bytes current (mem_held_of_current isCurrent))
    · exact bounded.bytes batch (List.mem_append_right _ queued)

/-- Gathering is a number of single takes and stops at the capacity. -/
theorem gather_alike (capacity rounds : Nat) (gathered : Gathered R)
    (unrevoked : gathered.delivery.pendingRevocation = none)
    (idle : gathered.delivery.revocationInProgress = false)
    (bounded : gathered.delivery.Bounded) (room : gathered.records.length ≤ capacity) :
    ∃ count singles, takeNexts count gathered = some singles
      ∧ Alike (gather capacity rounds gathered) singles
      ∧ (gather capacity rounds gathered).records.length ≤ capacity := by
  induction rounds generalizing gathered with
  | zero => exact ⟨0, gathered, rfl, ⟨rfl, rfl, rfl, rfl⟩, room⟩
  | succ rounds ih =>
    unfold gather
    split
    next => exact ⟨0, gathered, rfl, ⟨rfl, rfl, rfl, rfl⟩, room⟩
    next unfilled =>
      have spec := HandsOut.prepare gathered.delivery gathered.active
      have kept := bounded.prepare gathered.active
      dsimp only
      split
      next =>
        refine ⟨0, gathered, rfl, ⟨rfl, rfl, rfl, ?_⟩, room⟩
        exact prepareCurrentBatch_idem gathered.active gathered.delivery
      next unready =>
        have ready : (gathered.delivery.prepareCurrentBatch gathered.active).2 = true := by
          simpa using unready
        obtain ⟨current, state, isCurrent, nonempty, found⟩ := prepareCurrentBatch_ready ready
        simp only [isCurrent, found]
        have length := List.length_pos_iff.mpr nonempty
        obtain ⟨count, isCount⟩ : ∃ count,
            min current.records.length (capacity - gathered.records.length) = count + 1 :=
          Nat.exists_eq_add_of_le' (by omega)
        rw [isCount]
        have run := takeNexts_run unrevoked idle (Prod.ext rfl ready) isCurrent found kept
          (show count + 1 ≤ current.records.length by omega)
        have more := bounded_takeRun
          { gathered with delivery := (gathered.delivery.prepareCurrentBatch gathered.active).1 }
          kept isCurrent found count.succ_pos (by omega)
        obtain ⟨later, singles, taken, alike, full⟩ := ih _ (spec.pendingRevocation.trans unrevoked)
          (spec.revocationInProgress.trans idle) more (by simp [takeRun, length_numberRecords]; omega)
        refine ⟨count + 1 + later, singles, ?_, alike, full⟩
        rw [takeNexts_add, run]
        exact taken

/-! ### Limits -/

def Gathered.left (gathered : Gathered R) : List R :=
  remaining gathered.active gathered.delivery.currentBatch gathered.delivery.batches

variable {gathered next : Gathered R}

theorem takeNext_inv (took : takeNext gathered = some next) :
    gathered.delivery.pendingRevocation = none ∧ gathered.delivery.revocationInProgress = false
      ∧ (gathered.delivery.prepareCurrentBatch gathered.active).2 = true := by
  unfold takeNext tryTakeNextInner at took
  split at took
  next taken =>
    split at taken
    · cases taken
    next unrevoked =>
      split at taken
      · cases taken
      next idle =>
        dsimp only at taken
        split at taken
        next ready => exact ⟨unrevoked, Bool.eq_false_of_not_eq_true idle, ready⟩
        · cases taken
  · cases took

/-- A single take hands out the first of the remaining records. -/
theorem takeNext_left (took : takeNext gathered = some next) :
    ∃ record, next.records = gathered.records ++ [record]
      ∧ gathered.left = record.record :: next.left := by
  obtain ⟨unrevoked, idle, ready⟩ := takeNext_inv took
  obtain ⟨current, state, isCurrent, nonempty, found⟩ := prepareCurrentBatch_ready ready
  obtain ⟨record, rest, records⟩ := List.exists_cons_of_ne_nil nonempty
  have member : current.virtualPartitionId ∈ gathered.active :=
    AList.lookup_isSome.mp (by rw [found]; rfl)
  have same := remaining_prepareFrom gathered.active gathered.delivery gathered.delivery.currentBatch
    gathered.delivery.bufferedBytes gathered.delivery.batches
  rw [takeNext_of_ready unrevoked idle (Prod.ext rfl ready) isCurrent records found] at took
  cases took
  refine ⟨_, rfl, same.symm.trans ?_⟩
  have keys (partition : VirtualPartitionId) :
      partition = current.virtualPartitionId ∨ partition ∈ gathered.active
        ↔ partition ∈ gathered.active := or_iff_right_of_imp fun equal => equal ▸ member
  show remaining _ (gathered.delivery.prepareCurrentBatch gathered.active).1.currentBatch _ = _
  rw [isCurrent]
  simp [Gathered.left, remaining, Option.filter, records, member, keys]
  rfl

theorem takeNexts_left (took : takeNexts count gathered = some next) :
    next.records.length = gathered.records.length + count
      ∧ gathered.records.map (·.record) ++ gathered.left
        = next.records.map (·.record) ++ next.left := by
  induction count generalizing next with
  | zero =>
    cases took
    exact ⟨rfl, rfl⟩
  | succ count ih =>
    obtain ⟨middle, early, last⟩ := Option.bind_eq_some_iff.mp took
    obtain ⟨length, stream⟩ := ih early
    obtain ⟨record, records, left⟩ := takeNext_left last
    constructor
    · simp [records, length]
      omega
    · simp [stream, records, left]

theorem plannedCapacity_spec (maxRecords maxBytes capacity planned : Nat) (records : List R) :
    let final := plannedCapacity maxRecords maxBytes capacity planned records
    capacity ≤ final ∧ (capacity ≤ maxRecords → final ≤ maxRecords)
      ∧ ∀ count, 0 < count → capacity + count ≤ final →
        planned + ((records.take count).map payloadLen).sum ≤ maxBytes := by
  induction records generalizing capacity planned with
  | nil =>
    refine ⟨Nat.le_refl _, id, fun count positive within => ?_⟩
    simp only [plannedCapacity] at within
    omega
  | cons next rest ih =>
    dsimp only
    unfold plannedCapacity
    split
    next => exact ⟨Nat.le_refl _, id, fun count positive within => by omega⟩
    next fits =>
      obtain ⟨grows, limited, sums⟩ := ih (capacity + 1) (planned + payloadLen next)
      refine ⟨by omega, fun _ => limited (by omega), fun count positive within => ?_⟩
      obtain ⟨count, rfl⟩ := Nat.exists_eq_add_of_le' positive
      simp only [List.take_succ_cons, List.map_cons, List.sum_cons]
      cases count with
      | zero => simp; omega
      | succ count =>
        have := sums (count + 1) count.succ_pos (by omega)
        omega

/-- A batch take returns the revocation or nothing like a single take, or what successive single
takes hand out, within the limits and leaving the same state. -/
theorem batch_take_equals_single_takes (delivery : DeliveryState R) (active : ActivePartitions)
    (maxRecords maxBytes : Nat) (positive : 1 ≤ maxRecords) (bounded : delivery.Bounded) :
    let single := delivery.tryTakeNextInner active
    let batch := delivery.tryTakeBatch active maxRecords maxBytes
    (single.2.2 = none → batch = (single.1, single.2.1, none))
      ∧ (∀ revoked gap, single.2.2 = some ⟨.revoked revoked, gap⟩ →
        batch = (single.1, single.2.1, some ⟨.revoked revoked, []⟩))
      ∧ ∀ record gap, single.2.2 = some ⟨.record record, gap⟩ →
        ∃ count singles records gaps, 1 ≤ count
          ∧ takeNexts count ⟨delivery, active, [], []⟩ = some singles
          ∧ batch.2.2 = some ⟨.records records, gaps⟩
          ∧ Alike ⟨batch.1, batch.2.1, records, gaps⟩ singles
          ∧ records.length = count ∧ count ≤ maxRecords
          ∧ (count = 1 ∨ (records.map fun handed => payloadLen handed.record).sum ≤ maxBytes) := by
  unfold tryTakeBatch
  rcases taken : delivery.tryTakeNextInner active with ⟨next, later, result⟩
  refine ⟨?_, ?_, ?_⟩
  · rintro ⟨⟩
    rfl
  · rintro revoked gap ⟨⟩
    rfl
  · rintro record gap ⟨⟩
    have first : takeNext ⟨delivery, active, [], []⟩ = some ⟨next, later, [record], gap.toList⟩ := by
      simp [takeNext, taken]
    obtain ⟨unrevoked, idle, ready⟩ := takeNext_inv first
    obtain ⟨current, state, isCurrent, nonempty, found⟩ := prepareCurrentBatch_ready ready
    have kept := bounded.prepare active
    have spec := HandsOut.prepare delivery active
    have run := first.symm.trans
      (takeNext_prepared unrevoked idle (Prod.ext rfl ready) isCurrent nonempty found kept)
    have start : Gathered.mk next later [record] gap.toList = takeRun _ current state 1 :=
      Option.some_inj.mp run
    have startBounded := bounded_takeRun
      ⟨(delivery.prepareCurrentBatch active).1, active, [], []⟩ kept isCurrent found Nat.one_pos
      (List.length_pos_iff.mpr nonempty)
    -- What the limits are planned on is what can still be handed out.
    have planned : next.currentBatch.elim [] BufferedBatch.records
        ++ (next.batches.filter (·.virtualPartitionId ∈ later)).flatMap (·.records)
        = Gathered.left ⟨next, later, [record], gap.toList⟩ := by
      have front : next.currentBatch = _ := congrArg (·.delivery.currentBatch) start
      have member : current.virtualPartitionId ∈ later := by
        rw [show later = _ from congrArg Gathered.active start]
        simp [takeRun]
      simp [Gathered.left, remaining, front, takeRun, Option.filter, member]
    dsimp only
    rw [planned]
    obtain ⟨grows, limited, sums⟩ := plannedCapacity_spec maxRecords maxBytes 1
      (payloadLen record.record) (Gathered.left ⟨next, later, [record], gap.toList⟩)
    generalize plannedCapacity (R := R) maxRecords maxBytes 1 _ _ = capacity at grows limited sums ⊢
    obtain ⟨count, singles, later, alike, full⟩ := gather_alike capacity capacity
      ⟨next, later, [record], gap.toList⟩ (start ▸ spec.pendingRevocation.trans unrevoked)
      (start ▸ spec.revocationInProgress.trans idle) (start ▸ startBounded) grows
    obtain ⟨length, stream⟩ := takeNexts_left later
    rw [← alike.records] at length stream
    have total : takeNexts (1 + count) ⟨delivery, active, [], []⟩ = some singles := by
      rw [takeNexts_add]
      show (takeNext _).bind _ = _
      rw [first]
      exact later
    refine ⟨1 + count, singles, _, _, by omega, total, rfl, alike, length, ?_, ?_⟩
    · exact (length.symm.le.trans full).trans (limited positive)
    · rcases Nat.eq_zero_or_pos count with none | more
      · exact .inl (by omega)
      · -- The records are the first one and as many of the planned ones as were taken.
        have handed := (congrArg (List.take (1 + count)) stream).trans
          (List.take_left' (by simpa using length))
        have sum := sums count more (length.symm.le.trans full)
        refine .inr ?_
        rw [← Function.comp_def, ← List.map_map, ← handed, Nat.add_comm]
        simpa using sum

/-- Four records of `partition`, the first of them at `offset`. -/
def queuedBatch (partition : VirtualPartitionId) (offset : Nat) : ConsumerBatch Record where
  virtualPartitionId := partition
  seqRange := ⟨offset, offset + 3⟩
  sourceCheckpoint := ⟨0, offset⟩
  source := ⟨"blob", 0⟩
  admissionScan := none
  records := List.replicate 4 ⟨[0], 0⟩

/-- One record of the current batch is left; an empty batch, one of an inactive partition and one
behind a gap are queued. -/
def partlyConsumed : DeliveryState Record where
  currentBatch := some
    { (queuedBatch 1 2).buffered with
      nextOffset := 5, remainingPayloadBytes := 1, records := [⟨[0], 0⟩] }
  batches := [{ queuedBatch 1 6 with records := [] }, queuedBatch 9 0, queuedBatch 1 20]
  bufferedBytes := 8

theorem batch_take_over_gap :
    let batch := partlyConsumed.tryTakeBatch (AList.singleton 1 {}) 3 4
    ∃ count singles records gaps, 1 ≤ count
      ∧ takeNexts count ⟨partlyConsumed, AList.singleton 1 {}, [], []⟩ = some singles
      ∧ batch.2.2 = some ⟨.records records, gaps⟩
      ∧ Alike ⟨batch.1, batch.2.1, records, gaps⟩ singles
      ∧ records.length = count ∧ count ≤ 3
      ∧ (count = 1 ∨ (records.map fun handed => payloadLen handed.record).sum ≤ 4) := by
  have bounded : partlyConsumed.Bounded := ⟨by unfold AllHeld; decide, by decide⟩
  exact (batch_take_equals_single_takes _ _ 3 4 (by decide) bounded).2.2 _ _ rfl

end BlobStream.Consumer.DeliveryState
