import BlobStream.Write.FlushInvariant

/-!
# Acknowledged batches are published in sequence order

Two acknowledged batches of one partition share a metadata row, or the row of the lower one was written
first and has the smaller identity. `mark_flush_complete` breaks this when it drops the publication tail
of a failed epoch while an older epoch is still being published.
-/

namespace BlobStream.Write.Cluster

open Machine

def AcknowledgedBatch (world : FlushWorld) (session : String) (key : PartitionKey) (index : Nat)
    (batch : BufferedBatch) : Prop :=
  ∃ (run : RunningFlush) (topicPlan : TopicFlushPlan) (partition : FlushPartition)
    (completion : FlushCompletion), world.tasks[index]? = some run ∧ run.session = session
      ∧ topicPlan ∈ run.task.plan.topics ∧ partition ∈ topicPlan.partitions
      ∧ (⟨topicPlan.topic, partition.virtualPartitionId⟩ : PartitionKey) = key
      ∧ batch ∈ partition.batches ∧ batch.completion = some completion
      ∧ ⟨key.topic, key.virtualPartitionId, completion, none⟩ ∈ run.task.resolved

/-- The row has an entry for the partition that covers the range. -/
def WrittenRow.Covers (key : PartitionKey) (range : SeqRange) (row : WrittenRow) : Prop :=
  row.metadata.window.topic = key.topic
    ∧ ∃ entry, row.metadata.segmentIndex.lookup key.virtualPartitionId = some entry
      ∧ entry.seqRange.start ≤ range.start ∧ range.end ≤ entry.seqRange.end

/-- The two ranges, published by tasks `first` and `second`, share a row; or both have a row, and
every row of the first task for the partition was written before every row of the second one and
has a smaller identity. -/
def PublishedInOrder (world : FlushWorld) (key : PartitionKey) (first : Nat) (low : SeqRange)
    (second : Nat) (high : SeqRange) : Prop :=
  (∃ row ∈ world.rows, row.Covers key low ∧ row.Covers key high)
    ∨ (∃ row ∈ world.rows, row.task = first ∧ row.Covers key low)
      ∧ (∃ row ∈ world.rows, row.task = second ∧ row.Covers key high)
      ∧ ∀ (before after : Nat) (lowRow highRow : WrittenRow), world.rows[before]? = some lowRow →
        world.rows[after]? = some highRow → lowRow.task = first → highRow.task = second →
        lowRow.Covers key low → highRow.Covers key high →
        before < after ∧ lowRow.metadata.snowflakeId < highRow.metadata.snowflakeId

section Order

variable {config : String → BrokerConfig} {codec : Codec} {segments : SegmentConfig} {clock : Int}
variable {world : FlushWorld} {session : String} {key : PartitionKey}

theorem WrittenRow.Covers.carries {range : SeqRange} {row : WrittenRow}
    (covers : row.Covers key range) : row.metadata.Carries key := by
  obtain ⟨topicEq, entry, looked, -⟩ := covers
  exact ⟨topicEq, List.mem_map.mpr ⟨_, mem_of_lookup looked, rfl⟩⟩

section

variable (sound : FlushSound config codec segments clock world)

include sound

theorem FlushSound.planSound {index : Nat} {run : RunningFlush}
    (found : world.tasks[index]? = some run) : PlanSound run.task.plan where
  distinct := (sound.runs index run found).distinct
  valid := by
    intro epoch member batch inBatches
    refine (sound.own run.session epoch.1).increasing.valid batch.seqRange ?_
    refine List.mem_append_left _ (List.mem_flatMap.mpr ⟨epoch.2, mem_epochsAt.mpr ?_, ?_⟩)
    · exact mem_openedBy.mpr ⟨_, mem_origins found, member⟩
    · exact List.mem_map_of_mem inBatches

/-- An acknowledged batch has a row, which covers all batches of its partition in the plan. -/
theorem FlushSound.published {index : Nat} {batch : BufferedBatch}
    (acknowledged : AcknowledgedBatch world session key index batch) :
    ∃ (run : RunningFlush) (partition : FlushPartition), world.tasks[index]? = some run
      ∧ run.session = session ∧ (key, partition) ∈ run.task.plan.opened
      ∧ batch ∈ partition.batches
      ∧ ∃ row ∈ world.rows, row.task = index
        ∧ ∀ other ∈ partition.batches, row.Covers key other.seqRange := by
  obtain ⟨run, topicPlan, partition, completion, found, rfl, inPlan, inTopic, rfl, inPartition, -,
    told⟩ := acknowledged
  have runSound := sound.runs index run found
  have published := runSound.task.durable _ told rfl
  obtain ⟨-, -, earlier, metadata, fences, later, -, entry, -, -, split, -, window, looked, -,
    covers⟩ := (sound.planSound found).covers inPlan inTopic published
  have recorded := runSound.recorded metadata fences (by simp [split])
  exact ⟨run, partition, found, rfl, mem_opened inPlan inTopic, inPartition, _, recorded, rfl,
    fun other member => ⟨window, entry, looked, covers other member⟩⟩

/-- Of two batches of a partition, the lower one belongs to the older epoch. -/
theorem FlushSound.older_of_below {first second : Nat} {one two : RunningFlush}
    {earlier later : FlushPartition} {low high : BufferedBatch}
    (foundOne : world.tasks[first]? = some one) (foundTwo : world.tasks[second]? = some two)
    (same : two.session = one.session) (opened : (key, earlier) ∈ one.task.plan.opened)
    (alsoOpened : (key, later) ∈ two.task.plan.opened) (inEarlier : low ∈ earlier.batches)
    (inLater : high ∈ later.batches) (below : low.seqRange.end < high.seqRange.start) :
    first ≤ second := by
  by_contra behind
  obtain ⟨rest, split, -⟩ := sound.split foundOne opened
  have increasing := (sound.own one.session key).increasing
  unfold handed epochRanges at increasing
  rw [split, List.flatMap_append, List.append_assoc] at increasing
  refine increasing.first_below ?_ ?_ below
  · refine List.mem_flatMap.mpr ⟨later, mem_epochsAt.mpr ?_, List.mem_map_of_mem inLater⟩
    exact same ▸ mem_openedBy_take (Nat.lt_of_not_le behind) foundTwo alsoOpened
  · refine List.mem_append_left _ (List.mem_flatMap.mpr ⟨earlier, List.mem_cons_self, ?_⟩)
    exact List.mem_map_of_mem inEarlier

end

/-- In every run in which publication tails are dropped only behind ended epochs, acknowledged
batches of one broker are published in sequence order. -/
theorem published_in_order
    (reached : Reachable (FlushWorld.step config codec segments) tailContract
      { cluster := { clock := clock } } world)
    {first second : Nat} {low high : BufferedBatch}
    (acknowledgedLow : AcknowledgedBatch world session key first low)
    (acknowledgedHigh : AcknowledgedBatch world session key second high)
    (below : low.seqRange.end < high.seqRange.start) :
    PublishedInOrder world key first low.seqRange second high.seqRange := by
  have sound := flushSound_reachable reached
  obtain ⟨one, earlier, foundOne, rfl, opened, inEarlier, lowRow, inRows, lowTask, lowCovers⟩ :=
    sound.published acknowledgedLow
  obtain ⟨two, later, foundTwo, same, alsoOpened, inLater, highRow, alsoInRows, highTask, highCovers⟩ :=
    sound.published acknowledgedHigh
  have order := sound.older_of_below foundOne foundTwo same opened alsoOpened inEarlier inLater below
  rcases Nat.eq_or_lt_of_le order with rfl | older
  · -- Both batches belong to one epoch, whose row covers them.
    rw [foundOne] at foundTwo
    cases foundTwo
    have epoch := (sound.runs first one foundOne).same_epoch opened alsoOpened
    subst epoch
    exact Or.inl ⟨lowRow, inRows, lowCovers low inEarlier, lowCovers high inLater⟩
  · refine Or.inr ⟨⟨lowRow, inRows, lowTask, lowCovers low inEarlier⟩,
      ⟨highRow, alsoInRows, highTask, highCovers high inLater⟩, ?_⟩
    intro before after rowOne rowTwo foundRowOne foundRowTwo taskOne taskTwo coversLow coversHigh
    have session_of {position task : Nat} {row : WrittenRow} {run : RunningFlush}
        (foundRow : world.rows[position]? = some row) (isTask : row.task = task)
        (found : world.tasks[task]? = some run) : row.session = run.session := by
      obtain ⟨other, foundOther, session, -⟩ := sound.written row (List.mem_of_getElem? foundRow)
      rw [isTask, found] at foundOther
      cases foundOther
      exact session.symm
    have sessions : rowOne.session = rowTwo.session :=
      (session_of foundRowOne taskOne foundOne).trans
        (same.symm.trans (session_of foundRowTwo taskTwo foundTwo).symm)
    have ordered := List.pairwise_iff_getElem.mp sound.rows
    obtain ⟨insideOne, atOne⟩ := List.getElem?_eq_some_iff.mp foundRowOne
    obtain ⟨insideTwo, atTwo⟩ := List.getElem?_eq_some_iff.mp foundRowTwo
    rcases Nat.lt_trichotomy before after with less | equal | greater
    · have rowOrder := ordered before after insideOne insideTwo less
      rw [atOne, atTwo] at rowOrder
      have := rowOrder sessions key coversLow.carries coversHigh.carries
      exact ⟨less, this.2 (by rw [taskOne, taskTwo]; exact older)⟩
    · subst equal
      rw [foundRowOne] at foundRowTwo
      cases foundRowTwo
      omega
    · have rowOrder := ordered after before insideTwo insideOne greater
      rw [atOne, atTwo] at rowOrder
      have := rowOrder sessions.symm key coversHigh.carries coversLow.carries
      omega

end Order

/-! ### Epochs of one record each -/

def oneRecord (completion : FlushCompletion) : ProduceBatch where
  key := orders
  records := [⟨[7], 0⟩]
  summary := ⟨1, 1⟩
  completion := completion

def acquireOrders : List FlushAction :=
  (Action.refreshAssignment "a" {orders} :: maintain "a" 0).map .cluster

/-- `a` accepts one record and collects it. -/
def openEpoch (completion : FlushCompletion) : List FlushAction :=
  [.cluster (.produce "a" (oneRecord completion) 0), .collect "a" (duePass 20)]

/-- The task builds its object and registers it for publication. -/
def identify (index : Nat) (snowflakeId : SnowflakeId) : List FlushAction :=
  [.identity none, .proceed, .segmentId (some (snowflakeId, 20)), .proceed, .signal, .proceed,
    .register false, .proceed].map (.flush index)

def uploadObject (index : Nat) : List FlushAction :=
  [.upload 0 true, .proceed].map (.flush index)

def publishRow (index : Nat) : List FlushAction :=
  [.publish 0 (.written 21), .proceed, .complete, .proceed].map (.flush index)

def loseUpload (index : Nat) : List FlushAction :=
  [.upload 0 false, .proceed, .proceed, .complete, .proceed].map (.flush index)

def epochBatch (completion : Nat) : BufferedBatch where
  records := [⟨[7], 0⟩]
  summary := ⟨1, 1⟩
  seqRange := ⟨completion, completion⟩
  acceptanceFence := some ⟨"a", 1, "a"⟩
  completion := some completion

def epochPartition (completion : Nat) (predecessor : Option PublicationChannel) : FlushPartition where
  virtualPartitionId := 0
  leaseFence := some ⟨"a", 1, "a"⟩
  batches := [epochBatch completion]
  trigger := .maxDelay
  publicationPredecessor := predecessor
  publicationState := completion

def epochPlan (completion : Nat) (predecessor : Option PublicationChannel) : FlushPlan where
  topics := [⟨"orders", [epochPartition completion predecessor], 15, 300, false⟩]
  maxSegmentBytes := 1000
  publicationCompletions := [⟨"orders", 0, completion⟩]

structure TaskOutcome where
  session : String
  plan : FlushPlan
  resolved : List Resolution
deriving DecidableEq

structure RowOutcome where
  task : Nat
  snowflakeId : SnowflakeId
  range : Option SeqRange
deriving DecidableEq

def RunningFlush.outcome (run : RunningFlush) : TaskOutcome :=
  ⟨run.session, run.task.plan, run.task.resolved⟩

def WrittenRow.outcome (row : WrittenRow) : RowOutcome where
  task := row.task
  snowflakeId := row.metadata.snowflakeId
  range := (row.metadata.segmentIndex.lookup orders.virtualPartitionId).map (·.seqRange)

/-- A task that told its one waiter that the record is stored. -/
def acknowledgedEpoch (completion : Nat) (predecessor : Option PublicationChannel) : TaskOutcome :=
  ⟨"a", epochPlan completion predecessor, [⟨"orders", 0, completion, none⟩]⟩

theorem acknowledged_epoch {world : FlushWorld} {index completion : Nat}
    {predecessor : Option PublicationChannel}
    (outcome : (world.tasks.map RunningFlush.outcome)[index]?
      = some (acknowledgedEpoch completion predecessor)) :
    AcknowledgedBatch world "a" orders index (epochBatch completion) := by
  rw [List.getElem?_map] at outcome
  obtain ⟨run, found, same⟩ := Option.map_eq_some_iff.mp outcome
  obtain ⟨isSession, isPlan, isResolved⟩ := TaskOutcome.mk.inj same
  refine ⟨run, ⟨"orders", [epochPartition completion predecessor], 15, 300, false⟩,
    epochPartition completion predecessor, completion, found, isSession, ?_, .head _, rfl, .head _, rfl, ?_⟩
  · rw [isPlan]
    exact .head _
  · rw [isResolved]
    exact .head _

theorem WrittenRow.Covers.range {range : SeqRange} {row : WrittenRow}
    (covers : row.Covers orders range) :
    ∃ covering, row.outcome.range = some covering ∧ covering.start ≤ range.start
      ∧ range.end ≤ covering.end := by
  obtain ⟨-, entry, looked, below, above⟩ := covers
  exact ⟨entry.seqRange, by rw [WrittenRow.outcome, looked]; rfl, below, above⟩

/-- While the first epoch is still uploading, the second one fails and its completion drops the
publication tail, so that the third epoch waits for nobody and is published before the first. -/
def overtaking : List FlushAction :=
  acquireOrders ++ openEpoch 0 ++ identify 0 5 ++ openEpoch 1 ++ identify 1 6 ++ loseUpload 1
    ++ openEpoch 2 ++ identify 2 7 ++ uploadObject 2 ++ publishRow 2
    ++ uploadObject 0 ++ publishRow 0

theorem overtaking_outcome :
    (Machine.run (FlushWorld.step shortLeases plainCodec plainSegments) { cluster := { clock := 0 } }
      overtaking).map
        (fun world => (world.tasks.map RunningFlush.outcome, world.rows.map WrittenRow.outcome))
    = some ([acknowledgedEpoch 0 none,
        ⟨"a", epochPlan 1 (some 0), [⟨"orders", 0, 1, some .internal⟩]⟩, acknowledgedEpoch 2 none],
      [⟨2, 7, some ⟨2, 2⟩⟩, ⟨0, 5, some ⟨0, 0⟩⟩]) := by
  decide +kernel

/-- The third epoch's batch is above the first one's, both are acknowledged, and the row of the
third epoch was written first. -/
theorem published_out_of_order :
    ∃ world, Reachable (FlushWorld.step shortLeases plainCodec plainSegments) anyAction
        { cluster := { clock := 0 } } world
      ∧ AcknowledgedBatch world "a" orders 0 (epochBatch 0)
      ∧ AcknowledgedBatch world "a" orders 2 (epochBatch 2)
      ∧ (epochBatch 0).seqRange.end < (epochBatch 2).seqRange.start
      ∧ ¬ PublishedInOrder world orders 0 (epochBatch 0).seqRange 2 (epochBatch 2).seqRange := by
  obtain ⟨world, executed, outcome⟩ := Option.map_eq_some_iff.mp overtaking_outcome
  obtain ⟨tasks, rows⟩ := Prod.mk.inj outcome
  have reached := reachable_of_run (runAllowed_anyAction _ _ _) executed
  refine ⟨world, reached, acknowledged_epoch (by rw [tasks]; rfl),
    acknowledged_epoch (by rw [tasks]; rfl), by decide, ?_⟩
  obtain ⟨third, rest, rowsEq, thirdEq, restEq⟩ := List.map_eq_cons_iff.mp rows
  obtain ⟨first, none, restIs, firstEq, noneEq⟩ := List.map_eq_cons_iff.mp restEq
  cases List.map_eq_nil_iff.mp noneEq
  subst restIs
  unfold PublishedInOrder
  rw [rowsEq]
  rintro (⟨row, member, coversLow, coversHigh⟩ | ⟨⟨low, lowIn, lowTask, coversLow⟩,
    ⟨high, highIn, highTask, coversHigh⟩, ordered⟩)
  · -- No range starts at 0 and reaches 2.
    obtain ⟨one, isOne, below, -⟩ := coversLow.range
    obtain ⟨two, isTwo, -, above⟩ := coversHigh.range
    cases isOne.symm.trans isTwo
    rcases List.mem_pair.mp member with rfl | rfl
    · rw [thirdEq] at isOne
      cases isOne
      exact absurd below (by decide)
    · rw [firstEq] at isOne
      cases isOne
      exact absurd above (by decide)
  · have isLow : low = first := by
      rcases List.mem_pair.mp lowIn with rfl | rfl
      · exact absurd lowTask (by rw [show low.task = 2 from congrArg RowOutcome.task thirdEq]; decide)
      · rfl
    have isHigh : high = third := by
      rcases List.mem_pair.mp highIn with rfl | rfl
      · rfl
      · exact absurd highTask (by rw [show high.task = 0 from congrArg RowOutcome.task firstEq]; decide)
    subst isLow isHigh
    exact absurd (ordered 1 0 low high rfl rfl lowTask highTask coversLow coversHigh).1 (by decide)

/-- The second epoch waits for the publication of the first one. -/
def waiting : List FlushAction :=
  acquireOrders ++ openEpoch 0 ++ identify 0 5 ++ openEpoch 1 ++ identify 1 6 ++ uploadObject 1
    ++ uploadObject 0 ++ publishRow 0 ++ [.flush 1 (.predecessor 0 0 none)] ++ publishRow 1

theorem published_in_order_waiting :
    ∃ world, Reachable (FlushWorld.step shortLeases plainCodec plainSegments) tailContract
        { cluster := { clock := 0 } } world
      ∧ world.rows.map WrittenRow.outcome = [⟨0, 5, some ⟨0, 0⟩⟩, ⟨1, 6, some ⟨1, 1⟩⟩]
      ∧ PublishedInOrder world orders 0 (epochBatch 0).seqRange 1 (epochBatch 1).seqRange := by
  have outcome : (Machine.run (FlushWorld.step shortLeases plainCodec plainSegments)
      { cluster := { clock := 0 } } waiting).map
        (fun world => (world.tasks.map RunningFlush.outcome, world.rows.map WrittenRow.outcome))
      = some ([acknowledgedEpoch 0 none, acknowledgedEpoch 1 (some 0)],
        [⟨0, 5, some ⟨0, 0⟩⟩, ⟨1, 6, some ⟨1, 1⟩⟩]) := by decide +kernel
  have meets : RunAllowed (FlushWorld.step shortLeases plainCodec plainSegments) tailContract
      { cluster := { clock := 0 } } waiting := by decide +kernel
  obtain ⟨world, executed, outcome⟩ := Option.map_eq_some_iff.mp outcome
  obtain ⟨tasks, rows⟩ := Prod.mk.inj outcome
  have reached := reachable_of_run meets executed
  have low : AcknowledgedBatch world "a" orders 0 (epochBatch 0) :=
    acknowledged_epoch (by rw [tasks]; rfl)
  have high : AcknowledgedBatch world "a" orders 1 (epochBatch 1) :=
    acknowledged_epoch (by rw [tasks]; rfl)
  exact ⟨world, reached, rows, published_in_order reached low high (by decide)⟩

end BlobStream.Write.Cluster
