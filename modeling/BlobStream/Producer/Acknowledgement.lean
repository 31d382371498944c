import BlobStream.Producer.Dispatch

/-!
# What a producer acknowledgement means

A result slot reports success only when a broker answered `PRODUCE_STATUS_OK` at the position of a
batch that contains the slot's record, as long as every status received is one the producer knows.
A status outside the enum reads as its default, `PRODUCE_STATUS_OK`.
-/

namespace BlobStream.Producer

def isKnownStatus (wire : Int) : Bool := (ProduceStatus.ofWire wire).isSome

theorem status_ok_of_known {wire : Int} (known : isKnownStatus wire = true)
    (ok : ProduceStatus.enumValueOrDefault wire = .ok) : wire = okWireValue := by
  unfold isKnownStatus at known
  unfold ProduceStatus.enumValueOrDefault at ok
  unfold ProduceStatus.ofWire at known ok
  split at known <;> simp_all [okWireValue]

/-! ### What a notification can add -/

def SlotOk (bulks : Bulks) (bulk : BulkId) (slot : Nat) : Prop :=
  ∃ completion, bulks bulk = some completion ∧ completion.OkAt slot

variable {batch : BufferedBatch}

section Notify

variable {bulks : Bulks} {result : ProduceResult} {bulk : BulkId} {slot : Nat}

theorem completeSpan_slotOk {span : BulkCompletionSpan}
    (ok : SlotOk (completeSpan result bulks span) bulk slot) :
    SlotOk bulks bulk slot ∨ (span.covers bulk slot = true ∧ ∃ ack, result = .ok ack) := by
  obtain ⟨completion, present, reports⟩ := ok
  by_cases same : bulk = span.bulk
  · subst same
    simp only [completeSpan, Function.update_self, Option.map_eq_some_iff] at present
    obtain ⟨before, stored, rfl⟩ := present
    rcases BulkCompletion.complete_okAt reports with earlier | ⟨above, below, succeeded⟩
    · exact Or.inl ⟨before, stored, earlier⟩
    · exact Or.inr ⟨by simp [BulkCompletionSpan.covers, above, below], succeeded⟩
  · simp only [completeSpan, Function.update_of_ne same] at present
    exact Or.inl ⟨completion, present, reports⟩

/-- Notifying a batch only reports success for its own records. -/
theorem notifyCompletions_slotOk
    (ok : SlotOk (notifyCompletions bulks batch.completions result) bulk slot) :
    SlotOk bulks bulk slot ∨ ((bulk, slot) ∈ batch.slots ∧ ∃ ack, result = .ok ack) := by
  have folded : ∀ (spans : List BulkCompletionSpan) (bulks : Bulks),
      SlotOk (notifyCompletions bulks spans result) bulk slot →
      SlotOk bulks bulk slot
        ∨ ((∃ span ∈ spans, span.covers bulk slot = true) ∧ ∃ ack, result = .ok ack) := by
    intro spans
    induction spans with
    | nil => exact fun bulks before => Or.inl before
    | cons span rest ih =>
      intro bulks after
      rcases ih (completeSpan result bulks span) after with before | ⟨⟨other, member, inside⟩, succeeded⟩
      · rcases completeSpan_slotOk before with earlier | ⟨inside, succeeded⟩
        · exact Or.inl earlier
        · exact Or.inr ⟨⟨span, List.mem_cons_self, inside⟩, succeeded⟩
      · exact Or.inr ⟨⟨other, List.mem_cons_of_mem span member, inside⟩, succeeded⟩
  rcases folded batch.completions bulks ok with before | ⟨covered, succeeded⟩
  · exact Or.inl before
  · exact Or.inr ⟨completionSpans_covers covered, succeeded⟩

theorem failedGroup_slotOk {batches : List BufferedBatch} {error : ProducerError} {bulks : Bulks}
    (ok : SlotOk (batches.foldl (fun bulks batch =>
      notifyCompletions bulks batch.completions (.error error)) bulks) bulk slot) :
    SlotOk bulks bulk slot := by
  induction batches generalizing bulks with
  | nil => exact ok
  | cons batch rest ih =>
    rcases notifyCompletions_slotOk (ih ok) with before | ⟨-, ack, failed⟩
    · exact before
    · cases failed

/-- Success after the terminal results of a group comes from an `Ok` result of a batch. -/
theorem notifyTerminal_slotOk {group : List (BufferedBatch × Option ProduceBatchResponse)}
    {bulks : Bulks} (ok : SlotOk (notifyTerminal bulks group) bulk slot) :
    SlotOk bulks bulk slot ∨ ∃ entry ∈ group, (bulk, slot) ∈ entry.1.slots
      ∧ ∃ ack, terminalResult entry.1 entry.2 = some (.ok ack) := by
  induction group generalizing bulks with
  | nil => exact Or.inl ok
  | cons entry rest ih =>
    obtain ⟨batch, response⟩ := entry
    rcases ih ok with before | ⟨other, member, inside, succeeded⟩
    · simp only at before
      split at before
      next result terminal =>
        rcases notifyCompletions_slotOk before with earlier | ⟨inside, ack, rfl⟩
        · exact Or.inl earlier
        · exact Or.inr ⟨_, List.mem_cons_self, inside, ack, terminal⟩
      next => exact Or.inl before
    · exact Or.inr ⟨other, List.mem_cons_of_mem _ member, inside, succeeded⟩

end Notify

/-! ### The invariant -/

def statusContract (world : ProducerWorld) : ProducerAction → Bool
  | .groupAnswered task response =>
    (world.tasks task).all fun state =>
      (groupResults state.batches response).all fun result =>
        result.all fun result => isKnownStatus result.status
  | .retryTurn _ _ turn => turn.received.all isKnownStatus
  | _ => true

/-- A received response carried `PRODUCE_STATUS_OK` at the position of a batch with this record. -/
def Acknowledged (world : ProducerWorld) (bulk : BulkId) (slot : Nat) : Prop :=
  ∃ entry ∈ world.received, entry.status = okWireValue ∧ ∃ state batch,
    world.tasks entry.task = some state ∧ state.batches[entry.position]? = some batch
      ∧ (bulk, slot) ∈ batch.slots

structure AckSound (world : ProducerWorld) : Prop where
  slots : ∀ bulk slot, SlotOk world.bulks bulk slot → Acknowledged world bulk slot
  /-- A grouped result that is kept for the retry loop was not read as success. -/
  pending : ∀ task state pending position retry response, world.tasks task = some state →
    state.phase = .retrying pending → (position, retry) ∈ pending →
    retry.initialResponse = some response →
    ProduceStatus.enumValueOrDefault response.status ≠ .ok

section Steps

variable {config : DispatchConfig} {world after : ProducerWorld}

/-- Acknowledgements survive when tasks keep their batches and nothing received is forgotten. -/
theorem Acknowledged.mono {bulk slot : Nat} (acknowledged : Acknowledged world bulk slot)
    (tasks : ∀ task state, world.tasks task = some state →
      ∃ next, after.tasks task = some next ∧ next.batches = state.batches)
    (received : ∀ entry ∈ world.received, entry ∈ after.received) :
    Acknowledged after bulk slot := by
  obtain ⟨entry, member, status, state, batch, present, here, inside⟩ := acknowledged
  obtain ⟨next, kept, same⟩ := tasks entry.task state present
  exact ⟨entry, received entry member, status, next, batch, kept, same ▸ here, inside⟩

variable {task : Nat} {state : DispatchTask}
variable {next : DispatchTask}

theorem tasks_update (present : world.tasks task = some state) (same : next.batches = state.batches) :
    ∀ other before, world.tasks other = some before →
      ∃ later, Function.update world.tasks task (some next) other = some later
        ∧ later.batches = before.batches := by
  intro other before stored
  by_cases equal : other = task
  · subst equal
    rw [present] at stored
    cases stored
    exact ⟨next, by simp, same⟩
  · exact ⟨before, by simp [equal, stored], rfl⟩

/-- The pending part of the invariant after one task has moved on. -/
theorem pending_update (sound : AckSound world)
    (moved : ∀ pending position retry response, next.phase = .retrying pending →
      (position, retry) ∈ pending → retry.initialResponse = some response →
      ProduceStatus.enumValueOrDefault response.status ≠ .ok) :
    ∀ other state pending position retry response,
      Function.update world.tasks task (some next) other = some state →
      state.phase = .retrying pending → (position, retry) ∈ pending →
      retry.initialResponse = some response →
      ProduceStatus.enumValueOrDefault response.status ≠ .ok := by
  intro other state pending position retry response stored
  by_cases equal : other = task
  · subst equal
    simp only [Function.update_self, Option.some.injEq] at stored
    subst stored
    exact moved pending position retry response
  · rw [Function.update_of_ne equal] at stored
    exact sound.pending other state pending position retry response stored

theorem AckSound.failGroup (sound : AckSound world)
    (present : world.tasks task = some state) (error : ProducerError) :
    AckSound (world.failGroup task state error) := by
  refine ⟨fun bulk slot ok => ?_, ?_⟩
  · exact (sound.slots bulk slot (failedGroup_slotOk ok)).mono (tasks_update present rfl)
      fun _ member => member
  · refine pending_update sound ?_
    intro pending position retry response phase
    cases phase

theorem AckSound.groupAnswered (sound : AckSound world)
    {response : Except String (List ProduceBatchResponse)} (present : world.tasks task = some state)
    (known : ∀ result ∈ groupResults state.batches response, ∀ answer, result = some answer →
      isKnownStatus answer.status = true) :
    AckSound (world.groupAnswered task state response) := by
  refine ⟨fun bulk slot ok => ?_, ?_⟩
  · rcases notifyTerminal_slotOk ok with before | ⟨⟨batch, result⟩, member, inside, ack, terminal⟩
    · refine (sound.slots bulk slot before).mono (tasks_update present rfl) fun entry member => ?_
      exact List.mem_append_left _ member
    · -- The batch and its result stand at the same position of the group.
      obtain ⟨position, bound, here⟩ := List.mem_iff_getElem.mp member
      have atPosition : (state.batches.zip (groupResults state.batches response))[position]?
          = some (batch, result) := by
        rw [List.getElem?_eq_getElem bound, here]
      obtain ⟨batchHere, resultHere⟩ := List.getElem?_zip_eq_some.mp atPosition
      obtain ⟨answer, rfl, ok⟩ : ∃ answer, result = some answer
          ∧ ProduceStatus.enumValueOrDefault answer.status = .ok := by
        cases result with
        | none => cases terminal
        | some answer =>
          simp only [terminalResult] at terminal
          split at terminal <;> simp_all
      have status := status_ok_of_known
        (known _ (List.mem_of_getElem? resultHere) answer rfl) ok
      refine ⟨⟨task, position, answer.status⟩, List.mem_append_right _ ?_, status,
        { state with
          phase := .retrying (retryable (state.batches.zip (groupResults state.batches response))) },
        batch, by simp [ProducerWorld.groupAnswered], batchHere, inside⟩
      refine List.mem_filterMap.mpr ⟨(some answer, position), ?_, rfl⟩
      exact List.mem_zipIdx_iff_getElem?.mpr resultHere
  · refine pending_update sound ?_
    rintro pending position retry answer ⟨⟩ member initial
    obtain ⟨⟨⟨batch, result⟩, index⟩, -, kept⟩ := List.mem_filterMap.mp member
    simp only [Option.ite_none_right_eq_some, Option.isNone_iff_eq_none, Option.some.injEq,
      Prod.mk.injEq] at kept
    obtain ⟨retries, -, rfl⟩ := kept
    simp only at initial
    subst initial
    intro ok
    simp [terminalResult, ok] at retries

variable {retry : RetryState} {turn : RetryTurn}

/-- A retry loop ends in success only on a response it read as success. -/
theorem turn_ok {ack : ProducerAck}
    (turned : retry.turn config batch turn = some (.finished (.ok ack))) :
    (∃ response, retry.initialResponse = some response
        ∧ ProduceStatus.enumValueOrDefault response.status = .ok)
      ∨ ∃ status, turn.received = some status ∧ ProduceStatus.enumValueOrDefault status = .ok := by
  have interpreted {attempts : Nat} {response : ProduceBatchResponse}
      (finished : interpretResponse batch attempts response = .finished (.ok ack)) :
      ProduceStatus.enumValueOrDefault response.status = .ok := by
    unfold interpretResponse at finished
    split at finished <;> simp_all
  unfold RetryState.turn at turned
  split at turned
  · simp at turned
  · split at turned
    · simp at turned
    · simp at turned
    next response initial =>
      simp only [Option.some.injEq] at turned
      exact Or.inl ⟨response, initial, interpreted turned⟩
    · simp at turned
    next response initial =>
      simp only at turned
      split at turned
      next answer sent =>
        simp only [Option.some.injEq] at turned
        refine Or.inr ⟨answer.status, ?_, interpreted turned⟩
        unfold sendSingleBatchRequest at sent
        split at sent
        · cases sent
        · cases sent
          rfl
        · cases sent
      · simp at turned
      · simp at turned
    · cases turned

/-- A loop that goes on has used up the grouped result. -/
theorem turn_again {next : RetryState}
    (turned : retry.turn config batch turn = some (.again next)) : next.initialResponse = none := by
  have interpreted {attempts : Nat} {response : ProduceBatchResponse}
      (goesOn : interpretResponse batch attempts response = .again next) :
      next.initialResponse = none := by
    unfold interpretResponse at goesOn
    split at goesOn <;> cases goesOn <;> rfl
  unfold RetryState.turn at turned
  split at turned
  · simp at turned
  · split at turned
    · simp at turned
    · simp at turned
    · exact interpreted (Option.some.inj turned)
    · simp at turned
    · simp only at turned
      split at turned
      · exact interpreted (Option.some.inj turned)
      · cases turned
        rfl
      · simp at turned
    · cases turned

variable {position : Nat} {pending : List (Nat × RetryState)}

theorem AckSound.retried (sound : AckSound world) {outcome : RetryOutcome}
    (present : world.tasks task = some state) (phase : state.phase = .retrying pending)
    (mine : (position, retry) ∈ pending) (here : state.batches[position]? = some batch)
    (turned : retry.turn config batch turn = some outcome)
    (known : turn.received.all isKnownStatus = true) :
    AckSound (world.retried task position state pending batch turn outcome) := by
  cases outcome with
  | again next =>
    refine ⟨fun bulk slot ok => ?_, ?_⟩
    · refine (sound.slots bulk slot ok).mono (tasks_update present rfl) fun entry member => ?_
      exact List.mem_append_left _ member
    · refine pending_update sound ?_
      rintro entries index entry response ⟨⟩ member initial
      obtain ⟨⟨earlier, kept⟩, stored, moved⟩ := List.mem_map.mp member
      split at moved
      · cases moved
        rw [turn_again turned] at initial
        cases initial
      · cases moved
        exact sound.pending task state pending index entry response present phase stored initial
  | finished result =>
    refine ⟨fun bulk slot ok => ?_, ?_⟩
    · rcases notifyCompletions_slotOk ok with before | ⟨inside, ack, rfl⟩
      · refine (sound.slots bulk slot before).mono (tasks_update present rfl) fun entry member => ?_
        exact List.mem_append_left _ member
      · rcases turn_ok turned with ⟨response, initial, ok⟩ | ⟨status, received, ok⟩
        · exact absurd ok
            (sound.pending task state pending position retry response present phase mine initial)
        · rw [received] at known
          have exact_ := status_ok_of_known (by simpa using known) ok
          refine ⟨⟨task, position, status⟩, List.mem_append_right _ ?_, exact_,
            { state with
              phase := .retrying (pending.filter fun entry => entry.1 ≠ position) }, batch, by
                simp [ProducerWorld.retried, ProducerWorld.setTask], here, inside⟩
          simp [received]
    · refine pending_update sound ?_
      rintro entries index entry response ⟨⟩ member initial
      have stored := (List.mem_filter.mp member).1
      exact sound.pending task state pending index entry response present phase stored initial

theorem mem_of_lookup (found : pending.lookup position = some retry) :
    (position, retry) ∈ pending := by
  obtain ⟨before, rest, rfl, -⟩ := List.lookup_eq_some_iff.mp found
  simp

/-- A step that changes result vectors without reporting success. -/
theorem AckSound.setBulks (sound : AckSound world) {bulks : Bulks}
    (kept : ∀ bulk slot, SlotOk bulks bulk slot → SlotOk world.bulks bulk slot) :
    AckSound { world with bulks := bulks } :=
  ⟨fun bulk slot ok => sound.slots bulk slot (kept bulk slot ok), sound.pending⟩

theorem ackSound_step {action : ProducerAction} (sound : AckSound world)
    (meets : statusContract world action = true)
    (stepped : producerStep config world action = some after) : AckSound after := by
  cases action <;> simp only [producerStep] at stepped
  case produce bulk errors =>
    obtain ⟨-, rfl⟩ := Machine.enabled stepped
    refine sound.setBulks fun other slot ok => ?_
    obtain ⟨completion, present, reports⟩ := ok
    by_cases same : other = bulk
    · subst same
      simp only [Function.update_self, Option.some.injEq] at present
      subst present
      rcases reports with ⟨ack, filled⟩ | ⟨delivered, ack, sent, _⟩
      · simp only [List.getElem?_map, Option.map_eq_some_iff] at filled
        obtain ⟨error?, -, error, -, impossible⟩ := filled
        cases impossible
      · cases sent
    · rw [Function.update_of_ne same] at present
      exact ⟨completion, present, reports⟩
  case dispatch task batches =>
    obtain ⟨absent, rfl⟩ := Machine.enabled stepped
    refine ⟨fun bulk slot ok => ?_, pending_update sound (by simp)⟩
    refine (sound.slots bulk slot ok).mono (fun other state present => ?_) fun _ member => member
    have different : other ≠ task := by
      rintro rfl
      rw [absent] at present
      cases present
    exact ⟨state, by simp [ProducerWorld.setTask, different, present], rfl⟩
  case permitRefused task error =>
    split at stepped
    next state present =>
      obtain ⟨-, rfl⟩ := Machine.enabled stepped
      exact sound.failGroup present error
    next => cases stepped
  case permitGranted task =>
    split at stepped
    next state present =>
      obtain ⟨-, rfl⟩ := Machine.enabled stepped
      refine ⟨fun bulk slot ok => ?_, pending_update sound (by simp)⟩
      exact (sound.slots bulk slot ok).mono (tasks_update present rfl) fun _ member => member
    next => cases stepped
  case deadlineBeforeSend task =>
    split at stepped
    next state present =>
      obtain ⟨-, rfl⟩ := Machine.enabled stepped
      exact sound.failGroup present _
    next => cases stepped
  case groupAnswered task response =>
    split at stepped
    next state present =>
      obtain ⟨-, rfl⟩ := Machine.enabled stepped
      refine sound.groupAnswered present ?_
      intro result member answer answered
      simp only [statusContract, present, Option.all_some, List.all_eq_true] at meets
      have known := meets result member
      rw [answered] at known
      exact known
    next => cases stepped
  case retryTurn task position turn =>
    split at stepped
    next state present =>
      split at stepped
      next pending phase =>
        split at stepped
        next retry batch found here =>
          obtain ⟨outcome, turned, rfl⟩ := Option.map_eq_some_iff.mp stepped
          exact sound.retried present phase (mem_of_lookup found) here turned meets
        next => cases stepped
      next => cases stepped
    next => cases stepped
  case dropBulk bulk =>
    cases stepped
    refine sound.setBulks fun other slot ok => ?_
    obtain ⟨completion, present, reports⟩ := ok
    by_cases same : other = bulk
    · subst same
      simp only [Function.update_self, Option.map_eq_some_iff] at present
      obtain ⟨before, stored, rfl⟩ := present
      exact ⟨before, stored, BulkCompletion.drop_okAt reports⟩
    · rw [Function.update_of_ne same] at present
      exact ⟨completion, present, reports⟩

/-- In every run in which all deciding statuses are known, a slot reports success only after
`PRODUCE_STATUS_OK` was received for a batch with its record. -/
theorem ack_means_ok (config : DispatchConfig) {world : ProducerWorld}
    (reached : Machine.Reachable (producerStep config)
      (fun world action => statusContract world action = true) {} world)
    (bulk : BulkId) (slot : Nat) (ok : SlotOk world.bulks bulk slot) :
    Acknowledged world bulk slot := by
  have initial : AckSound {} := by
    refine ⟨?_, by simp⟩
    rintro bulk slot ⟨completion, present, -⟩
    cases present
  have sound := reached.invariant initial
    fun _ _ _ before meets stepped => ackSound_step before meets stepped
  exact sound.slots bulk slot ok

end Steps

/-! ### A status from a newer broker -/

def oneTopic : DispatchConfig where
  topics := ["orders"]
  retryDeadlineMs := 1000

/-- One record is produced and sent, and the broker answers with the given status. -/
def answeredWith (status : Int) : List ProducerAction :=
  [.produce 0 [none], .dispatch 0 [⟨"orders", 0, [(0, 0)]⟩], .permitGranted 0,
    .groupAnswered 0 (.ok [{ status := status }])]

def firstResult (world : ProducerWorld) : Option ProduceResult :=
  (world.bulks 0).bind fun bulk => bulk.delivered.bind fun results => results[0]?

theorem slotOk_of_firstResult {world : ProducerWorld} {ack : ProducerAck}
    (first : firstResult world = some (.ok ack)) : SlotOk world.bulks 0 0 := by
  obtain ⟨bulk, present, rest⟩ := Option.bind_eq_some_iff.mp first
  obtain ⟨results, delivered, here⟩ := Option.bind_eq_some_iff.mp rest
  exact ⟨bulk, present, Or.inr ⟨results, ack, delivered, here⟩⟩

/-- A status outside the enum is reported as success. -/
theorem ack_without_ok :
    ¬ ∀ (config : DispatchConfig) (world : ProducerWorld),
      Machine.Reachable (producerStep config) Machine.anyAction {} world →
      ∀ bulk slot, SlotOk world.bulks bulk slot → Acknowledged world bulk slot := by
  intro means
  have observed : (Machine.run (producerStep oneTopic) {} (answeredWith 7)).map
      (fun world => (firstResult world, world.received))
      = some (some (.ok ⟨"orders", 0, 1⟩), [⟨0, 0, 7⟩]) := by decide
  obtain ⟨world, executed, facts⟩ := Option.map_eq_some_iff.mp observed
  simp only [Prod.mk.injEq] at facts
  obtain ⟨first, received⟩ := facts
  have reached := Machine.reachable_of_run (Machine.runAllowed_anyAction _ _ _) executed
  obtain ⟨entry, member, status, -⟩ := means oneTopic world reached 0 0 (slotOk_of_firstResult first)
  rw [received] at member
  rw [List.mem_singleton.mp member] at status
  exact absurd status (by decide)

/-- With a known status the acknowledgement comes from the broker. -/
theorem ack_means_ok_known :
    ∃ world, Machine.Reachable (producerStep oneTopic)
        (fun world action => statusContract world action = true) {} world
      ∧ SlotOk world.bulks 0 0 ∧ Acknowledged world 0 0 := by
  have allowed : Machine.RunAllowed (producerStep oneTopic)
      (fun world action => statusContract world action = true) {} (answeredWith 0) := by decide
  have observed : (Machine.run (producerStep oneTopic) {} (answeredWith 0)).map firstResult
      = some (some (.ok ⟨"orders", 0, 1⟩)) := by decide
  obtain ⟨world, executed, first⟩ := Option.map_eq_some_iff.mp observed
  have reached := Machine.reachable_of_run allowed executed
  have ok := slotOk_of_firstResult first
  exact ⟨world, reached, ok, ack_means_ok oneTopic reached 0 0 ok⟩

end BlobStream.Producer
