import BlobStream.Write.FlushPlanning
import BlobStream.Write.FlushTurns
import BlobStream.Write.OwnOrder

/-!
# An acknowledgement implies durability

A waiter of a flush task is told success only when a metadata row with its partition was written
after the object that row names, and the row's entry covers the waiter's batch and selects exactly
the partition's encoded payload. Every task ends, and then every waiter has been told once.
-/

namespace BlobStream.Write

open Machine

def FlushPlan.Encodes (codec : Codec) (config : SegmentConfig) (plan : FlushPlan)
    (encoded : EncodedPartition) : Prop :=
  ∃ topicPlan ∈ plan.topics, ∃ partition ∈ topicPlan.partitions,
    encodePartition codec config topicPlan partition = .ok encoded

/-- The log has an object and, after it, a row that describes the partition in that object. -/
def Published (source : EncodedPartition → Prop) (log : List StorageEvent) (topic : Topic)
    (virtualPartitionId : VirtualPartitionId) : Prop :=
  ∃ earlier metadata fences later object entry encoded,
    log = earlier ++ StorageEvent.row metadata fences :: later
      ∧ StorageEvent.put metadata.blobKey object ∈ earlier
      ∧ metadata.window.topic = topic
      ∧ metadata.segmentIndex.lookup virtualPartitionId = some entry
      ∧ source encoded ∧ encoded.topic = topic ∧ encoded.virtualPartitionId = virtualPartitionId
      ∧ entry.seqRange = encoded.metadata.seqRange
      ∧ entry.byteRange.select object = encoded.payload

def ResultsSound (source : EncodedPartition → Prop) (log : List StorageEvent)
    (results : List FlushPartitionResult) : Prop :=
  ∀ result ∈ results, result.error = none →
    Published source log result.topic result.virtualPartitionId

structure PublicationSound (source : EncodedPartition → Prop) (log : List StorageEvent)
    (publication : TopicPublication) (object : Bytes) : Prop where
  uploaded : StorageEvent.put publication.envelope.blobKey object ∈ log
  ready : AllPlaced source object publication.envelope.window.topic publication.ready
  waiting : AllPlaced source object publication.envelope.window.topic publication.waiting

def PhaseSound (source : EncodedPartition → Prop) (plan : FlushPlan) (log : List StorageEvent) :
    FlushPhase → Prop
  | .building remaining encoded failed =>
    (∀ pair ∈ remaining, pair.1 ∈ plan.topics ∧ pair.2 ∈ pair.1.partitions)
      ∧ (∀ partition ∈ encoded, source partition) ∧ ResultsSound source log failed
  | .identifying builders objects failed =>
    (∀ builder ∈ builders, BuilderSound source builder)
      ∧ (∀ object ∈ objects, ObjectSound source object) ∧ ResultsSound source log failed
  | .signalling _ objects failed =>
    (∀ object ∈ objects, ObjectSound source object) ∧ ResultsSound source log failed
  | .failing _ => True
  | .registering objects uploads results =>
    (∀ object ∈ objects, ObjectSound source object)
      ∧ (∀ object ∈ uploads, ObjectSound source object) ∧ ResultsSound source log results
  | .uploading uploads uploaded results =>
    (∀ object ∈ uploads, ObjectSound source object)
      ∧ (∀ object ∈ uploaded, ObjectSound source object
        ∧ StorageEvent.put object.blobKey object.payload ∈ log)
      ∧ ResultsSound source log results
  | .publishing publications results =>
    (∀ publication ∈ publications, ∃ object, PublicationSound source log publication object)
      ∧ ResultsSound source log results
  | .completing _ outcome => ResultsSound source log outcome.partitionResults
  | .done => True

/-- A waiter that was told success has a published partition; before the end nobody was told. -/
structure TaskSound (source : EncodedPartition → Prop) (plan : FlushPlan) (task : FlushTask) :
    Prop where
  same : task.plan = plan
  phase : PhaseSound source plan task.log task.phase
  silent : task.phase ≠ .done → task.resolved = []
  told : task.phase = .done →
    task.resolved.map Resolution.waiter = plan.waiters
  durable : ∀ resolution ∈ task.resolved, resolution.error = none →
    Published source task.log resolution.topic resolution.virtualPartitionId

variable {virtualPartitionId : VirtualPartitionId} {topic : Topic}

section Results

variable {source : EncodedPartition → Prop} {log : List StorageEvent}

theorem Published.append
    (published : Published source log topic virtualPartitionId) (more : List StorageEvent) :
    Published source (log ++ more) topic virtualPartitionId := by
  obtain ⟨earlier, metadata, fences, later, object, entry, encoded, rfl, rest⟩ := published
  exact ⟨earlier, metadata, fences, later ++ more, object, entry, encoded, by simp, rest⟩

variable {results : List FlushPartitionResult}

theorem ResultsSound.extend (sound : ResultsSound source log results) (more : List StorageEvent) :
    ResultsSound source (log ++ more) results :=
  fun result member ok => (sound result member ok).append more

theorem ResultsSound.append {added : List FlushPartitionResult}
    (sound : ResultsSound source log results) (new : ResultsSound source log added) :
    ResultsSound source log (results ++ added) := by
  intro result member
  rcases List.mem_append.mp member with old | fresh
  · exact sound result old
  · exact new result fresh

theorem resultsSound_of_errors (errors : ∀ result ∈ results, result.error ≠ none) :
    ResultsSound source log results :=
  fun result member ok => absurd ok (errors result member)

theorem resultsSound_failureResults (topics : List PersistedTopic) (error : FlushCompletionError) :
    ResultsSound source log (failureResults topics error) := by
  refine resultsSound_of_errors fun result member => ?_
  obtain ⟨topic, -, inTopic⟩ := List.mem_flatMap.mp member
  obtain ⟨entry, -, rfl⟩ := List.mem_map.mp inTopic
  exact Option.some_ne_none error

theorem lookup_ready {ready : PartitionMap PersistedPartition}
    (present : virtualPartitionId ∈ ready.map Prod.fst) :
    ∃ partition, (virtualPartitionId, partition) ∈ ready
      ∧ (ready.map fun entry => (entry.1, entry.2.metadata)).lookup virtualPartitionId
        = some partition.metadata := by
  induction ready with
  | nil => cases present
  | cons entry rest ih =>
    obtain ⟨id, partition⟩ := entry
    by_cases same : virtualPartitionId = id
    · subst same
      exact ⟨partition, List.mem_cons_self, by simp⟩
    · have later : virtualPartitionId ∈ rest.map Prod.fst := by simpa [same] using present
      obtain ⟨found, member, looked⟩ := ih later
      refine ⟨found, List.mem_cons_of_mem _ member, ?_⟩
      rw [List.map_cons, List.lookup_cons, beq_false_of_ne same]
      exact looked

/-- A written row publishes the ready partitions of its topic. -/
theorem PublicationSound.written {publication : TopicPublication} {object : Bytes}
    (sound : PublicationSound source log publication object) (publishedAt : Int) :
    ResultsSound source (log ++ [FlushTask.publicationRow publication publishedAt])
      (FlushTask.readyResults publication none) := by
  intro result member _
  obtain ⟨entry, inReady, rfl⟩ := List.mem_map.mp member
  obtain ⟨partition, here, looked⟩ := lookup_ready (List.mem_map.mpr ⟨entry, inReady, rfl⟩)
  obtain ⟨encoded, placed⟩ := sound.ready _ here
  exact ⟨log, _, _, [], object, partition.metadata, encoded, rfl, sound.uploaded, rfl, looked,
    placed.known, placed.sameTopic, placed.sameId, placed.range, placed.payload⟩

end Results

/-! ### Turns of a task -/

section Parts

variable {source : EncodedPartition → Prop} {log : List StorageEvent}

theorem AllPlaced.filter {object : Bytes}
    {partitions : PartitionMap PersistedPartition} (placed : AllPlaced source object topic partitions)
    (keep : VirtualPartitionId × PersistedPartition → Bool) :
    AllPlaced source object topic (partitions.filter keep) :=
  fun entry member => placed entry (List.mem_filter.mp member).1

theorem mem_of_lookup {α : Type} {entries : PartitionMap α}
    {value : α} (found : entries.lookup virtualPartitionId = some value) :
    (virtualPartitionId, value) ∈ entries := by
  obtain ⟨before, rest, rfl, -⟩ := List.lookup_eq_some_iff.mp found
  simp

theorem publications_set {publications : List TopicPublication} {position : Nat}
    {changed : TopicPublication}
    (published : ∀ publication ∈ publications, ∃ object, PublicationSound source log publication object)
    (sound : ∃ object, PublicationSound source log changed object) :
    ∀ publication ∈ publications.set position changed,
      ∃ object, PublicationSound source log publication object := by
  intro each member
  rcases List.mem_or_eq_of_mem_set member with old | rfl
  · exact published each old
  · exact sound

end Parts

section Turns

variable {codec : Codec} {config : SegmentConfig} {plan : FlushPlan} {task next : FlushTask}
variable {source : EncodedPartition → Prop} {log added : List StorageEvent}
variable {phase later : FlushPhase} {input : FlushInput} {effect : Option FlushEffect}

/-- Every turn keeps what its phase has established, as long as the partitions that are encoded
come from the source. -/
theorem phaseSound_turn (turn : FlushTask.Turn codec config plan phase input later added effect)
    (sound : PhaseSound source plan log phase)
    (known : ∀ remaining encoded failed, phase = .building remaining encoded failed →
      ∀ partition, plan.Encodes codec config partition → source partition) :
    PhaseSound source plan (log ++ added) later := by
  cases turn with
  | barrierFailed =>
    obtain ⟨remaining, encoded, results⟩ := sound
    refine ⟨fun pair member => remaining pair (List.mem_cons_of_mem _ member), encoded, ?_⟩
    exact (results.append (resultsSound_of_errors (by simp))).extend _
  | @encoded topicPlan partition rest _ failed section_ ok =>
    obtain ⟨remaining, encoded, results⟩ := sound
    obtain ⟨inPlan, inTopic⟩ := remaining _ List.mem_cons_self
    refine ⟨fun pair member => remaining pair (List.mem_cons_of_mem _ member), ?_, results.extend _⟩
    exact forall_append_singleton encoded
      (known _ _ _ rfl section_ ⟨topicPlan, inPlan, partition, inTopic, ok⟩)
  | encodeFailed => exact trivial
  | packed built =>
    exact ⟨objectBuilders_sound sound.2.1 built, by simp, sound.2.2.extend _⟩
  | @identified builder rest objects failed snowflakeId now =>
    obtain ⟨builders, finished, results⟩ := sound
    refine ⟨fun each member => builders each (List.mem_cons_of_mem _ member), ?_, results.extend _⟩
    exact forall_append_singleton finished
      ((builders builder List.mem_cons_self).finish config snowflakeId now)
  | identityFailed => exact trivial
  | allIdentified => exact ⟨sound.2.1, sound.2.2.extend _⟩
  | signalled => exact ⟨sound.1, sound.2.extend _⟩
  | allSignalled => exact ⟨sound.1, by simp, sound.2.extend _⟩
  | failureSignalled => exact trivial
  | allFailed | registerAborted | publishAborted => exact fun _ member => by cases member
  | registerLate =>
    obtain ⟨objects, registered, results⟩ := sound
    refine ⟨fun each member => objects each (List.mem_cons_of_mem _ member), registered, ?_⟩
    exact (results.append (resultsSound_failureResults _ _)).extend _
  | registered =>
    obtain ⟨objects, registered, results⟩ := sound
    refine ⟨fun each member => objects each (List.mem_cons_of_mem _ member), ?_, results.extend _⟩
    exact forall_append_singleton registered (objects _ List.mem_cons_self)
  | allRegistered => exact ⟨sound.2.1, by simp, sound.2.2.extend _⟩
  | @uploaded uploads uploaded results position object found =>
    obtain ⟨pending, stored, told⟩ := sound
    refine ⟨fun each member => pending each (List.mem_of_mem_eraseIdx member), ?_, told.extend _⟩
    refine forall_append_singleton (fun each member => ?_) ?_
    · exact (stored each member).imp_right (List.mem_append_left _)
    · exact ⟨pending object (List.mem_of_getElem? found), by simp⟩
  | uploadFailed found =>
    obtain ⟨pending, stored, told⟩ := sound
    refine ⟨fun each member => pending each (List.mem_of_mem_eraseIdx member), ?_, ?_⟩
    · exact fun each member => (stored each member).imp_right (List.mem_append_left _)
    · exact (told.append (resultsSound_failureResults _ _)).extend _
  | allUploaded =>
    refine ⟨fun publication member => ?_, sound.2.2.extend _⟩
    obtain ⟨object, inUploaded, inObject⟩ := List.mem_flatMap.mp member
    obtain ⟨topic, inTopics, rfl⟩ := List.mem_map.mp inObject
    obtain ⟨objectSound, stored⟩ := sound.2.1 object inUploaded
    obtain ⟨named, placed⟩ := objectSound topic inTopics
    refine ⟨object.payload, ?_, placed.filter _, placed.filter _⟩
    show StorageEvent.put topic.envelope.blobKey object.payload ∈ _
    rw [named]
    exact List.mem_append_left _ stored
  | @predecessorEnded publications results position publication virtualPartitionId partition found
      waits =>
    obtain ⟨object, here⟩ := sound.1 publication (List.mem_of_getElem? found)
    rw [List.append_nil]
    refine ⟨publications_set sound.1 ⟨object, here.uploaded, ?_, here.waiting.filter _⟩, sound.2⟩
    exact forall_append_singleton here.ready (here.waiting _ (mem_of_lookup waits))
  | @predecessorFailed publications results position publication _ _ error found waits =>
    obtain ⟨object, here⟩ := sound.1 publication (List.mem_of_getElem? found)
    rw [List.append_nil]
    refine ⟨publications_set sound.1 ⟨object, here.uploaded, here.ready, here.waiting.filter _⟩, ?_⟩
    exact sound.2.append (resultsSound_of_errors (by simp))
  | nothingReady found =>
    rw [List.append_nil]
    exact ⟨fun each member => sound.1 each (List.mem_of_mem_eraseIdx member), sound.2⟩
  | @written publications results position publication publishedAt found =>
    obtain ⟨object, here⟩ := sound.1 publication (List.mem_of_getElem? found)
    refine ⟨fun each member => ?_, (sound.2.extend _).append (here.written publishedAt)⟩
    obtain ⟨stored, eachSound⟩ := sound.1 each (List.mem_of_mem_eraseIdx member)
    exact ⟨stored, { eachSound with uploaded := List.mem_append_left _ eachSound.uploaded }⟩
  | notWritten found =>
    rw [List.append_nil]
    refine ⟨fun each member => sound.1 each (List.mem_of_mem_eraseIdx member),
      sound.2.append (resultsSound_of_errors fun result member => ?_)⟩
    obtain ⟨entry, -, rfl⟩ := List.mem_map.mp member
    exact Option.some_ne_none _
  | @allPublished results =>
    rw [List.append_nil]
    exact fun result member => sound.2 result ((List.perm_insertionSort _ results).mem_iff.mp member)
  | completed =>
    rw [List.append_nil]
    exact sound
  | notified => exact trivial

variable {results : List FlushPartitionResult} {α : Type} {items : List α} {position : Nat}
variable {item : α}

/-- The lookup by partition finds success only among the results. -/
theorem partitionResultError_none {fallbackError : FlushCompletionError}
    (ok : partitionResultError results topic virtualPartitionId fallbackError = none) :
    ∃ result ∈ results, result.topic = topic ∧ result.virtualPartitionId = virtualPartitionId
      ∧ result.error = none := by
  unfold partitionResultError at ok
  split at ok
  · cases ok
  next result found =>
    have matched := List.find?_some found
    simp only [Bool.and_eq_true, decide_eq_true_eq] at matched
    exact ⟨result, List.mem_of_find?_eq_some found, matched.1, matched.2, ok⟩

theorem taskSound_took (sound : TaskSound (plan.Encodes codec config) plan task)
    (took : FlushTask.Took codec config task input next effect) :
    TaskSound (plan.Encodes codec config) plan next := by
  obtain ⟨added, logged, turn⟩ := took.turn
  have running : task.phase ≠ .done := by
    intro ended
    rw [ended] at turn
    cases turn
  rw [sound.same] at turn
  refine ⟨took.plan.trans sound.same, ?_, ?_, ?_, ?_⟩
  · rw [logged]
    exact phaseSound_turn turn sound.phase fun _ _ _ _ _ encodes => encodes
  · intro unfinished
    rcases took.resolved with ⟨-, same⟩ | ⟨_, -, ended, -⟩
    · rw [same]
      exact sound.silent running
    · exact absurd ended unfinished
  · intro finished
    rcases took.resolved with ⟨unfinished, -⟩ | ⟨outcome, -, -, told⟩
    · exact absurd finished unfinished
    · rw [told]
      simp only [FlushTask.notify, List.map_map, sound.same]
      exact List.map_id _
  · intro resolution member ok
    rw [logged]
    rcases took.resolved with ⟨-, same⟩ | ⟨outcome, completing, -, told⟩
    · rw [same] at member
      exact (sound.durable resolution member ok).append added
    · -- The waiters are told the results of the outcome.
      rw [told] at member
      obtain ⟨⟨topic, id, completion⟩, -, rfl⟩ := List.mem_map.mp member
      obtain ⟨result, inResults, rfl, rfl, succeeded⟩ := partitionResultError_none ok
      have established := sound.phase
      rw [completing] at established
      exact (established result inResults succeeded).append added

theorem taskSound_start (plan : FlushPlan) (source : EncodedPartition → Prop) :
    TaskSound source plan (.start plan) where
  same := rfl
  phase := by
    refine ⟨?_, by simp, fun _ member => by cases member⟩
    intro pair member
    obtain ⟨topicPlan, inPlan, inTopic⟩ := List.mem_flatMap.mp member
    obtain ⟨partition, present, rfl⟩ := List.mem_map.mp inTopic
    exact ⟨inPlan, present⟩
  silent := fun _ => rfl
  told := fun finished => by cases finished
  durable := fun _ member => by cases member

theorem run_took (ran : task.run codec config input = some next) :
    ∃ effect, FlushTask.Took codec config task input next effect := by
  obtain ⟨⟨after, effect⟩, stepped, rfl⟩ := Option.map_eq_some_iff.mp ran
  exact ⟨effect, FlushTask.step_took stepped⟩

theorem taskSound_reachable
    (ran : Reachable (FlushTask.run codec config) anyAction (.start plan) task) :
    TaskSound (plan.Encodes codec config) plan task := by
  refine ran.invariant (taskSound_start plan _) fun _ _ _ sound _ stepped => ?_
  obtain ⟨effect, took⟩ := run_took stepped
  exact taskSound_took sound took

/-! ### Tasks end -/

def FlushPhase.rank : FlushPhase → Nat
  | .building .. => 8
  | .identifying .. => 7
  | .signalling .. => 6
  | .registering .. => 5
  | .uploading .. => 4
  | .publishing .. => 3
  | .failing .. => 2
  | .completing .. => 1
  | .done => 0

def FlushPhase.work : FlushPhase → Nat
  | .building remaining _ _ => remaining.length
  | .identifying builders _ _ => builders.length
  | .signalling completions _ _ => completions.length
  | .registering objects _ _ => objects.length
  | .uploading uploads _ _ => uploads.length
  | .publishing publications _ =>
    (publications.map fun publication => publication.waiting.length + 1).sum
  | .failing completions => completions.length
  | .completing completions _ => completions.length
  | .done => 0

/-- A phase is later, or the same one with less work. -/
def FlushPhase.Before (after before : FlushPhase) : Prop :=
  Prod.Lex (· < ·) (· < ·) (after.rank, after.work) (before.rank, before.work)

theorem FlushPhase.before_wf : WellFounded FlushPhase.Before :=
  InvImage.wf (fun phase : FlushPhase => (phase.rank, phase.work))
    (Prod.lex ⟨_, Nat.lt_wfRel.wf⟩ ⟨_, Nat.lt_wfRel.wf⟩).wf

variable {after before : FlushPhase}

theorem FlushPhase.Before.of_rank (later : after.rank < before.rank) : after.Before before :=
  .left _ _ later

theorem FlushPhase.Before.of_work (same : after.rank = before.rank)
    (less : after.work < before.work) : after.Before before := by
  unfold FlushPhase.Before
  rw [same]
  exact .right _ less

theorem cons_eraseIdx (found : items[position]? = some item) :
    (item :: items.eraseIdx position).Perm items := by
  obtain ⟨inside, rfl⟩ := List.getElem?_eq_some_iff.mp found
  exact List.getElem_cons_eraseIdx_perm inside

theorem sum_eraseIdx (weight : α → Nat) (found : items[position]? = some item) :
    ((items.eraseIdx position).map weight).sum + weight item = (items.map weight).sum := by
  rw [← ((cons_eraseIdx found).map weight).sum_eq, List.map_cons, List.sum_cons, Nat.add_comm]

/-- Replacing an entry exchanges it for the new one. -/
theorem cons_set (found : items[position]? = some item) (changed : α) :
    (item :: items.set position changed).Perm (changed :: items) := by
  have inside := (List.getElem?_eq_some_iff.mp found).1
  exact ((List.set_perm_cons_eraseIdx inside changed).cons item).trans
    ((List.Perm.swap ..).trans ((cons_eraseIdx found).cons changed))

theorem sum_set (weight : α → Nat) (found : items[position]? = some item) (changed : α) :
    ((items.set position changed).map weight).sum + weight item
      = (items.map weight).sum + weight changed := by
  have total := ((cons_set found changed).map weight).sum_eq
  simp only [List.map_cons, List.sum_cons] at total
  omega

theorem length_filter_lookup {entries : PartitionMap α}
    {value : α} (found : entries.lookup virtualPartitionId = some value) :
    (entries.filter fun entry => entry.1 ≠ virtualPartitionId).length < entries.length := by
  refine List.length_filter_lt_length_iff_exists.mpr ⟨_, mem_of_lookup found, ?_⟩
  simp

theorem eraseIdx_shorter (found : items[position]? = some item) :
    (items.eraseIdx position).length < items.length := by
  obtain ⟨inside, -⟩ := List.getElem?_eq_some_iff.mp found
  rw [List.length_eraseIdx_of_lt inside]
  omega

/-- Every turn goes on to a later phase, or leaves less work. -/
theorem turn_before (turn : FlushTask.Turn codec config plan phase input later added effect) :
    later.Before phase := by
  cases turn with
  | uploaded found => exact .of_work rfl (eraseIdx_shorter found)
  | uploadFailed found => exact .of_work rfl (eraseIdx_shorter found)
  | predecessorEnded found waits | predecessorFailed found waits =>
    have less := length_filter_lookup waits
    refine .of_work rfl (Nat.lt_of_add_lt_add_right ((sum_set _ found _).trans_lt ?_))
    simp only [FlushPhase.work]
    omega
  | nothingReady found | written found | notWritten found =>
    have total := sum_eraseIdx (fun each : TopicPublication => each.waiting.length + 1) found
    refine .of_work rfl ?_
    simp only [FlushPhase.work]
    omega
  | _ =>
    -- Either the first item of the phase is done, or the next phase begins.
    first
    | exact .of_work rfl (Nat.lt_succ_self _)
    | exact .of_rank (by simp [FlushPhase.rank, FlushTask.aborted])

/-- A task that has not ended can move, whatever its environment answers next. -/
theorem exists_move (codec : Codec) (config : SegmentConfig) {task : FlushTask}
    (unfinished : task.phase ≠ .done) :
    ∃ input, (task.run codec config input).isSome := by
  cases phase : task.phase with
  | building remaining encoded failed =>
    cases remaining with
    | nil =>
      refine ⟨.proceed, ?_⟩
      have packed : (objectBuilders encoded task.plan.maxSegmentBytes).isSome := by
        rw [objectBuilders, Option.isSome_map]
        exact Packing.targetFillObjectGroups_isSome _ _
      simpa [FlushTask.run, FlushTask.step, FlushTask.proceed, phase] using packed
    | cons pair rest =>
      exact ⟨.identity (some .internal), by
        simp [FlushTask.run, FlushTask.step, FlushTask.identity, phase]⟩
  | identifying builders objects failed =>
    cases builders with
    | nil => exact ⟨.proceed, by simp [FlushTask.run, FlushTask.step, FlushTask.proceed, phase]⟩
    | cons builder rest =>
      exact ⟨.segmentId none, by simp [FlushTask.run, FlushTask.step, FlushTask.segmentId, phase]⟩
  | signalling completions objects failed | failing completions =>
    cases completions with
    | nil => exact ⟨.proceed, by simp [FlushTask.run, FlushTask.step, FlushTask.proceed, phase]⟩
    | cons completion rest =>
      exact ⟨.signal, by simp [FlushTask.run, FlushTask.step, FlushTask.signal, phase]⟩
  | registering objects uploads results =>
    cases objects with
    | nil => exact ⟨.proceed, by simp [FlushTask.run, FlushTask.step, FlushTask.proceed, phase]⟩
    | cons object rest =>
      refine ⟨.register true, ?_⟩
      by_cases negative : object.publicationBudget < 0 <;>
        simp [FlushTask.run, FlushTask.step, FlushTask.register, phase, negative]
  | uploading uploads uploaded results =>
    cases uploads with
    | nil => exact ⟨.proceed, by simp [FlushTask.run, FlushTask.step, FlushTask.proceed, phase]⟩
    | cons object rest =>
      exact ⟨.upload 0 false, by simp [FlushTask.run, FlushTask.step, FlushTask.upload, phase]⟩
  | publishing publications results =>
    cases publications with
    | nil => exact ⟨.proceed, by simp [FlushTask.run, FlushTask.step, FlushTask.proceed, phase]⟩
    | cons publication rest =>
      cases waiting : publication.waiting with
      | nil =>
        refine ⟨.publish 0 .semaphoreClosed, ?_⟩
        by_cases empty : publication.ready.isEmpty <;>
          simp [FlushTask.run, FlushTask.step, FlushTask.publish, phase, waiting, empty]
      | cons entry others =>
        obtain ⟨id, partition⟩ := entry
        exact ⟨.predecessor 0 id (some .internal), by
          simp [FlushTask.run, FlushTask.step, FlushTask.predecessor, phase, waiting]⟩
  | completing completions outcome =>
    cases completions with
    | nil => exact ⟨.proceed, by simp [FlushTask.run, FlushTask.step, FlushTask.proceed, phase]⟩
    | cons completion rest =>
      exact ⟨.complete, by simp [FlushTask.run, FlushTask.step, FlushTask.complete, phase]⟩
  | done => exact absurd phase unfinished

theorem moves_wf (codec : Codec) (config : SegmentConfig) :
    WellFounded fun next task : FlushTask => ∃ input, task.run codec config input = some next :=
  Subrelation.wf (fun ⟨_, stepped⟩ => by
      obtain ⟨_, took⟩ := run_took stepped
      obtain ⟨_, -, turn⟩ := took.turn
      exact turn_before turn)
    (InvImage.wf FlushTask.phase FlushPhase.before_wf)

end Turns

/-! ### Batches of a collected plan -/

theorem mergeLoop_covers {rest : List BufferedBatch} :
    ∀ {merged final : MergedPartition},
      rest.foldlM (mergeBatch virtualPartitionId) merged = .ok final →
      (∀ batch ∈ rest, batch.seqRange.start ≤ batch.seqRange.end) →
      merged.seqRange.start ≤ merged.seqRange.end →
      final.seqRange.start = merged.seqRange.start ∧ merged.seqRange.end ≤ final.seqRange.end
        ∧ ∀ batch ∈ rest, merged.seqRange.start ≤ batch.seqRange.start
          ∧ batch.seqRange.end ≤ final.seqRange.end := by
  induction rest with
  | nil =>
    intro merged final folded _ _
    cases folded
    exact ⟨rfl, Nat.le_refl _, by simp⟩
  | cons batch rest ih =>
    intro merged final folded valid ordered
    rw [List.foldlM_cons] at folded
    cases turn : mergeBatch virtualPartitionId merged batch with
    | error error =>
      rw [turn] at folded
      cases folded
    | ok next =>
      rw [turn] at folded
      obtain ⟨continues, -, range⟩ := mergeBatch_ok turn
      have here := valid batch List.mem_cons_self
      have starts : next.seqRange.start = merged.seqRange.start := by rw [range]
      have ends : next.seqRange.end = batch.seqRange.end := by rw [range]
      obtain ⟨first, last, covered⟩ := ih folded
        (fun each member => valid each (List.mem_cons_of_mem _ member)) (by omega)
      refine ⟨by omega, by omega, fun each member => ?_⟩
      rcases List.mem_cons.mp member with rfl | later
      · exact ⟨by omega, by omega⟩
      · obtain ⟨low, high⟩ := covered each later
        exact ⟨by omega, high⟩

variable {partition : FlushPartition} {topicPlan : TopicFlushPlan}

theorem mergePartitionBatches_covers {merged : MergedPartition}
    (ok : mergePartitionBatches partition = .ok merged)
    (valid : ∀ batch ∈ partition.batches, batch.seqRange.start ≤ batch.seqRange.end) :
    ∀ batch ∈ partition.batches, merged.seqRange.start ≤ batch.seqRange.start
      ∧ batch.seqRange.end ≤ merged.seqRange.end := by
  unfold mergePartitionBatches at ok
  split at ok
  · cases ok
  next first rest batches =>
    rw [batches] at valid ⊢
    obtain ⟨starts, ends, covered⟩ := mergeLoop_covers ok
      (fun each member => valid each (List.mem_cons_of_mem _ member))
      (valid first List.mem_cons_self)
    intro batch member
    rcases List.mem_cons.mp member with rfl | later
    · exact ⟨Nat.le_of_eq starts, ends⟩
    · obtain ⟨low, high⟩ := covered batch later
      exact ⟨by rw [starts]; exact low, high⟩

variable {codec : Codec} {config : SegmentConfig}

theorem encodePartition_ok {plan : TopicFlushPlan} {encoded : EncodedPartition}
    (ok : encodePartition codec config plan partition = .ok encoded) :
    encoded.topic = plan.topic ∧ encoded.virtualPartitionId = partition.virtualPartitionId
      ∧ encoded.publicationPredecessor = partition.publicationPredecessor
      ∧ ∃ merged, mergePartitionBatches partition = .ok merged
        ∧ encodedPayload codec config partition merged = .ok encoded.payload
        ∧ encoded.metadata.seqRange = merged.seqRange := by
  unfold encodePartition at ok
  split at ok
  · cases ok
  · split at ok
    · cases ok
    next merged mergedOk =>
      split at ok
      · cases ok
      next payload payloadOk =>
        cases ok
        exact ⟨rfl, rfl, rfl, merged, mergedOk, payloadOk, rfl⟩

/-- The batch is durable: after the object with its partition's payload, a row was written whose
entry for the partition covers the batch and selects exactly that payload. -/
def BatchDurable (codec : Codec) (config : SegmentConfig) (log : List StorageEvent) (topic : Topic)
    (partition : FlushPartition) (batch : BufferedBatch) : Prop :=
  ∃ merged payload earlier metadata fences later object entry,
    mergePartitionBatches partition = .ok merged
      ∧ encodedPayload codec config partition merged = .ok payload
      ∧ log = earlier ++ StorageEvent.row metadata fences :: later
      ∧ StorageEvent.put metadata.blobKey object ∈ earlier
      ∧ metadata.window.topic = topic
      ∧ metadata.segmentIndex.lookup partition.virtualPartitionId = some entry
      ∧ entry.seqRange.start ≤ batch.seqRange.start ∧ batch.seqRange.end ≤ entry.seqRange.end
      ∧ entry.byteRange.select object = payload

/-- A plan as the scheduler collects it: no partition twice, and batches with proper ranges. -/
structure PlanSound (plan : FlushPlan) : Prop where
  distinct : (plan.opened.map Prod.fst).Nodup
  valid : ∀ epoch ∈ plan.opened, ∀ batch ∈ epoch.2.batches,
    batch.seqRange.start ≤ batch.seqRange.end

theorem mem_opened {plan : FlushPlan} (inPlan : topicPlan ∈ plan.topics)
    (inTopic : partition ∈ topicPlan.partitions) :
    (⟨topicPlan.topic, partition.virtualPartitionId⟩, partition) ∈ plan.opened :=
  List.mem_flatMap.mpr ⟨topicPlan, inPlan, List.mem_map.mpr ⟨partition, inTopic, rfl⟩⟩

/-- A published partition has a row whose entry covers all its batches. -/
theorem PlanSound.covers {plan : FlushPlan} (sound : PlanSound plan) {log : List StorageEvent}
    (inPlan : topicPlan ∈ plan.topics) (inTopic : partition ∈ topicPlan.partitions)
    (published : Published (plan.Encodes codec config) log topicPlan.topic
      partition.virtualPartitionId) :
    ∃ merged payload earlier metadata fences later object entry,
      mergePartitionBatches partition = .ok merged
        ∧ encodedPayload codec config partition merged = .ok payload
        ∧ log = earlier ++ StorageEvent.row metadata fences :: later
        ∧ StorageEvent.put metadata.blobKey object ∈ earlier
        ∧ metadata.window.topic = topicPlan.topic
        ∧ metadata.segmentIndex.lookup partition.virtualPartitionId = some entry
        ∧ entry.byteRange.select object = payload
        ∧ ∀ batch ∈ partition.batches, entry.seqRange.start ≤ batch.seqRange.start
          ∧ batch.seqRange.end ≤ entry.seqRange.end := by
  obtain ⟨earlier, metadata, fences, later, object, entry, encoded, split, stored, window, looked,
    ⟨otherTopic, otherInPlan, other, otherInTopic, encodes⟩, sameTopic, sameId, range, selects⟩ :=
    published
  obtain ⟨topicEq, idEq, -, merged, mergedOk, payloadOk, mergedRange⟩ := encodePartition_ok encodes
  -- The encoded partition and the given one have one key, so they are the same.
  have here := mem_opened inPlan inTopic
  have there := mem_opened otherInPlan otherInTopic
  rw [← topicEq, ← idEq, sameTopic, sameId] at there
  have same : other = partition := congrArg Prod.snd
    (List.inj_on_of_nodup_map sound.distinct there here rfl)
  subst same
  refine ⟨merged, encoded.payload, earlier, metadata, fences, later, object, entry, mergedOk,
    payloadOk, split, stored, window, looked, selects, ?_⟩
  rw [range, mergedRange]
  exact mergePartitionBatches_covers mergedOk (sound.valid _ here)

end BlobStream.Write

namespace BlobStream.Write.Cluster

open Machine

section Collected

variable {config : String → BrokerConfig} {clock : Int} {world : World}

theorem planSound_collected (reached : Reachable (step config) anyAction { clock := clock } world)
    {session : String} {request : CollectRequest} {plan : FlushPlan}
    (collected : (collectNextFlushPlan request (world.brokers session)).plan = some plan) :
    PlanSound plan := by
  obtain ⟨opened, takes, -, planned⟩ := collectNextFlushPlan_takes request (world.brokers session)
  obtain ⟨same, -⟩ := planned plan collected
  have sound := takes.accounted
  refine ⟨(same.map Prod.fst).nodup_iff.mp sound.distinct, ?_⟩
  intro epoch member batch inBatches
  obtain ⟨state, present, batches, -⟩ := sound.carried (same.mem_iff.mpr member)
  have own := ownSound_reachable reached session epoch.1
  rw [batches] at inBatches
  refine own.increasing.valid batch.seqRange ?_
  rw [handed, List.nil_append, View.partition_of_some present]
  exact List.mem_map.mpr ⟨batch, inBatches, rfl⟩

/-- For every plan the scheduler collects and every run of its flush task: a waiter is told success
only if its batch is durable; a task that has not ended has told nobody and can go on; no task goes
on forever; and a task that has ended has told every waiter once. -/
theorem acknowledged_durable
    (reached : Reachable (step config) anyAction { clock := clock } world) (session : String)
    (request : CollectRequest) {plan : FlushPlan}
    (collected : (collectNextFlushPlan request (world.brokers session)).plan = some plan)
    (codec : Codec) (segments : SegmentConfig) {task : FlushTask}
    (ran : Reachable (FlushTask.run codec segments) anyAction (.start plan) task) :
    (∀ topicPlan ∈ plan.topics, ∀ partition ∈ topicPlan.partitions, ∀ batch ∈ partition.batches,
      ∀ completion, batch.completion = some completion →
        ⟨topicPlan.topic, partition.virtualPartitionId, completion, none⟩ ∈ task.resolved →
        BatchDurable codec segments task.log topicPlan.topic partition batch)
    ∧ (task.phase ≠ .done →
        task.resolved = [] ∧ ∃ input, (task.run codec segments input).isSome)
    ∧ Acc (fun next task : FlushTask => ∃ input, task.run codec segments input = some next) task
    ∧ (task.phase = .done → task.resolved.map Resolution.waiter = plan.waiters) := by
  have planned := planSound_collected reached collected
  have sound := taskSound_reachable ran
  refine ⟨?_, ?_, (moves_wf codec segments).apply task, sound.told⟩
  · intro topicPlan inPlan partition inTopic batch inPartition completion _ told
    obtain ⟨merged, payload, earlier, metadata, fences, later, object, entry, mergedOk, payloadOk,
      split, stored, window, looked, selects, covers⟩ :=
      planned.covers inPlan inTopic (sound.durable _ told rfl)
    obtain ⟨low, high⟩ := covers batch inPartition
    exact ⟨merged, payload, earlier, metadata, fences, later, object, entry, mergedOk, payloadOk,
      split, stored, window, looked, low, high, selects⟩
  · intro unfinished
    exact ⟨sound.silent unfinished, exists_move codec segments unfinished⟩

end Collected

/-! ### One batch from the buffer to its acknowledgement -/

def plainCodec : Codec where
  encodeBatch _ records := some (records.flatMap Record.payload)
  zstd _ payload := some payload

def plainSegments : SegmentConfig where
  compression := ⟨.none, none⟩
  keyPrefix := ""

/-- A pass over one partition at a time when every buffer is due. -/
def duePass (now : Int) : CollectRequest where
  now := now
  flushConfig := ⟨1000, 10⟩
  fencedMetadataWrites := false
  maxSegmentBytes := 1000
  topics := fun _ => ⟨15, 300⟩
  partitionKeys := [orders]
  lastFlushTopic := none

def oneBatch : List Action :=
  .refreshAssignment "a" {orders} :: maintain "a" 0
    ++ [.produce "a" { emptyRecords 1 with records := [⟨[7], 0⟩], summary := ⟨1, 1⟩ } 0]

def smoothFlush : List FlushInput :=
  [.identity none, .proceed, .segmentId (some (5, 20)), .proceed, .signal, .proceed, .register false,
    .proceed, .upload 0 true, .proceed, .publish 0 (.written 21), .proceed, .complete, .proceed]

def oneBatchPartition : FlushPartition where
  virtualPartitionId := 0
  leaseFence := some ⟨"a", 1, "a"⟩
  batches := [⟨[⟨[7], 0⟩], ⟨1, 1⟩, ⟨0, 0⟩, some ⟨"a", 1, "a"⟩, some 0⟩]
  trigger := .maxDelay
  publicationPredecessor := none
  publicationState := 0

def oneBatchPlan : FlushPlan where
  topics := [⟨"orders", [oneBatchPartition], 15, 300, false⟩]
  maxSegmentBytes := 1000
  publicationCompletions := [⟨"orders", 0, 0⟩]

/-- A flush without failures acknowledges its batch, which is durable then. -/
theorem acknowledged_durable_smooth :
    ∃ world task,
      Reachable (step shortLeases) anyAction { clock := 0 } world
      ∧ (collectNextFlushPlan (duePass 20) (world.brokers "a")).plan = some oneBatchPlan
      ∧ Reachable (FlushTask.run plainCodec plainSegments) anyAction (.start oneBatchPlan) task
      ∧ task.resolved = [⟨"orders", 0, 0, none⟩]
      ∧ ∀ batch ∈ oneBatchPartition.batches,
          BatchDurable plainCodec plainSegments task.log "orders" oneBatchPartition batch := by
  have collects : (Machine.run (step shortLeases) { clock := 0 } oneBatch).map
      (fun world => (collectNextFlushPlan (duePass 20) (world.brokers "a")).plan)
      = some (some oneBatchPlan) := by decide
  have flushes : (Machine.run (FlushTask.run plainCodec plainSegments) (.start oneBatchPlan)
      smoothFlush).map FlushTask.resolved = some [⟨"orders", 0, 0, none⟩] := by decide
  obtain ⟨world, executed, collected⟩ := Option.map_eq_some_iff.mp collects
  obtain ⟨task, flushed, resolved⟩ := Option.map_eq_some_iff.mp flushes
  have reached := reachable_of_run (runAllowed_anyAction _ _ _) executed
  have ran := reachable_of_run (runAllowed_anyAction _ _ _) flushed
  refine ⟨world, task, reached, collected, ran, resolved, fun batch member => ?_⟩
  have durable := (acknowledged_durable reached "a" (duePass 20) collected plainCodec plainSegments ran).1
  refine durable _ (.head _) _ (.head _) batch member 0 ?_ ?_
  · rw [List.mem_singleton.mp member]
  · rw [resolved]
    exact .head _

end BlobStream.Write.Cluster
