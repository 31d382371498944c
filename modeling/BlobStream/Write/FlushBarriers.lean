import BlobStream.Write.Durability
import BlobStream.Write.EpochChain

/-!
# A flush task and its watch channels

What the watch channels of a task's epochs hold in each phase, which identities its objects can
carry, and when a partition becomes ready for its metadata row.
-/

namespace BlobStream.Write

open FlushTask (Turn)

/-! ### Identities -/

def PersistedObject.Identities (allowed : SnowflakeId → Prop) (object : PersistedObject) : Prop :=
  ∀ topic ∈ object.topics, allowed topic.envelope.snowflakeId

def FlushPhase.Identities (allowed : SnowflakeId → Prop) : FlushPhase → Prop
  | .identifying _ objects _ | .signalling _ objects _ =>
    ∀ object ∈ objects, object.Identities allowed
  | .registering objects uploads _ =>
    (∀ object ∈ objects, object.Identities allowed) ∧ ∀ object ∈ uploads, object.Identities allowed
  | .uploading uploads uploaded _ =>
    (∀ object ∈ uploads, object.Identities allowed) ∧ ∀ object ∈ uploaded, object.Identities allowed
  | .publishing publications _ =>
    ∀ publication ∈ publications, allowed publication.envelope.snowflakeId
  | _ => True

def RowIdentities (allowed : SnowflakeId → Prop) (log : List StorageEvent) : Prop :=
  ∀ metadata fences, StorageEvent.row metadata fences ∈ log → allowed metadata.snowflakeId

section Turns

variable {codec : Codec} {config : SegmentConfig} {plan : FlushPlan} {log added : List StorageEvent}
variable {phase later : FlushPhase} {input : FlushInput} {effect : Option FlushEffect}

theorem identities_turn {allowed : SnowflakeId → Prop}
    (turn : Turn codec config plan phase input later added effect)
    (identities : phase.Identities allowed)
    (generated : ∀ snowflakeId now, input = .segmentId (some (snowflakeId, now)) →
      allowed snowflakeId) :
    later.Identities allowed ∧ RowIdentities allowed added := by
  have silent : RowIdentities allowed [] := fun _ _ member => by cases member
  cases turn with
  | @identified builder rest objects failed snowflakeId now =>
    refine ⟨forall_append_singleton identities ?_, silent⟩
    intro topic member
    obtain ⟨section_, -, rfl⟩ := List.mem_map.mp member
    exact generated snowflakeId now rfl
  | packed built => exact ⟨by simp [FlushPhase.Identities], silent⟩
  | allIdentified => exact ⟨identities, silent⟩
  | signalled => exact ⟨identities, silent⟩
  | allSignalled => exact ⟨⟨identities, by simp⟩, silent⟩
  | registerLate =>
    exact ⟨⟨fun object member => identities.1 object (List.mem_cons_of_mem _ member), identities.2⟩,
      silent⟩
  | registered =>
    exact ⟨⟨fun object member => identities.1 object (List.mem_cons_of_mem _ member),
      forall_append_singleton identities.2 (identities.1 _ List.mem_cons_self)⟩, silent⟩
  | allRegistered => exact ⟨⟨identities.2, by simp⟩, silent⟩
  | uploaded found =>
    refine ⟨⟨fun object member => identities.1 object (List.mem_of_mem_eraseIdx member),
      forall_append_singleton identities.2 (identities.1 _ (List.mem_of_getElem? found))⟩, ?_⟩
    intro metadata fences member
    simp at member
  | uploadFailed found =>
    exact ⟨⟨fun object member => identities.1 object (List.mem_of_mem_eraseIdx member),
      identities.2⟩, silent⟩
  | allUploaded =>
    refine ⟨fun publication member => ?_, silent⟩
    obtain ⟨object, inUploaded, inObject⟩ := List.mem_flatMap.mp member
    obtain ⟨topic, inTopics, rfl⟩ := List.mem_map.mp inObject
    exact identities.2 object inUploaded topic inTopics
  | predecessorEnded found waits | predecessorFailed found waits =>
    have here := identities _ (List.mem_of_getElem? found)
    refine ⟨fun publication member => ?_, silent⟩
    rcases List.mem_or_eq_of_mem_set member with old | rfl
    · exact identities publication old
    · exact here
  | nothingReady | notWritten =>
    exact ⟨fun publication member => identities publication (List.mem_of_mem_eraseIdx member), silent⟩
  | @written publications results position publication publishedAt found =>
    refine ⟨fun publication member =>
      identities publication (List.mem_of_mem_eraseIdx member), ?_⟩
    intro metadata fences member
    cases List.mem_singleton.mp member
    exact identities publication (List.mem_of_getElem? found)
  | _ => exact ⟨trivial, silent⟩

/-! ### Readiness -/

def SegmentMetadata.Carries (key : PartitionKey) (metadata : SegmentMetadata) : Prop :=
  metadata.window.topic = key.topic
    ∧ key.virtualPartitionId ∈ metadata.segmentIndex.map Prod.fst

/-- The partition goes into the next metadata row of its topic. -/
def FlushPhase.Ready (key : PartitionKey) : FlushPhase → Prop
  | .publishing publications _ =>
    ∃ publication ∈ publications, publication.envelope.window.topic = key.topic
      ∧ key.virtualPartitionId ∈ publication.ready.map Prod.fst
  | _ => False

/-- The partition is uploaded, or waits for its predecessor. -/
def FlushPhase.Holds (key : PartitionKey) (partition : PersistedPartition) : FlushPhase → Prop
  | .uploading _ uploaded _ =>
    ∃ object ∈ uploaded, ∃ topic ∈ object.topics, topic.envelope.window.topic = key.topic
      ∧ (key.virtualPartitionId, partition) ∈ topic.partitions
  | .publishing publications _ =>
    ∃ publication ∈ publications, publication.envelope.window.topic = key.topic
      ∧ (key.virtualPartitionId, partition) ∈ publication.waiting
  | _ => False

/-- A partition becomes ready when it has no predecessor or its predecessor succeeded. -/
theorem ready_turn {key : PartitionKey}
    (turn : Turn codec config plan phase input later added effect) (ready : later.Ready key) :
    phase.Ready key ∨ ∃ partition, phase.Holds key partition
      ∧ (partition.publicationPredecessor = none
        ∨ ∃ position, input = .predecessor position key.virtualPartitionId none
          ∧ phase.waitingPartition position key.virtualPartitionId = some partition) := by
  cases turn with
  | allUploaded =>
    obtain ⟨publication, member, topicEq, present⟩ := ready
    obtain ⟨object, inUploaded, inObject⟩ := List.mem_flatMap.mp member
    obtain ⟨topic, inTopics, rfl⟩ := List.mem_map.mp inObject
    obtain ⟨⟨id, partition⟩, kept, same⟩ := List.mem_map.mp present
    obtain ⟨inTopic, free⟩ := List.mem_filter.mp kept
    cases same
    exact Or.inr ⟨partition, ⟨object, inUploaded, topic, inTopics, topicEq, inTopic⟩,
      Or.inl (by simpa using free)⟩
  | @predecessorEnded publications results position publication virtualPartitionId partition found
      waits =>
    obtain ⟨changed, member, topicEq, present⟩ := ready
    rcases List.mem_or_eq_of_mem_set member with old | rfl
    · exact Or.inl ⟨changed, old, topicEq, present⟩
    · rw [List.map_append, List.mem_append] at present
      rcases present with before | new
      · exact Or.inl ⟨publication, List.mem_of_getElem? found, topicEq, before⟩
      · have same : key.virtualPartitionId = virtualPartitionId := by simpa using new
        refine Or.inr ⟨partition, ⟨publication, List.mem_of_getElem? found, topicEq, ?_⟩,
          Or.inr ⟨position, by rw [same], ?_⟩⟩
        · rw [same]
          exact mem_of_lookup waits
        · simp [FlushPhase.waitingPartition, found, same, waits]
  | predecessorFailed found waits =>
    obtain ⟨changed, member, topicEq, present⟩ := ready
    rcases List.mem_or_eq_of_mem_set member with old | rfl
    · exact Or.inl ⟨changed, old, topicEq, present⟩
    · exact Or.inl ⟨_, List.mem_of_getElem? found, topicEq, present⟩
  | nothingReady | notWritten | written =>
    obtain ⟨publication, member, rest⟩ := ready
    exact Or.inl ⟨publication, List.mem_of_mem_eraseIdx member, rest⟩
  | _ => exact absurd ready id

theorem row_turn {key : PartitionKey} {metadata : SegmentMetadata}
    {fences : Option (List ProducerPartitionFence)}
    (turn : Turn codec config plan phase input later added effect)
    (row : StorageEvent.row metadata fences ∈ added) (carries : metadata.Carries key) :
    phase.Ready key := by
  cases turn with
  | @written publications results position publication publishedAt found =>
    cases List.mem_singleton.mp row
    obtain ⟨topicEq, present⟩ := carries
    refine ⟨publication, List.mem_of_getElem? found, topicEq, ?_⟩
    simpa [SegmentEnvelope.intoMetadata] using present
  | _ => simp at row

end Turns

/-! ### Watch channels -/

def EncodedPartition.key (encoded : EncodedPartition) : PartitionKey :=
  ⟨encoded.topic, encoded.virtualPartitionId⟩

def FlushPartitionResult.key (result : FlushPartitionResult) : PartitionKey :=
  ⟨result.topic, result.virtualPartitionId⟩

def FlushPublicationCompletion.key (completion : FlushPublicationCompletion) : PartitionKey :=
  ⟨completion.topic, completion.virtualPartitionId⟩

def remainingKey (pair : TopicFlushPlan × FlushPartition) : PartitionKey :=
  ⟨pair.1.topic, pair.2.virtualPartitionId⟩

/-- The encoded partition comes from the plan and its predecessor did not fail. -/
def Survives (codec : Codec) (config : SegmentConfig) (plan : FlushPlan)
    (failed : List FlushPartitionResult) (encoded : EncodedPartition) : Prop :=
  plan.Encodes codec config encoded ∧ ∀ result ∈ failed, result.key ≠ encoded.key

/-- Channels that were moved already, and channels that still are pending. -/
structure Signalling (moved : FlushPublicationCompletion → Prop) (publications : Publications)
    (all rest : List FlushPublicationCompletion) : Prop where
  split : ∃ front, all = front ++ rest ∧ ∀ completion ∈ front, moved completion
  pending : ∀ completion ∈ rest, publications completion.state = .pending

/-- What the channels of the plan hold while the task is in a phase. -/
def Barrier (codec : Codec) (config : SegmentConfig) (publications : Publications) (plan : FlushPlan)
    (log : List StorageEvent) : FlushPhase → Prop
  | .building remaining encoded failed =>
    (∀ completion ∈ plan.publicationCompletions, publications completion.state = .pending)
      ∧ (remaining.map remainingKey ++ (encoded.map EncodedPartition.key
          ++ failed.map FlushPartitionResult.key)).Nodup
      ∧ ∀ result ∈ failed, result.error ≠ none
  | .identifying builders objects failed =>
    (∀ completion ∈ plan.publicationCompletions, publications completion.state = .pending)
      ∧ PhaseSound (Survives codec config plan failed) plan log (.identifying builders objects failed)
  | .signalling rest objects failed =>
    Signalling (fun completion =>
        publications completion.state = identityState failed completion) publications
        plan.publicationCompletions rest
      ∧ PhaseSound (Survives codec config plan failed) plan log (.signalling rest objects failed)
  | .failing rest =>
    Signalling (fun completion => (publications completion.state).ended = true) publications
      plan.publicationCompletions rest
  | .completing rest _ =>
    (∃ front, plan.publicationCompletions = front ++ rest
      ∧ ∀ completion ∈ front, (publications completion.state).ended = true)
      ∧ ∀ completion ∈ plan.publicationCompletions, publications completion.state ≠ .pending
  | .done => ∀ completion ∈ plan.publicationCompletions,
      (publications completion.state).ended = true
  | phase =>
    ∃ failed, (∀ completion ∈ plan.publicationCompletions,
        publications completion.state = identityState failed completion)
      ∧ PhaseSound (Survives codec config plan failed) plan log phase

def FlushEffect.publications (publications : Publications) : Option FlushEffect → Publications
  | none => publications
  | some (.signal channel state) => Function.update publications channel state
  | some (.completeFlush _ channel error) =>
    Function.update publications channel (.completed (FlushPublicationResult.ofError error))

theorem identityState_started (failed : List FlushPartitionResult)
    (completion : FlushPublicationCompletion) : identityState failed completion ≠ .pending := by
  unfold identityState
  split <;> simp

/-- A partition without a failed predecessor gets its identity. -/
theorem identityState_assigned {failed : List FlushPartitionResult}
    {completion : FlushPublicationCompletion}
    (survives : ∀ result ∈ failed, result.key ≠ completion.key) :
    identityState failed completion = .segmentIdentityAssigned := by
  have absent : (failed.find? fun result => result.topic = completion.topic
      && result.virtualPartitionId = completion.virtualPartitionId) = none := by
    refine List.find?_eq_none.mpr fun result member matched => survives result member ?_
    simp only [Bool.and_eq_true, decide_eq_true_eq] at matched
    simp [FlushPartitionResult.key, FlushPublicationCompletion.key, matched.1, matched.2]
  simp [identityState, absent]

section Barriers

variable {codec : Codec} {config : SegmentConfig} {plan : FlushPlan} {log added : List StorageEvent}
variable {phase later : FlushPhase} {input : FlushInput} {effect : Option FlushEffect}
variable {publications changed : Publications}
variable {moved : FlushPublicationCompletion → Prop}

theorem Signalling.all {all : List FlushPublicationCompletion}
    (signalling : Signalling moved publications all []) : ∀ completion ∈ all, moved completion := by
  obtain ⟨front, rfl, done⟩ := signalling.split
  intro completion member
  exact done completion (by simpa using member)

theorem Signalling.next {moved changedMoved : FlushPublicationCompletion → Prop}
    {all rest : List FlushPublicationCompletion} {completion : FlushPublicationCompletion}
    {state : FlushPublicationState}
    (signalling : Signalling moved publications all (completion :: rest))
    (channels : (all.map FlushPublicationCompletion.state).Nodup)
    (kept : ∀ other, other.state ≠ completion.state → moved other → changedMoved other)
    (here : changedMoved completion) :
    Signalling changedMoved (Function.update publications completion.state state) all rest := by
  obtain ⟨front, rfl, done⟩ := signalling.split
  rw [List.map_append, List.nodup_append] at channels
  obtain ⟨-, behind, apart⟩ := channels
  rw [List.map_cons, List.nodup_cons] at behind
  refine ⟨⟨front ++ [completion], by simp, ?_⟩, ?_⟩
  · refine forall_append_singleton (fun other member => kept other ?_ (done other member)) here
    exact apart _ (List.mem_map_of_mem member) _ List.mem_cons_self
  · intro other member
    have different : other.state ≠ completion.state := by
      intro same
      exact behind.1 (same ▸ List.mem_map_of_mem member)
    rw [Function.update_of_ne different]
    exact signalling.pending other (List.mem_cons_of_mem _ member)

theorem Signalling.start {all : List FlushPublicationCompletion}
    (pending : ∀ completion ∈ all, publications completion.state = .pending) :
    Signalling moved publications all all :=
  ⟨⟨[], rfl, by simp⟩, pending⟩

theorem barrier_turn (turn : Turn codec config plan phase input later added effect)
    (channels : (plan.publicationCompletions.map FlushPublicationCompletion.state).Nodup)
    (sound : PhaseSound (plan.Encodes codec config) plan log phase)
    (barrier : Barrier codec config publications plan log phase) :
    Barrier codec config (FlushEffect.publications publications effect) plan (log ++ added) later := by
  have kept (failed : List FlushPartitionResult)
      (packed : ∀ remaining encoded results, phase ≠ .building remaining encoded results)
      (established : PhaseSound (Survives codec config plan failed) plan log phase) :
      PhaseSound (Survives codec config plan failed) plan (log ++ added) later :=
    phaseSound_turn turn established fun remaining encoded results same =>
      absurd same (packed remaining encoded results)
  have aborts {failed : List FlushPartitionResult}
      (assigned : ∀ completion ∈ plan.publicationCompletions,
        publications completion.state = identityState failed completion) :
      Barrier codec config publications plan (log ++ []) (FlushTask.aborted plan) := by
    refine ⟨⟨[], rfl, by simp⟩, fun completion member => ?_⟩
    rw [assigned completion member]
    exact identityState_started failed completion
  cases turn with
  | @barrierFailed topicPlan partition rest encoded failed error =>
    obtain ⟨pending, keys, errors⟩ := barrier
    refine ⟨pending, ?_, forall_append_singleton errors (by simp)⟩
    -- The partition moves from the remaining to the failed ones.
    refine (List.Perm.nodup_iff ?_).mp keys
    simp only [List.map_cons, List.map_append, List.map_nil]
    rw [← List.append_assoc, ← List.append_assoc, ← List.append_assoc]
    exact (List.perm_append_singleton _ _).symm
  | @encoded topicPlan partition rest before failed section_ ok =>
    obtain ⟨pending, keys, errors⟩ := barrier
    have same : section_.key = remainingKey (topicPlan, partition) := by
      obtain ⟨topicEq, idEq, -⟩ := encodePartition_ok ok
      simp [EncodedPartition.key, remainingKey, topicEq, idEq]
    refine ⟨pending, ?_, errors⟩
    refine (List.Perm.nodup_iff ?_).mp keys
    simp only [List.map_cons, List.map_append, List.map_nil, List.cons_append,
      same, List.append_assoc]
    rw [← List.append_assoc, ← List.append_assoc]
    exact (List.perm_middle).symm
  | encodeFailed => exact .start barrier.1
  | packed built =>
    obtain ⟨pending, keys, errors⟩ := barrier
    refine ⟨pending, objectBuilders_sound (fun partition member => ?_) built, by simp,
      resultsSound_of_errors errors⟩
    refine ⟨sound.2.1 partition member, fun result inFailed same => ?_⟩
    exact (List.nodup_append.mp (List.nodup_append.mp keys).2.1).2.2 _ (List.mem_map_of_mem member) _
      (List.mem_map_of_mem inFailed) same.symm
  | identified => exact ⟨barrier.1, kept _ (by simp) barrier.2⟩
  | identityFailed => exact .start barrier.1
  | allIdentified => exact ⟨.start barrier.1, kept _ (by simp) barrier.2⟩
  | @signalled completion rest objects failed =>
    refine ⟨barrier.1.next channels ?_ ?_, kept _ (by simp) barrier.2⟩
    · intro other different same
      show Function.update publications completion.state _ other.state = _
      rw [Function.update_of_ne different]
      exact same
    · exact Function.update_self ..
  | allSignalled =>
    exact ⟨_, barrier.1.all, kept _ (by simp) barrier.2⟩
  | @failureSignalled completion rest =>
    refine Signalling.next barrier channels ?_ ?_
    · intro other different ended
      show (Function.update publications completion.state _ other.state).ended = true
      rw [Function.update_of_ne different]
      exact ended
    · show (Function.update publications completion.state _ completion.state).ended = true
      rw [Function.update_self]
      rfl
  | allFailed =>
    exact ⟨⟨[], rfl, by simp⟩, fun completion member =>
      FlushPublicationState.ended_started (Signalling.all barrier completion member)⟩
  | registerAborted | publishAborted | allPublished =>
    obtain ⟨failed, assigned, -⟩ := barrier
    exact aborts assigned
  | @completed completion rest outcome =>
    obtain ⟨⟨front, split, ended⟩, started⟩ := barrier
    have moved {other : FlushPublicationCompletion} (state : FlushPublicationState → Prop)
        (here : state (.completed (FlushPublicationResult.ofError (partitionResultError
          outcome.partitionResults completion.topic completion.virtualPartitionId
          outcome.fallbackError)))) (before : state (publications other.state)) :
        state (FlushEffect.publications publications
          (some (.completeFlush ⟨completion.topic, completion.virtualPartitionId⟩ completion.state
            (partitionResultError outcome.partitionResults completion.topic
              completion.virtualPartitionId outcome.fallbackError))) other.state) := by
      simp only [FlushEffect.publications]
      by_cases same : other.state = completion.state
      · rwa [same, Function.update_self]
      · rwa [Function.update_of_ne same]
    refine ⟨⟨front ++ [completion], by simp [split], forall_append_singleton ?_ ?_⟩, ?_⟩
    · exact fun other member => moved (fun state => state.ended = true) rfl (ended other member)
    · show (Function.update publications completion.state _ completion.state).ended = true
      rw [Function.update_self]
      rfl
    · exact fun other member => moved (fun state => state ≠ .pending) (by simp) (started other member)
  | notified =>
    obtain ⟨⟨front, split, ended⟩, -⟩ := barrier
    rw [List.append_nil] at split
    intro completion member
    exact ended completion (split ▸ member)
  | registerLate | registered | allRegistered | uploaded | uploadFailed | allUploaded
  | predecessorEnded | predecessorFailed | nothingReady | written | notWritten =>
    obtain ⟨failed, assigned, established⟩ := barrier
    exact ⟨failed, assigned, kept _ (by simp) established⟩

theorem Barrier.congr (barrier : Barrier codec config publications plan log phase)
    (same : ∀ completion ∈ plan.publicationCompletions,
      changed completion.state = publications completion.state) :
    Barrier codec config changed plan log phase := by
  have moved {rest : List FlushPublicationCompletion} {front : List FlushPublicationCompletion}
      (split : plan.publicationCompletions = front ++ rest) :
      (∀ completion ∈ front, changed completion.state = publications completion.state)
        ∧ ∀ completion ∈ rest, changed completion.state = publications completion.state := by
    rw [split] at same
    exact ⟨fun completion member => same completion (List.mem_append_left _ member),
      fun completion member => same completion (List.mem_append_right _ member)⟩
  cases phase with
  | building | identifying =>
    exact ⟨fun completion member => (same completion member).trans (barrier.1 completion member),
      barrier.2⟩
  | signalling rest objects failed =>
    obtain ⟨⟨⟨front, split, signalled⟩, pending⟩, sound⟩ := barrier
    obtain ⟨first, second⟩ := moved split
    exact ⟨⟨⟨front, split, fun completion member =>
      (first completion member).trans (signalled completion member)⟩, fun completion member =>
      (second completion member).trans (pending completion member)⟩, sound⟩
  | failing rest =>
    obtain ⟨⟨front, split, signalled⟩, pending⟩ := barrier
    obtain ⟨first, second⟩ := moved split
    refine ⟨⟨front, split, fun completion member => ?_⟩, fun completion member =>
      (second completion member).trans (pending completion member)⟩
    rw [first completion member]
    exact signalled completion member
  | completing rest outcome =>
    obtain ⟨⟨front, split, ended⟩, started⟩ := barrier
    refine ⟨⟨front, split, fun completion member => ?_⟩, fun completion member => ?_⟩
    · rw [(moved split).1 completion member]
      exact ended completion member
    · rw [same completion member]
      exact started completion member
  | done =>
    intro completion member
    rw [same completion member]
    exact barrier completion member
  | registering | uploading | publishing =>
    obtain ⟨failed, assigned, sound⟩ := barrier
    exact ⟨failed, fun completion member =>
      (same completion member).trans (assigned completion member), sound⟩

/-! ### Epochs of a plan -/

theorem completions_opened
    (filed : plan.publicationCompletions = plan.topics.flatMap TopicFlushPlan.completions) :
    plan.publicationCompletions.map (fun completion => (completion.key, completion.state))
      = plan.opened.map fun epoch => (epoch.1, epoch.2.publicationState) := by
  rw [filed, FlushPlan.opened, List.map_flatMap, List.map_flatMap]
  congr 1
  funext topicPlan
  simp [TopicFlushPlan.completions, TopicFlushPlan.opened, sectionOpened,
    FlushPublicationCompletion.key, Function.comp_def]

variable {partition : PersistedPartition}

theorem epoch_of_placed {source : EncodedPartition → Prop} {object : Bytes} {topic : Topic}
    {virtualPartitionId : VirtualPartitionId} {encoded : EncodedPartition}
    (placed : Placed source object topic virtualPartitionId partition encoded)
    (encodes : plan.Encodes codec config encoded) :
    ∃ epoch, (⟨topic, virtualPartitionId⟩, epoch) ∈ plan.opened
      ∧ epoch.publicationPredecessor = partition.publicationPredecessor := by
  obtain ⟨topicPlan, inPlan, epoch, inTopic, ok⟩ := encodes
  obtain ⟨topicEq, idEq, predecessor, -⟩ := encodePartition_ok ok
  have member := mem_opened inPlan inTopic
  rw [← topicEq, ← idEq, placed.sameTopic, placed.sameId] at member
  exact ⟨epoch, member, predecessor.symm.trans placed.predecessor.symm⟩

/-- A partition that is uploaded or waits has the predecessor of its epoch. -/
theorem holds_epoch {key : PartitionKey}
    (sound : PhaseSound (plan.Encodes codec config) plan log phase)
    (holds : phase.Holds key partition) :
    ∃ epoch, (key, epoch) ∈ plan.opened
      ∧ epoch.publicationPredecessor = partition.publicationPredecessor := by
  cases phase with
  | uploading uploads uploaded results =>
    obtain ⟨object, inUploaded, topic, inTopics, topicEq, inTopic⟩ := holds
    obtain ⟨-, placed⟩ := (sound.2.1 object inUploaded).1 topic inTopics
    obtain ⟨encoded, here⟩ := placed _ inTopic
    obtain ⟨epoch, member, same⟩ := epoch_of_placed here here.known
    rw [topicEq] at member
    exact ⟨epoch, member, same⟩
  | publishing publications results =>
    obtain ⟨publication, inPublications, topicEq, waits⟩ := holds
    obtain ⟨object, published⟩ := sound.1 publication inPublications
    obtain ⟨encoded, here⟩ := published.waiting _ waits
    obtain ⟨epoch, member, same⟩ := epoch_of_placed here here.known
    rw [topicEq] at member
    exact ⟨epoch, member, same⟩
  | _ => exact absurd holds id

/-- The channel of a ready partition has its identity and no result yet. -/
theorem Barrier.ready {key : PartitionKey}
    (barrier : Barrier codec config publications plan log phase) (ready : phase.Ready key) :
    (∃ epoch, (key, epoch) ∈ plan.opened)
      ∧ ∀ completion ∈ plan.publicationCompletions, completion.key = key →
        publications completion.state = .segmentIdentityAssigned := by
  cases phase with
  | publishing publications results =>
    obtain ⟨failed, assigned, sound, -⟩ := barrier
    obtain ⟨publication, inPublications, topicEq, present⟩ := ready
    obtain ⟨object, published⟩ := sound publication inPublications
    obtain ⟨entry, inReady, same⟩ := List.mem_map.mp present
    obtain ⟨encoded, here⟩ := published.ready entry inReady
    have encodedKey : encoded.key = key := by
      unfold EncodedPartition.key
      rw [here.sameTopic, here.sameId, topicEq, same]
    constructor
    · obtain ⟨epoch, member, -⟩ := epoch_of_placed here here.known.1
      rw [topicEq, same] at member
      exact ⟨epoch, member⟩
    · intro completion member keyed
      rw [assigned completion member]
      apply identityState_assigned
      rw [keyed, ← encodedKey]
      exact here.known.2
  | _ => exact absurd ready id

end Barriers

end BlobStream.Write
