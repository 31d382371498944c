import BlobStream.Lib.Machine
import BlobStream.Write.Segment

/-!
# The task that flushes one plan

`flush_plan_and_notify` as a machine: a task moves through the phases of `flush_plan_after`, and every
result it awaits (a predecessor's barrier, a segment identity, an upload, a metadata write, a passed
deadline) is an input. The log keeps the storage operations that returned success, in order.
-/

namespace BlobStream.Write

structure FlushPartitionResult where
  topic : Topic
  virtualPartitionId : VirtualPartitionId
  error : Option FlushCompletionError
deriving DecidableEq, Repr

/-- A partition without a result takes the fallback error. -/
def partitionResultError (results : List FlushPartitionResult) (topic : Topic)
    (virtualPartitionId : VirtualPartitionId) (fallbackError : FlushCompletionError) :
    Option FlushCompletionError :=
  match results.find? fun result =>
      result.topic = topic && result.virtualPartitionId = virtualPartitionId with
  | none => some fallbackError
  | some result => result.error

/-- What `flush_plan_after` leaves for the notification of waiters. -/
structure FlushOutcome where
  partitionResults : List FlushPartitionResult
  fallbackError : FlushCompletionError := .internal
deriving DecidableEq, Repr

inductive StorageEvent
  | put (blobKey : BlobKey) (payload : Bytes)
  | row (metadata : SegmentMetadata) (fences : Option (List ProducerPartitionFence))
deriving DecidableEq, Repr

/-- Metadata publication of one topic of an uploaded object. -/
structure TopicPublication where
  envelope : SegmentEnvelope
  maxMetadataPublicationLag : Int
  ready : PartitionMap PersistedPartition
  /-- Partitions that still wait for the publication of their predecessor epoch. -/
  waiting : PartitionMap PersistedPartition
deriving DecidableEq, Repr

inductive FlushPhase
  | building (remaining : List (TopicFlushPlan × FlushPartition)) (encoded : List EncodedPartition)
      (failed : List FlushPartitionResult)
  | identifying (builders : List ObjectBuilder) (objects : List PersistedObject)
      (failed : List FlushPartitionResult)
  /-- `mark_segment_identity_assigned`, channel by channel. -/
  | signalling (completions : List FlushPublicationCompletion) (objects : List PersistedObject)
      (failed : List FlushPartitionResult)
  /-- `mark_publication_complete` after an error before the identities were assigned. -/
  | failing (completions : List FlushPublicationCompletion)
  | registering (objects uploads : List PersistedObject) (results : List FlushPartitionResult)
  | uploading (uploads uploaded : List PersistedObject) (results : List FlushPartitionResult)
  | publishing (publications : List TopicPublication) (results : List FlushPartitionResult)
  /-- `mark_flush_complete`, channel by channel. -/
  | completing (completions : List FlushPublicationCompletion) (outcome : FlushOutcome)
  | done
deriving DecidableEq, Repr

/-- The partition of a topic that waits for the end of its predecessor epoch. -/
def FlushPhase.waitingPartition (position : Nat) (virtualPartitionId : VirtualPartitionId) :
    FlushPhase → Option PersistedPartition
  | .publishing publications _ =>
    publications[position]?.bind fun publication => publication.waiting.lookup virtualPartitionId
  | _ => none

structure Resolution where
  topic : Topic
  virtualPartitionId : VirtualPartitionId
  completion : FlushCompletion
  error : Option FlushCompletionError
deriving DecidableEq, Repr

def Resolution.waiter (resolution : Resolution) : Topic × VirtualPartitionId × FlushCompletion :=
  (resolution.topic, resolution.virtualPartitionId, resolution.completion)

structure FlushTask where
  plan : FlushPlan
  phase : FlushPhase
  log : List StorageEvent := []
  resolved : List Resolution := []
deriving DecidableEq, Repr

def FlushPlan.waiters (plan : FlushPlan) : List (Topic × VirtualPartitionId × FlushCompletion) :=
  plan.topics.flatMap fun topicPlan =>
    topicPlan.partitions.flatMap fun partition =>
      (partition.batches.filterMap BufferedBatch.completion).map fun completion =>
        (topicPlan.topic, partition.virtualPartitionId, completion)

def FlushTask.start (plan : FlushPlan) : FlushTask where
  plan := plan
  phase := .building
    (plan.topics.flatMap fun topicPlan => topicPlan.partitions.map fun partition =>
      (topicPlan, partition)) [] []

inductive PublishAttempt
  | semaphoreClosed
  | deadlineExhausted
  | written (publishedAt : Int)
  | fenceLost
  /-- Another store error, or a timeout; the row may have been written or not. -/
  | unknown
deriving DecidableEq, Repr

inductive FlushInput
  | identity (error : Option FlushCompletionError)
  | segmentId (generated : Option (SnowflakeId × Int))
  | signal
  | register (deadlinePassed : Bool)
  | upload (position : Nat) (succeeded : Bool)
  | predecessor (position : Nat) (virtualPartitionId : VirtualPartitionId)
      (error : Option FlushCompletionError)
  | publish (position : Nat) (attempt : PublishAttempt)
  | complete
  | proceed
deriving DecidableEq, Repr

inductive FlushEffect
  | signal (channel : PublicationChannel) (state : FlushPublicationState)
  | completeFlush (key : PartitionKey) (channel : PublicationChannel)
      (error : Option FlushCompletionError)
deriving DecidableEq, Repr

def failureResults (topics : List PersistedTopic) (error : FlushCompletionError) :
    List FlushPartitionResult :=
  topics.flatMap fun topic => topic.partitions.map fun entry =>
    ⟨topic.envelope.window.topic, entry.1, some error⟩

/-- A topic waits for the partitions that have a predecessor epoch. -/
def PersistedTopic.publication (topic : PersistedTopic) : TopicPublication where
  envelope := topic.envelope
  maxMetadataPublicationLag := topic.maxMetadataPublicationLag
  ready := topic.partitions.filter fun entry => entry.2.publicationPredecessor.isNone
  waiting := topic.partitions.filter fun entry => entry.2.publicationPredecessor.isSome

/-- The channel state an epoch reaches once the identities of its plan are assigned. -/
def identityState (failed : List FlushPartitionResult) (completion : FlushPublicationCompletion) :
    FlushPublicationState :=
  match (failed.find? fun result => result.topic = completion.topic
      && result.virtualPartitionId = completion.virtualPartitionId).bind
      FlushPartitionResult.error with
  | none => .segmentIdentityAssigned
  | some error => .completed (.failed error)

def FlushPartitionResult.le (left right : FlushPartitionResult) : Bool :=
  left.topic < right.topic
    || (left.topic = right.topic && left.virtualPartitionId ≤ right.virtualPartitionId)

def sortResults (results : List FlushPartitionResult) : List FlushPartitionResult :=
  results.insertionSort fun left right => left.le right

namespace FlushTask

def enter (task : FlushTask) (phase : FlushPhase) : FlushTask := { task with phase := phase }

/-- An error return: nobody has a result of their own. -/
def abort (task : FlushTask) : FlushTask :=
  task.enter (.completing task.plan.publicationCompletions { partitionResults := [] })

/-- An error of `build_objects`, which also fails every channel first. -/
def failBuild (task : FlushTask) : FlushTask :=
  task.enter (.failing task.plan.publicationCompletions)

/-- `build_objects` goes on with the next partition once its predecessor's identity is known. -/
def identity (codec : Codec) (config : SegmentConfig) (task : FlushTask)
    (error : Option FlushCompletionError) : Option FlushTask :=
  match task.phase with
  | .building ((topicPlan, partition) :: rest) encoded failed =>
    match error with
    | some error =>
      some (task.enter (.building rest encoded
        (failed ++ [⟨topicPlan.topic, partition.virtualPartitionId, some error⟩])))
    | none =>
      match encodePartition codec config topicPlan partition with
      | .error _ => some task.failBuild
      | .ok partition => some (task.enter (.building rest (encoded ++ [partition]) failed))
  | _ => none

def segmentId (config : SegmentConfig) (task : FlushTask)
    (generated : Option (SnowflakeId × Int)) : Option FlushTask :=
  match task.phase with
  | .identifying (builder :: rest) objects failed =>
    match generated with
    | none => some task.failBuild
    | some (snowflakeId, now) =>
      some (task.enter
        (.identifying rest (objects ++ [builder.finish config snowflakeId now]) failed))
  | _ => none

def signal (task : FlushTask) : Option (FlushTask × FlushEffect) :=
  match task.phase with
  | .signalling (completion :: rest) objects failed =>
    some (task.enter (.signalling rest objects failed),
      .signal completion.state (identityState failed completion))
  | .failing (completion :: rest) =>
    some (task.enter (.failing rest), .signal completion.state (.completed (.failed .internal)))
  | _ => none

/-- The upload of the next object is registered, unless its deadline has passed. -/
def register (task : FlushTask) (deadlinePassed : Bool) : Option FlushTask :=
  match task.phase with
  | .registering (object :: rest) uploads results =>
    if object.publicationBudget < 0 then some task.abort
    else if deadlinePassed then
      some (task.enter
        (.registering rest uploads (results ++ failureResults object.topics .internal)))
    else some (task.enter (.registering rest (uploads ++ [object]) results))
  | _ => none

def upload (task : FlushTask) (position : Nat) (succeeded : Bool) : Option FlushTask :=
  match task.phase with
  | .uploading uploads uploaded results =>
    match uploads[position]? with
    | none => none
    | some object =>
      if succeeded then
        some { task with
          phase := .uploading (uploads.eraseIdx position) (uploaded ++ [object]) results
          log := task.log ++ [.put object.blobKey object.payload] }
      else
        some (task.enter (.uploading (uploads.eraseIdx position) uploaded
          (results ++ failureResults object.topics .internal)))
  | _ => none

/-- A partition learns how the publication of its predecessor epoch ended. -/
def predecessor (task : FlushTask) (position : Nat) (virtualPartitionId : VirtualPartitionId)
    (error : Option FlushCompletionError) : Option FlushTask :=
  match task.phase with
  | .publishing publications results =>
    match publications[position]? with
    | none => none
    | some publication =>
      match publication.waiting.lookup virtualPartitionId with
      | none => none
      | some partition =>
        let waiting := publication.waiting.filter fun entry => entry.1 ≠ virtualPartitionId
        match error with
        | none =>
          some (task.enter (.publishing
            (publications.set position
              { publication with
                waiting := waiting
                ready := publication.ready ++ [(virtualPartitionId, partition)] }) results))
        | some error =>
          some (task.enter (.publishing
            (publications.set position { publication with waiting := waiting })
            (results ++ [⟨publication.envelope.window.topic, virtualPartitionId, some error⟩])))
  | _ => none

/-- The results of a topic whose ready partitions ended with `error`. -/
def readyResults (publication : TopicPublication) (error : Option FlushCompletionError) :
    List FlushPartitionResult :=
  publication.ready.map fun entry => ⟨publication.envelope.window.topic, entry.1, error⟩

/-- The metadata row of a topic and the fences it is conditional on. -/
def publicationRow (publication : TopicPublication) (publishedAt : Int) : StorageEvent :=
  .row
    (publication.envelope.intoMetadata
      (publication.ready.map fun entry => (entry.1, entry.2.metadata)) publishedAt)
    (publication.ready.mapM fun entry => entry.2.fence)

/-- `persist_ready_topic_metadata_with_permit`, once no partition of the topic waits. -/
def publish (task : FlushTask) (position : Nat) (attempt : PublishAttempt) : Option FlushTask :=
  match task.phase with
  | .publishing publications results =>
    match publications[position]? with
    | none => none
    | some publication =>
      let rest := publications.eraseIdx position
      let ended error := task.enter
        (.publishing rest (results ++ readyResults publication error))
      if !publication.waiting.isEmpty then none
      else if publication.ready.isEmpty then some (task.enter (.publishing rest results))
      else match attempt with
        | .semaphoreClosed => some task.abort
        | attempt =>
          if publication.maxMetadataPublicationLag < 0 then some task.abort
          else match attempt with
            | .written publishedAt =>
              some { ended none with
                log := task.log ++ [publicationRow publication publishedAt] }
            | .fenceLost => some (ended (some .leaseFenceLost))
            | _ => some (ended (some .internal))
  | _ => none

/-- The next channel is completed with the result of its partition. -/
def complete (task : FlushTask) : Option (FlushTask × FlushEffect) :=
  match task.phase with
  | .completing (completion :: rest) outcome =>
    some (task.enter (.completing rest outcome),
      .completeFlush ⟨completion.topic, completion.virtualPartitionId⟩ completion.state
        (partitionResultError outcome.partitionResults completion.topic
          completion.virtualPartitionId outcome.fallbackError))
  | _ => none

def notify (task : FlushTask) (outcome : FlushOutcome) : List Resolution :=
  task.plan.waiters.map fun (topic, virtualPartitionId, completion) =>
    ⟨topic, virtualPartitionId, completion,
      partitionResultError outcome.partitionResults topic virtualPartitionId outcome.fallbackError⟩

def proceed (task : FlushTask) : Option FlushTask :=
  match task.phase with
  | .building [] encoded failed =>
    (objectBuilders encoded task.plan.maxSegmentBytes).map fun builders =>
      task.enter (.identifying builders [] failed)
  | .identifying [] objects failed =>
    some (task.enter (.signalling task.plan.publicationCompletions objects failed))
  | .signalling [] objects failed => some (task.enter (.registering objects [] failed))
  | .failing [] => some task.abort
  | .registering [] uploads results => some (task.enter (.uploading uploads [] results))
  | .uploading [] uploaded results =>
    some (task.enter (.publishing
      (uploaded.flatMap fun object => object.topics.map PersistedTopic.publication) results))
  | .publishing [] results =>
    some (task.enter (.completing task.plan.publicationCompletions
      { partitionResults := sortResults results }))
  | .completing [] outcome =>
    some { task with phase := .done, resolved := task.notify outcome }
  | _ => none

def step (codec : Codec) (config : SegmentConfig) (task : FlushTask) :
    FlushInput → Option (FlushTask × Option FlushEffect)
  | .identity error => (task.identity codec config error).map (·, none)
  | .segmentId generated => (task.segmentId config generated).map (·, none)
  | .signal => task.signal.map fun (next, effect) => (next, some effect)
  | .register deadlinePassed => (task.register deadlinePassed).map (·, none)
  | .upload position succeeded => (task.upload position succeeded).map (·, none)
  | .predecessor position virtualPartitionId error =>
    (task.predecessor position virtualPartitionId error).map (·, none)
  | .publish position attempt => (task.publish position attempt).map (·, none)
  | .complete => task.complete.map fun (next, effect) => (next, some effect)
  | .proceed => task.proceed.map (·, none)

def run (codec : Codec) (config : SegmentConfig) (task : FlushTask) (input : FlushInput) :
    Option FlushTask :=
  (task.step codec config input).map Prod.fst

end FlushTask

end BlobStream.Write
