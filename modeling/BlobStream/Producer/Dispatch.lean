import BlobStream.Lib.Machine
import BlobStream.Producer.Completion

/-!
# Dispatch of producer batches

A dispatch task sends a group of batches to one broker in a single request. Batches with a terminal
status complete at once; the others go through a retry loop of single-batch requests each. What the
environment decides (permits, deadlines, routing, responses) arrives with the actions.
-/

namespace BlobStream.Producer

open Word

/-! ### Wire statuses -/

inductive ProduceStatus
  | ok
  | notLeaseHolder
  | unknownTopic
  | overloaded
  | badRequest
deriving DecidableEq, Repr

def okWireValue : Int := 0

def ProduceStatus.ofWire : Int → Option ProduceStatus
  | 0 => some .ok
  | 1 => some .notLeaseHolder
  | 2 => some .unknownTopic
  | 3 => some .overloaded
  | 4 => some .badRequest
  | _ => none

/-- `EnumOrUnknown::enum_value_or_default`: an unknown number reads as the enum's default, which is
its first value. -/
def ProduceStatus.enumValueOrDefault (wire : Int) : ProduceStatus := (ofWire wire).getD .ok

def ProduceStatus.name : ProduceStatus → String
  | .ok => "PRODUCE_STATUS_OK"
  | .notLeaseHolder => "PRODUCE_STATUS_NOT_LEASE_HOLDER"
  | .unknownTopic => "PRODUCE_STATUS_UNKNOWN_TOPIC"
  | .overloaded => "PRODUCE_STATUS_OVERLOADED"
  | .badRequest => "PRODUCE_STATUS_BAD_REQUEST"

structure ProduceBatchResponse where
  /-- The number on the wire, which may lie outside the enum. -/
  status : Int
  errorMessage : String := ""
deriving DecidableEq, Repr

def brokerErrorMessage (response : ProduceBatchResponse) : String :=
  if response.errorMessage.isEmpty then
    "broker status: " ++ (ProduceStatus.enumValueOrDefault response.status).name
  else response.errorMessage

structure BufferedBatch where
  topic : Topic
  virtualPartitionId : VirtualPartitionId
  /-- The result slots of the records, in record order. -/
  slots : List RecordCompletion
deriving DecidableEq, Repr

def BufferedBatch.completions (batch : BufferedBatch) : List BulkCompletionSpan :=
  completionSpans batch.slots

structure DispatchConfig where
  topics : List Topic
  retryDeadlineMs : Nat
deriving DecidableEq, Repr

def retryDeadlineExhausted (config : DispatchConfig) : ProducerError :=
  .retriesExhausted ("retry deadline of " ++ toString config.retryDeadlineMs ++ " ms elapsed")

def acknowledgeBatch (batch : BufferedBatch) (attempts : Nat) : ProducerAck :=
  ⟨batch.topic, batch.virtualPartitionId, attempts⟩

/-! ### The retry loop of one batch -/

structure RetryState where
  /-- The batch's result in the grouped response, until the first turn has used it. -/
  initialResponse : Option ProduceBatchResponse
  completedAttempts : Nat
deriving DecidableEq, Repr

inductive RetryOutcome
  | again (state : RetryState)
  | finished (result : ProduceResult)
deriving DecidableEq

inductive RetryTurn
  | deadlineElapsed
  | noOwner
  | usesInitialResponse
  | permitRefused (error : ProducerError)
  /-- The transport outcome of a single-batch request; a timeout is an error. -/
  | answered (response : Except String (List ProduceBatchResponse))
deriving DecidableEq

def interpretResponse (batch : BufferedBatch) (completedAttempts : Nat)
    (response : ProduceBatchResponse) : RetryOutcome :=
  match ProduceStatus.enumValueOrDefault response.status with
  | .ok => .finished (.ok (acknowledgeBatch batch completedAttempts))
  | .unknownTopic => .finished (.error (.unknownTopic batch.topic))
  | .badRequest => .finished (.error (.rejected (brokerErrorMessage response)))
  | .notLeaseHolder | .overloaded =>
    .again { initialResponse := none, completedAttempts := completedAttempts }

def sendSingleBatchRequest :
    Except String (List ProduceBatchResponse) → Except ProducerError ProduceBatchResponse
  | .error error => .error (.retriesExhausted error)
  | .ok [result] => .ok result
  | .ok results => .error (.rejected
      ("broker returned " ++ toString results.length ++ " results for one produce batch"))

/-- One turn of `send_batch_with_retry`; none when the turn does not fit the state. -/
def RetryState.turn (config : DispatchConfig) (batch : BufferedBatch) (state : RetryState)
    (turn : RetryTurn) : Option RetryOutcome :=
  if batch.topic ∉ config.topics then some (.finished (.error (.unknownTopic batch.topic)))
  else match turn, state.initialResponse with
  | .deadlineElapsed, _ => some (.finished (.error (retryDeadlineExhausted config)))
  | .noOwner, _ => some (.finished (.error .noBrokersAvailable))
  | .usesInitialResponse, some response =>
    some (interpretResponse batch state.completedAttempts response)
  | .permitRefused error, none => some (.finished (.error error))
  | .answered response, none =>
    let completedAttempts := saturatingAdd u32Max state.completedAttempts 1
    match sendSingleBatchRequest response with
    | .ok response => some (interpretResponse batch completedAttempts response)
    -- Transport errors are retried; any other error ends the loop.
    | .error (.retriesExhausted _) =>
      some (.again { initialResponse := none, completedAttempts := completedAttempts })
    | .error error => some (.finished (.error error))
  | _, _ => none

def RetryTurn.received : RetryTurn → Option Int
  | .answered (.ok [result]) => some result.status
  | _ => none

/-! ### Dispatch tasks -/

inductive DispatchPhase
  | awaitingPermit
  | awaitingResponse
  /-- Batches in their retry loops, by position in the group. -/
  | retrying (pending : List (Nat × RetryState))
  | done
deriving DecidableEq, Repr

structure DispatchTask where
  batches : List BufferedBatch
  phase : DispatchPhase := .awaitingPermit
deriving DecidableEq, Repr

/-- A result received for the batch at `position` of a task's group. -/
structure Received where
  task : Nat
  position : Nat
  status : Int
deriving DecidableEq, Repr

structure ProducerWorld where
  bulks : BulkId → Option BulkCompletion := fun _ => none
  tasks : Nat → Option DispatchTask := fun _ => none
  received : List Received := []

inductive ProducerAction
  /-- A `produce` call; invalid records have their errors already. -/
  | produce (bulk : BulkId) (errors : List (Option ProducerError))
  | dispatch (task : Nat) (batches : List BufferedBatch)
  | permitRefused (task : Nat) (error : ProducerError)
  | permitGranted (task : Nat)
  | deadlineBeforeSend (task : Nat)
  | groupAnswered (task : Nat) (response : Except String (List ProduceBatchResponse))
  | retryTurn (task position : Nat) (turn : RetryTurn)
  | dropBulk (bulk : BulkId)
deriving DecidableEq

abbrev Bulks := BulkId → Option BulkCompletion

def completeSpan (result : ProduceResult) (bulks : Bulks) (span : BulkCompletionSpan) : Bulks :=
  Function.update bulks span.bulk
    ((bulks span.bulk).map fun bulk => bulk.complete span.start span.stop result)

def notifyCompletions (bulks : Bulks) (spans : List BulkCompletionSpan) (result : ProduceResult) :
    Bulks :=
  spans.foldl (completeSpan result) bulks

/-- The results of a grouped response, by position; a wrong count counts as no response. -/
def groupResults (batches : List BufferedBatch) :
    Except String (List ProduceBatchResponse) → List (Option ProduceBatchResponse)
  | .ok results =>
    if results.length = batches.length then results.map some
    else List.replicate batches.length none
  | .error _ => List.replicate batches.length none

/-- The terminal result of a batch in the grouped response; none when it has to be retried. -/
def terminalResult (batch : BufferedBatch) (response : Option ProduceBatchResponse) :
    Option ProduceResult :=
  match response with
  | none => none
  | some response =>
    match ProduceStatus.enumValueOrDefault response.status with
    | .ok => some (.ok (acknowledgeBatch batch 1))
    | .unknownTopic => some (.error (.unknownTopic batch.topic))
    | .badRequest => some (.error (.rejected (brokerErrorMessage response)))
    | .notLeaseHolder | .overloaded => none

def notifyTerminal (bulks : Bulks) (group : List (BufferedBatch × Option ProduceBatchResponse)) :
    Bulks :=
  group.foldl (fun bulks (batch, response) =>
    match terminalResult batch response with
    | some result => notifyCompletions bulks batch.completions result
    | none => bulks) bulks

/-- The batches of a group that go on to their retry loops. -/
def retryable (group : List (BufferedBatch × Option ProduceBatchResponse)) :
    List (Nat × RetryState) :=
  group.zipIdx.filterMap fun ((batch, response), position) =>
    if (terminalResult batch response).isNone then
      some (position, { initialResponse := response, completedAttempts := 1 })
    else none

namespace ProducerWorld

def setTask (world : ProducerWorld) (task : Nat) (state : DispatchTask) : ProducerWorld :=
  { world with tasks := Function.update world.tasks task (some state) }

/-- `notify_terminal_group_error`. -/
def failGroup (world : ProducerWorld) (task : Nat) (state : DispatchTask) (error : ProducerError) :
    ProducerWorld :=
  { world with
    bulks := state.batches.foldl
      (fun bulks batch => notifyCompletions bulks batch.completions (.error error)) world.bulks
    tasks := Function.update world.tasks task (some { state with phase := .done }) }

def groupAnswered (world : ProducerWorld) (task : Nat) (state : DispatchTask)
    (response : Except String (List ProduceBatchResponse)) : ProducerWorld :=
  let results := groupResults state.batches response
  let group := state.batches.zip results
  { bulks := notifyTerminal world.bulks group
    tasks := Function.update world.tasks task
      (some { state with phase := .retrying (retryable group) })
    received := world.received ++ results.zipIdx.filterMap fun (result, position) =>
      result.map fun result => ⟨task, position, result.status⟩ }

def retried (world : ProducerWorld) (task position : Nat) (state : DispatchTask)
    (pending : List (Nat × RetryState)) (batch : BufferedBatch) (turn : RetryTurn) :
    RetryOutcome → ProducerWorld
  | .again next =>
    { world.setTask task { state with
        phase := .retrying (pending.map fun entry =>
          if entry.1 = position then (position, next) else entry) } with
      received := world.received ++ turn.received.toList.map fun status =>
        ⟨task, position, status⟩ }
  | .finished result =>
    { world.setTask task { state with
        phase := .retrying (pending.filter fun entry => entry.1 ≠ position) } with
      bulks := notifyCompletions world.bulks batch.completions result
      received := world.received ++ turn.received.toList.map fun status =>
        ⟨task, position, status⟩ }

end ProducerWorld

def producerStep (config : DispatchConfig) (world : ProducerWorld) :
    ProducerAction → Option ProducerWorld
  | .produce bulk errors =>
    if world.bulks bulk = none then
      some { world with
        bulks := Function.update world.bulks bulk (some
          { results := errors.map fun error? => error?.map Except.error
            remainingRecords := errors.countP Option.isNone }) }
    else none
  | .dispatch task batches =>
    if world.tasks task = none then some (world.setTask task { batches := batches }) else none
  | .permitRefused task error =>
    match world.tasks task with
    | some state =>
      if state.phase = .awaitingPermit then some (world.failGroup task state error) else none
    | none => none
  | .permitGranted task =>
    match world.tasks task with
    | some state =>
      if state.phase = .awaitingPermit then
        some (world.setTask task { state with phase := .awaitingResponse })
      else none
    | none => none
  | .deadlineBeforeSend task =>
    match world.tasks task with
    | some state =>
      if state.phase = .awaitingResponse then
        some (world.failGroup task state (retryDeadlineExhausted config))
      else none
    | none => none
  | .groupAnswered task response =>
    match world.tasks task with
    | some state =>
      if state.phase = .awaitingResponse then some (world.groupAnswered task state response)
      else none
    | none => none
  | .retryTurn task position turn =>
    match world.tasks task with
    | some state =>
      match state.phase with
      | .retrying pending =>
        match pending.lookup position, state.batches[position]? with
        | some retry, some batch =>
          (retry.turn config batch turn).map (world.retried task position state pending batch turn)
        | _, _ => none
      | _ => none
    | none => none
  | .dropBulk bulk =>
    some { world with
      bulks := Function.update world.bulks bulk ((world.bulks bulk).map BulkCompletion.drop) }

end BlobStream.Producer
