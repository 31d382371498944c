import BlobStream.Write.Cluster

/-!
# One partition of the cluster

Every safety argument about a partition only sees, of each broker, the generation the partition is
assigned under, its local state, its transition in flight and its release task. `World.focus`
projects a cluster onto one partition, `LocalStep` lists what one broker can do to it, and
`step_focus` shows that every cluster step is one of these, a clock step, or no change.
-/

namespace BlobStream.Write.Cluster

open ProducerLeases

/-! ### Contracts on single steps -/

/-- Conditions a run may be asked to meet: on the partition state and lease row a batch or a claim
meets, on the row a store call meets, on the result a transition is finished with, on the state a
partition is reopened in, and whether flush epochs open and end at all. -/
structure Contract where
  produce (clock now : Int) (row : Option LeaseState) (state : PartitionState) : Bool := true
  claim (clock now : Int) (state : PartitionState) : Bool := true
  call (session : String) (work : AllocationTransitionWork) (now : Int)
    (row : Option LeaseState) : Bool := true
  finish (state : PartitionState) (assignmentIsCurrent : Bool) (inFlight : InFlight)
    (response : StoreResponse) : Bool := true
  resume (state : PartitionState) : Bool := true
  flush : Bool := true

def Broker.isCurrent (broker : Broker) (work : AllocationTransitionWork) : Bool :=
  broker.write.assignmentGenerationIsCurrent work.key work.assignmentGeneration

/-- Check an action against the contract in the state it is taken in. -/
def Contract.check (contract : Contract) (world : World) : Action → Bool
  | .produce session batch now =>
    contract.produce world.clock now (world.leases batch.key)
      ((world.brokers session).write.partitionState batch.key)
  | .claim session key _ now | .claimMaintenance session key now =>
    contract.claim world.clock now ((world.brokers session).write.partitionState key)
  | .callStore session key =>
    match (world.brokers session).transitions key with
    | some { work, callTime := some now, .. } => contract.call session work now (world.leases key)
    | _ => true
  | .finish session key =>
    match (world.brokers session).transitions key with
    | some inFlight =>
      match inFlight.response with
      | some response =>
        contract.finish ((world.brokers session).write.partitionState key)
          ((world.brokers session).isCurrent inFlight.work) inFlight response
      | none => true
    | none => true
  | .resumeAdmission session key =>
    contract.resume ((world.brokers session).write.partitionState key)
  | .takeFlush .. | .completeFlush .. => contract.flush
  | _ => true

def Contract.allows (contract : Contract) (world : World) (action : Action) : Prop :=
  contract.check world action = true

instance (contract : Contract) (world : World) (action : Action) :
    Decidable (contract.allows world action) :=
  inferInstanceAs (Decidable (_ = _))

/-! ### The view of one broker -/

/-- What one broker holds for one partition. -/
structure View where
  generation : Option Nat := none
  state : Option PartitionState := none
  transition : Option InFlight := none
  release : Option ReleasePhase := none

namespace View

def partition (view : View) : PartitionState := view.state.getD {}

def isCurrent (view : View) (work : AllocationTransitionWork) : Bool :=
  view.generation = some work.assignmentGeneration

def claim (view : View) (config : BrokerConfig) (key : PartitionKey) (generation recordCount : Nat)
    (now : Int) (origin : LeaseAcquisitionOrigin) : View :=
  let renewLease := origin = .assignmentMaintenance
  match view.partition.beginTransition generation key recordCount now renewLease
      config.reservationSize with
  | (.claimed work, state) =>
    { view with
      state := some state
      transition := some { work, origin, callTime := if renewLease then none else some now } }
  | (_, state) => { view with state := some state }

def finished (view : View) (inFlight : InFlight) (response : StoreResponse)
    (state : PartitionState) : PartitionState :=
  let arguments := Broker.finishArguments inFlight.work inFlight.origin response
  (state.finishTransition (view.isCurrent inFlight.work)
    inFlight.work.resetSequenceAllocationOnFinish arguments.update arguments.lease
    arguments.reservation arguments.recordsAllocated).2.1

def sequenceProgress (view : View) : ProducerSequenceProgress :=
  match view.state with
  | none => {}
  | some state => state.seqAllocator.sequenceProgress

def cleared (view : View) : Option PartitionState :=
  match view.state with
  | none => none
  | some state =>
    let cleared := state.terminallyReleased
    if view.generation.isNone ∧ cleared.draining ∧ cleared.isDrained then none else some cleared

end View

def Broker.view (broker : Broker) (key : PartitionKey) : View where
  generation := broker.write.assignmentGenerationForPartition key
  state := broker.write.partitions key
  transition := broker.transitions key
  release := broker.releases key

def acceptedRange : FastPathResult → List SeqRange
  | .ok (some range) => [range]
  | _ => []

/-! ### What one broker can do to a partition -/

section Local

variable (contract : Contract) (config : BrokerConfig) (session : String) (key : PartitionKey)
variable (clock : Int) (view : View) (row : Option LeaseState)

/-- One action of `session` on the partition: its view and the lease row after the action, and the
range of a batch it accepted. -/
inductive LocalStep : View → Option LeaseState → List SeqRange → Prop
  | produce {batch : ProduceBatch} {now : Int} (read : now ≤ clock)
      (summarized : summaryFromRecords batch.records = some batch.summary)
      (assigned : view.generation.isSome) (meets : contract.produce clock now row view.partition) :
      LocalStep { view with state := some (view.partition.produceFastPath batch now).2 } row
        (acceptedRange (view.partition.produceFastPath batch now).1)
  | claim {generation recordCount : Nat} {now : Int} {origin : LeaseAcquisitionOrigin}
      (read : now ≤ clock) (assigned : view.generation = some generation)
      (meets : contract.claim clock now view.partition) :
      LocalStep (view.claim config key generation recordCount now origin) row []
  | readClock {work : AllocationTransitionWork} {origin : LeaseAcquisitionOrigin}
      {response : Option StoreResponse}
      (owned : view.transition = some { work, origin, callTime := none, response }) :
      LocalStep
        { view with transition := some { work, origin, callTime := some clock, response } } row []
  | callStore {work : AllocationTransitionWork} {origin : LeaseAcquisitionOrigin} {now : Int}
      (owned : view.transition = some { work, origin, callTime := some now, response := none })
      (meets : contract.call session work now row) :
      LocalStep { view with
          transition := some
            { work, origin, callTime := some now
              response := some (storeCall config session key row work now).1 } }
        (storeCall config session key row work now).2 []
  | failCall {inFlight : InFlight} (owned : view.transition = some inFlight) :
      LocalStep { view with transition := some { inFlight with response := some .failed } } row []
  | finish {inFlight : InFlight} {response : StoreResponse}
      (owned : view.transition = some inFlight) (answered : inFlight.response = some response)
      (meets : contract.finish view.partition (view.isCurrent inFlight.work) inFlight response) :
      LocalStep { view with
          state := view.state.map (view.finished inFlight response)
          transition := none } row []
  | resumeAdmission (meets : contract.resume view.partition) :
      LocalStep
        { view with state := view.state.map fun state => { state with draining := false } } row []
  | dropOwner {inFlight : InFlight} (owned : view.transition = some inFlight) :
      LocalStep { view with
          state := view.state.map PartitionState.endAllocation
          transition := none } row []
  | refresh {generation : Option Nat} {release : Option ReleasePhase}
      (kept : ∀ phase, view.release = some phase → release = some phase)
      (opened : view.release = none → release = none ∨ release = some .started)
      (excluded : generation.isSome → release = none) :
      LocalStep { view with generation := generation, release := release } row []
  | startRelease (phase : view.release = some .started) :
      LocalStep { view with
          state := view.state.map fun state => { state with draining := true }
          release := some (if view.state.isSome then .draining true none else .done) } row []
  | drainHeartbeat {now : Int} {responseLost : Bool} (read : now ≤ clock)
      (phase : view.release = some (.draining true none)) :
      LocalStep { view with
          release := some
            (if responseLost then .draining true none
              else heartbeatPhase (heartbeatLease row key config.holderId session now
                config.leaseDuration view.sequenceProgress).1) }
        (heartbeatLease row key config.holderId session now config.leaseDuration
          view.sequenceProgress).2 []
  | applyHeartbeat {expiration : Int}
      (phase : view.release = some (.draining true (some expiration))) :
      LocalStep { view with
          state := view.state.map fun state => { state with leaseExpirationAt := some expiration }
          release := some (.draining true none) } row []
  | finishDrain {leaseHeld : Bool} (phase : view.release = some (.draining leaseHeld none))
      (drained : view.state.all PartitionState.isDrained) :
      LocalStep { view with release := some .releasing } row []
  | callRelease {now : Int} {next : ReleasePhase} (read : now ≤ clock)
      (phase : view.release = some .releasing) (reached : next = .releasing ∨ next = .released) :
      LocalStep { view with release := some next }
        (releaseLease row key config.holderId session now view.sequenceProgress).2 []
  | clearReleased (phase : view.release = some .released) :
      LocalStep { view with state := view.cleared, release := some .done } row []
  | completeRelease (phase : view.release = some .done) :
      LocalStep { view with release := none } row []
  | takeFlush {state : PartitionState} {trigger : FlushTrigger} {requireFence : Bool}
      {channel : PublicationChannel} (present : view.state = some state)
      (meets : contract.flush) :
      LocalStep { view with
          state := some (takeFlushPartition state key.virtualPartitionId trigger requireFence
            channel).state } row []
  | completeFlush {state : PartitionState} {publications : Publications}
      (present : view.state = some state) (meets : contract.flush) :
      LocalStep { view with state := some (state.flushCompleted publications) } row []
  | beginShutdownDrain :
      LocalStep
        { view with state := view.state.map fun state => { state with draining := true } } row []

end Local

/-! ### The cluster refines the partition -/

/-- A cluster seen from one partition. -/
structure Focus where
  clock : Int
  row : Option LeaseState
  views : String → View
  /-- Ranges of the accepted batches, oldest first. -/
  accepted : List SeqRange

def World.focus (world : World) (key : PartitionKey) : Focus where
  clock := world.clock
  row := world.leases key
  views := fun session => (world.brokers session).view key
  accepted := (world.accepted.filter fun batch => batch.key = key).map Accepted.range

section Steps

variable (contract : Contract) (config : String → BrokerConfig) (key : PartitionKey) (focus : Focus)

inductive FocusStep : Focus → Prop
  | idle : FocusStep focus
  | tick {now : Int} (later : focus.clock ≤ now) :
      FocusStep { focus with clock := now }
  | act {session : String} {view : View} {row : Option LeaseState} {emitted : List SeqRange}
      (did : LocalStep contract (config session) session key focus.clock (focus.views session)
        focus.row view row emitted) :
      FocusStep { focus with
          row := row
          views := Function.update focus.views session view
          accepted := focus.accepted ++ emitted }

end Steps

/-- Every transition works on the partition it is filed under. -/
def TransitionsKeyed (world : World) : Prop :=
  ∀ session key inFlight,
    (world.brokers session).transitions key = some inFlight → inFlight.work.key = key

section Projection

variable {contract : Contract} {config : String → BrokerConfig} {world : World} {session : String}
variable {key : PartitionKey}

theorem focus_setBroker (broker : Broker) :
    (world.setBroker session broker).focus key
      = { world.focus key with
          views := Function.update (world.focus key).views session (broker.view key) } := by
  have views : (fun other => ((Function.update world.brokers session broker) other).view key)
      = Function.update (fun other => (world.brokers other).view key) session (broker.view key) := by
    funext other
    by_cases same : other = session
    · subst same
      simp
    · simp [same]
  simp only [World.focus, World.setBroker, views]

theorem focus_setLease (other : PartitionKey) (row : Option LeaseState) :
    (world.setLease other row).focus key
      = { world.focus key with row := if key = other then row else (world.focus key).row } := by
  simp only [World.focus, World.setLease, Function.update_apply]

theorem focus_log (batches : List Accepted) :
    (world.log batches).focus key
      = { world.focus key with
          accepted := (world.focus key).accepted
            ++ (batches.filter fun batch => batch.key = key).map Accepted.range } := by
  simp only [World.focus, World.log, List.filter_append, List.map_append]

theorem acceptedBatch_focus (other : PartitionKey) (result : FastPathResult) :
    ((acceptedBatch session other result).filter fun batch => batch.key = key).map Accepted.range
      = if other = key then acceptedRange result else [] := by
  cases result with
  | error error => simp [acceptedBatch, acceptedRange]
  | ok accepted =>
    cases accepted with
    | none => simp [acceptedBatch, acceptedRange]
    | some range => by_cases same : other = key <;> simp [acceptedBatch, acceptedRange, same]

variable {broker : Broker}

/-- A broker that looks the same from the partition has not acted on it. -/
theorem idle_of_view_eq (same : broker.view key = (world.brokers session).view key) :
    FocusStep contract config key (world.focus key) ((world.setBroker session broker).focus key) := by
  have unchanged : Function.update (world.focus key).views session (broker.view key)
      = (world.focus key).views := by
    rw [same]
    exact Function.update_eq_self session (world.focus key).views
  rw [focus_setBroker, unchanged]
  exact .idle

/-- An action of one broker that leaves the lease row and the accepted batches alone. -/
theorem act_of_view (did : LocalStep contract (config session) session key world.clock
      ((world.brokers session).view key) (world.leases key) (broker.view key) (world.leases key) []) :
    FocusStep contract config key (world.focus key) ((world.setBroker session broker).focus key) := by
  have acted : FocusStep contract config key (world.focus key) _ := .act did
  rw [List.append_nil] at acted
  rw [focus_setBroker]
  exact acted

variable (target : PartitionKey)

/-- A broker that acts on one partition looks the same from all others. -/
theorem act_at {broker : Broker} {view : View} (key : PartitionKey)
    (moved : broker.view = Function.update (world.brokers session).view target view)
    (did : LocalStep contract (config session) session target world.clock
      ((world.brokers session).view target) (world.leases target) view (world.leases target) []) :
    FocusStep contract config key (world.focus key) ((world.setBroker session broker).focus key) := by
  by_cases same : key = target
  · subst same
    rw [← Function.update_self key view (world.brokers session).view, ← moved] at did
    exact act_of_view did
  · exact idle_of_view_eq (by rw [moved, Function.update_of_ne same])

/-- The same with a store call, which only reaches the row of the partition. -/
theorem act_with_call {broker : Broker} {view : View} {row : Option LeaseState} (key : PartitionKey)
    (moved : broker.view = Function.update (world.brokers session).view target view)
    (did : LocalStep contract (config session) session target world.clock
      ((world.brokers session).view target) (world.leases target) view row []) :
    FocusStep contract config key (world.focus key)
      (((world.setLease target row).setBroker session broker).focus key) := by
  by_cases same : key = target
  · subst same
    have acted : FocusStep contract config key (world.focus key) _ := .act did
    rw [List.append_nil] at acted
    rw [focus_setBroker, focus_setLease, if_pos rfl, moved, Function.update_self]
    exact acted
  · rw [focus_setBroker, focus_setLease, if_neg same, ← focus_setBroker]
    exact idle_of_view_eq (by rw [moved, Function.update_of_ne same])

end Projection

/-! ### Views of changed brokers -/

namespace Broker

variable (broker : Broker) (key : PartitionKey)

theorem view_write_setPartition (value : Option PartitionState) :
    { broker with write := broker.write.setPartition key value }.view
      = Function.update broker.view key { broker.view key with state := value } :=
  Function.eq_update_iff.mpr ⟨by simp [view], fun other different => by simp [view, different]⟩

@[simp] theorem view_setPartition (state : PartitionState) :
    (broker.setPartition key state).view
      = Function.update broker.view key { broker.view key with state := some state } :=
  view_write_setPartition broker key (some state)

@[simp] theorem view_setTransition (inFlight : Option InFlight) :
    (broker.setTransition key inFlight).view
      = Function.update broker.view key { broker.view key with transition := inFlight } :=
  Function.eq_update_iff.mpr ⟨by simp [setTransition, view], fun other different => by
    simp [setTransition, view, different]⟩

@[simp] theorem view_setRelease (phase : Option ReleasePhase) :
    (broker.setRelease key phase).view
      = Function.update broker.view key { broker.view key with release := phase } :=
  Function.eq_update_iff.mpr ⟨by simp [setRelease, view], fun other different => by
    simp [setRelease, view, different]⟩

variable {broker key} {inFlight : InFlight}

/-- A partition without state keeps none when its state is mapped. -/
theorem view_map_of_absent (absent : broker.write.partitions key = none)
    (change : PartitionState → PartitionState) :
    (broker.view key).state.map change = (broker.view key).state := by
  simp [view, absent]

theorem view_claim {generation : Nat} (assigned : (broker.view key).generation = some generation)
    (config : BrokerConfig) (recordCount : Nat) (now : Int) (origin : LeaseAcquisitionOrigin) :
    (broker.claim config key recordCount now origin).view = Function.update broker.view key
      ((broker.view key).claim config key generation recordCount now origin) := by
  have generationEq : broker.write.assignmentGenerationForPartition key = some generation := assigned
  simp only [claim, View.claim, beginAllocationTransition, generationEq]
  change _ = Function.update _ _ (match
      (broker.write.partitionState key).beginTransition _ _ _ _ _ _ with
    | (.claimed _, _) => _
    | (_, _) => _)
  rcases (broker.write.partitionState key).beginTransition generation key recordCount now
    (origin = .assignmentMaintenance) config.reservationSize with ⟨decision, state⟩
  cases decision <;> simp [view_write_setPartition]

theorem FinishArguments.finish_eq (arguments : FinishArguments) (write : WriteState)
    (work : AllocationTransitionWork) :
    arguments.finish write work = finishInner write work arguments.update arguments.lease
      arguments.reservation arguments.recordsAllocated := by
  unfold FinishArguments.finish
  split <;> simp_all [Write.finish, finishLeaseMaintenance]

theorem view_finish (keyed : inFlight.work.key = key) (response : StoreResponse) :
    (broker.finish key inFlight response).view = Function.update broker.view key
      { broker.view key with
        state := (broker.view key).state.map ((broker.view key).finished inFlight response)
        transition := none } := by
  have current : broker.write.assignmentGenerationIsCurrent key inFlight.work.assignmentGeneration
      = (broker.view key).isCurrent inFlight.work := rfl
  have finished : (broker.finish key inFlight response).view
      = ({ broker with
          write := ((finishArguments inFlight.work inFlight.origin response).finish broker.write
            inFlight.work).2.1 }.setTransition key none).view := by
    simp only [finish]
    split <;> rfl
  rw [finished, FinishArguments.finish_eq, finishInner, keyed]
  cases present : broker.write.partitions key with
  | none => simp [view_map_of_absent present]
  | some state =>
    have stateEq : (broker.view key).state = some state := present
    simp [current, stateEq, View.finished, view_write_setPartition]

theorem view_resumeAdmission (broker : Broker) (key : PartitionKey) :
    (broker.resumeAdmission key).view = Function.update broker.view key
      { broker.view key with
        state := (broker.view key).state.map fun state => { state with draining := false } } := by
  simp only [resumeAdmission]
  cases present : broker.write.partitions key with
  | none =>
    rw [view_map_of_absent present]
    exact (Function.update_eq_self key broker.view).symm
  | some state =>
    have stateEq : (broker.view key).state = some state := present
    rw [stateEq]
    exact view_setPartition broker key { state with draining := false }

theorem view_dropOwner (keyed : inFlight.work.key = key) :
    (broker.dropOwner key inFlight).view = Function.update broker.view key
      { broker.view key with
        state := (broker.view key).state.map PartitionState.endAllocation
        transition := none } := by
  simp only [dropOwner, dropTransition, finishInner, keyed]
  cases present : broker.write.partitions key with
  | none => simp [view_map_of_absent present]
  | some state =>
    have stateEq : (broker.view key).state = some state := present
    simp only [stateEq, PartitionState.finishTransition]
    rw [view_setTransition, view_write_setPartition, Function.update_self, Function.update_idem]
    split <;> rfl

variable (broker key)

theorem view_startRelease :
    (broker.startRelease key).view = Function.update broker.view key
      { broker.view key with
        state := (broker.view key).state.map fun state => { state with draining := true }
        release := some (if (broker.view key).state.isSome then .draining true none else .done) } := by
  simp only [startRelease]
  cases present : broker.write.partitions key with
  | none =>
    have stateEq : (broker.view key).state = none := present
    simp [stateEq]
  | some state =>
    have stateEq : (broker.view key).state = some state := present
    simp [stateEq]

theorem view_applyHeartbeat (expiration : Int) :
    (broker.applyHeartbeat key expiration).view = Function.update broker.view key
      { broker.view key with
        state := (broker.view key).state.map fun state =>
          { state with leaseExpirationAt := some expiration }
        release := some (.draining true none) } := by
  simp only [applyHeartbeat]
  cases present : broker.write.partitions key with
  | none => simp [view_map_of_absent present]
  | some state =>
    have stateEq : (broker.view key).state = some state := present
    simp [stateEq]

theorem view_clearReleased :
    { broker with write := broker.write.clearTerminallyReleasedPartition key }.view
      = Function.update broker.view key { broker.view key with state := (broker.view key).cleared } := by
  simp only [WriteState.clearTerminallyReleasedPartition, View.cleared]
  cases present : broker.write.partitions key with
  | none =>
    simp [view, present]
  | some state =>
    have stateEq : (broker.view key).state = some state := present
    have generationEq : (broker.view key).generation
        = broker.write.assignmentGenerationForPartition key := rfl
    simp only [stateEq, generationEq]
    split <;> rw [view_write_setPartition] <;> rfl

theorem view_takeFlush (state : PartitionState) (trigger : FlushTrigger) (requireFence : Bool) :
    (broker.takeFlush key state trigger requireFence).view = Function.update broker.view key
      { broker.view key with state := some (takeFlushPartition state key.virtualPartitionId trigger
          requireFence broker.nextPublication).state } := by
  rw [← view_setPartition]
  simp only [takeFlush]
  split <;> rfl

theorem view_refreshAssignment (broker : Broker) (desired : Finset PartitionKey)
    (key : PartitionKey) :
    (broker.refreshAssignment desired).view key
      = { broker.view key with
          generation := (broker.refreshAssignment desired).write.assignmentGenerationForPartition key
          release := broker.refreshedReleases desired key } := rfl

end Broker

/-! ### Every cluster step, seen from one partition -/

section Refinement

variable {contract : Contract} {config : String → BrokerConfig} {world after : World}
variable {session : String} {target : PartitionKey}

variable {now : Int} {view : View} {inFlight : InFlight}

theorem focus_produce {batch : ProduceBatch}
    (meets : contract.allows world (.produce session batch now))
    (stepped : step config world (.produce session batch now) = some after) (key : PartitionKey) :
    FocusStep contract config key (world.focus key) (after.focus key) := by
  simp only [step] at stepped
  split at stepped
  next guards =>
    obtain ⟨read, summarized⟩ := guards
    cases stepped
    rw [focus_log, acceptedBatch_focus]
    cases assigned : (world.brokers session).write.assignmentGenerationForPartition batch.key with
    | none =>
      simp only [produceFastPath, assigned, acceptedRange, ite_self, List.append_nil]
      exact idle_of_view_eq rfl
    | some generation =>
      simp only [produceFastPath, assigned]
      by_cases same : batch.key = key
      · subst same
        have isAssigned : ((world.brokers session).view batch.key).generation.isSome := by
          simp [Broker.view, assigned]
        have did : LocalStep contract (config session) session batch.key world.clock
            ((world.brokers session).view batch.key) (world.leases batch.key) _ _ _ :=
          .produce read summarized isAssigned meets
        rw [focus_setBroker, Broker.view_write_setPartition, Function.update_self, if_pos rfl]
        exact .act did
      · rw [if_neg same, List.append_nil]
        refine idle_of_view_eq ?_
        rw [Broker.view_write_setPartition, Function.update_of_ne (Ne.symm same)]
  next => cases stepped

theorem focus_claim {origin : LeaseAcquisitionOrigin} {recordCount : Nat}
    (read : now ≤ world.clock)
    (meets : contract.claim world.clock now ((world.brokers session).write.partitionState target))
    (key : PartitionKey) :
    FocusStep contract config key (world.focus key)
      ((world.setBroker session ((world.brokers session).claim (config session) target recordCount
        now origin)).focus key) := by
  cases assigned : ((world.brokers session).view target).generation with
  | none =>
    have unassigned : (world.brokers session).write.assignmentGenerationForPartition target = none :=
      assigned
    refine idle_of_view_eq ?_
    simp only [Broker.claim, beginAllocationTransition, unassigned]
  | some generation =>
    exact act_at target key (Broker.view_claim assigned ..) (.claim read assigned meets)

theorem focus_refreshAssignment (desired : Finset PartitionKey) (key : PartitionKey) :
    FocusStep contract config key (world.focus key)
      ((world.setBroker session ((world.brokers session).refreshAssignment desired)).focus key) := by
  apply act_of_view
  rw [Broker.view_refreshAssignment]
  refine .refresh ?_ ?_ ?_
  · intro phase pending
    have pendingEq : (world.brokers session).releases key = some phase := pending
    simp [Broker.refreshedReleases, pendingEq]
  · intro settled
    have settledEq : (world.brokers session).releases key = none := settled
    simp only [Broker.refreshedReleases, settledEq]
    split
    · exact Or.inr rfl
    · exact Or.inl rfl
  · intro admitted
    simp only [Broker.refreshAssignment, WriteState.publishAssignment,
      WriteState.assignmentGenerationForPartition, Finset.mem_filter] at admitted
    split at admitted
    next owned => simpa using owned.2.2
    next => simp at admitted

variable {action : Action}

/-- The refinement: every cluster step that meets the contract is, for each partition, a clock
step, a local step of one broker, or no change. -/
theorem step_focus (keyed : TransitionsKeyed world) (meets : contract.allows world action)
    (stepped : step config world action = some after) (key : PartitionKey) :
    FocusStep contract config key (world.focus key) (after.focus key) := by
  cases action <;> simp only [step] at stepped
  case tick now =>
    obtain ⟨later, rfl⟩ := Machine.enabled stepped
    exact .tick later
  case produce session batch now => exact focus_produce meets stepped key
  case claim | claimMaintenance =>
    obtain ⟨read, rfl⟩ := Machine.enabled stepped
    exact focus_claim read meets key
  case readClock session target =>
    split at stepped
    next work origin response owned =>
      cases stepped
      exact act_at target key (Broker.view_setTransition ..) (.readClock owned)
    next => cases stepped
  case callStore session target =>
    split at stepped
    next work origin now owned =>
      cases stepped
      have called : contract.call session work now (world.leases target) := by
        simpa only [Contract.allows, Contract.check, owned] using meets
      exact act_with_call target key (Broker.view_setTransition ..) (.callStore owned called)
    next => cases stepped
  case failCall session target =>
    split at stepped
    next inFlight owned =>
      cases stepped
      exact act_at target key (Broker.view_setTransition ..) (.failCall owned)
    next => cases stepped
  case finish session target =>
    split at stepped
    next inFlight owned =>
      split at stepped
      next response answered =>
        cases stepped
        have keyedWork : inFlight.work.key = target := keyed session target inFlight owned
        have allowed : contract.finish ((world.brokers session).view target).partition
            (((world.brokers session).view target).isCurrent inFlight.work) inFlight response := by
          simp only [Contract.allows, Contract.check, owned, answered] at meets
          rw [Broker.isCurrent, keyedWork] at meets
          exact meets
        exact act_at target key (Broker.view_finish keyedWork response)
          (.finish owned answered allowed)
      next => cases stepped
    next => cases stepped
  case resumeAdmission session target =>
    obtain ⟨-, rfl⟩ := Machine.enabled stepped
    exact act_at target key (Broker.view_resumeAdmission ..) (.resumeAdmission meets)
  case dropOwner session target =>
    split at stepped
    next inFlight owned =>
      cases stepped
      exact act_at target key (Broker.view_dropOwner (keyed session target inFlight owned))
        (.dropOwner owned)
    next => cases stepped
  case refreshAssignment session desired =>
    cases stepped
    exact focus_refreshAssignment desired key
  case startRelease session target =>
    split at stepped
    next started =>
      cases stepped
      exact act_at target key (Broker.view_startRelease ..) (.startRelease started)
    next => cases stepped
  case drainHeartbeat session target now responseLost =>
    split at stepped
    next draining =>
      obtain ⟨read, rfl⟩ := Machine.enabled stepped
      exact act_with_call target key (Broker.view_setRelease ..) (.drainHeartbeat read draining)
    next => cases stepped
  case applyHeartbeat session target =>
    split at stepped
    next expiration renewed =>
      cases stepped
      exact act_at target key (Broker.view_applyHeartbeat ..) (.applyHeartbeat renewed)
    next => cases stepped
  case finishDrain session target =>
    split at stepped
    next leaseHeld draining =>
      obtain ⟨drained, rfl⟩ := Machine.enabled stepped
      exact act_at target key (Broker.view_setRelease ..) (.finishDrain draining drained)
    next => cases stepped
  case callRelease session target now responseLost =>
    split at stepped
    next releasing =>
      obtain ⟨read, rfl⟩ := Machine.enabled stepped
      refine act_with_call target key (Broker.view_setRelease ..) (.callRelease read releasing ?_)
      split
      · exact Or.inl rfl
      · exact Or.inr rfl
    next => cases stepped
  case clearReleased session target =>
    split at stepped
    next released =>
      cases stepped
      refine act_at target key ?_ (.clearReleased released)
      simp [Broker.view_clearReleased]
    next => cases stepped
  case completeRelease session target =>
    split at stepped
    next done =>
      cases stepped
      exact act_at target key (Broker.view_setRelease ..) (.completeRelease done)
    next => cases stepped
  case takeFlush session target trigger requireFence =>
    split at stepped
    next state present =>
      split at stepped
      · cases stepped
      · cases stepped
        exact act_at target key (Broker.view_takeFlush ..) (.takeFlush present meets)
    next => cases stepped
  case signal session channel state =>
    cases stepped
    exact idle_of_view_eq rfl
  case completeFlush session target channel error =>
    cases stepped
    unfold Broker.completeFlush
    split
    next state present =>
      exact act_at target key (Broker.view_setPartition ..) (.completeFlush present meets)
    next => exact idle_of_view_eq rfl
  case beginShutdownDrain session =>
    cases stepped
    exact act_of_view .beginShutdownDrain

/-! ### Transitions stay filed under their partition -/

/-- A claim takes the partition's slot with fresh work, or only fixes a reservation target. -/
theorem View.claim_cases (view : View) (brokerConfig : BrokerConfig) (key : PartitionKey)
    (generation recordCount : Nat) (now : Int) (origin : LeaseAcquisitionOrigin) :
    (∃ work next, work.key = key ∧ work.assignmentGeneration = generation
      ∧ view.partition.ClaimSpec next now (origin = .assignmentMaintenance) work
      ∧ view.claim brokerConfig key generation recordCount now origin =
        { view with
          state := some next
          transition := some
            { work, origin
              callTime := if origin = .assignmentMaintenance then none else some now } })
    ∨ ∃ target, view.claim brokerConfig key generation recordCount now origin =
        { view with
          state := some { view.partition with adaptiveReservationSize := target } } := by
  rcases view.partition.beginTransition_cases generation key recordCount now
    (origin = .assignmentMaintenance) brokerConfig.reservationSize with
    ⟨work, next, decided, keyed, generationEq, spec⟩ | ⟨refused, target, reached⟩
  · refine Or.inl ⟨work, next, keyed, generationEq, spec, ?_⟩
    simp only [View.claim, decided]
  · refine Or.inr ⟨target, ?_⟩
    simp only [View.claim]
    rw [reached]

namespace View

variable {view : View} {inFlight : InFlight} (response : StoreResponse) (state : PartitionState)

theorem finished_stale (stale : view.isCurrent inFlight.work = false) :
    view.finished inFlight response state = state.endAllocation := by
  simp [View.finished, stale, PartitionState.finishTransition]

section Current

variable (current : view.isCurrent inFlight.work = true)
include current

/-- A current transition applies its result. -/
theorem finished_current :
    let arguments := Broker.finishArguments inFlight.work inFlight.origin response
    ∃ leaseFence records, view.finished inFlight response state
      = { state with
          buffer :=
            if PartitionState.discardsBuffer state.leaseFence arguments.update arguments.lease
            then {} else state.buffer
          seqAllocator := PartitionState.finishedAllocator state.seqAllocator
            inFlight.work.leaseWasExpired arguments.update arguments.reservation
          adaptiveReservationSize :=
            if PartitionState.resetsAllocation inFlight.work.leaseWasExpired arguments.update
            then none else state.adaptiveReservationSize
          recordsAllocatedSinceLeaseMaintenance := records
          leaseExpirationAt := (state.finishExpiration arguments.update).leaseExpirationAt
          leaseFence := leaseFence
          allocationInFlight := false
          allocationStartedAt := none } := by
  intro arguments
  obtain ⟨leaseFence, records, applied⟩ := state.applyFinish_eq
    inFlight.work.leaseWasExpired arguments.update arguments.lease arguments.reservation
    arguments.recordsAllocated
  refine ⟨leaseFence, records, ?_⟩
  simp only [View.finished, current, PartitionState.finishTransition, if_true]
  have reset : inFlight.work.resetSequenceAllocationOnFinish = inFlight.work.leaseWasExpired := rfl
  rw [reset, applied]
  rfl

theorem finished_seqAllocator :
    (view.finished inFlight response state).seqAllocator
      = PartitionState.finishedAllocator state.seqAllocator inFlight.work.leaseWasExpired
        (Broker.finishArguments inFlight.work inFlight.origin response).update
        (Broker.finishArguments inFlight.work inFlight.origin response).reservation := by
  obtain ⟨_, _, finished⟩ := finished_current response state current
  rw [finished]

theorem finished_buffer :
    (view.finished inFlight response state).buffer
      = if PartitionState.discardsBuffer state.leaseFence
          (Broker.finishArguments inFlight.work inFlight.origin response).update
          (Broker.finishArguments inFlight.work inFlight.origin response).lease
        then {} else state.buffer := by
  obtain ⟨_, _, finished⟩ := finished_current response state current
  rw [finished]

theorem finished_leaseExpirationAt :
    (view.finished inFlight response state).leaseExpirationAt
      = (state.finishExpiration
        (Broker.finishArguments inFlight.work inFlight.origin response).update).leaseExpirationAt := by
  obtain ⟨_, _, finished⟩ := finished_current response state current
  rw [finished]

end Current

end View

/-- Each view of the partition works on the partition. -/
def FocusKeyed (key : PartitionKey) (focus : Focus) : Prop :=
  ∀ session inFlight, (focus.views session).transition = some inFlight → inFlight.work.key = key

variable {key : PartitionKey}

theorem focusKeyed_local {brokerConfig : BrokerConfig} {clock : Int} {next : View}
    {row nextRow : Option LeaseState} {emitted : List SeqRange}
    (did : LocalStep contract brokerConfig session key clock view row next nextRow emitted)
    (keyed : ∀ inFlight, view.transition = some inFlight → inFlight.work.key = key) :
    ∀ inFlight, next.transition = some inFlight → inFlight.work.key = key := by
  intro inFlight owned
  cases did with
  | @claim generation recordCount now origin read assigned meets =>
    rcases view.claim_cases brokerConfig key generation recordCount now origin with
      ⟨work, next, workKey, -, -, claimed⟩ | ⟨target, claimed⟩
    · rw [claimed] at owned
      cases owned
      exact workKey
    · rw [claimed] at owned
      exact keyed inFlight owned
  | readClock before | callStore before meets | failCall before =>
    have sameWork := keyed _ before
    cases owned
    exact sameWork
  | finish before answered meets => cases owned
  | dropOwner before => cases owned
  | _ => exact keyed inFlight owned

/-- A step leaves the view of a broker as it is, or it is a step of that broker. -/
theorem FocusStep.view_cases {focus next : Focus}
    (stepped : FocusStep contract config key focus next) (session : String) :
    next.views session = focus.views session
      ∨ ∃ row emitted, LocalStep contract (config session) session key focus.clock
        (focus.views session) focus.row (next.views session) row emitted := by
  cases stepped with
  | idle | tick => exact Or.inl rfl
  | @act actor view row emitted did =>
    by_cases same : session = actor
    · subst same
      exact Or.inr ⟨row, emitted, by simpa only [Function.update_self] using did⟩
    · exact Or.inl (Function.update_of_ne same _ _)

theorem focusKeyed_step {focus next : Focus} (keyed : FocusKeyed key focus)
    (stepped : FocusStep contract config key focus next) : FocusKeyed key next := by
  intro session
  rcases stepped.view_cases session with same | ⟨row, emitted, did⟩
  · rw [same]
    exact keyed session
  · exact focusKeyed_local did (keyed session)

theorem transitionsKeyed_step (keyed : TransitionsKeyed world)
    (meets : contract.allows world action) (stepped : step config world action = some after) :
    TransitionsKeyed after := by
  intro session key inFlight owned
  have before : FocusKeyed key (world.focus key) := fun other => keyed other key
  exact focusKeyed_step before (step_focus keyed meets stepped key) session inFlight owned

/-- What every local step relates, a step of the cluster relates. -/
theorem step_view (related : View → View → Prop) (keyed : TransitionsKeyed world)
    (meets : contract.allows world action) (stepped : step config world action = some after)
    (session : String) (key : PartitionKey) (same : ∀ view, related view view)
    (moved : ∀ {view next : View} {row nextRow : Option LeaseState} {emitted : List SeqRange},
      LocalStep contract (config session) session key world.clock view row next nextRow emitted →
        related view next) :
    related ((world.brokers session).view key) ((after.brokers session).view key) := by
  rcases (step_focus keyed meets stepped key).view_cases session with unchanged | ⟨row, emitted, did⟩
  · have unchanged : (after.brokers session).view key = (world.brokers session).view key := unchanged
    rw [unchanged]
    exact same _
  · exact moved did

end Refinement

end BlobStream.Write.Cluster
