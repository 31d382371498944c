import BlobStream.Write.EpochChain
import BlobStream.Write.FlushPlanning
import BlobStream.Write.OwnOrder

/-!
# Flush epochs in the state of a broker

Only opening and ending flush epochs touches the publication tail and the number of outstanding
flushes of a partition; every other action keeps them or retires a partition without outstanding
flushes. Scheduler passes extend the chains of the partitions they take.
-/

namespace BlobStream.Write

/-- The part of a partition's state that belongs to its flush epochs. -/
def PartitionState.epochState (state : PartitionState) : Option PublicationChannel × Nat :=
  (state.publicationTail, state.outstandingFlushes)

end BlobStream.Write

namespace BlobStream.Write.Cluster

/-! ### Actions outside the flush tasks -/

def quiet : Contract where
  flush := false

variable {action : Action}

theorem quiet_allows (still : action.movesEpochs = false) (world : World) :
    quiet.allows world action := by
  unfold Contract.allows Contract.check
  split
  all_goals first | rfl | skip
  · split <;> rfl
  · split
    · split <;> rfl
    · rfl
  all_goals cases still

/-- The epoch state is kept, or the partition was retired without outstanding flushes. -/
def EpochFrame (before after : PartitionState) : Prop :=
  after.epochState = before.epochState
    ∨ before.outstandingFlushes = 0 ∧ after.epochState = (none, 0)

/-- What an action outside the flush tasks does to a partition. It goes on draining, unless it has
nothing left to drain or is reopened. -/
structure LocalFrame (contract : Contract) (before after : PartitionState) : Prop where
  epochs : EpochFrame before after
  drains : after.buffer.batches = [] ∨ (before.draining = true → after.draining = true)
    ∨ contract.resume before = true ∧ after.buffer.batches = before.buffer.batches

variable {contract : Contract}

theorem LocalFrame.refl (state : PartitionState) : LocalFrame contract state state :=
  ⟨Or.inl rfl, Or.inr (Or.inl id)⟩

theorem localFrame_map (view : View) {update : PartitionState → PartitionState}
    (keeps : LocalFrame contract view.partition (update view.partition)) :
    LocalFrame contract view.partition ((view.state.map update).getD {}) := by
  rcases view.map_partition update with same | changed
  · rw [same]
    exact .refl _
  · rw [changed]
    exact keeps

variable {session : String}
variable {key : PartitionKey}

theorem localFrame {config : BrokerConfig} {clock : Int} {view next : View}
    {row nextRow : Option ProducerLeases.LeaseState} {emitted : List SeqRange}
    (still : contract.flush = false)
    (did : LocalStep contract config session key clock view row next nextRow emitted) :
    LocalFrame contract view.partition next.partition := by
  cases did with
  | @produce batch now read summarized assigned meets =>
    rcases view.partition.produceFastPath_cases batch now with
      ⟨range, allocator, took, admitted, -⟩ | ⟨-, kept⟩
    · -- A draining partition accepts nothing.
      rw [took]
      refine ⟨Or.inl rfl, Or.inr (Or.inl fun draining => ?_)⟩
      rw [draining] at admitted
      cases admitted
    · rw [kept]
      exact .refl _
  | @claim generation recordCount now origin read assigned meets =>
    rcases view.claim_cases config key generation recordCount now origin with
      ⟨work, claimedState, -, -, spec, claimed⟩ | ⟨target, claimed⟩
    · rw [claimed]
      obtain ⟨target, rfl⟩ := spec.changed
      exact ⟨Or.inl rfl, Or.inr (Or.inl id)⟩
    · rw [claimed]
      exact ⟨Or.inl rfl, Or.inr (Or.inl id)⟩
  | @finish inFlight response owned answered meets =>
    refine localFrame_map view ?_
    cases current : view.isCurrent inFlight.work with
    | false =>
      rw [View.finished_stale response view.partition current]
      exact ⟨Or.inl rfl, Or.inr (Or.inl id)⟩
    | true =>
      obtain ⟨_, _, finished⟩ := View.finished_current response view.partition current
      rw [finished]
      exact ⟨Or.inl rfl, Or.inr (Or.inl id)⟩
  | resumeAdmission meets =>
    exact localFrame_map view ⟨Or.inl rfl, Or.inr (Or.inr ⟨meets, rfl⟩)⟩
  | dropOwner | applyHeartbeat =>
    exact localFrame_map view ⟨Or.inl rfl, Or.inr (Or.inl id)⟩
  | startRelease | beginShutdownDrain =>
    exact localFrame_map view ⟨Or.inl rfl, Or.inr (Or.inl fun _ => rfl)⟩
  | clearReleased phase =>
    show LocalFrame contract view.partition (view.cleared.getD {})
    unfold View.cleared View.partition
    cases view.state with
    | none => exact .refl _
    | some state =>
      simp only [Option.getD_some]
      split
      next retired =>
        have drained := retired.2.2
        simp only [PartitionState.isDrained, decide_eq_true_eq] at drained
        exact ⟨Or.inr ⟨drained.1, rfl⟩, Or.inl rfl⟩
      next => exact ⟨Or.inl rfl, Or.inr (Or.inl id)⟩
  | takeFlush present meets | completeFlush present meets =>
    rw [still] at meets
    cases meets
  | _ => exact .refl _

def Broker.channels (broker : Broker) : Publications × PublicationChannel :=
  (broker.publications, broker.nextPublication)

section Channels

variable {config : String → BrokerConfig} {world next : World}

/-- What actions on single partitions leave alone: the assignment and the watch channels. -/
def Broker.frame (broker : Broker) : LocalAssignment × Publications × PublicationChannel :=
  (broker.write.assignment, broker.channels)

theorem setBroker_frame {broker : Broker}
    (same : broker.frame = (world.brokers session).frame) (other : String) :
    ((world.setBroker session broker).brokers other).frame = (world.brokers other).frame := by
  by_cases here : other = session
  · subst here
    simpa [World.setBroker] using same
  · simp [World.setBroker, here]

theorem finishInner_assignment (state : WriteState) (work : AllocationTransitionWork)
    (update : LeaseExpirationUpdate) (lease : Option ProducerLeases.ProducerPartitionLease)
    (reservation : Option SeqRange) (recordsAllocated : Option Nat) :
    (finishInner state work update lease reservation recordsAllocated).2.1.assignment
      = state.assignment := by
  unfold finishInner
  split <;> rfl

namespace Broker

variable (broker : Broker) (key : PartitionKey)

theorem frame_write {write : WriteState} (same : write.assignment = broker.write.assignment) :
    { broker with write := write }.frame = broker.frame := by
  simp only [frame, same]
  rfl

theorem claim_frame (brokerConfig : BrokerConfig) (recordCount : Nat) (now : Int)
    (origin : LeaseAcquisitionOrigin) :
    (broker.claim brokerConfig key recordCount now origin).frame = broker.frame := by
  have begun (state : WriteState) (renewLease : Bool) : (beginAllocationTransition state key
      recordCount now renewLease brokerConfig.reservationSize).2.assignment = state.assignment := by
    unfold beginAllocationTransition
    split <;> rfl
  have began := begun broker.write (origin = .assignmentMaintenance)
  unfold claim
  simp only
  split
  next work write isClaimed =>
    rw [isClaimed] at began
    exact frame_write broker began
  next write other isOther =>
    rw [isOther] at began
    exact frame_write broker began

theorem finish_frame (inFlight : InFlight) (response : StoreResponse) :
    (broker.finish key inFlight response).frame = broker.frame := by
  simp only [finish, FinishArguments.finish_eq]
  split <;> exact frame_write broker (finishInner_assignment ..)

theorem clearReleased_frame :
    { broker with write := broker.write.clearTerminallyReleasedPartition key }.frame
      = broker.frame := by
  refine frame_write broker ?_
  unfold WriteState.clearTerminallyReleasedPartition
  split
  · rfl
  · simp only
    split <;> rfl

end Broker

/-- The actions that refresh an assignment or move a watch channel. -/
def Action.movesFrame : Action → Bool
  | .refreshAssignment .. | .takeFlush .. | .signal .. | .completeFlush .. => true
  | _ => false

theorem step_frame (still : action.movesFrame = false)
    (stepped : step config world action = some next) (session : String) :
    (next.brokers session).frame = (world.brokers session).frame := by
  cases action <;> simp only [step] at stepped
  case tick now =>
    split at stepped <;> cases stepped
    rfl
  case produce actor batch now =>
    split at stepped <;> cases stepped
    change ((world.setBroker actor _).brokers session).frame = _
    refine setBroker_frame (Broker.frame_write _ ?_) session
    simp only [produceFastPath]
    split <;> rfl
  case claim | claimMaintenance =>
    split at stepped <;> cases stepped
    exact setBroker_frame (Broker.claim_frame ..) session
  case readClock | callStore | failCall | completeRelease =>
    split at stepped <;> cases stepped
    refine setBroker_frame ?_ session
    rfl
  case finish actor key =>
    split at stepped
    · split at stepped <;> cases stepped
      exact setBroker_frame (Broker.finish_frame ..) session
    · cases stepped
  case resumeAdmission | startRelease | applyHeartbeat =>
    split at stepped <;> cases stepped
    refine setBroker_frame ?_ session
    simp only [Broker.resumeAdmission, Broker.startRelease, Broker.applyHeartbeat]
    split <;> rfl
  case dropOwner actor key =>
    split at stepped <;> cases stepped
    refine setBroker_frame ?_ session
    exact Broker.frame_write _ (finishInner_assignment ..)
  case drainHeartbeat | finishDrain | callRelease =>
    split at stepped
    · split at stepped <;> cases stepped
      refine setBroker_frame ?_ session
      rfl
    · cases stepped
  case clearReleased actor key =>
    split at stepped <;> cases stepped
    refine setBroker_frame ?_ session
    exact Broker.clearReleased_frame ..
  case beginShutdownDrain actor =>
    cases stepped
    refine setBroker_frame ?_ session
    rfl
  case refreshAssignment | takeFlush | signal | completeFlush => cases still

theorem step_channels (still : action.movesEpochs = false)
    (stepped : step config world action = some next) (session : String) :
    (next.brokers session).channels = (world.brokers session).channels := by
  cases action with
  | refreshAssignment actor desired =>
    cases stepped
    by_cases here : session = actor
    · subst here
      simp only [World.setBroker, Function.update_self]
      rfl
    · simp [World.setBroker, here]
  | takeFlush | signal | completeFlush => cases still
  | _ => exact congrArg Prod.snd (step_frame rfl stepped session)

theorem step_epochFrame (keyed : TransitionsKeyed world)
    (still : action.movesEpochs = false) (stepped : step config world action = some next)
    (session : String) (key : PartitionKey) :
    EpochFrame ((world.brokers session).write.partitionState key)
      ((next.brokers session).write.partitionState key) :=
  step_view (fun before after => EpochFrame before.partition after.partition) keyed
    (quiet_allows still world) stepped session key (fun _ => Or.inl rfl)
    fun did => (localFrame rfl did).epochs

end Channels

/-! ### Scheduler passes -/

def epochsAt (key : PartitionKey) (epochs : List Opened) : List FlushPartition :=
  (epochs.filter fun epoch => epoch.1 = key).map Prod.snd

theorem epochsAt_append (key : PartitionKey) (first second : List Opened) :
    epochsAt key (first ++ second) = epochsAt key first ++ epochsAt key second := by
  simp [epochsAt]

theorem mem_epochsAt {epochs : List Opened} {epoch : FlushPartition} :
    epoch ∈ epochsAt key epochs ↔ (key, epoch) ∈ epochs := by
  unfold epochsAt
  constructor
  · intro member
    obtain ⟨⟨other, found⟩, kept, rfl⟩ := List.mem_map.mp member
    obtain ⟨present, same⟩ := List.mem_filter.mp kept
    rw [← of_decide_eq_true same]
    exact present
  · intro member
    exact List.mem_map.mpr ⟨(key, epoch), List.mem_filter.mpr ⟨member, by simp⟩, rfl⟩

/-- The watch channels of a broker fit the epochs it has opened. -/
structure EpochsSound (broker : Broker) (epochs : List Opened) : Prop where
  distinct : (epochs.map fun epoch => epoch.2.publicationState).Nodup
  fresh : ∀ epoch ∈ epochs, epoch.2.publicationState < broker.nextPublication
  chain : ∀ key, ChainSound broker.publications (broker.write.partitionState key).publicationTail
    (epochsAt key epochs)

/-- A take opens an epoch with the next channel, or leaves channels and epochs as they are. -/
theorem takeFlush_cases (broker : Broker) (key : PartitionKey) (state : PartitionState)
    (trigger : FlushTrigger) (requireFence : Bool) :
    ((broker.taking key state trigger requireFence).flush = none
        ∧ (broker.takeFlush key state trigger requireFence).channels = broker.channels
        ∧ (broker.taking key state trigger requireFence).state.epochState = state.epochState)
      ∨ ∃ flush, (broker.taking key state trigger requireFence).flush = some flush
        ∧ (broker.takeFlush key state trigger requireFence).channels
          = (Function.update broker.publications flush.publicationState .pending,
            broker.nextPublication + 1)
        ∧ (broker.taking key state trigger requireFence).state.epochState
          = (some flush.publicationState, state.outstandingFlushes + 1)
        ∧ flush.publicationState = broker.nextPublication
        ∧ flush.publicationPredecessor = state.publicationTail := by
  unfold Broker.taking Broker.takeFlush takeFlushPartition
  split
  · exact Or.inl ⟨rfl, rfl, rfl⟩
  · simp only
    split
    · exact Or.inl ⟨rfl, rfl, rfl⟩
    · exact Or.inr ⟨_, rfl, rfl, rfl, rfl, rfl⟩

theorem takeFlush_partitionState (broker : Broker) (key other : PartitionKey)
    (state : PartitionState) (trigger : FlushTrigger) (requireFence : Bool) :
    (broker.takeFlush key state trigger requireFence).write.partitionState other
      = if other = key then (broker.taking key state trigger requireFence).state
        else broker.write.partitionState other := by
  unfold WriteState.partitionState
  rw [takeFlush_partitions, Function.update_apply]
  split <;> rfl

/-- What a sequence of takes does to channels and outstanding flushes. -/
structure TakesEpochs (broker : Broker) (opened : List Opened) (after : Broker) : Prop where
  later : broker.nextPublication ≤ after.nextPublication
  old : ∀ channel < broker.nextPublication,
    after.publications channel = broker.publications channel
  new : ∀ epoch ∈ opened, after.publications epoch.2.publicationState = .pending
    ∧ epoch.2.publicationState < after.nextPublication
  outstanding : ∀ key, (after.write.partitionState key).outstandingFlushes
    = (broker.write.partitionState key).outstandingFlushes + (epochsAt key opened).length

section Takes

variable {broker before after : Broker} {opened epochs : List Opened}
variable {requireFence : Bool} {lost : List FlushCompletion}

/-- One take keeps every chain, and continues the one it opens an epoch of. -/
theorem EpochsSound.take (sound : EpochsSound broker epochs) {key : PartitionKey}
    {state : PartitionState} (present : broker.write.partitions key = some state)
    {trigger : FlushTrigger} (requireFence : Bool)
    (eligible : broker.skips state trigger = false) :
    EpochsSound (broker.takeFlush key state trigger requireFence)
      (epochs ++ ((broker.taking key state trigger requireFence).flush.map (key, ·)).toList) := by
  have here : broker.write.partitionState key = state := by
    simp [WriteState.partitionState, present]
  have ready : tailPending broker.publications state.publicationTail = false := by
    unfold Broker.skips at eligible
    exact (Bool.or_eq_false_iff.mp eligible).2
  rcases takeFlush_cases broker key state trigger requireFence with
    ⟨nothing, channels, same⟩ | ⟨flush, taken, channels, epochState, fresh, follows⟩
  · obtain ⟨publications, nextPublication⟩ := Prod.mk.inj channels
    rw [nothing, Option.map_none, Option.toList_none, List.append_nil]
    refine ⟨sound.distinct, ?_, fun other => ?_⟩
    · rw [nextPublication]
      exact sound.fresh
    · rw [publications, takeFlush_partitionState]
      split
      next here' =>
        subst here'
        have chain := sound.chain other
        rw [here] at chain
        rw [(Prod.mk.inj same).1]
        exact chain
      next => exact sound.chain other
  · obtain ⟨publications, nextPublication⟩ := Prod.mk.inj channels
    rw [taken, Option.map_some, Option.toList_some]
    have unused : ∀ epoch ∈ epochs, epoch.2.publicationState ≠ flush.publicationState := by
      intro epoch member
      rw [fresh]
      exact Nat.ne_of_lt (sound.fresh epoch member)
    refine ⟨?_, ?_, fun other => ?_⟩
    · rw [List.map_append]
      refine List.nodup_append.mpr ⟨sound.distinct, by simp, ?_⟩
      intro channel inEpochs other isNew same
      subst same
      obtain ⟨epoch, member, rfl⟩ := List.mem_map.mp inEpochs
      exact unused epoch member (by simpa using isNew)
    · rw [nextPublication]
      refine forall_append_singleton (fun epoch member => ?_) ?_
      · exact Nat.lt_succ_of_lt (sound.fresh epoch member)
      · show flush.publicationState < _
        rw [fresh]
        exact Nat.lt_succ_self _
    · rw [publications, takeFlush_partitionState, epochsAt_append]
      split
      next here' =>
        subst here'
        have chain := sound.chain other
        rw [here] at chain
        have single : epochsAt other [(other, flush)] = [flush] := by simp [epochsAt]
        rw [(Prod.mk.inj epochState).1, single]
        exact chain.take ready follows fun earlier member =>
          unused (other, earlier) (mem_epochsAt.mp member)
      next different =>
        have none_ : epochsAt other [(key, flush)] = [] := by
          simp [epochsAt, Ne.symm different]
        rw [none_, List.append_nil]
        exact (sound.chain other).congr fun earlier member =>
          Function.update_of_ne (unused (other, earlier) (mem_epochsAt.mp member)) ..

theorem Takes.epochsSound (takes : Takes requireFence broker opened lost after) (sound : EpochsSound broker epochs) :
    EpochsSound after (epochs ++ opened) := by
  induction takes with
  | refl => rwa [List.append_nil]
  | take earlier present eligible ih =>
    rw [← List.append_assoc]
    exact ih.take present _ eligible

theorem Takes.takesEpochs (takes : Takes requireFence broker opened lost after) : TakesEpochs broker opened after := by
  induction takes with
  | refl => exact ⟨Nat.le_refl _, fun _ _ => rfl, by simp, by simp [epochsAt]⟩
  | @take opened lost before key state trigger earlier present eligible ih =>
    have here : before.write.partitionState key = state := by
      simp [WriteState.partitionState, present]
    rcases takeFlush_cases before key state trigger requireFence with
      ⟨nothing, channels, same⟩ | ⟨flush, taken, channels, epochState, fresh, -⟩
    · obtain ⟨publications, nextPublication⟩ := Prod.mk.inj channels
      rw [nothing, Option.map_none, Option.toList_none, List.append_nil]
      refine ⟨?_, ?_, ?_, fun other => ?_⟩
      · rw [nextPublication]
        exact ih.later
      · rw [publications]
        exact ih.old
      · rw [publications, nextPublication]
        exact ih.new
      · rw [takeFlush_partitionState, ← ih.outstanding other]
        split
        next same' =>
          subst same'
          rw [here]
          exact (Prod.mk.inj same).2
        next => rfl
    · obtain ⟨publications, nextPublication⟩ := Prod.mk.inj channels
      rw [taken, Option.map_some, Option.toList_some]
      have later := ih.later
      refine ⟨?_, ?_, ?_, fun other => ?_⟩
      · rw [nextPublication]
        exact Nat.le_succ_of_le later
      · intro channel below
        have unused : channel ≠ flush.publicationState := by
          rw [fresh]
          exact Nat.ne_of_lt (Nat.lt_of_lt_of_le below later)
        rw [publications, Function.update_of_ne unused]
        exact ih.old channel below
      · rw [publications, nextPublication]
        refine forall_append_singleton (fun epoch member => ?_) ⟨Function.update_self .., ?_⟩
        · obtain ⟨pending, below⟩ := ih.new epoch member
          have unused : epoch.2.publicationState ≠ flush.publicationState := by
            rw [fresh]
            exact Nat.ne_of_lt below
          rw [Function.update_of_ne unused]
          exact ⟨pending, Nat.lt_succ_of_lt below⟩
        · show flush.publicationState < _
          rw [fresh]
          exact Nat.lt_succ_self _
      · rw [takeFlush_partitionState, epochsAt_append, List.length_append, ← Nat.add_assoc,
          ← ih.outstanding other]
        split
        next same =>
          subst same
          have one : (epochsAt other [(other, flush)]).length = 1 := by simp [epochsAt]
          rw [here, one]
          exact (Prod.mk.inj epochState).2
        next different =>
          have none_ : (epochsAt other [(key, flush)]).length = 0 := by
            simp [epochsAt, Ne.symm different]
          rw [none_, Nat.add_zero]

/-- The ranges a partition has handed to its epochs, oldest first. -/
def epochRanges (key : PartitionKey) (epochs : List Opened) : List SeqRange :=
  (epochsAt key epochs).flatMap fun epoch => epoch.batches.map BufferedBatch.seqRange

theorem epochRanges_append (key : PartitionKey) (first second : List Opened) :
    epochRanges key (first ++ second) = epochRanges key first ++ epochRanges key second := by
  simp [epochRanges, epochsAt_append]

theorem Takes.ownSound {leases : PartitionKey → Option ProducerLeases.LeaseState}
    (takes : Takes requireFence broker opened lost after)
    (sound : ∀ key, OwnSound (leases key) (epochRanges key epochs) (broker.view key)) :
    ∀ key, OwnSound (leases key) (epochRanges key (epochs ++ opened)) (after.view key) := by
  induction takes with
  | refl =>
    rw [List.append_nil]
    exact sound
  | @take opened lost before key state trigger earlier present eligible ih =>
    intro other
    rw [← List.append_assoc, epochRanges_append, Broker.view_takeFlush]
    by_cases same : other = key
    · subst same
      rw [Function.update_self]
      have moved : OwnSound (leases other) (epochRanges other (epochs ++ opened) ++ bufferRanges state)
          { before.view other with
            state := some (before.taking other state trigger requireFence).state } :=
        (ih other).takeFlush present
      cases flushed : (before.taking other state trigger requireFence).flush with
      | none => exact moved.forget (by simp [epochRanges, epochsAt])
      | some flush =>
        have batches := (takeFlushPartition_some flushed).2.1
        have single : epochRanges other [(other, flush)] = bufferRanges state := by
          simp [epochRanges, epochsAt, bufferRanges, batches]
        rw [Option.map_some, Option.toList_some, single]
        exact moved
    · rw [Function.update_of_ne same]
      have nothing : epochRanges other
          ((before.taking key state trigger requireFence).flush.map (key, ·)).toList = [] := by
        cases (before.taking key state trigger requireFence).flush with
        | none => rfl
        | some flush => simp [epochRanges, epochsAt, Ne.symm same]
      rw [nothing, List.append_nil]
      exact ih other

theorem Takes.reachable {config : String → BrokerConfig} {allowed : World → Action → Prop}
    {world : World} (takes : Takes requireFence (world.brokers session) opened lost after)
    (own : ∀ before action, action.movesEpochs = true → allowed before action) :
    Machine.Reachable (step config) allowed world (world.setBroker session after) := by
  induction takes with
  | refl =>
    have same : world.setBroker session (world.brokers session) = world := by
      simp [World.setBroker]
    rw [same]
    exact .refl
  | @take opened lost before key state trigger earlier present eligible ih =>
    have here : (world.setBroker session before).brokers session = before := by
      simp [World.setBroker]
    have overwritten (broker : Broker) :
        (world.setBroker session before).setBroker session broker = world.setBroker session broker := by
      simp [World.setBroker]
    unfold Broker.skips at eligible
    simp only [Bool.or_eq_false_iff, Bool.and_eq_false_iff, decide_eq_false_iff_not] at eligible
    have stepped : step config (world.setBroker session before)
        (.takeFlush session key trigger requireFence)
        = some (world.setBroker session (before.takeFlush key state trigger requireFence)) := by
      simp only [step, here, present, overwritten]
      rw [if_neg]
      rintro (⟨delayed, draining⟩ | pending)
      · rcases eligible.1 with other | open_
        · exact other delayed
        · rw [draining] at open_
          cases open_
      · rw [eligible.2] at pending
        cases pending
    exact ih.tail (own _ _ rfl) stepped

end Takes

end BlobStream.Write.Cluster
