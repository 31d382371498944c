import BlobStream.Write.LeaseInvariant

/-!
# One broker hands out increasing ranges

Whatever happens to the lease, the ranges one broker process puts into the buffer of a partition
increase: the store only reserves above its high-water mark, and the local allocator never moves
back. The ranges taken out of the buffer earlier are kept in a list `done`.
-/

namespace BlobStream.Write.Cluster

open Word ProducerLeases

/-- The range a store call gave to its owner. -/
def StoreResponse.range : StoreResponse → Option SeqRange
  | .acquisition (.acquired _ granted) => granted
  | .reservation (.reserved granted _) => some granted
  | _ => none

theorem finishArguments_reservation {work : AllocationTransitionWork}
    {origin : LeaseAcquisitionOrigin} {response : StoreResponse} {range : SeqRange}
    (granted : (Broker.finishArguments work origin response).reservation = some range) :
    response.range = some range := by
  unfold Broker.finishArguments at granted
  split at granted
  · split at granted
    · cases granted
    · exact granted
  · exact granted
  · exact granted
  · cases granted
  · cases granted

def bufferRanges (state : PartitionState) : List SeqRange :=
  state.buffer.batches.map BufferedBatch.seqRange

/-- Ranges handed out by one broker: those of earlier epochs, then those still buffered. -/
def handed (done : List SeqRange) (state : PartitionState) : List SeqRange :=
  done ++ bufferRanges state

/-- A list of ranges in the order they were handed out. -/
structure Increasing (ranges : List SeqRange) : Prop where
  ordered : ranges.Pairwise fun earlier later => earlier.end ≤ later.start
  valid : ∀ range ∈ ranges, range.start ≤ range.end

theorem Increasing.sublist {ranges kept : List SeqRange} (increasing : Increasing ranges)
    (sublist : kept.Sublist ranges) : Increasing kept :=
  ⟨increasing.ordered.sublist sublist, fun range member =>
    increasing.valid range (sublist.subset member)⟩

/-- Of two ranges, the lower one was handed out first. -/
theorem Increasing.first_below {first second : List SeqRange} {low high : SeqRange}
    (increasing : Increasing (first ++ second)) (inFirst : high ∈ first) (inSecond : low ∈ second) :
    ¬ low.end < high.start := by
  have order := (List.pairwise_append.mp increasing.ordered).2.2 high inFirst low inSecond
  have := increasing.valid high (List.mem_append_left _ inFirst)
  have := increasing.valid low (List.mem_append_right _ inSecond)
  omega

structure OwnSound (row : Option LeaseState) (done : List SeqRange) (view : View) : Prop where
  increasing : Increasing (handed done view.partition)
  stored : ∀ range ∈ handed done view.partition, Reserved row range
  ahead : view.partition.seqAllocator.reservation.isSome →
    ∀ range ∈ handed done view.partition, range.end ≤ view.partition.seqAllocator.nextSeq
  reserved : ∀ range, view.partition.seqAllocator.reservation = some range → Reserved row range
  granted : ∀ inFlight response range, view.transition = some inFlight →
    inFlight.response = some response → response.range = some range →
    Reserved row range ∧ AllBelow (handed done view.partition) range.start

section Own

variable {row nextRow : Option LeaseState} {done : List SeqRange} {view next : View}

section

variable (sound : OwnSound row done view)

include sound

theorem OwnSound.advance (kept : ∀ range, Reserved row range → Reserved nextRow range) :
    OwnSound nextRow done view :=
  ⟨sound.increasing, fun range member => kept range (sound.stored range member), sound.ahead,
    fun range present => kept range (sound.reserved range present),
    fun inFlight response range owned answered given =>
      (sound.granted inFlight response range owned answered given).imp_left (kept range)⟩

/-- A step that keeps the allocator, drops ranges at most, and learns of no new grant. -/
theorem OwnSound.shrink {later : List SeqRange}
    (sublist : (handed later next.partition).Sublist (handed done view.partition))
    (allocator : next.partition.seqAllocator = view.partition.seqAllocator
      ∨ next.partition.seqAllocator.reservation = none)
    (grants : ∀ inFlight response, next.transition = some inFlight →
      inFlight.response = some response → response.range = none
        ∨ ∃ before, view.transition = some before ∧ before.response = some response) :
    OwnSound row later next where
  increasing := sound.increasing.sublist sublist
  stored := fun range member => sound.stored range (sublist.subset member)
  ahead := by
    intro present range member
    rcases allocator with same | empty
    · rw [same] at present ⊢
      exact sound.ahead present range (sublist.subset member)
    · rw [empty] at present
      cases present
  reserved := by
    intro range present
    rcases allocator with same | empty
    · rw [same] at present
      exact sound.reserved range present
    · rw [empty] at present
      cases present
  granted := by
    intro inFlight response range owned answered given
    rcases grants inFlight response owned answered with nothing | ⟨before, earlier, same⟩
    · rw [nothing] at given
      cases given
    · obtain ⟨stored, below⟩ := sound.granted before response range earlier same given
      exact ⟨stored, fun each member => below each (sublist.subset member)⟩

theorem OwnSound.keep (buffer : (bufferRanges next.partition).Sublist (bufferRanges view.partition))
    (allocator : next.partition.seqAllocator = view.partition.seqAllocator)
    (transition : next.transition = view.transition) : OwnSound row done next :=
  sound.shrink ((List.Sublist.refl done).append buffer) (Or.inl allocator) fun inFlight _
    owned answered => Or.inr ⟨inFlight, transition ▸ owned, answered⟩

theorem OwnSound.settle
    (buffer : (bufferRanges next.partition).Sublist (bufferRanges view.partition))
    (allocator : next.partition.seqAllocator = view.partition.seqAllocator)
    (transition : next.transition = none) : OwnSound row done next :=
  sound.shrink ((List.Sublist.refl done).append buffer) (Or.inl allocator) fun inFlight _ owned => by
    rw [transition] at owned
    cases owned

end

theorem handed_accept (done : List SeqRange) (state : PartitionState) (allocator : SeqAllocator)
    (range : SeqRange) (batch : ProduceBatch) (now : Int) :
    handed done (state.accept allocator range batch now) = handed done state ++ [range] := by
  simp [handed, bufferRanges, PartitionState.accept]

/-- An accepted batch takes the next numbers of a reservation. -/
theorem OwnSound.accept (sound : OwnSound row done view) {batch : ProduceBatch} {now : Int}
    {range : SeqRange} {allocator : SeqAllocator} (idle : view.transition = none)
    (allocated : view.partition.seqAllocator.allocate batch.records.length
      = some (range, allocator)) :
    OwnSound row done { view with state := some (view.partition.accept allocator range batch now) } := by
  obtain ⟨reservation, held, positive, inside, bounded, rangeEq, rfl⟩ :=
    SeqAllocator.allocate_eq_some allocated
  have ahead := sound.ahead (by rw [held]; rfl)
  have starts : range.start = view.partition.seqAllocator.nextSeq := by rw [rangeEq]
  have ends : range.start ≤ range.end := by
    rw [rangeEq]
    exact Nat.le_add_right _ _
  have stored : Reserved row range := by
    obtain ⟨mark, known, below⟩ := sound.reserved reservation held
    exact ⟨mark, known, Nat.le_trans inside below⟩
  have raised : range.end ≤ saturatingAdd u64Max range.end 1 := le_saturatingAdd bounded
  constructor
  · show Increasing (handed done (view.partition.accept _ range batch now))
    rw [handed_accept]
    refine ⟨List.pairwise_append.mpr ⟨sound.increasing.ordered, List.pairwise_singleton _ _, ?_⟩, ?_⟩
    · intro earlier member later new
      rw [List.mem_singleton.mp new, starts]
      exact ahead earlier member
    · intro each member
      rcases List.mem_append.mp member with before | new
      · exact sound.increasing.valid each before
      · rw [List.mem_singleton.mp new]
        exact ends
  · show ∀ each ∈ handed done (view.partition.accept _ range batch now), _
    rw [handed_accept]
    intro each member
    rcases List.mem_append.mp member with before | new
    · exact sound.stored each before
    · rw [List.mem_singleton.mp new]
      exact stored
  · intro _
    show ∀ each ∈ handed done (view.partition.accept _ range batch now),
      each.end ≤ saturatingAdd u64Max range.end 1
    rw [handed_accept]
    intro each member
    rcases List.mem_append.mp member with before | new
    · have := ahead each before
      omega
    · rw [List.mem_singleton.mp new]
      exact raised
  · exact fun each present => sound.reserved each present
  · intro inFlight response _ owned
    rw [show ({ view with state := some _ } : View).transition = view.transition from rfl, idle]
      at owned
    cases owned

/-- A finished transition installs a range that lies above everything handed out. -/
theorem finishedAllocator_cases (allocator : SeqAllocator) (resetOnFinish : Bool)
    (update : LeaseExpirationUpdate) (reservation : Option SeqRange) :
    PartitionState.finishedAllocator allocator resetOnFinish update reservation = allocator
      ∨ (PartitionState.finishedAllocator allocator resetOnFinish update reservation).reservation
        = none
      ∨ ∃ range, reservation = some range
        ∧ ∃ held, (PartitionState.finishedAllocator allocator resetOnFinish update
            reservation).reservation = some held ∧ held.end = range.end
          ∧ ((PartitionState.finishedAllocator allocator resetOnFinish update reservation).nextSeq
              = range.start
            ∨ allocator.reservation.isSome
              ∧ (PartitionState.finishedAllocator allocator resetOnFinish update reservation).nextSeq
                = allocator.nextSeq) := by
  cases reservation with
  | none =>
    unfold PartitionState.finishedAllocator
    split
    · exact Or.inr (Or.inl rfl)
    · exact Or.inl rfl
  | some range =>
    refine Or.inr (Or.inr ⟨range, rfl, ?_⟩)
    unfold PartitionState.finishedAllocator
    split
    · exact ⟨range, rfl, rfl, Or.inl rfl⟩
    · rcases allocator.installOrExtendReservation_cases range with
        ⟨held, present, -, extended⟩ | replaced
      · simp only [extended]
        exact ⟨_, rfl, rfl, Or.inr ⟨by rw [present]; rfl, trivial⟩⟩
      · simp only [replaced]
        exact ⟨_, rfl, rfl, Or.inl trivial⟩

theorem OwnSound.finish (sound : OwnSound row done view) {inFlight : InFlight}
    {response : StoreResponse} (owned : view.transition = some inFlight)
    (answered : inFlight.response = some response) :
    OwnSound row done
      { view with
        state := view.state.map (view.finished inFlight response)
        transition := none } := by
  cases present : view.state with
  | none =>
    refine sound.settle ?_ ?_ rfl
    · rw [View.partition_of_none present]
      exact List.Sublist.refl _
    · rw [View.partition_of_none present]
      rfl
  | some state =>
    have here := View.partition_of_some present
    cases current : view.isCurrent inFlight.work with
    | false =>
      rw [Option.map_some, View.finished_stale response state current]
      refine sound.settle ?_ ?_ rfl
      · rw [here]
        exact List.Sublist.refl _
      · rw [here]
        rfl
    | true =>
      have buffer := View.finished_buffer response state current
      have allocator := View.finished_seqAllocator response state current
      have sublist : (bufferRanges (view.finished inFlight response state)).Sublist
          (bufferRanges view.partition) := by
        rw [here]
        unfold bufferRanges
        rw [buffer]
        split
        · exact List.nil_sublist _
        · exact List.Sublist.refl _
      have kept := (List.Sublist.refl done).append sublist
      have none_left : ∀ (other : InFlight) (answer : StoreResponse),
          (none : Option InFlight) = some other → other.response = some answer →
          answer.range = none ∨ ∃ before, view.transition = some before
            ∧ before.response = some answer := by
        intro other answer impossible
        cases impossible
      rcases finishedAllocator_cases state.seqAllocator inFlight.work.leaseWasExpired
        (Broker.finishArguments inFlight.work inFlight.origin response).update
        (Broker.finishArguments inFlight.work inFlight.origin response).reservation with
        same | empty | ⟨range, given, held, now, ends, next⟩
      · refine sound.shrink kept (Or.inl ?_) none_left
        rw [here]
        exact allocator.trans same
      · refine sound.shrink kept (Or.inr ?_) none_left
        exact (congrArg SeqAllocator.reservation allocator).trans empty
      · obtain ⟨stored, below⟩ := sound.granted inFlight response range owned answered
          (finishArguments_reservation given)
        rw [← allocator] at now next
        refine ⟨sound.increasing.sublist kept, fun each member =>
          sound.stored each (kept.subset member), ?_, ?_, by simp⟩
        · intro _ each member
          have before := kept.subset member
          have strict := below each before
          show each.end ≤ (view.finished inFlight response state).seqAllocator.nextSeq
          rcases next with moved | ⟨some_, stays⟩
          · omega
          · rw [stays, ← here]
            rw [← here] at some_
            exact sound.ahead some_ each before
        · intro each reservation
          have same : each = held := by
            have : (view.finished inFlight response state).seqAllocator.reservation = some each :=
              reservation
            rw [now] at this
            exact (Option.some.inj this).symm
          obtain ⟨mark, known, inside⟩ := stored
          exact ⟨mark, known, by rw [same, ends]; exact inside⟩

theorem OwnSound.callStore (sound : OwnSound row done view) {config : BrokerConfig}
    {session : String} {key : PartitionKey} {work : AllocationTransitionWork}
    {origin : LeaseAcquisitionOrigin} {now : Int} :
    OwnSound (storeCall config session key row work now).2 done
      { view with
        transition := some
          { work, origin, callTime := some now
            response := some (storeCall config session key row work now).1 } } := by
  have spec := storeCall_spec config session key row work now
  have moved := sound.advance fun range stored => stored.advance spec.advance
  refine ⟨moved.increasing, moved.stored, moved.ahead, moved.reserved, ?_⟩
  rintro _ response range ⟨⟩ answered given
  have fresh : FreshRange row (storeCall config session key row work now).2 range := by
    simp only [Option.some.injEq] at answered
    subst answered
    unfold StoreResponse.range at given
    split at given
    next lease granted called => exact (spec.acquired lease granted called).2.reservation range given
    next granted lease called =>
      cases given
      exact (spec.reserved range lease called).2
    next => cases given
  refine ⟨⟨range.end, fresh.mark, Nat.le_refl _⟩, fun earlier member => ?_⟩
  obtain ⟨mark, known, below⟩ := sound.stored earlier member
  have := fresh.above mark known
  omega

variable {contract : Contract} {config : BrokerConfig} {session : String} {key : PartitionKey}
variable {clock : Int} {emitted : List SeqRange}

theorem reserved_local
    (did : LocalStep contract config session key clock view row next nextRow emitted)
    {range : SeqRange} (stored : Reserved row range) : Reserved nextRow range := by
  cases did with
  | @callStore work origin now owned meets =>
    exact stored.advance (storeCall_spec config session key row work now).advance
  | drainHeartbeat read phase =>
    exact stored.advance (heartbeatLease_advance row key config.holderId session _ _ _)
  | callRelease read phase reached =>
    exact stored.advance (releaseLease_advance row key config.holderId session _ _)
  | _ => exact stored

section

variable (sound : OwnSound row done view)

include sound

/-- A take moves the buffered ranges to the ranges of earlier epochs. -/
theorem OwnSound.takeFlush {state : PartitionState} {trigger : FlushTrigger} {requireFence : Bool}
    {channel : PublicationChannel} (present : view.state = some state) :
    OwnSound row (done ++ bufferRanges state)
      { view with
        state := some (takeFlushPartition state key.virtualPartitionId trigger requireFence
          channel).state } := by
  have here := View.partition_of_some present
  refine sound.shrink ?_ (Or.inl ?_) fun inFlight response owned answered =>
    Or.inr ⟨inFlight, owned, answered⟩
  · have empty : bufferRanges (takeFlushPartition state key.virtualPartitionId trigger requireFence
        channel).state = [] := by
      unfold bufferRanges
      rw [takeFlushPartition_buffer]
      rfl
    show (handed _ (takeFlushPartition state key.virtualPartitionId trigger requireFence
      channel).state).Sublist _
    rw [here, handed, handed, empty, List.append_nil]
  · rw [here]
    exact takeFlushPartition_seqAllocator ..

/-- A terminal release resets the allocator of a drained partition. -/
theorem OwnSound.clear (idle : view.transition = none) (empty : view.partition.buffer.batches = [])
    {release : Option ReleasePhase} :
    OwnSound row done { view with state := view.cleared, release := release } := by
  have nothing : bufferRanges (view.cleared.getD {}) = [] := by
    unfold bufferRanges
    rw [View.cleared_batches empty]
    rfl
  have unreserved : (view.cleared.getD {}).seqAllocator.reservation = none := by
    unfold View.cleared
    split
    · rfl
    · simp only
      split <;> rfl
  refine sound.shrink ((List.Sublist.refl done).append ?_) (Or.inr unreserved) ?_
  · show (bufferRanges (view.cleared.getD {})).Sublist _
    rw [nothing]
    exact List.nil_sublist _
  · intro inFlight response owned
    have : view.transition = some inFlight := owned
    rw [idle] at this
    cases this

theorem OwnSound.forget {fewer : List SeqRange} (sublist : fewer.Sublist done) :
    OwnSound row fewer view :=
  sound.shrink (sublist.append (List.Sublist.refl _)) (Or.inl rfl) fun inFlight _ owned answered =>
    Or.inr ⟨inFlight, owned, answered⟩

end

theorem ownSound_local (shape : ViewShape view) (sound : OwnSound row done view)
    (did : LocalStep contract config session key clock view row next nextRow emitted) :
    OwnSound nextRow done next := by
  have moved := sound.advance fun range stored => reserved_local did stored
  have same : ∀ (update : PartitionState → PartitionState),
      (∀ state, bufferRanges (update state) = bufferRanges state) →
      (∀ state, (update state).seqAllocator = state.seqAllocator) →
      (bufferRanges ((view.state.map update).getD {})).Sublist (bufferRanges view.partition)
        ∧ ((view.state.map update).getD {}).seqAllocator = view.partition.seqAllocator := by
    intro update buffer allocator
    rcases view.map_partition update with unchanged | changed
    · rw [unchanged]
      exact ⟨List.Sublist.refl _, rfl⟩
    · rw [changed, buffer, allocator]
      exact ⟨List.Sublist.refl _, rfl⟩
  cases did with
  | @produce batch now read summarized assigned meets =>
    rcases view.partition.produceFastPath_cases batch now with
      ⟨range, allocator, took, -, idle, -, allocated⟩ | ⟨-, kept⟩
    · rw [took]
      exact sound.accept (shape.idle idle) allocated
    · rw [kept]
      exact sound.keep (List.Sublist.refl _) rfl rfl
  | @claim generation recordCount now origin read assigned meets =>
    rcases view.claim_cases config key generation recordCount now origin with
      ⟨work, claimedState, -, -, spec, claimed⟩ | ⟨target, claimed⟩
    · rw [claimed]
      obtain ⟨target, rfl⟩ := spec.changed
      refine sound.shrink (List.Sublist.refl _) (Or.inl rfl) ?_
      rintro _ response ⟨⟩ answered
      cases answered
    · rw [claimed]
      exact sound.keep (List.Sublist.refl _) rfl rfl
  | readClock owned =>
    refine sound.shrink (List.Sublist.refl _) (Or.inl rfl) ?_
    rintro _ response ⟨⟩ answered
    exact Or.inr ⟨_, owned, answered⟩
  | callStore owned meets => exact sound.callStore
  | failCall owned =>
    refine sound.shrink (List.Sublist.refl _) (Or.inl rfl) ?_
    rintro _ response ⟨⟩ answered
    cases answered
    exact Or.inl rfl
  | finish owned answered meets => exact sound.finish owned answered
  | dropOwner owned =>
    obtain ⟨buffer, allocator⟩ := same PartitionState.endAllocation (fun _ => rfl) fun _ => rfl
    exact sound.settle buffer allocator rfl
  | refresh | finishDrain | completeRelease => exact sound.keep (List.Sublist.refl _) rfl rfl
  | startRelease | beginShutdownDrain =>
    obtain ⟨buffer, allocator⟩ := same (fun state => { state with draining := true })
      (fun _ => rfl) fun _ => rfl
    exact sound.keep buffer allocator rfl
  | resumeAdmission =>
    obtain ⟨buffer, allocator⟩ := same (fun state => { state with draining := false })
      (fun _ => rfl) fun _ => rfl
    exact sound.keep buffer allocator rfl
  | drainHeartbeat | callRelease => exact moved.keep (List.Sublist.refl _) rfl rfl
  | @applyHeartbeat expiration phase =>
    obtain ⟨buffer, allocator⟩ := same (fun state => { state with leaseExpirationAt := some expiration })
      (fun _ => rfl) fun _ => rfl
    exact sound.keep buffer allocator rfl
  | clearReleased phase =>
    obtain ⟨idle, empty⟩ := shape.drained _ phase rfl
    exact sound.clear idle empty
  | takeFlush present meets => exact (sound.takeFlush present).forget (List.sublist_append_left _ _)
  | completeFlush present meets =>
    refine sound.keep ?_ ?_ rfl
    · rw [View.partition_of_some present]
      exact List.Sublist.refl _
    · rw [View.partition_of_some present]
      rfl

end Own

/-! ### Whole runs -/

section Runs

open Machine

variable {config : String → BrokerConfig}

def noContract : Contract where

theorem noContract_allows (world : World) (action : Action) : noContract.allows world action := by
  unfold Contract.allows Contract.check
  split
  all_goals first | rfl | skip
  · split <;> rfl
  · split
    · split <;> rfl
    · rfl

theorem ownSound_step {contract : Contract} {key : PartitionKey} {focus next : Focus}
    (done : String → List SeqRange) (shape : ∀ session, ViewShape (focus.views session))
    (sound : ∀ session, OwnSound focus.row (done session) (focus.views session))
    (stepped : FocusStep contract config key focus next) (session : String) :
    OwnSound next.row (done session) (next.views session) := by
  cases stepped with
  | idle => exact sound session
  | tick later => exact sound session
  | @act actor view row emitted did =>
    by_cases same : session = actor
    · subst same
      simp only [Function.update_self]
      exact ownSound_local (shape session) (sound session) did
    · simp only [Function.update_of_ne same]
      exact (sound session).advance fun range stored => reserved_local did stored

theorem ownSound_default (row : Option ProducerLeases.LeaseState) : OwnSound row [] {} := by
  refine ⟨⟨?_, ?_⟩, ?_, ?_, ?_, ?_⟩ <;> simp [handed, bufferRanges, View.partition]

/-- In every reachable cluster the buffered ranges of every broker increase. -/
theorem ownSound_reachable {clock : Int} {world : World}
    (reached : Reachable (step config) anyAction { clock := clock } world) (session : String)
    (key : PartitionKey) :
    OwnSound (world.leases key) [] ((world.brokers session).view key) := by
  have met : Reachable (step config) noContract.allows { clock := clock } world :=
    reached.mono fun before action _ => noContract_allows before action
  have initial : (fun world : World => ∀ key session,
      OwnSound (world.focus key).row [] ((world.focus key).views session)) { clock := clock } :=
    fun key session => ownSound_default _
  have sound := met.invariant_under (fun _ earlier => reachable_shape earlier) initial
    fun before action after shape sound meets stepped key session =>
      ownSound_step (fun _ => []) (shape.views key) (sound key)
        (step_focus shape.keyed meets stepped key) session
  exact sound key session

end Runs

end BlobStream.Write.Cluster
