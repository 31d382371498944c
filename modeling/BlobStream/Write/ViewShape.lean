import BlobStream.Write.PartitionView

/-!
# The shape of a broker's view

Facts that hold in every run, whatever contract it meets: a transition in flight marks its
partition busy, a partition under release is not assigned, and a release task that is past draining
has neither a transition nor buffered batches left.
-/

namespace BlobStream.Write.Cluster

open ProducerLeases

def ReleasePhase.drained : ReleasePhase → Bool
  | .releasing | .released | .done => true
  | _ => false

structure ViewShape (view : View) : Prop where
  busy : view.transition.isSome → view.partition.allocationInFlight = true
  excluded : view.release.isSome → view.generation = none
  drained : ∀ phase, view.release = some phase → phase.drained = true →
    view.transition = none ∧ view.partition.buffer.batches = []

section Step

variable {contract : Contract} {config : BrokerConfig} {session : String} {key : PartitionKey}
variable {clock : Int} {row nextRow : Option LeaseState} {view next : View}
variable {emitted : List SeqRange}

theorem View.partition_of_some {state : PartitionState} (present : view.state = some state) :
    view.partition = state := by
  simp [View.partition, present]

theorem View.partition_of_none (absent : view.state = none) : view.partition = {} := by
  simp [View.partition, absent]

/-- Updating the state where there is one changes the partition in place or not at all. -/
theorem View.map_partition (view : View) (update : PartitionState → PartitionState) :
    (view.state.map update).getD {} = view.partition
      ∨ (view.state.map update).getD {} = update view.partition := by
  unfold View.partition
  cases view.state with
  | none => exact Or.inl rfl
  | some state => exact Or.inr rfl

theorem ViewShape.idle (shape : ViewShape view)
    (idle : view.partition.allocationInFlight = false) : view.transition = none := by
  cases owned : view.transition with
  | none => rfl
  | some inFlight =>
    have busy := shape.busy (by simp [owned])
    rw [idle] at busy
    cases busy

theorem ViewShape.active (shape : ViewShape view) (assigned : view.generation.isSome = true) :
    view.release = none := by
  cases releasing : view.release with
  | none => rfl
  | some phase =>
    have unassigned := shape.excluded (by simp [releasing])
    rw [unassigned] at assigned
    cases assigned

variable {state : Option PartitionState}

section

variable (shape : ViewShape view)

include shape

theorem ViewShape.withState
    (inFlight : (state.getD {}).allocationInFlight = view.partition.allocationInFlight)
    (buffer : view.release.isSome = true → view.partition.buffer.batches = [] →
      (state.getD {}).buffer.batches = []) :
    ViewShape { view with state := state } where
  busy := fun owned => inFlight.trans (shape.busy owned)
  excluded := shape.excluded
  drained := by
    intro phase releasing past
    obtain ⟨idle, empty⟩ := shape.drained phase releasing past
    exact ⟨idle, buffer (by rw [releasing]; rfl) empty⟩

theorem ViewShape.settle
    (buffer : view.release.isSome = true → view.partition.buffer.batches = [] →
      (state.getD {}).buffer.batches = []) :
    ViewShape { view with state := state, transition := none } where
  busy := by simp
  excluded := shape.excluded
  drained := by
    intro phase releasing past
    exact ⟨rfl, buffer (by rw [releasing]; rfl) (shape.drained phase releasing past).2⟩

theorem ViewShape.finish (inFlight : InFlight) (response : StoreResponse) :
    ViewShape
      { view with
        state := view.state.map (view.finished inFlight response)
        transition := none } := by
  refine shape.settle ?_
  intro releasing empty
  cases present : view.state with
  | none => rfl
  | some state =>
    -- A partition under release is unassigned, so the result is stale.
    have stale : view.isCurrent inFlight.work = false := by
      simp [View.isCurrent, shape.excluded releasing]
    rw [Option.map_some, View.finished_stale response state stale]
    rwa [View.partition_of_some present] at empty

theorem ViewShape.claim {generation recordCount : Nat} {now : Int} {origin : LeaseAcquisitionOrigin}
    (assigned : view.generation = some generation) :
    ViewShape (view.claim config key generation recordCount now origin) := by
  have active := shape.active (by simp [assigned])
  rcases view.claim_cases config key generation recordCount now origin with
    ⟨work, next, -, -, spec, claimed⟩ | ⟨target, claimed⟩
  · rw [claimed]
    obtain ⟨target, rfl⟩ := spec.changed
    exact ⟨fun _ => rfl, shape.excluded, by simp [active]⟩
  · rw [claimed]
    exact shape.withState rfl fun _ empty => empty

theorem ViewShape.produce (assigned : view.generation.isSome = true) (batch : ProduceBatch)
    (now : Int) :
    ViewShape { view with state := some (view.partition.produceFastPath batch now).2 } := by
  have active := shape.active assigned
  refine shape.withState ?_ (by simp [active])
  rcases view.partition.produceFastPath_cases batch now with
    ⟨range, allocator, took, -⟩ | ⟨-, kept⟩
  · rw [took]
    rfl
  · rw [kept]
    rfl

theorem ViewShape.refresh {generation : Option Nat} {release : Option ReleasePhase}
    (kept : ∀ phase, view.release = some phase → release = some phase)
    (opened : view.release = none → release = none ∨ release = some .started)
    (excluded : generation.isSome = true → release = none) :
    ViewShape { view with generation := generation, release := release } := by
  refine ⟨shape.busy, ?_, ?_⟩
  · intro releasing
    cases assigned : generation with
    | none => rfl
    | some value =>
      rw [excluded (by simp [assigned])] at releasing
      cases releasing
  · intro phase after past
    refine shape.drained phase ?_ past
    cases before : view.release with
    | some previous => rwa [kept previous before] at after
    | none =>
      exfalso
      rcases opened before with none_ | started
      · rw [none_] at after
        cases after
      · rw [started] at after
        cases after
        cases past

theorem ViewShape.release (releasing : view.release.isSome = true) {phase : ReleasePhase}
    (inFlight : view.transition.isSome = true →
      (state.getD {}).allocationInFlight = view.partition.allocationInFlight)
    (drained : phase.drained = true →
      view.transition = none ∧ (state.getD {}).buffer.batches = []) :
    ViewShape { view with state := state, release := some phase } where
  busy := fun owned => (inFlight owned).trans (shape.busy owned)
  excluded := fun _ => shape.excluded releasing
  drained := by
    rintro _ ⟨⟩ past
    exact drained past

theorem ViewShape.startRelease (phase : view.release = some .started) :
    ViewShape
      { view with
        state := view.state.map fun state => { state with draining := true }
        release := some (if view.state.isSome then .draining true none else .done) } := by
  cases present : view.state with
  | none =>
    have idle := shape.idle (by rw [View.partition_of_none present])
    exact shape.release (by simp [phase]) (by simp [idle]) fun _ => ⟨idle, rfl⟩
  | some state =>
    refine shape.release (by simp [phase]) ?_ ?_
    · intro _
      rw [View.partition_of_some present]
      rfl
    · intro past
      cases past

/-- A drained partition has no transition and no buffered batches. -/
theorem ViewShape.of_drained (drained : view.state.all PartitionState.isDrained = true) :
    view.transition = none ∧ view.partition.buffer.batches = [] := by
  cases present : view.state with
  | none =>
    have absent := View.partition_of_none present
    exact ⟨shape.idle (by rw [absent]), by rw [absent]⟩
  | some state =>
    have here := View.partition_of_some present
    rw [present] at drained
    simp only [Option.all_some, PartitionState.isDrained, decide_eq_true_eq,
      List.isEmpty_iff, Bool.not_eq_true'] at drained
    obtain ⟨-, idle, empty⟩ := drained
    exact ⟨shape.idle (by rw [here]; exact idle), by rw [here]; exact empty⟩

end

theorem View.cleared_batches (empty : view.partition.buffer.batches = []) :
    (view.cleared.getD {}).buffer.batches = [] := by
  unfold View.cleared
  split
  · rfl
  next state present =>
    rw [View.partition_of_some present] at empty
    simp only
    split
    · rfl
    · exact empty

theorem viewShape_local (shape : ViewShape view)
    (did : LocalStep contract config session key clock view row next nextRow emitted) :
    ViewShape next := by
  cases did with
  | produce read summarized assigned meets => exact shape.produce assigned _ _
  | claim read assigned meets => exact shape.claim assigned
  | readClock owned | callStore owned meets | failCall owned =>
    refine ⟨fun _ => shape.busy (by simp [owned]), shape.excluded, fun phase releasing past => ?_⟩
    have idle := (shape.drained phase releasing past).1
    rw [owned] at idle
    cases idle
  | finish owned answered meets => exact shape.finish _ _
  | dropOwner owned =>
    refine shape.settle fun _ empty => ?_
    rcases view.map_partition PartitionState.endAllocation with same | same <;> rw [same] <;>
      exact empty
  | refresh kept opened excluded => exact shape.refresh kept opened excluded
  | startRelease phase => exact shape.startRelease phase
  | @drainHeartbeat now responseLost read phase =>
    refine shape.release (by simp [phase]) (fun _ => rfl) fun past => ?_
    exfalso
    split at past
    · cases past
    · unfold heartbeatPhase at past
      split at past <;> cases past
  | applyHeartbeat phase =>
    refine shape.release (by simp [phase]) (fun _ => ?_) (fun past => by cases past)
    rcases view.map_partition _ with same | same <;> rw [same]
  | finishDrain phase drained =>
    exact shape.release (by simp [phase]) (fun _ => rfl) fun _ => shape.of_drained drained
  | callRelease read phase reached =>
    exact shape.release (by simp [phase]) (fun _ => rfl) fun _ => shape.drained _ phase rfl
  | clearReleased phase =>
    obtain ⟨idle, empty⟩ := shape.drained _ phase rfl
    exact shape.release (by simp [phase]) (by simp [idle]) fun _ =>
      ⟨idle, View.cleared_batches empty⟩
  | completeRelease phase => exact ⟨shape.busy, by simp, by simp⟩
  | @takeFlush state trigger requireFence channel present meets =>
    refine shape.withState ?_ ?_
    · rw [View.partition_of_some present]
      unfold takeFlushPartition
      split
      · rfl
      · simp only
        split <;> rfl
    · intro _ _
      exact congrArg BufferState.batches (takeFlushPartition_buffer _ _ _ _ _)
  | completeFlush present meets =>
    have here := View.partition_of_some present
    refine shape.withState ?_ ?_
    · rw [here]
      rfl
    · intro _ empty
      rw [here] at empty
      exact empty
  | beginShutdownDrain | resumeAdmission =>
    refine shape.withState ?_ ?_
    · rcases view.map_partition _ with same | same <;> rw [same]
    · intro _ empty
      rcases view.map_partition _ with same | same <;> rw [same] <;> exact empty

end Step

/-! ### Whole runs -/

section Runs

variable {contract : Contract} {config : String → BrokerConfig}

structure WorldShape (world : World) : Prop where
  keyed : TransitionsKeyed world
  views : ∀ key session, ViewShape ((world.focus key).views session)

theorem WorldShape.step {world next : World} {action : Action} (shape : WorldShape world)
    (meets : contract.allows world action) (stepped : step config world action = some next) :
    WorldShape next :=
  ⟨transitionsKeyed_step shape.keyed meets stepped, fun key session =>
    step_view (fun before after => ViewShape before → ViewShape after) shape.keyed meets stepped
      session key (fun _ => id) (fun did shape => viewShape_local shape did)
      (shape.views key session)⟩

theorem reachable_shape {clock : Int} {world : World}
    (reached : Machine.Reachable (step config) contract.allows { clock := clock } world) :
    WorldShape world := by
  refine reached.invariant ?_ ?_
  · refine ⟨by simp [TransitionsKeyed], fun key session => ?_⟩
    exact ⟨by simp [World.focus, Broker.view], by simp [World.focus, Broker.view],
      by simp [World.focus, Broker.view]⟩
  · intro before action after shape meets stepped
    exact shape.step meets stepped

end Runs

end BlobStream.Write.Cluster
