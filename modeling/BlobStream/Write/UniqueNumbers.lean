import BlobStream.Write.AcceptanceOrder
import BlobStream.Write.OwnOrder

/-!
# No sequence number is accepted twice

Runs that break the acceptance order still use every number once. A number is on its way to at most
one broker: in the answer of a store call, then in a reservation, until a batch takes it.
-/

namespace BlobStream.Write.Cluster

open Word ProducerLeases Machine

def Within (range : SeqRange) (number : Nat) : Prop := range.start ≤ number ∧ number ≤ range.end

def Unallocated (allocator : SeqAllocator) (number : Nat) : Prop :=
  ∃ range, allocator.reservation = some range ∧ allocator.nextSeq ≤ number ∧ number ≤ range.end

/-- A number the broker may still hand out, from its reservation or from its store call in flight. -/
def View.Spare (view : View) (number : Nat) : Prop :=
  Unallocated view.partition.seqAllocator number
  ∨ ∃ inFlight response range, view.transition = some inFlight ∧ inFlight.response = some response
    ∧ response.range = some range ∧ Within range number

section Step

variable {contract : Contract} {config : BrokerConfig} {session : String} {key : PartitionKey}
variable {clock : Int} {row nextRow : Option LeaseState} {view next : View}
variable {emitted : List SeqRange} {number : Nat} {allocator later : SeqAllocator} {range : SeqRange}

theorem OwnSound.spare_reserved (sound : OwnSound row [] view) (spare : view.Spare number) :
    Reserved row ⟨number, number⟩ := by
  rcases spare with ⟨range, held, -, inside⟩ | ⟨_, _, range, owned, answered, given, -, inside⟩
  · obtain ⟨mark, known, below⟩ := sound.reserved range held
    exact ⟨mark, known, Nat.le_trans inside below⟩
  · obtain ⟨⟨mark, known, below⟩, -⟩ := sound.granted _ _ range owned answered given
    exact ⟨mark, known, Nat.le_trans inside below⟩

theorem allocated_numbers {count : Nat} (allocated : allocator.allocate count = some (range, later)) :
    (Unallocated later number → Unallocated allocator number)
      ∧ (Within range number →
        Unallocated allocator number ∧ (Unallocated later number → number = u64Max)) := by
  obtain ⟨held, present, -, inside, bounded, rfl, rfl⟩ := SeqAllocator.allocate_eq_some allocated
  simp only [Unallocated, Within, present, saturatingAdd] at *
  grind

theorem installed_numbers (left : Unallocated (allocator.installOrExtendReservation range) number) :
    Unallocated allocator number ∨ Within range number := by
  rcases allocator.installOrExtendReservation_cases range with
    ⟨held, present, joined, extended⟩ | replaced
  · rw [extended] at left
    obtain ⟨_, ⟨⟩, next, inside⟩ := left
    have := (checkedAdd_eq_some.mp (of_decide_eq_true joined)).1
    by_cases old : number ≤ held.end
    · exact Or.inl ⟨held, present, next, old⟩
    · exact Or.inr ⟨by omega, inside⟩
  · rw [replaced] at left
    obtain ⟨_, ⟨⟩, inside⟩ := left
    exact Or.inr inside

/-- A finished transition moves the granted numbers into the reservation, or loses them. -/
theorem finished_numbers {reset : Bool} {update : LeaseExpirationUpdate}
    {reservation : Option SeqRange}
    (left : Unallocated (PartitionState.finishedAllocator allocator reset update reservation) number) :
    Unallocated allocator number ∨ ∃ range, reservation = some range ∧ Within range number := by
  have kept (resets : Bool) (left : Unallocated (if resets then {} else allocator) number) :
      Unallocated allocator number := by
    cases resets with
    | false => exact left
    | true => obtain ⟨_, ⟨⟩, -⟩ := left
  cases reservation with
  | none => exact Or.inl (kept _ left)
  | some range => exact (installed_numbers left).imp (kept _) fun inside => ⟨range, rfl, inside⟩

/-- New numbers of a broker come from above everything the store has reserved. -/
theorem spare_local (did : LocalStep contract config session key clock view row next nextRow emitted)
    (spare : next.Spare number) : view.Spare number ∨ ¬ Reserved row ⟨number, number⟩ := by
  cases did with
  | @produce batch now read summarized assigned meets =>
    left
    rcases view.partition.produceFastPath_cases batch now with
      ⟨range, allocator, took, -, -, -, allocated⟩ | ⟨-, kept⟩
    · rw [took] at spare
      exact spare.imp_left (allocated_numbers allocated).1
    · rw [kept] at spare
      exact spare
  | @claim generation recordCount now origin read assigned meets =>
    left
    rcases view.claim_cases config key generation recordCount now origin with
      ⟨work, state, -, -, spec, claimed⟩ | ⟨target, claimed⟩
    · rw [claimed] at spare
      obtain ⟨target, rfl⟩ := spec.changed
      rcases spare with left | ⟨_, _, _, ⟨⟩, ⟨⟩, -⟩
      exact Or.inl left
    · rw [claimed] at spare
      exact spare
  | readClock owned =>
    left
    rcases spare with left | ⟨_, response, range, ⟨⟩, granted⟩
    · exact Or.inl left
    · exact Or.inr ⟨_, response, range, owned, granted⟩
  | @callStore work origin now owned meets =>
    rcases spare with left | ⟨_, _, range, ⟨⟩, ⟨⟩, given, inside⟩
    · exact Or.inl (Or.inl left)
    · right
      intro stored
      -- A broker that had handed the number out would be granted higher ones as well.
      have unused : OwnSound row [⟨number, number⟩] {} := by
        refine ⟨⟨?_, ?_⟩, ?_, ?_, ?_, ?_⟩ <;> simp [handed, bufferRanges, View.partition, stored]
      have above := (unused.callStore.granted
        { work, origin, callTime := some now, response := _ } _ range rfl rfl given).2
      exact Nat.not_le.mpr (above ⟨number, number⟩ (by simp [handed])) inside.1
  | failCall owned =>
    rcases spare with left | ⟨_, _, _, ⟨⟩, ⟨⟩, ⟨⟩, -⟩
    exact Or.inl (Or.inl left)
  | @finish inFlight response owned answered meets =>
    left
    rcases spare with left | ⟨_, _, _, ⟨⟩, -⟩
    have left : Unallocated ((view.state.map (view.finished inFlight response)).getD {}).seqAllocator
      number := left
    rcases view.map_partition (view.finished inFlight response) with same | changed
    · exact Or.inl (same ▸ left)
    cases current : view.isCurrent inFlight.work with
    | false =>
      rw [changed, View.finished_stale response _ current] at left
      exact Or.inl left
    | true =>
      rw [changed, View.finished_seqAllocator response _ current] at left
      rcases finished_numbers left with before | ⟨range, given, inside⟩
      · exact Or.inl before
      · exact Or.inr ⟨inFlight, response, range, owned, answered,
          finishArguments_reservation given, inside⟩
  | clearReleased phase =>
    left
    refine spare.imp_left ?_
    rintro ⟨range, held, -⟩
    unfold View.partition View.cleared at held
    split at held
    · cases held
    · simp only at held
      split at held <;> cases held
  | takeFlush present meets =>
    left
    rw [View.Spare, View.partition_of_some present]
    exact spare.imp_left (takeFlushPartition_seqAllocator .. ▸ ·)
  | completeFlush present meets =>
    left
    rw [View.Spare, View.partition_of_some present]
    exact spare
  | dropOwner =>
    left
    rcases spare with left | ⟨_, _, _, ⟨⟩, -⟩
    rcases view with ⟨_, _ | state, _, _⟩ <;> exact Or.inl left
  | startRelease | beginShutdownDrain | resumeAdmission | applyHeartbeat =>
    rcases view with ⟨_, _ | state, _, _⟩ <;> exact Or.inl spare
  | _ => exact Or.inl spare

/-- An accepted batch takes numbers that the broker had left. -/
theorem emitted_local (shape : ViewShape view)
    (did : LocalStep contract config session key clock view row next nextRow emitted) :
    emitted = [] ∨ ∃ range, emitted = [range] ∧ ∀ number, Within range number →
      view.Spare number ∧ (next.Spare number → number = u64Max) := by
  cases did with
  | @produce batch now read summarized assigned meets =>
    rcases view.partition.produceFastPath_cases batch now with
      ⟨range, allocator, took, -, idle, -, allocated⟩ | ⟨refused, -⟩
    · right
      rw [took]
      refine ⟨range, rfl, fun number inside => ?_⟩
      obtain ⟨before, last⟩ := (allocated_numbers allocated).2 inside
      refine ⟨Or.inl before, ?_⟩
      rintro (left | ⟨_, _, _, owned, -⟩)
      · exact last left
      · cases (shape.idle idle).symm.trans owned
    · left
      unfold acceptedRange
      split
      next range accepted => exact absurd accepted (refused range)
      next => rfl
  | _ => exact Or.inl rfl

end Step

/-- Numbers on their way go to one broker each, and none was accepted before. The last 64-bit number
never leaves its reservation. -/
structure NumbersApart (focus : Focus) : Prop where
  apart : ∀ session other number, (focus.views session).Spare number →
    (focus.views other).Spare number → session = other
  spent : ∀ range ∈ focus.accepted, ∀ number, Within range number →
    Reserved focus.row ⟨number, number⟩
      ∧ ∀ session, (focus.views session).Spare number → number = u64Max
  once : focus.accepted.Pairwise fun earlier later =>
    ∀ number, Within earlier number → Within later number → number = u64Max

theorem NumbersApart.step {contract : Contract} {config : String → BrokerConfig} {key : PartitionKey}
    {focus next : Focus} (shape : ∀ session, ViewShape (focus.views session))
    (sound : ∀ session, OwnSound focus.row [] (focus.views session)) (numbers : NumbersApart focus)
    (stepped : FocusStep contract config key focus next) : NumbersApart next := by
  cases stepped with
  | idle => exact numbers
  | tick later => exact ⟨numbers.apart, numbers.spent, numbers.once⟩
  | @act actor view row emitted did =>
    have others {session number} (other : session ≠ actor)
        (spare : (Function.update focus.views actor view session).Spare number) :
        (focus.views session).Spare number := by
      rwa [Function.update_of_ne other] at spare
    have before {session number} (stored : Reserved focus.row ⟨number, number⟩)
        (spare : (Function.update focus.views actor view session).Spare number) :
        (focus.views session).Spare number := by
      by_cases same : session = actor
      · subst same
        rw [Function.update_self] at spare
        exact (spare_local did spare).resolve_right (not_not_intro stored)
      · exact others same spare
    have new := emitted_local (shape actor) did
    constructor
    · intro session other number first second
      by_contra different
      -- One of the two did not act, so that its number was reserved before the step.
      have stored : Reserved focus.row ⟨number, number⟩ := by
        by_cases same : session = actor
        · have foreign : other ≠ actor := fun too => different (same.trans too.symm)
          exact (sound other).spare_reserved (others foreign second)
        · exact (sound session).spare_reserved (others same first)
      exact different (numbers.apart _ _ number (before stored first) (before stored second))
    · intro range member number inside
      rcases List.mem_append.mp member with old | young
      · obtain ⟨stored, last⟩ := numbers.spent range old number inside
        exact ⟨reserved_local did stored, fun session spare => last session (before stored spare)⟩
      · rcases new with rfl | ⟨_, rfl, taken⟩
        · cases young
        obtain ⟨had, last⟩ := taken number (List.mem_singleton.mp young ▸ inside)
        have stored := (sound actor).spare_reserved had
        refine ⟨reserved_local did stored, fun session spare => ?_⟩
        obtain rfl := numbers.apart session actor number (before stored spare) had
        exact last (by simpa only [Function.update_self] using spare)
    · rcases new with rfl | ⟨range, rfl, taken⟩
      · rw [List.append_nil]
        exact numbers.once
      · refine List.pairwise_append.mpr ⟨numbers.once, List.pairwise_singleton _ _, ?_⟩
        intro earlier old later young number first second
        rw [List.mem_singleton.mp young] at second
        exact (numbers.spent earlier old number first).2 actor (taken number second).1

/-- Whatever the clocks, leases and assignments do, two accepted batches of a partition share no
number, except for the largest one. -/
theorem accepted_numbers_unique (config : String → BrokerConfig) (clock : Int) {world : World}
    (reached : Reachable (step config) anyAction { clock := clock } world) (key : PartitionKey) :
    (world.focus key).accepted.Pairwise fun earlier later =>
      ∀ number, Within earlier number → Within later number → number = u64Max := by
  have initial : (fun world : World => NumbersApart (world.focus key)) { clock := clock } :=
    ⟨by simp [World.focus, View.Spare, Unallocated, View.partition, Broker.view],
      by simp [World.focus], List.Pairwise.nil⟩
  have numbers := reached.invariant_under (fun _ earlier => And.intro
    (reachable_shape (earlier.mono fun before action _ => noContract_allows before action))
    fun session => ownSound_reachable earlier session key) initial
    fun before action after known numbers _ stepped => NumbersApart.step (known.1.views key) known.2
      numbers (step_focus known.1.keyed (noContract_allows before action) stepped key)
  exact numbers.once

/-- The renewal that breaks the order of acceptance. -/
theorem accepted_numbers_unique_lateRenewal :
    ∃ world, Reachable (step shortLeases) anyAction { clock := 0 } world
      ∧ (world.focus orders).accepted = [⟨0, 0⟩, ⟨10, 10⟩, ⟨1, 1⟩]
      ∧ (world.focus orders).accepted.Pairwise fun earlier later =>
        ∀ number, Within earlier number → Within later number → number = u64Max := by
  have ranges : (run (step shortLeases) { clock := 0 } lateRenewal).map
      (fun world => (world.focus orders).accepted) = some [⟨0, 0⟩, ⟨10, 10⟩, ⟨1, 1⟩] := by decide
  obtain ⟨world, executed, accepted⟩ := Option.map_eq_some_iff.mp ranges
  have reached := reachable_of_run (runAllowed_anyAction _ _ _) executed
  exact ⟨world, reached, accepted, accepted_numbers_unique shortLeases 0 reached orders⟩

end BlobStream.Write.Cluster
