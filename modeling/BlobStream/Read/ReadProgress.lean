import BlobStream.Read.SingleScan

/-!
# Every read can go on

A read that is not answered has a step of its own, or waits for a refill or a suffix scan that has
one. No `expect` of the cache panics: a pending tail refill has bounds, and a read that waits for a
suffix scan asked for a seal and found one.
-/

namespace BlobStream.Read

open Machine (Reachable anyAction)
open Store.Codec (SegmentMetadataV1)
open CacheWorld

/-- The action is a step of the read, or of the worker it waits for, and no failure. -/
def CacheAction.Serves (index : Nat) (phase : CallPhase) : CacheAction → Prop
  | .lookup call | .invalidate call | .join call | .resume call | .joinSuffix call
  | .resumeSuffix call => call = index
  | .begin id | .scan id | .load id _ | .install id | .complete id =>
    ∃ joined, phase = .waiting id joined
  | .scanSuffix id | .loadSuffix id _ | .installSuffix id | .completeSuffix id =>
    ∃ retained bound, phase = .waitingSuffix id retained bound
  | _ => False

def ReadSpecification.Bounded (specification : ReadSpecification) : Prop :=
  specification.key.coverage = .tail → specification.minByPartition.isSome = true

/-- A read behind a sealed prefix has what the suffix scan is combined with. -/
def CallPhase.Ready (suffixes : Nat) (specification : ReadSpecification) : CallPhase → Prop
  | .joinSuffix retained _ =>
    specification.requestedSealBefore.isSome = true ∧ retained.sealedAt.isSome = true
  | .waitingSuffix id retained _ =>
    (specification.requestedSealBefore.isSome = true ∧ retained.sealedAt.isSome = true)
      ∧ id < suffixes
  | _ => True

structure Serviceable (world : CacheWorld) : Prop where
  refills : ∀ refill ∈ world.refills, refill.specification.Bounded
  suffixes : ∀ key id, world.suffixInFlight key = some id → id < world.suffixes.length
  calls : ∀ call ∈ world.calls,
    call.specification.Bounded ∧ call.phase.Ready world.suffixes.length call.specification

variable {sonyflake : Sonyflake} {config : MetadataCacheConfig}
variable {computeSize : SegmentMetadataV1 → Nat} {before after : CacheWorld} {action : CacheAction}
variable {call : Call}

theorem admit_bounded {pending : ReadSpecification} (joining : ReadSpecification)
    (bounded : pending.Bounded) :
    ∃ admitted, admitSpecification pending joining = some admitted ∧ admitted.Bounded := by
  unfold admitSpecification
  split
  next other => exact ⟨pending, rfl, bounded⟩
  next tail =>
    obtain ⟨bounds, present⟩ := Option.isSome_iff_exists.mp (bounded (not_not.mp tail))
    rw [present]
    split
    · exact ⟨pending, rfl, bounded⟩
    · exact ⟨_, rfl, fun _ => rfl⟩
    next absent => cases absent

variable {specification : ReadSpecification}

theorem reusableBound_isSome {entry : CacheEntry} {bound : Write.SnowflakeId}
    (reusable : reusableBound sonyflake config specification entry = some bound) :
    specification.requestedSealBefore.isSome = true ∧ entry.sealedAt.isSome = true := by
  unfold reusableBound at reusable
  split at reusable
  next requested storedBound sealedAt asked stored proof => simp [asked, proof]
  next => cases reusable

theorem answer_ready (count : Nat) (found : Except ReadFailure CacheEntry)
    (retained strong : Bool) (source : Source) :
    (answer computeSize call found retained strong source).Ready count call.specification := by
  unfold answer
  split <;> trivial

theorem CallChange.ready {index : Nat} {phase : CallPhase} (serviceable : Serviceable before)
    (present : before.calls[index]? = some call)
    (changes : CallChange sonyflake config computeSize before index call action phase) :
    phase.Ready before.suffixes.length call.specification := by
  have held := (serviceable.calls call (List.mem_of_getElem? present)).2
  cases changes with
  | retained | sealedPrefix | refilled | suffixed => exact answer_ready _ _ _ _ _
  | wantsSuffix strong found reusable => exact reusableBound_isSome reusable
  | joinsSuffix wanting registered =>
    rw [wanting] at held
    exact ⟨held, serviceable.suffixes _ _ registered⟩
  | _ => trivial

theorem refills_bounded (serviceable : Serviceable before)
    (moves : CacheMove sonyflake config computeSize before action after) :
    ∀ refill ∈ after.refills, refill.specification.Bounded := by
  have others {id : Nat} {next : PendingRefill} (bounded : next.specification.Bounded) :
      ∀ refill ∈ before.refills.set id next, refill.specification.Bounded := by
    intro refill member
    rcases List.mem_or_eq_of_mem_set member with kept | rfl
    · exact serviceable.refills refill kept
    · exact bounded
  cases moves with
  | joinRefill present registered pending running admits =>
    have held := serviceable.refills _ (List.mem_of_getElem? pending)
    obtain ⟨_, admitted, bounded⟩ := admit_bounded _ held
    cases admits.symm.trans admitted
    exact others bounded
  | startRefill present =>
    intro refill member
    rcases List.mem_append.mp member with kept | added
    · exact serviceable.refills refill kept
    · cases List.mem_singleton.mp added
      exact (serviceable.calls _ (List.mem_of_getElem? present)).1
  | refill present | load present | installEventual present | installStrong present =>
    have held := serviceable.refills _ (List.mem_of_getElem? present)
    exact others held
  | _ => exact serviceable.refills

theorem suffixes_registered (serviceable : Serviceable before)
    (moves : CacheMove sonyflake config computeSize before action after) :
    before.suffixes.length ≤ after.suffixes.length
      ∧ ∀ key id, after.suffixInFlight key = some id → id < after.suffixes.length := by
  have kept := serviceable.suffixes
  cases moves with
  | startSuffix present wanting =>
    refine ⟨by simp, fun key id registered => ?_⟩
    dsimp only at registered
    rw [Function.update_apply] at registered
    rw [List.length_append]
    split at registered
    · cases registered
      exact Nat.lt_succ_self _
    · exact Nat.lt_succ_of_lt (kept key id registered)
  | unregisterSuffix fewer =>
    exact ⟨Nat.le_refl _, fun key id registered => kept key id (fewer key id registered)⟩
  | suffix | loadSuffix | promote =>
    simp only [setSuffix, List.length_set]
    exact ⟨Nat.le_refl _, kept⟩
  | _ => exact ⟨Nat.le_refl _, kept⟩

theorem CallPhase.Ready.mono {count more : Nat} {phase : CallPhase} (grown : count ≤ more)
    (ready : phase.Ready count specification) : phase.Ready more specification := by
  cases phase with
  | waitingSuffix id retained bound => exact ⟨ready.1, Nat.lt_of_lt_of_le ready.2 grown⟩
  | _ => exact ready

theorem Serviceable.move (serviceable : Serviceable before)
    (moves : CacheMove sonyflake config computeSize before action after) : Serviceable after := by
  obtain ⟨grown, registered⟩ := suffixes_registered serviceable moves
  refine ⟨refills_bounded serviceable moves, registered, ?_⟩
  have unchanged : ∀ call ∈ before.calls, call.specification.Bounded
      ∧ call.phase.Ready after.suffixes.length call.specification := fun call member =>
    (serviceable.calls call member).imp_right (.mono grown)
  -- Only the read that moves has to be looked at.
  have others {index : Nat} {call : Call} {phase : CallPhase}
      (present : before.calls[index]? = some call)
      (ready : phase.Ready after.suffixes.length call.specification) :
      ∀ other ∈ before.calls.set index { call with phase }, other.specification.Bounded
        ∧ other.phase.Ready after.suffixes.length other.specification := by
    intro other member
    rcases List.mem_or_eq_of_mem_set member with kept | rfl
    · exact unchanged other kept
    · exact ⟨(serviceable.calls call (List.mem_of_getElem? present)).1, ready⟩
  cases moves with
  | accept accepted =>
    intro call member
    rcases List.mem_append.mp member with kept | added
    · exact unchanged call kept
    · cases List.mem_singleton.mp added
      obtain ⟨-, looking, validated⟩ := acceptRequest_call accepted
      rw [looking]
      exact ⟨(validateRequest_bounds validated).mpr, trivial⟩
  | call present changes =>
    have ready := changes.ready serviceable present
    exact others present ready
  | invalidate present | joinRefill present | startRefill present => exact others present trivial
  | startSuffix present wanting =>
    have ready := (serviceable.calls _ (List.mem_of_getElem? present)).2
    rw [wanting] at ready
    exact others present ⟨ready, by simp⟩
  | _ => exact unchanged

theorem serviceable_reachable {start : Int} {world : CacheWorld}
    (reached : Reachable (step sonyflake config computeSize) anyAction (.initial start) world) :
    Serviceable world := by
  refine reached.invariant ⟨by simp [initial], by simp [initial], by simp [initial]⟩
    fun before action after serviceable _ stepped => ?_
  obtain ⟨moved, moves, rfl⟩ := move_of_step stepped
  obtain ⟨refills, suffixes, calls⟩ := serviceable.move moves
  exact ⟨refills, suffixes, calls⟩

/-- In every reachable state of the cache, every read that is not answered can go on without a
failure, by a step of its own or of the refill or suffix scan it waits for. -/
theorem read_goes_on (sonyflake : Sonyflake) (config : MetadataCacheConfig)
    (computeSize : SegmentMetadataV1 → Nat) (start : Int) (world : CacheWorld)
    (reached : Reachable (step sonyflake config computeSize) anyAction (.initial start) world)
    (index : Nat) (call : Call) (made : world.calls[index]? = some call)
    (unanswered : ∀ result source, call.phase ≠ .answered result source) :
    ∃ action : CacheAction, action.Serves index call.phase
      ∧ (world.step sonyflake config computeSize action).isSome = true := by
  have serviceable := serviceable_reachable reached
  have member := List.mem_of_getElem? made
  have ready := (serviceable.calls call member).2
  have sound := ((sharedSound_reachable reached).calls call member).2
  suffices ∃ action : CacheAction, action.Serves index call.phase
      ∧ (world.move sonyflake config computeSize action).isSome = true by
    simpa only [step, Option.isSome_map] using this
  cases phase : call.phase with
  | lookup => exact ⟨.lookup index, rfl, by simp [move, lookup, made, phase]⟩
  | stale => exact ⟨.invalidate index, rfl, by simp [move, invalidate, made, phase]⟩
  | join =>
    refine ⟨.join index, rfl, ?_⟩
    cases found : world.pendingRefill call.specification.key with
    | none => simp [move, join, made, phase, found]
    | some pending =>
      -- A tail refill has the bounds that `admit` expects to widen.
      have bounded := serviceable.refills _ (List.mem_of_getElem? (pendingRefill_eq_some found).2.1)
      obtain ⟨admitted, admits, -⟩ := admit_bounded call.specification bounded
      simp [move, join, made, phase, found, admits]
  | waiting id joined =>
    rw [phase] at sound
    obtain ⟨-, refill, there, -⟩ := sound
    cases progress : refill.phase with
    | coalescing => exact ⟨.begin id, ⟨joined, rfl⟩, by simp [move, begin, there, progress]⟩
    | begun request => exact ⟨.scan id, ⟨joined, rfl⟩, by simp [move, scan, there, progress]⟩
    | scanning request startedAt =>
      exact ⟨.load id [], ⟨joined, rfl⟩, by simp [move, load, there, progress]⟩
    | loaded request entry =>
      refine ⟨.install id, ⟨joined, rfl⟩, ?_⟩
      cases kind : request.key.consistency <;> simp [move, install, there, progress, kind]
    | installed entry =>
      exact ⟨.complete id, ⟨joined, rfl⟩, by simp [move, complete, there, progress]⟩
    | completed result epoch =>
      refine ⟨.resume index, rfl, ?_⟩
      cases result <;> simp [move, resume, made, phase, there, progress]
  | joinSuffix retained bound =>
    refine ⟨.joinSuffix index, rfl, ?_⟩
    simp only [move, joinSuffix, made, phase, Option.bind_eq_bind, Option.bind_some]
    split <;> rfl
  | waitingSuffix id retained bound =>
    rw [phase] at ready
    -- The request and the retained entry have the bounds that the merge expects.
    obtain ⟨⟨asked, proof⟩, inside⟩ := ready
    obtain ⟨requested, asked⟩ := Option.isSome_iff_exists.mp asked
    obtain ⟨sealedAt, proof⟩ := Option.isSome_iff_exists.mp proof
    have there := List.getElem?_eq_getElem inside
    have own : ∃ prior upTo, CallPhase.waitingSuffix id retained bound
        = .waitingSuffix id prior upTo := ⟨retained, bound, rfl⟩
    cases progress : world.suffixes[id].phase with
    | spawned => exact ⟨.scanSuffix id, own, by simp [move, scanSuffix, there, progress]⟩
    | scanning startedAt =>
      exact ⟨.loadSuffix id [], own, by simp [move, loadSuffix, there, progress]⟩
    | loaded result =>
      refine ⟨.installSuffix id, own, ?_⟩
      simp only [move, installSuffix, there, progress, Option.bind_eq_bind, Option.bind_some]
      split
      · split <;> rfl
      · rfl
    | installed entry =>
      exact ⟨.completeSuffix id, own, by simp [move, completeSuffix, there, progress]⟩
    | completed result =>
      refine ⟨.resumeSuffix index, rfl, ?_⟩
      cases result <;> simp [move, resumeSuffix, made, phase, there, progress, asked, proof]
  | answered result source => exact absurd phase (unanswered result source)

/-- The first reader of the slow scan, while it waits for the rows. -/
theorem read_goes_on_slowScan :
    ∃ world call,
      Reachable (step tenMillisecondSonyflake ordersCache fun _ => 20) anyAction (.initial 0) world
      ∧ world.calls[0]? = some call ∧ call.phase = .waiting 0 2
      ∧ ∃ action : CacheAction, action.Serves 0 call.phase
        ∧ (world.step tenMillisecondSonyflake ordersCache (fun _ => 20) action).isSome = true := by
  have waits : (Machine.run (step tenMillisecondSonyflake ordersCache fun _ => 20)
      (.initial 0) (slowScan.take 5)).map (fun world => world.calls[0]?.map Call.phase)
      = some (some (.waiting 0 2)) := by decide +kernel
  obtain ⟨world, executed, waiting⟩ := Option.map_eq_some_iff.mp waits
  obtain ⟨call, made, phase⟩ := Option.map_eq_some_iff.mp waiting
  have reached := Machine.reachable_of_run (Machine.runAllowed_anyAction _ _ _) executed
  exact ⟨world, call, reached, made, phase,
    read_goes_on _ _ _ 0 world reached 0 call made (by simp [phase])⟩

end BlobStream.Read
