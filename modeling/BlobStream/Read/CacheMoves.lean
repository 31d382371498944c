import BlobStream.Read.MetadataCache

/-!
# What a step of the metadata cache can do

Most steps change the phase of one read, one refill or one suffix scan and nothing else; a few also
register a worker, log a scan or replace a retained entry. `CacheMove` lists them with their guards, so
that an invariant is proved by cases on it and not on the code of the steps.
-/

namespace BlobStream.Read

open Store.Codec (SegmentMetadataV1)
open Write (SegmentMetadata SnowflakeId)

section Moves

variable (sonyflake : Sonyflake) (config : MetadataCacheConfig)
variable (computeSize : SegmentMetadataV1 → Nat)

section Calls

variable (world : CacheWorld) (index : Nat) (call : Call)

/-- Changes of the phase of a read that leave everything else as it is. -/
inductive CallChange : CacheAction → CallPhase → Prop
  | refused {failure : ReadFailure} :
      CallChange (.refuse index failure) (.answered (.error failure) .refused)
  | retained {entry : CacheEntry} (looking : call.phase = .lookup)
      (eventual : call.specification.key.consistency = .eventual)
      (found : world.eventual call.specification.key = some entry)
      (covered : entry.covers call.specification = true)
      (fresh : entry.isFresh call.specification.topic.metadataCacheMaxAge world.now = true) :
      CallChange (.lookup index)
        (answer computeSize call (.ok entry) true false (.retained world.now))
  | stale : CallChange (.lookup index) .stale
  | sealedPrefix {entry : CacheEntry} {bound : SnowflakeId}
      (strong : call.specification.key.consistency = .strong)
      (found : world.strongSealed call.specification.key = some entry)
      (reusable : reusableBound sonyflake config call.specification entry = some bound)
      (whole : ∀ ends ∈ call.specification.windowEndSnowflake sonyflake, ends ≤ bound) :
      CallChange (.lookup index) (answer computeSize call (.ok entry) false true .sealedPrefix)
  | wantsSuffix {retained : CacheEntry} {bound : SnowflakeId}
      (strong : call.specification.key.consistency = .strong)
      (found : world.strongSealed call.specification.key = some retained)
      (reusable : reusableBound sonyflake config call.specification retained = some bound) :
      CallChange (.lookup index) (.joinSuffix retained bound)
  | wantsRefill : CallChange (.lookup index) .join
  | failed {id joined : Nat} {failure : ReadFailure} :
      CallChange (.resume index) (.answered (.error failure) (.refill id joined))
  | refilled {id joined completed : Nat} {refill : PendingRefill} {entry : CacheEntry}
      (waiting : call.phase = .waiting id joined) (present : world.refills[id]? = some refill)
      (done : refill.phase = .completed (.ok entry) completed)
      (covered : entry.covers call.specification = true) :
      CallChange (.resume index)
        (answer computeSize call (entryFromRefill sonyflake config call.specification entry) false
          false (.refill id joined))
  | retry : CallChange (.resume index) .lookup
  | joinsSuffix {id : Nat} {retained : CacheEntry} {bound : SnowflakeId}
      (wanting : call.phase = .joinSuffix retained bound)
      (registered : world.suffixInFlight
        (PendingSuffix.key ⟨call.specification, retained, bound, .spawned⟩) = some id) :
      CallChange (.joinSuffix index) (.waitingSuffix id retained bound)
  | suffixFailed {failure : ReadFailure} :
      CallChange (.resumeSuffix index) (.answered (.error failure) .suffix)
  | suffixed {id : Nat} {retained scanned : CacheEntry} {bound requested : SnowflakeId}
      {sealedAt : Int} {suffix : PendingSuffix}
      (waiting : call.phase = .waitingSuffix id retained bound)
      (present : world.suffixes[id]? = some suffix)
      (asked : call.specification.requestedSealBefore = some requested)
      (proof : retained.sealedAt = some sealedAt)
      (done : suffix.phase = .completed (.ok scanned)) :
      CallChange (.resumeSuffix index) (answer computeSize call
          (.ok (entryFromSuffix sonyflake config call.specification requested sealedAt bound
            scanned)) false true .suffix)

end Calls

/-- Changes of the phase of a refill that leave everything else as it is. -/
inductive RefillChange (world : CacheWorld) (refill : PendingRefill) : RefillPhase → Prop
  | begin (coalescing : refill.phase = .coalescing) :
      RefillChange world refill (.begun refill.specification)
  | scan {request : ReadSpecification} (begun : refill.phase = .begun request) :
      RefillChange world refill (.scanning request world.now)
  | complete {entry : CacheEntry} (installed : refill.phase = .installed entry) :
      RefillChange world refill (.completed (.ok entry) world.epoch)
  | fail {failure : ReadFailure} (pending : refill.phase.isComplete = false) :
      RefillChange world refill (.completed (.error failure) world.epoch)

/-- Changes of the phase of a suffix scan that leave everything else as it is. -/
inductive SuffixChange (world : CacheWorld) (suffix : PendingSuffix) : SuffixPhase → Prop
  | scan (spawned : suffix.phase = .spawned) :
      SuffixChange world suffix (.scanning world.now)
  | installed {result : SuffixResult} (loaded : suffix.phase = .loaded result) :
      SuffixChange world suffix (.installed result.entry)
  | complete {entry : CacheEntry} (installed : suffix.phase = .installed entry) :
      SuffixChange world suffix (.completed (.ok entry))
  | fail {failure : ReadFailure} (pending : suffix.phase.isComplete = false) :
      SuffixChange world suffix (.completed (.error failure))

section Worlds

variable (world : CacheWorld)

inductive CacheMove : CacheAction → CacheWorld → Prop
  | tick {now : Int} : CacheMove (.tick now) { world with now }
  | evict {key : CacheKey} :
      CacheMove (.evict key) { world with
        eventual := Function.update world.eventual key none
        strongSealed := Function.update world.strongSealed key none }
  | reject {request : ReadMetadataWindowRequest} {limits : ResponseLimits} :
      CacheMove (.read request limits) world
  | accept {request : ReadMetadataWindowRequest} {limits : ResponseLimits} {call : Call}
      (accepted : acceptRequest sonyflake config request limits = .ok call) :
      CacheMove (.read request limits) { world with calls := world.calls ++ [call] }
  | call {index : Nat} {call : Call} {action : CacheAction} {phase : CallPhase}
      (present : world.calls[index]? = some call)
      (changes : CallChange sonyflake config computeSize world index call action phase) :
      CacheMove action (world.setCall index call phase)
  | invalidate {index : Nat} {call : Call} (present : world.calls[index]? = some call) :
      CacheMove (.invalidate index) { world.setCall index call .join with
        eventual := Function.update world.eventual call.specification.key none }
  | joinRefill {index id : Nat} {call : Call} {refill : PendingRefill}
      {admitted : ReadSpecification} (present : world.calls[index]? = some call)
      (registered : world.inFlight call.specification.key = some id)
      (pending : world.refills[id]? = some refill) (running : refill.phase.isComplete = false)
      (admits : admitSpecification refill.specification call.specification = some admitted) :
      CacheMove (.join index)
        ((world.setRefill id { refill with specification := admitted } refill.phase).setCall index
          call (.waiting id world.epoch))
  | startRefill {index : Nat} {call : Call} (present : world.calls[index]? = some call) :
      CacheMove (.join index)
        { world.setCall index call (.waiting world.refills.length world.epoch) with
          refills := world.refills ++ [⟨call.specification, .coalescing⟩]
          inFlight := Function.update world.inFlight call.specification.key
            (some world.refills.length) }
  | startSuffix {index : Nat} {call : Call} {retained : CacheEntry} {bound : SnowflakeId}
      (present : world.calls[index]? = some call)
      (wanting : call.phase = .joinSuffix retained bound) :
      CacheMove (.joinSuffix index)
        { world.setCall index call (.waitingSuffix world.suffixes.length retained bound) with
          suffixes := world.suffixes ++ [⟨call.specification, retained, bound, .spawned⟩]
          suffixInFlight := Function.update world.suffixInFlight
            (PendingSuffix.key ⟨call.specification, retained, bound, .spawned⟩)
            (some world.suffixes.length) }
  | refill {id : Nat} {refill : PendingRefill} {action : CacheAction} {phase : RefillPhase}
      (present : world.refills[id]? = some refill) (changes : RefillChange world refill phase) :
      CacheMove action (world.setRefill id refill phase)
  | load {id : Nat} {refill : PendingRefill} {request : ReadSpecification} {startedAt : Int}
      {rows : List SegmentMetadata} (present : world.refills[id]? = some refill)
      (scanning : refill.phase = .scanning request startedAt) :
      CacheMove (.load id rows) { world.setRefill id refill (.loaded request
            (loadedEntry sonyflake config request startedAt world.now (world.generation + 1) rows))
          with
          generation := world.generation + 1
          scans := world.scans ++ [⟨world.generation + 1, request.key, request.minSnowflake,
            startedAt, world.now, rows⟩] }
  | installEventual {id : Nat} {refill : PendingRefill} {request : ReadSpecification}
      {entry : CacheEntry} (present : world.refills[id]? = some refill)
      (loaded : refill.phase = .loaded request entry)
      (eventual : request.key.consistency = .eventual) :
      CacheMove (.install id) { world.setRefill id refill (.installed entry) with
        eventual := Function.update world.eventual request.key (some entry) }
  | installStrong {id : Nat} {refill : PendingRefill} {request : ReadSpecification}
      {entry : CacheEntry} (present : world.refills[id]? = some refill)
      (loaded : refill.phase = .loaded request entry)
      (strong : request.key.consistency = .strong) :
      CacheMove (.install id) { world.setRefill id refill (.installed entry) with
        strongSealed := Function.update world.strongSealed request.key
          (CacheWorld.retainedPrefix sonyflake config request entry
            (world.strongSealed request.key)) }
  | unregister {id : Nat} {inFlight : CacheKey → Option Nat}
      (fewer : ∀ key other, inFlight key = some other → world.inFlight key = some other) :
      CacheMove (.remove id) { world with inFlight }
  | suffix {id : Nat} {suffix : PendingSuffix} {action : CacheAction} {phase : SuffixPhase}
      (present : world.suffixes[id]? = some suffix) (changes : SuffixChange world suffix phase) :
      CacheMove action (world.setSuffix id suffix phase)
  | loadSuffix {id : Nat} {suffix : PendingSuffix} {startedAt : Int}
      {rows : List SegmentMetadata} {phase : SuffixPhase}
      (present : world.suffixes[id]? = some suffix)
      (scanning : suffix.phase = .scanning startedAt)
      (loads : phase = .completed (.error .failed) ∨ ∃ result,
        suffixResult sonyflake config suffix.specification suffix.retained suffix.sealBefore
          startedAt world.now (world.generation + 1) rows = some result ∧ phase = .loaded result) :
      CacheMove (.loadSuffix id rows) { world.setSuffix id suffix phase with
        generation := world.generation + 1
        scans := world.scans ++ [⟨world.generation + 1, suffix.specification.key,
          some (suffixFloor suffix.specification suffix.sealBefore), startedAt, world.now,
          rows⟩] }
  | promote {id : Nat} {suffix : PendingSuffix} {result : SuffixResult} {promoted : CacheEntry}
      (present : world.suffixes[id]? = some suffix) (loaded : suffix.phase = .loaded result)
      (promotes : result.promoted = some promoted)
      (current : world.strongSealed suffix.specification.key = some suffix.retained) :
      CacheMove (.installSuffix id) { world.setSuffix id suffix (.installed result.entry) with
        strongSealed :=
          Function.update world.strongSealed suffix.specification.key (some promoted) }
  | unregisterSuffix {id : Nat} {suffixInFlight : StrongSuffixKey → Option Nat}
      (fewer : ∀ key other, suffixInFlight key = some other →
        world.suffixInFlight key = some other) :
      CacheMove (.removeSuffix id) { world with suffixInFlight }

end Worlds

end Moves

/-! ### The steps make these moves -/

section Inversion

variable {sonyflake : Sonyflake} {config : MetadataCacheConfig}
variable {computeSize : SegmentMetadataV1 → Nat} {world after : CacheWorld}

variable {index id : Nat}

theorem change_of_lookupEntry {call : Call} (looking : call.phase = .lookup) :
    CallChange sonyflake config computeSize world index call (.lookup index)
      (match lookupEntry sonyflake config call.specification world.now
          (world.eventual call.specification.key) (world.strongSealed call.specification.key) with
      | .retained entry => answer computeSize call (.ok entry) true false (.retained world.now)
      | .stale => .stale
      | .sealedPrefix entry => answer computeSize call (.ok entry) false true .sealedPrefix
      | .suffix retained bound => .joinSuffix retained bound
      | .refill => .join) := by
  cases consistency : call.specification.key.consistency with
  | eventual =>
    cases found : world.eventual call.specification.key with
    | none =>
      simp only [lookupEntry, consistency]
      exact .wantsRefill
    | some entry =>
      simp only [lookupEntry, consistency]
      by_cases usable : entry.covers call.specification = true
          ∧ entry.isFresh call.specification.topic.metadataCacheMaxAge world.now = true
      · rw [if_pos usable]
        exact .retained looking consistency found usable.1 usable.2
      · rw [if_neg usable]
        exact .stale
  | strong =>
    cases found : world.strongSealed call.specification.key with
    | none =>
      simp only [lookupEntry, consistency]
      exact .wantsRefill
    | some entry =>
      simp only [lookupEntry, consistency]
      cases reusable : reusableBound sonyflake config call.specification entry with
      | none => exact .wantsRefill
      | some bound =>
        by_cases below : ((call.specification.windowEndSnowflake sonyflake).any fun ends =>
            decide (bound < ends)) = true
        · simp only [if_pos below]
          exact .wantsSuffix consistency found reusable
        · simp only [if_neg below]
          refine .sealedPrefix consistency found reusable fun ends isEnd => ?_
          by_contra above
          refine below ?_
          rw [Option.mem_def.mp isEnd]
          exact decide_eq_true (Nat.lt_of_not_le above)

theorem pendingRefill_eq_some {key : CacheKey} {refill : PendingRefill}
    (pending : world.pendingRefill key = some (id, refill)) :
    world.inFlight key = some id ∧ world.refills[id]? = some refill
      ∧ refill.phase.isComplete = false := by
  obtain ⟨found, registered, pending⟩ := Option.bind_eq_some_iff.mp pending
  obtain ⟨held, present, pending⟩ := Option.bind_eq_some_iff.mp pending
  split at pending
  next => cases pending
  next running =>
    cases pending
    exact ⟨registered, present, by simpa using running⟩

theorem move_of_join (moved : world.join index = some after) :
    CacheMove sonyflake config computeSize world (.join index) after := by
  obtain ⟨call, present, moved⟩ := Option.bind_eq_some_iff.mp moved
  dsimp only at moved
  split at moved
  next =>
    split at moved
    next id refill pending =>
      obtain ⟨admitted, admits, moved⟩ := Option.bind_eq_some_iff.mp moved
      cases moved
      obtain ⟨registered, held, running⟩ := pendingRefill_eq_some pending
      exact .joinRefill present registered held running admits
    next =>
      cases moved
      exact .startRefill present
  next => cases moved

theorem move_of_resume (moved : world.resume sonyflake config computeSize index = some after) :
    CacheMove sonyflake config computeSize world (.resume index) after := by
  obtain ⟨call, present, moved⟩ := Option.bind_eq_some_iff.mp moved
  split at moved
  next id joined waiting =>
    obtain ⟨refill, held, moved⟩ := Option.bind_eq_some_iff.mp moved
    split at moved
    next failure completed done =>
      cases moved
      exact .call present .failed
    next entry completed done =>
      cases moved
      split
      next covered => exact .call present (.refilled waiting held done covered)
      next => exact .call present .retry
    next => cases moved
  next => cases moved

theorem move_of_joinSuffix (moved : world.joinSuffix index = some after) :
    CacheMove sonyflake config computeSize world (.joinSuffix index) after := by
  obtain ⟨call, present, moved⟩ := Option.bind_eq_some_iff.mp moved
  split at moved
  next retained bound wanting =>
    dsimp only at moved
    split at moved
    next id pending found =>
      cases moved
      obtain ⟨other, registered, found⟩ := Option.bind_eq_some_iff.mp found
      obtain ⟨held, there, found⟩ := Option.bind_eq_some_iff.mp found
      split at found
      next => cases found
      next =>
        cases found
        exact .call present (.joinsSuffix wanting registered)
    next =>
      cases moved
      exact .startSuffix present wanting
  next => cases moved

theorem move_of_resumeSuffix
    (moved : world.resumeSuffix sonyflake config computeSize index = some after) :
    CacheMove sonyflake config computeSize world (.resumeSuffix index) after := by
  obtain ⟨call, present, moved⟩ := Option.bind_eq_some_iff.mp moved
  split at moved
  next id retained bound waiting =>
    obtain ⟨suffix, held, moved⟩ := Option.bind_eq_some_iff.mp moved
    obtain ⟨requested, asked, moved⟩ := Option.bind_eq_some_iff.mp moved
    obtain ⟨sealedAt, proof, moved⟩ := Option.bind_eq_some_iff.mp moved
    split at moved
    next failure done =>
      cases moved
      exact .call present .suffixFailed
    next scanned done =>
      cases moved
      exact .call present (.suffixed waiting held asked proof done)
    next => cases moved
  next => cases moved

/-- Taking one registration out of a map leaves only registrations that were there. -/
theorem registered_of_update {κ : Type} [DecidableEq κ] {registry : κ → Option Nat} {key : κ}
    (other : κ) (found : Nat)
    (remains : (if registry key = some id then Function.update registry key none else registry) other
      = some found) : registry other = some found := by
  split at remains
  · rw [Function.update_apply] at remains
    split at remains
    · cases remains
    · exact remains
  · exact remains

theorem move_of_installSuffix (moved : world.installSuffix id = some after) :
    CacheMove sonyflake config computeSize world (.installSuffix id) after := by
  obtain ⟨suffix, present, moved⟩ := Option.bind_eq_some_iff.mp moved
  split at moved
  next result loaded =>
    dsimp only at moved
    split at moved
    next promoted promotes =>
      split at moved
      next current =>
        cases moved
        exact .promote present loaded promotes current
      next =>
        cases moved
        exact .suffix present (.installed loaded)
    next =>
      cases moved
      exact .suffix present (.installed loaded)
  next => cases moved

theorem move_of_step {action : CacheAction}
    (stepped : world.step sonyflake config computeSize action = some after) :
    ∃ moved, CacheMove sonyflake config computeSize world action moved
      ∧ after = { moved with epoch := world.epoch + 1 } := by
  obtain ⟨moved, moves, rfl⟩ := Option.map_eq_some_iff.mp stepped
  refine ⟨moved, ?_, rfl⟩
  cases action with
  | tick now =>
    cases moves
    exact .tick
  | evict key =>
    cases moves
    exact .evict
  | read request limits =>
    cases moves
    unfold CacheWorld.read
    split
    next => exact .reject
    next call accepted => exact .accept accepted
  | refuse call failure =>
    obtain ⟨call, present, moves⟩ := Option.bind_eq_some_iff.mp moves
    split at moves
    next => cases moves
    next =>
      cases moves
      exact .call present .refused
  | lookup call =>
    obtain ⟨call, present, moves⟩ := Option.bind_eq_some_iff.mp moves
    dsimp only at moves
    split at moves
    next looking =>
      cases moves
      exact .call present (change_of_lookupEntry looking)
    next => cases moves
  | invalidate call =>
    obtain ⟨call, present, moves⟩ := Option.bind_eq_some_iff.mp moves
    split at moves
    next =>
      cases moves
      exact .invalidate present
    next => cases moves
  | join call => exact move_of_join moves
  | resume call => exact move_of_resume moves
  | joinSuffix call => exact move_of_joinSuffix moves
  | resumeSuffix call => exact move_of_resumeSuffix moves
  | begin refill =>
    obtain ⟨refill, present, moves⟩ := Option.bind_eq_some_iff.mp moves
    split at moves
    next coalescing =>
      cases moves
      exact .refill present (.begin coalescing)
    next => cases moves
  | scan refill =>
    obtain ⟨refill, present, moves⟩ := Option.bind_eq_some_iff.mp moves
    split at moves
    next request begun =>
      cases moves
      exact .refill present (.scan begun)
    next => cases moves
  | load refill rows =>
    obtain ⟨refill, present, moves⟩ := Option.bind_eq_some_iff.mp moves
    split at moves
    next request startedAt scanning =>
      cases moves
      exact .load present scanning
    next => cases moves
  | install refill =>
    obtain ⟨refill, present, moves⟩ := Option.bind_eq_some_iff.mp moves
    split at moves
    next request entry loaded =>
      dsimp only at moves
      split at moves
      next eventual =>
        cases moves
        exact .installEventual present loaded eventual
      next strong =>
        cases moves
        exact .installStrong present loaded strong
    next => cases moves
  | complete refill =>
    obtain ⟨refill, present, moves⟩ := Option.bind_eq_some_iff.mp moves
    split at moves
    next entry installed =>
      cases moves
      exact .refill present (.complete installed)
    next => cases moves
  | fail refill failure =>
    obtain ⟨refill, present, moves⟩ := Option.bind_eq_some_iff.mp moves
    split at moves
    next => cases moves
    next pending =>
      cases moves
      exact .refill present (.fail (by simpa using pending))
  | remove refill =>
    obtain ⟨refill, present, moves⟩ := Option.bind_eq_some_iff.mp moves
    dsimp only at moves
    split at moves
    next =>
      cases moves
      exact .unregister registered_of_update
    next => cases moves
  | scanSuffix suffix =>
    obtain ⟨suffix, present, moves⟩ := Option.bind_eq_some_iff.mp moves
    split at moves
    next spawned =>
      cases moves
      exact .suffix present (.scan spawned)
    next => cases moves
  | loadSuffix suffix rows =>
    obtain ⟨suffix, present, moves⟩ := Option.bind_eq_some_iff.mp moves
    split at moves
    next startedAt scanning =>
      cases moves
      refine .loadSuffix present scanning ?_
      split
      next => exact .inl rfl
      next result computed => exact .inr ⟨result, computed, rfl⟩
    next => cases moves
  | installSuffix suffix => exact move_of_installSuffix moves
  | completeSuffix suffix =>
    obtain ⟨suffix, present, moves⟩ := Option.bind_eq_some_iff.mp moves
    split at moves
    next entry installed =>
      cases moves
      exact .suffix present (.complete installed)
    next => cases moves
  | failSuffix suffix failure =>
    obtain ⟨suffix, present, moves⟩ := Option.bind_eq_some_iff.mp moves
    split at moves
    next => cases moves
    next pending =>
      cases moves
      exact .suffix present (.fail (by simpa using pending))
  | removeSuffix suffix =>
    obtain ⟨suffix, present, moves⟩ := Option.bind_eq_some_iff.mp moves
    dsimp only at moves
    split at moves
    next =>
      cases moves
      exact .unregisterSuffix registered_of_update
    next => cases moves

end Inversion

end BlobStream.Read
