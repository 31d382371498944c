import BlobStream.Read.CacheMoves

/-!
# Shared reads equal one store scan

A read that does not reuse a sealed prefix answers with the caller's own projection of the rows of one
logged scan, which covers what the caller asked for. A retained scan was observed at most the maximum
age before the lookup; a refill that the caller joined had not completed then.
-/

namespace BlobStream.Read

open Machine (Reachable anyAction)
open Store.Codec (SegmentMetadataV1)
open Write (SegmentMetadata SnowflakeId)

def EntryFrom (scans : List Scan) (key : CacheKey) (entry : CacheEntry) : Prop :=
  ∃ scan ∈ scans, scan.generation = entry.generation ∧ scan.key = key
    ∧ scan.floor = entry.refillFloor ∧ scan.observedAt = entry.observedAt
    ∧ sortSegments scan.rows = entry.segments

variable {entry : CacheEntry} {scans : List Scan}
variable {later : List Scan} {key : CacheKey}

theorem EntryFrom.mono (grown : scans ⊆ later) (made : EntryFrom scans key entry) :
    EntryFrom later key entry := by
  obtain ⟨scan, logged, facts⟩ := made
  exact ⟨scan, grown logged, facts⟩

/-- A refill of the key works on requests of the key, and its entry is from a scan. -/
def RefillPhase.Sound (scans : List Scan) (key : CacheKey) : RefillPhase → Prop
  | .coalescing => True
  | .begun request | .scanning request _ => request.key = key
  | .loaded request entry => request.key = key ∧ EntryFrom scans key entry
  | .installed entry | .completed (.ok entry) _ => EntryFrom scans key entry
  | .completed (.error _) _ => True

theorem RefillPhase.Sound.mono {phase : RefillPhase} (grown : scans ⊆ later)
    (sound : phase.Sound scans key) : phase.Sound later key := by
  cases phase with
  | coalescing => trivial
  | begun request => exact sound
  | scanning request startedAt => exact sound
  | loaded request entry => exact ⟨sound.1, sound.2.mono grown⟩
  | installed entry => exact EntryFrom.mono grown sound
  | completed result epoch =>
    cases result with
    | error failure => trivial
    | ok entry => exact EntryFrom.mono grown sound

/-- The scan is recent enough for the way the answer was found: its entry was fresh at the lookup, or
its refill completed after the read had joined. -/
def Recent (specification : ReadSpecification) (refills : List PendingRefill) (scan : Scan) :
    Source → Prop
  | .retained lookedUpAt =>
    0 < specification.topic.metadataCacheMaxAge
      ∧ lookedUpAt - scan.observedAt ≤ specification.topic.metadataCacheMaxAge
  | .refill id joined => ∃ refill entry completed,
    refills[id]? = some refill ∧ refill.phase = .completed (.ok entry) completed
      ∧ entry.generation = scan.generation ∧ joined < completed
  | .sealedPrefix | .suffix | .refused => False

/-- The answer lists exactly the caller's projection of the scan, in the order of identities and
within the limits of the call. -/
structure AnswersFrom (computeSize : SegmentMetadataV1 → Nat) (specification : ReadSpecification)
    (limit maxItems : Nat) (success : MetadataReadSuccess) (source : Source)
    (refills : List PendingRefill) (scan : Scan) : Prop where
  generation : scan.generation = success.generation
  window : scan.key = specification.key
  /-- Every row the caller wants lies in the scanned range. -/
  covers : ∀ floor ∈ scan.floor, ∀ id partition, specification.wants id partition = true →
    floor ≤ id
  recent : Recent specification refills scan source
  listed : (specification.projection (sortSegments scan.rows)).mapM brokerSegmentMetadata
    = some success.segments
  bytes : listedBytes computeSize success.segments ≤ limit
  items : success.segments.length ≤ maxItems

/-- A successful answer that does not reuse a sealed prefix is from one scan. -/
def Served (computeSize : SegmentMetadataV1 → Nat) (world : CacheWorld)
    (specification : ReadSpecification) (limit maxItems : Nat) (success : MetadataReadSuccess)
    (source : Source) : Prop :=
  (specification.key.consistency = .eventual → success.retainedStrongCoverage = false)
    ∧ (success.retainedStrongCoverage = false →
      ∃ scan ∈ world.scans,
        AnswersFrom computeSize specification limit maxItems success source world.refills scan)

/-- The read waits for a refill of its key that completes after it joined, or is answered well. -/
def CallPhase.Sound (computeSize : SegmentMetadataV1 → Nat) (world : CacheWorld) (call : Call) :
    CallPhase → Prop
  | .waiting id joined =>
    joined < world.epoch ∧ ∃ refill, world.refills[id]? = some refill
      ∧ refill.specification.key = call.specification.key
      ∧ ∀ result completed, refill.phase = .completed result completed → joined < completed
  | .joinSuffix _ _ | .waitingSuffix _ _ _ => call.specification.key.consistency = .strong
  | .answered (.ok success) source =>
    Served computeSize world call.specification call.limit call.maxItems success source
  | .answered (.error _) _ | .lookup | .stale | .join => True

/-- Refills keep their key, stay completed once they are, and complete at the current step. -/
def RefillsEvolve (before after : CacheWorld) : Prop :=
  ∀ (id : Nat) (refill : PendingRefill), before.refills[id]? = some refill →
    ∃ later, after.refills[id]? = some later
      ∧ later.specification.key = refill.specification.key
      ∧ (refill.phase.isComplete = true → later = refill)
      ∧ ∀ result completed, later.phase = .completed result completed →
        refill.phase = .completed result completed ∨ completed = before.epoch

variable {call : Call}

/-- Unchanged reads stay sound while the rest of the world moves. -/
theorem CallPhase.Sound.mono {computeSize : SegmentMetadataV1 → Nat} {before after : CacheWorld}
    {phase : CallPhase} (sound : phase.Sound computeSize before call)
    (scans : before.scans ⊆ after.scans) (refills : RefillsEvolve before after)
    (epoch : before.epoch < after.epoch) : phase.Sound computeSize after call := by
  cases phase with
  | lookup => trivial
  | stale => trivial
  | join => trivial
  | waiting id joined =>
    obtain ⟨earlier, refill, present, sameKey, completes⟩ := sound
    obtain ⟨later, there, keeps, -, completion⟩ := refills id refill present
    refine ⟨by omega, later, there, keeps.trans sameKey, fun result completed done => ?_⟩
    rcases completion result completed done with already | now
    · exact completes result completed already
    · omega
  | joinSuffix retained bound => exact sound
  | waitingSuffix id retained bound => exact sound
  | answered result source =>
    cases result with
    | error failure => trivial
    | ok success =>
      refine ⟨sound.1, fun single => ?_⟩
      obtain ⟨scan, logged, answers⟩ := sound.2 single
      refine ⟨scan, scans logged, { answers with recent := ?_ }⟩
      cases source with
      | refill id joined =>
        obtain ⟨refill, entry, completed, present, done, recent⟩ := answers.recent
        obtain ⟨later, there, -, stays, -⟩ := refills id refill present
        obtain rfl := stays (done ▸ rfl)
        exact ⟨later, entry, completed, there, done, recent⟩
      | _ => exact answers.recent

/-! ### What moves leave alone -/

section Moves

variable {sonyflake : Sonyflake} {config : MetadataCacheConfig}
variable {computeSize : SegmentMetadataV1 → Nat} {before after : CacheWorld} {action : CacheAction}

theorem RefillsEvolve.of_same (same : after.refills = before.refills) :
    RefillsEvolve before after := by
  intro id refill present
  exact ⟨refill, same ▸ present, rfl, fun _ => rfl, fun _ _ done => .inl done⟩

theorem RefillsEvolve.of_append {extra : List PendingRefill}
    (grown : after.refills = before.refills ++ extra) : RefillsEvolve before after := by
  intro id refill present
  refine ⟨refill, ?_, rfl, fun _ => rfl, fun _ _ done => .inl done⟩
  rw [grown]
  rw [List.getElem?_append_left (List.getElem?_eq_some_iff.mp present).1]
  exact present

theorem RefillsEvolve.of_set {id : Nat} {refill next : PendingRefill}
    (set : after.refills = before.refills.set id next)
    (present : before.refills[id]? = some refill)
    (sameKey : next.specification.key = refill.specification.key)
    (running : refill.phase.isComplete = false)
    (completes : ∀ result completed, next.phase = .completed result completed →
      refill.phase = .completed result completed ∨ completed = before.epoch) :
    RefillsEvolve before after := by
  intro other found there
  by_cases same : id = other
  · subst same
    rw [present] at there
    cases there
    refine ⟨next, ?_, sameKey, fun done => ?_, completes⟩
    · rw [set, List.getElem?_set_self (List.getElem?_eq_some_iff.mp present).1]
    · rw [running] at done
      cases done
  · refine ⟨found, ?_, rfl, fun _ => rfl, fun _ _ done => .inl done⟩
    rw [set, List.getElem?_set_ne same]
    exact there

theorem admit_key {pending joining admitted : ReadSpecification}
    (admits : admitSpecification pending joining = some admitted) : admitted.key = pending.key := by
  unfold admitSpecification at admits
  split at admits
  · cases admits
    rfl
  · split at admits <;> cases admits <;> rfl

theorem RefillChange.running {refill : PendingRefill} {phase : RefillPhase}
    (changes : RefillChange before refill phase) : refill.phase.isComplete = false := by
  cases changes with
  | begin now | scan now | complete now => exact now ▸ rfl
  | fail pending => exact pending

theorem refillsEvolve_of_move
    (moves : CacheMove sonyflake config computeSize before action after) :
    RefillsEvolve before after := by
  cases moves with
  | joinRefill present registered pending running admits =>
    exact .of_set rfl pending (admit_key admits) running fun _ _ done => .inl done
  | startRefill present => exact .of_append rfl
  | refill present changes =>
    refine .of_set rfl present rfl changes.running fun result completed done => ?_
    cases changes with
    | begin coalescing => cases done
    | scan begun => cases done
    | complete installed =>
      cases done
      exact .inr rfl
    | fail pending =>
      cases done
      exact .inr rfl
  | load present phase | installEventual present phase | installStrong present phase =>
    exact .of_set rfl present rfl (phase ▸ rfl) fun _ _ done => nomatch done
  | _ => exact .of_same rfl

theorem scans_subset_of_move (moves : CacheMove sonyflake config computeSize before action after) :
    before.scans ⊆ after.scans := by
  cases moves with
  | load | loadSuffix => exact List.subset_append_left _ _
  | _ => exact List.Subset.refl _

end Moves

/-! ### The invariant -/

/-- Every entry in the world is from a scan, and every read is sound. -/
structure SharedSound (computeSize : SegmentMetadataV1 → Nat) (world : CacheWorld) : Prop where
  eventual : ∀ key entry, world.eventual key = some entry → EntryFrom world.scans key entry
  registered : ∀ key id, world.inFlight key = some id →
    ∃ refill, world.refills[id]? = some refill ∧ refill.specification.key = key
  refills : ∀ refill ∈ world.refills, refill.phase.Sound world.scans refill.specification.key
  calls : ∀ call ∈ world.calls,
    call.limit < Word.u64Max ∧ call.phase.Sound computeSize world call

variable {specification : ReadSpecification}

section Preservation

variable {sonyflake : Sonyflake} {config : MetadataCacheConfig}
variable {computeSize : SegmentMetadataV1 → Nat} {before after : CacheWorld} {action : CacheAction}

theorem eventual_of_move (sound : SharedSound computeSize before)
    (moves : CacheMove sonyflake config computeSize before action after) :
    ∀ key entry, after.eventual key = some entry → EntryFrom after.scans key entry := by
  have unchanged : ∀ key entry, before.eventual key = some entry →
      EntryFrom after.scans key entry := fun key entry found =>
    (sound.eventual key entry found).mono (scans_subset_of_move moves)
  have without : ∀ key other entry, Function.update before.eventual key none other = some entry →
      EntryFrom after.scans other entry := by
    intro key other entry found
    rw [Function.update_apply] at found
    split at found
    · cases found
    · exact unchanged other entry found
  cases moves with
  | evict => exact without _
  | invalidate present => exact without _
  | installEventual present loaded eventual =>
    intro key entry found
    have made := sound.refills _ (List.mem_of_getElem? present)
    rw [loaded] at made
    dsimp only at found
    rw [Function.update_apply] at found
    split at found
    next same =>
      cases found
      rw [same, made.1]
      exact made.2
    next => exact unchanged key entry found
  | _ => exact unchanged

theorem registered_of_move (sound : SharedSound computeSize before)
    (moves : CacheMove sonyflake config computeSize before action after) :
    ∀ key id, after.inFlight key = some id →
      ∃ refill, after.refills[id]? = some refill ∧ refill.specification.key = key := by
  have unchanged : ∀ key id, before.inFlight key = some id →
      ∃ refill, after.refills[id]? = some refill ∧ refill.specification.key = key := by
    intro key id registered
    obtain ⟨refill, present, sameKey⟩ := sound.registered key id registered
    obtain ⟨later, there, keeps, -⟩ := refillsEvolve_of_move moves id refill present
    exact ⟨later, there, keeps.trans sameKey⟩
  cases moves with
  | startRefill present =>
    intro key id registered
    dsimp only at registered
    rw [Function.update_apply] at registered
    split at registered
    next same =>
      cases registered
      exact ⟨_, List.getElem?_concat_length, same.symm⟩
    next => exact unchanged key id registered
  | unregister fewer => exact fun key id registered => unchanged key id (fewer key id registered)
  | _ => exact unchanged

/-- The phases a refill moves through on its own keep it sound. -/
theorem RefillChange.sound {refill : PendingRefill} {phase : RefillPhase}
    (changes : RefillChange before refill phase)
    (sound : refill.phase.Sound before.scans refill.specification.key) :
    phase.Sound before.scans refill.specification.key := by
  cases changes with
  | begin coalescing => rfl
  | scan begun =>
    rw [begun] at sound
    exact sound
  | complete installed =>
    rw [installed] at sound
    exact sound
  | fail pending => trivial

theorem refills_of_move (sound : SharedSound computeSize before)
    (moves : CacheMove sonyflake config computeSize before action after) :
    ∀ refill ∈ after.refills, refill.phase.Sound after.scans refill.specification.key := by
  have unchanged : ∀ refill ∈ before.refills,
      refill.phase.Sound after.scans refill.specification.key := fun refill member =>
    (sound.refills refill member).mono (scans_subset_of_move moves)
  -- Only the refill that moves has to be looked at.
  have others : ∀ {id : Nat} {next : PendingRefill},
      next.phase.Sound after.scans next.specification.key →
      ∀ refill ∈ before.refills.set id next,
        refill.phase.Sound after.scans refill.specification.key := by
    intro id next moved refill member
    rcases List.mem_or_eq_of_mem_set member with kept | rfl
    · exact unchanged refill kept
    · exact moved
  cases moves with
  | joinRefill present registered pending running admits =>
    refine others ?_
    have held := unchanged _ (List.mem_of_getElem? pending)
    rw [admit_key admits]
    exact held
  | startRefill present =>
    intro refill member
    rcases List.mem_append.mp member with kept | added
    · exact unchanged refill kept
    · cases List.mem_singleton.mp added
      trivial
  | refill present changes => exact others (changes.sound (sound.refills _ (List.mem_of_getElem? present)))
  | load present scanning =>
    refine others ?_
    have held := sound.refills _ (List.mem_of_getElem? present)
    rw [scanning] at held
    refine ⟨held, held ▸ ?_⟩
    exact ⟨_, List.mem_append_right _ List.mem_cons_self, rfl, rfl, rfl, rfl, rfl⟩
  | installEventual present loaded eventual | installStrong present loaded strong =>
    refine others ?_
    have held := unchanged _ (List.mem_of_getElem? present)
    rw [loaded] at held
    exact held.2
  | _ => exact unchanged

/-- An entry that covers a caller was scanned from below everything the caller wants. -/
theorem floor_le_of_covers (covered : entry.covers specification = true) {floor : SnowflakeId}
    (scanned : entry.refillFloor = some floor) {id : SnowflakeId} {partition : VirtualPartitionId}
    (wanted : specification.wants id partition = true) : floor ≤ id := by
  unfold CacheEntry.covers at covered
  rw [scanned] at covered
  split at covered
  next low requested floorIs lowest =>
    cases floorIs
    exact Nat.le_trans (of_decide_eq_true covered) (minSnowflake_le_of_wants wanted lowest)
  next absurdity _ => cases absurdity
  next => cases covered

variable {world : CacheWorld} {source : Source}

/-- A response shaped from an entry of a scan answers from that scan. -/
theorem served_of_entry {retained : Bool} {success : MetadataReadSuccess}
    (limited : call.limit < Word.u64Max) (made : EntryFrom world.scans call.specification.key entry)
    (covered : entry.covers call.specification = true)
    (recent : ∀ scan : Scan, scan.generation = entry.generation →
      scan.observedAt = entry.observedAt → Recent call.specification world.refills scan source)
    (shaped : responseFromEntry computeSize call.specification call.limit call.maxItems entry
      retained false = .ok success) :
    Served computeSize world call.specification call.limit call.maxItems success source := by
  obtain ⟨scan, logged, generation, window, floor, observed, rows⟩ := made
  obtain ⟨listed, bytes, items⟩ := responseFromEntry_success limited shaped
  obtain ⟨-, notStrong, sameGeneration, -⟩ := responseFromEntry_fields shaped
  refine ⟨fun _ => notStrong, fun _ => ⟨scan, logged, ?_⟩⟩
  exact {
    generation := generation.trans sameGeneration.symm
    window
    covers := fun low isFloor id partition wanted =>
      floor_le_of_covers covered (floor ▸ isFloor) wanted
    recent := recent scan generation observed
    listed := rows ▸ listed
    bytes
    items }

/-- An answer that is an error, or shaped from a sound entry, is sound. -/
theorem answer_sound {found : Except ReadFailure CacheEntry} {retained strong : Bool}
    (served : ∀ entry success, found = .ok entry →
      responseFromEntry computeSize call.specification call.limit call.maxItems entry retained
        strong = .ok success →
      Served computeSize world call.specification call.limit call.maxItems success source) :
    (answer computeSize call found retained strong source).Sound computeSize world call := by
  cases found with
  | error failure => trivial
  | ok entry =>
    unfold answer
    dsimp only
    cases shaped : responseFromEntry computeSize call.specification call.limit call.maxItems entry
        retained strong with
    | error failure => trivial
    | ok success => exact served entry success rfl shaped

/-- A refill hands on its rows as they are; only the seal is the caller's. -/
theorem entryFromRefill_rows {found : CacheEntry}
    (taken : entryFromRefill sonyflake config specification entry = .ok found) :
    found.generation = entry.generation ∧ found.refillFloor = entry.refillFloor
      ∧ found.observedAt = entry.observedAt ∧ found.segments = entry.segments := by
  unfold entryFromRefill at taken
  split at taken
  · split at taken
    · cases taken
    · cases taken
      exact ⟨rfl, rfl, rfl, rfl⟩
  · cases taken
    exact ⟨rfl, rfl, rfl, rfl⟩

theorem CallChange.sound {index : Nat} {phase : CallPhase}
    (changes : CallChange sonyflake config computeSize before index call action phase)
    (sound : SharedSound computeSize before) (limited : call.limit < Word.u64Max)
    (held : call.phase.Sound computeSize before call) (epoch : Nat) :
    phase.Sound computeSize { before with epoch } call := by
  cases changes with
  | refused => trivial
  | retained looking eventual found covered fresh =>
    refine answer_sound fun entry success isEntry shaped => ?_
    cases isEntry
    refine served_of_entry limited (sound.eventual _ _ found) covered (fun scan _ observed => ?_) shaped
    have fresh := of_decide_eq_true fresh
    exact ⟨fresh.1, observed ▸ fresh.2⟩
  | stale => trivial
  | sealedPrefix strong found reusable whole =>
    refine answer_sound fun entry success isEntry shaped => ⟨?_, ?_⟩
    · intro eventual
      rw [strong] at eventual
      cases eventual
    · intro single
      rw [(responseFromEntry_fields shaped).2.1] at single
      cases single
  | wantsSuffix strong found reusable => exact strong
  | wantsRefill => trivial
  | failed => trivial
  | refilled waiting present done covered =>
    rw [waiting] at held
    obtain ⟨-, refill, there, sameKey, completes⟩ := held
    rw [there] at present
    cases present
    have made := sound.refills _ (List.mem_of_getElem? there)
    rw [done, sameKey] at made
    refine answer_sound fun entry success taken shaped => ?_
    obtain ⟨generation, floor, observed, rows⟩ := entryFromRefill_rows taken
    unfold CacheEntry.covers at covered
    obtain ⟨scan, logged, made⟩ := made
    rw [← generation, ← floor, ← observed, ← rows] at made
    rw [← floor] at covered
    refine served_of_entry limited ⟨scan, logged, made⟩ covered (fun scan same _ => ?_) shaped
    exact ⟨_, _, _, there, done, generation.symm.trans same.symm, completes _ _ done⟩
  | retry => trivial
  | joinsSuffix wanting registered =>
    rw [wanting] at held
    exact held
  | suffixFailed => trivial
  | suffixed waiting present asked proof done =>
    rw [waiting] at held
    refine answer_sound fun entry success isEntry shaped => ⟨?_, ?_⟩
    · intro eventual
      rw [held] at eventual
      cases eventual
    · intro single
      rw [(responseFromEntry_fields shaped).2.1] at single
      cases single

theorem acceptRequest_call {request : ReadMetadataWindowRequest} {limits : ResponseLimits}
    (accepted : acceptRequest sonyflake config request limits = .ok call) :
    call.limit < Word.u64Max ∧ call.phase = .lookup
      ∧ validateRequest sonyflake config request = .ok call.specification := by
  unfold acceptRequest at accepted
  split at accepted
  next => cases accepted
  next =>
    split at accepted
    next => cases accepted
    next specification validated =>
      cases accepted
      exact ⟨responseLimit_lt request limits, rfl, validated⟩

theorem calls_of_move (sound : SharedSound computeSize before)
    (moves : CacheMove sonyflake config computeSize before action after) :
    ∀ call ∈ after.calls, call.limit < Word.u64Max
      ∧ call.phase.Sound computeSize { after with epoch := before.epoch + 1 } call := by
  have grown := scans_subset_of_move moves
  have evolves := refillsEvolve_of_move moves
  have unchanged : ∀ call ∈ before.calls, call.limit < Word.u64Max
      ∧ call.phase.Sound computeSize { after with epoch := before.epoch + 1 } call := by
    intro call member
    obtain ⟨limited, held⟩ := sound.calls call member
    exact ⟨limited, held.mono grown evolves (Nat.lt_succ_self _)⟩
  -- Only the read that moves has to be looked at.
  have others : ∀ {index : Nat} {call : Call} {phase : CallPhase},
      before.calls[index]? = some call →
      phase.Sound computeSize { after with epoch := before.epoch + 1 } call →
      ∀ other ∈ before.calls.set index { call with phase }, other.limit < Word.u64Max
        ∧ other.phase.Sound computeSize { after with epoch := before.epoch + 1 } other := by
    intro index call phase present moved other member
    rcases List.mem_or_eq_of_mem_set member with kept | rfl
    · exact unchanged other kept
    · refine ⟨(sound.calls call (List.mem_of_getElem? present)).1, ?_⟩
      cases phase with
      | answered result _ => cases result <;> exact moved
      | _ => exact moved
  cases moves with
  | accept accepted =>
    intro call member
    rcases List.mem_append.mp member with kept | added
    · exact unchanged call kept
    · cases List.mem_singleton.mp added
      obtain ⟨limited, looking, -⟩ := acceptRequest_call accepted
      rw [looking]
      exact ⟨limited, trivial⟩
  | call present changes =>
    obtain ⟨limited, held⟩ := sound.calls _ (List.mem_of_getElem? present)
    exact others present (changes.sound sound limited held _)
  | invalidate present => exact others present trivial
  | joinRefill present registered pending running admits =>
    refine others present ⟨Nat.lt_succ_self _, ?_⟩
    obtain ⟨refill, there, sameKey⟩ := sound.registered _ _ registered
    obtain rfl := Option.some.inj (pending.symm.trans there)
    refine ⟨_, List.getElem?_set_self (List.getElem?_eq_some_iff.mp pending).1,
      (admit_key admits).trans sameKey, fun result completed done => ?_⟩
    rw [show _ = RefillPhase.completed result completed from done] at running
    cases running
  | startRefill present =>
    exact others present ⟨Nat.lt_succ_self _, _, List.getElem?_concat_length, rfl,
      fun _ _ done => nomatch done⟩
  | startSuffix present wanting =>
    obtain ⟨-, held⟩ := sound.calls _ (List.mem_of_getElem? present)
    rw [wanting] at held
    exact others present held
  | _ => exact unchanged

theorem SharedSound.initial (now : Int) : SharedSound computeSize (.initial now) where
  eventual := fun _ _ found => nomatch found
  registered := fun _ _ found => nomatch found
  refills := fun _ member => nomatch member
  calls := fun _ member => nomatch member

theorem sharedSound_reachable {start : Int}
    (reached : Reachable (CacheWorld.step sonyflake config computeSize) anyAction (.initial start)
      world) : SharedSound computeSize world := by
  refine reached.invariant (.initial start) fun before action after sound _ stepped => ?_
  obtain ⟨moved, moves, rfl⟩ := move_of_step stepped
  have eventual := eventual_of_move sound moves
  have registered := registered_of_move sound moves
  have refills := refills_of_move sound moves
  have calls := calls_of_move sound moves
  exact { eventual, registered, refills, calls }

end Preservation

/-! ### Main result -/

theorem snowflakeId_of_restrict {segment kept : SegmentMetadata}
    (restricted : specification.restrict segment = some kept) :
    kept.snowflakeId = segment.snowflakeId := by
  simp only [ReadSpecification.restrict] at restricted
  split at restricted
  · cases restricted
  · cases restricted
    rfl

/-- A projection keeps the order of the rows of a sorted scan. -/
theorem projection_sorted (specification : ReadSpecification) (rows : List SegmentMetadata) :
    (specification.projection (sortSegments rows)).Pairwise fun earlier later =>
      earlier.snowflakeId ≤ later.snowflakeId := by
  have sorted : (sortSegments rows).Pairwise (Sorted.byKey SegmentMetadata.snowflakeId) :=
    List.pairwise_insertionSort _ rows
  refine sorted.filterMap _ fun earlier later ordered first isFirst second isSecond => ?_
  rw [snowflakeId_of_restrict isFirst, snowflakeId_of_restrict isSecond]
  exact ordered

theorem snowflakeIds_of_mapM {segments : List SegmentMetadata} {rows : List BrokerSegmentMetadata}
    (encodes : segments.mapM brokerSegmentMetadata = some rows) :
    rows.map BrokerSegmentMetadata.snowflakeId = segments.map SegmentMetadata.snowflakeId := by
  induction segments generalizing rows with
  | nil =>
    cases encodes
    rfl
  | cons segment rest ih =>
    rw [List.mapM_cons] at encodes
    obtain ⟨row, first, encodes⟩ := Option.bind_eq_some_iff.mp encodes
    obtain ⟨others, later, encodes⟩ := Option.bind_eq_some_iff.mp encodes
    cases encodes
    obtain ⟨metadata, -, rfl⟩ := Option.map_eq_some_iff.mp first
    rw [List.map_cons, List.map_cons, ih later]

/-- A successful read that reuses no sealed prefix, so every eventual one, lists exactly the caller's
projection of the rows of one logged scan of its window. -/
theorem shared_read_equals_one_scan (sonyflake : Sonyflake) (config : MetadataCacheConfig)
    (computeSize : SegmentMetadataV1 → Nat) (start : Int) (world : CacheWorld)
    (reached : Reachable (CacheWorld.step sonyflake config computeSize) anyAction (.initial start)
      world)
    (call : Call) (made : call ∈ world.calls) (success : MetadataReadSuccess) (source : Source)
    (answered : call.phase = .answered (.ok success) source) :
    (call.specification.key.consistency = .eventual → success.retainedStrongCoverage = false)
      ∧ (success.retainedStrongCoverage = false → ∃ scan ∈ world.scans,
        AnswersFrom computeSize call.specification call.limit call.maxItems success source
            world.refills scan
          ∧ success.segments.Pairwise fun earlier later =>
            earlier.snowflakeId ≤ later.snowflakeId) := by
  obtain ⟨-, sound⟩ := (sharedSound_reachable reached).calls call made
  rw [answered] at sound
  refine ⟨sound.1, fun single => ?_⟩
  obtain ⟨scan, logged, answers⟩ := sound.2 single
  refine ⟨scan, logged, answers, ?_⟩
  have ordered := projection_sorted call.specification scan.rows
  rw [← List.pairwise_map (f := SegmentMetadata.snowflakeId) (R := (· ≤ ·)),
    ← snowflakeIds_of_mapM answers.listed, List.pairwise_map] at ordered
  exact ordered

/-! ### A slow scan

The first reader starts a refill whose scan takes ten seconds. The second reader comes 100 ms after the
scan was observed and gets its rows, although the maximum age is 250 ms.
-/

def ordersCache : MetadataCacheConfig where
  sealClockSkew := 10000000
  topics topic := if topic = "orders" then some ⟨2, 1, 60 * nanoseconds, 250000000, 15 * nanoseconds⟩
    else none

def ordersRow (snowflakeId : SnowflakeId) : SegmentMetadata where
  window := ⟨"orders", 0⟩
  snowflakeId := snowflakeId
  blobKey := "segment"
  compression := ⟨.none, none⟩
  segmentIndex := [(0, ⟨⟨1, 2⟩, ⟨0, 8⟩, 8⟩), (1, ⟨⟨4, 4⟩, ⟨8, 12⟩, 4⟩)]
  createdAt := 0
  metadataPublishedAt := 0

def askOrders : CacheAction :=
  .read ⟨"orders", 0, some .eventual, some (.tail [(0, 3)]), 1000, none, none⟩
    ⟨10, 10, 1000, by decide⟩

def slowScan : List CacheAction :=
  [askOrders, .lookup 0, .join 0, .begin 0, .scan 0, .tick (10 * nanoseconds),
    .load 0 [ordersRow 7, ordersRow 2], .install 0, .complete 0, .resume 0,
    .tick (10 * nanoseconds + 100000000), askOrders, .lookup 1]

/-- The second reader of the run, answered from the retained entry. -/
theorem slowScan_outcome :
    (Machine.run (CacheWorld.step tenMillisecondSonyflake ordersCache fun _ => 20) (.initial 0)
      slowScan).map (fun world =>
        (world.calls[1]?.map fun call => (call.specification.key.consistency,
          call.specification.topic.metadataCacheMaxAge, call.phase), world.scans.map Scan.startedAt))
      = some (some (.eventual, 250000000, .answered (.ok
          { observedAtUnixMs := 10000
            refillFloor := some 3
            generation := 1
            retainedCoverage := true
            sealedBefore := none
            sealedAtUnixMs := none
            retainedStrongCoverage := false
            segments := [⟨7, ⟨"segment", 0, 0, some ⟨0, 0⟩, [⟨0, some ⟨1, 2, 0, 8, 8⟩⟩]⟩⟩] })
          (.retained 10100000000)), [0]) := by
  decide +kernel

/-- The world after the slow scan, with the second reader in it. -/
theorem exists_slowScan :
    ∃ world, Reachable (CacheWorld.step tenMillisecondSonyflake ordersCache fun _ => 20) anyAction
        (.initial 0) world
      ∧ world.scans.map Scan.startedAt = [0] ∧ ∃ call ∈ world.calls,
        call.specification.key.consistency = .eventual
          ∧ call.specification.topic.metadataCacheMaxAge = 250000000
          ∧ ∃ success, success.segments.map BrokerSegmentMetadata.snowflakeId = [7]
            ∧ call.phase = .answered (.ok success) (.retained 10100000000) := by
  obtain ⟨world, executed, observed⟩ := Option.map_eq_some_iff.mp slowScan_outcome
  obtain ⟨second, started⟩ := Prod.mk.inj observed
  obtain ⟨call, present, fields⟩ := Option.map_eq_some_iff.mp second
  obtain ⟨eventual, fields⟩ := Prod.mk.inj fields
  obtain ⟨age, answered⟩ := Prod.mk.inj fields
  exact ⟨world, Machine.reachable_of_run (Machine.runAllowed_anyAction _ _ _) executed, started, call,
    List.mem_of_getElem? present, eventual, age, _, rfl, answered⟩

/-- The maximum age is counted from the observation: a retained scan can have started earlier. -/
theorem retained_scan_started_before_age :
    ¬ ∀ world, Reachable (CacheWorld.step tenMillisecondSonyflake ordersCache fun _ => 20) anyAction
        (.initial 0) world → ∀ call ∈ world.calls, ∀ success lookedUpAt,
      call.phase = .answered (.ok success) (.retained lookedUpAt) →
      ∃ scan ∈ world.scans,
        lookedUpAt - call.specification.topic.metadataCacheMaxAge ≤ scan.startedAt := by
  intro recent
  obtain ⟨world, reached, started, call, made, -, age, success, -, answered⟩ := exists_slowScan
  obtain ⟨scan, logged, late⟩ := recent world reached call made success _ answered
  have early := List.mem_map_of_mem (f := Scan.startedAt) logged
  rw [started, List.mem_singleton] at early
  omega

theorem shared_read_equals_one_scan_slow :
    ∃ world, Reachable (CacheWorld.step tenMillisecondSonyflake ordersCache fun _ => 20) anyAction
        (.initial 0) world
      ∧ ∃ call ∈ world.calls, ∃ success, success.segments.map (·.snowflakeId) = [7]
      ∧ ∃ scan ∈ world.scans, AnswersFrom (fun _ => 20) call.specification call.limit call.maxItems
        success (.retained 10100000000) world.refills scan := by
  obtain ⟨world, reached, -, call, made, eventual, -, success, listed, answered⟩ := exists_slowScan
  obtain ⟨notStrong, single⟩ := shared_read_equals_one_scan _ _ _ 0 world reached call made success _
    answered
  obtain ⟨scan, logged, answers, -⟩ := single (notStrong eventual)
  exact ⟨world, reached, call, made, success, listed, scan, logged, answers⟩

end BlobStream.Read
