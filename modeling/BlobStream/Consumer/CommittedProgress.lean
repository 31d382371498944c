import BlobStream.Consumer.OutputIsolation

/-!
# Only delivered and stored progress is committed

A heartbeat or a commit collects the staged offsets under the lock and calls the coordinator with them
later, after the membership heartbeat was answered. Between the two the prefetch worker can accept a
seek, which discards what was delivered and staged; the collected offset is passed on all the same.
-/

namespace BlobStream.Consumer

open Machine GroupMembership

/-! ### Periods -/

/-- The event ends what was delivered and staged of the partition. -/
def IteratorEvent.restarts (partition : VirtualPartitionId) : IteratorEvent → Bool
  | .assigned assignment => decide (partition ∉ assignment)
  | .removed partitions => decide (partition ∈ partitions)
  | .sought target _ => target = partition
  | _ => false

/-- Events since the partition became active or was sought last. -/
def currentPeriod (partition : VirtualPartitionId) (history : List IteratorEvent) :
    List IteratorEvent :=
  history.takeWhile fun event => !event.restarts partition

/-- The offset was delivered with the checkpoint of the metadata row that supplied it. -/
def DeliveredIn (period : List IteratorEvent) (partition : VirtualPartitionId) (offset : Nat)
    (checkpoint : CommittedSourceCheckpoint) : Prop :=
  ∃ record, .delivered record ∈ period ∧ record.virtualPartitionId = partition
    ∧ record.offset = offset ∧ record.sourceCheckpoint = checkpoint

/-- The offset was delivered with the checkpoint and stored. -/
def StoredIn (period : List IteratorEvent) (partition : VirtualPartitionId)
    (commit : PendingCommit) : Prop :=
  DeliveredIn period partition commit.offset commit.sourceCheckpoint
    ∧ .stored partition commit.offset ∈ period

section Period

variable {partition : VirtualPartitionId} {history events : List IteratorEvent}
variable {period later : List IteratorEvent}

theorem DeliveredIn.mono {offset : Nat} {checkpoint : CommittedSourceCheckpoint}
    (delivered : DeliveredIn period partition offset checkpoint)
    (grown : ∀ event ∈ period, event ∈ later) : DeliveredIn later partition offset checkpoint := by
  obtain ⟨record, member, facts⟩ := delivered
  exact ⟨record, grown _ member, facts⟩

theorem StoredIn.mono {commit : PendingCommit} (stored : StoredIn period partition commit)
    (grown : ∀ event ∈ period, event ∈ later) : StoredIn later partition commit :=
  ⟨stored.1.mono grown, grown _ stored.2⟩

end Period

namespace IteratorWorld

/-! ### Invariant -/

/-- Whatever can still be stored of the partition was delivered in its current period, and what is
staged or collected was delivered and stored in it. -/
structure Tracked (world : IteratorWorld) (partition : VirtualPartitionId) : Prop where
  covered : ∀ state, world.shared.activePartitions.lookup partition = some state →
    ∀ offset checkpoint, state.Covers offset checkpoint →
      DeliveredIn (currentPeriod partition world.history) partition offset checkpoint
  staged : ∀ state, world.shared.activePartitions.lookup partition = some state →
    ∀ commit, state.pendingCommit = some commit →
      StoredIn (currentPeriod partition world.history) partition commit
  collected : ∀ operation ∈ world.driver.todo, ∀ commits, unpassed operation = some commits →
    ∀ commit, commits.lookup partition = some commit →
      StoredIn (currentPeriod partition world.history) partition commit

variable {config : DriverConfig} {before after world : IteratorWorld}
  {partition : VirtualPartitionId}

/-- The step goes on with the period of the partition: only delivered offsets become storable, only
storable offsets become staged, the staged offset does not decrease, and nothing else is collected. -/
structure GoesOn (before after : IteratorWorld) (events : List IteratorEvent)
    (partition : VirtualPartitionId) : Prop where
  continues : ∀ event ∈ events, event.restarts partition = false
  covers : ∀ state, after.shared.activePartitions.lookup partition = some state →
    ∀ offset checkpoint, state.Covers offset checkpoint →
      (∃ earlier, before.shared.activePartitions.lookup partition = some earlier
        ∧ earlier.Covers offset checkpoint) ∨ DeliveredIn events partition offset checkpoint
  staged : ∀ state, after.shared.activePartitions.lookup partition = some state →
    ∀ commit, state.pendingCommit = some commit →
      (∃ earlier, before.shared.activePartitions.lookup partition = some earlier
        ∧ earlier.pendingCommit = some commit)
      ∨ .stored partition commit.offset ∈ events
        ∧ ∃ earlier, before.shared.activePartitions.lookup partition = some earlier
          ∧ earlier.Covers commit.offset commit.sourceCheckpoint
  keeps : ∀ earlier, before.shared.activePartitions.lookup partition = some earlier →
    ∀ commit, earlier.pendingCommit = some commit →
      ∃ state later, after.shared.activePartitions.lookup partition = some state
        ∧ state.pendingCommit = some later ∧ commit.offset ≤ later.offset
  collected : ∀ operation ∈ after.driver.todo, ∀ commits, unpassed operation = some commits →
    commits = before.shared.pendingCommits
      ∨ ∃ earlier ∈ before.driver.todo, unpassed earlier = some commits

/-- The step ends the period: nothing is left delivered, staged or collected of the partition. -/
structure Restarts (after : IteratorWorld) (events : List IteratorEvent)
    (partition : VirtualPartitionId) : Prop where
  restarts : ∃ event ∈ events, event.restarts partition = true
  states : ∀ state, after.shared.activePartitions.lookup partition = some state →
    state.deliveredSourceRanges = [] ∧ state.pendingCommit = none
  collected : ∀ operation ∈ after.driver.todo, ∀ commits, unpassed operation = some commits →
    commits.lookup partition = none

variable {events : List IteratorEvent}

theorem Tracked.go_on (tracked : before.Tracked partition)
    (history : after.history = events ++ before.history)
    (goesOn : before.GoesOn after events partition) : after.Tracked partition := by
  have period : currentPeriod partition after.history =
      events ++ currentPeriod partition before.history := by
    rw [history]
    exact List.takeWhile_append_of_pos fun event member => by simp [goesOn.continues event member]
  have grown : ∀ event ∈ currentPeriod partition before.history,
      event ∈ currentPeriod partition after.history := by
    intro event member
    rw [period]
    exact List.mem_append_right _ member
  have new : ∀ event ∈ events, event ∈ currentPeriod partition after.history := by
    intro event member
    rw [period]
    exact List.mem_append_left _ member
  constructor
  · intro state found offset checkpoint covered
    rcases goesOn.covers state found offset checkpoint covered with ⟨earlier, known, old⟩ | fresh
    · exact (tracked.covered earlier known offset checkpoint old).mono grown
    · exact fresh.mono new
  · intro state found commit staged
    rcases goesOn.staged state found commit staged
      with ⟨earlier, known, old⟩ | ⟨stored, earlier, known, covered⟩
    · exact (tracked.staged earlier known commit old).mono grown
    · -- The application stored an offset that was delivered.
      exact ⟨(tracked.covered earlier known _ _ covered).mono grown, new _ stored⟩
  · intro operation member commits holds commit found
    rcases goesOn.collected operation member commits holds with rfl | ⟨earlier, listed, same⟩
    · unfold SharedState.pendingCommits at found
      rw [AList.lookup_filterMapValues, Option.bind_eq_some_iff] at found
      obtain ⟨state, known, staged⟩ := found
      exact (tracked.staged state known commit staged).mono grown
    · exact (tracked.collected earlier listed commits same commit found).mono grown

/-- Nothing is delivered, staged or collected of the partition. -/
theorem tracked_of_fresh
    (states : ∀ state, world.shared.activePartitions.lookup partition = some state →
      state.deliveredSourceRanges = [] ∧ state.pendingCommit = none)
    (collected : ∀ operation ∈ world.driver.todo, ∀ commits, unpassed operation = some commits →
      commits.lookup partition = none) : world.Tracked partition := by
  constructor
  · rintro state found offset checkpoint ⟨range, member, -⟩
    rw [(states state found).1] at member
    cases member
  · intro state found commit staged
    rw [(states state found).2] at staged
    cases staged
  · intro operation member commits holds commit found
    rw [collected operation member commits holds] at found
    cases found

/-- Steps that keep the delivered ranges, or forget some, and the staged offset. -/
theorem GoesOn.of_states (continues : ∀ event ∈ events, event.restarts partition = false)
    (states : ∀ state, after.shared.activePartitions.lookup partition = some state →
      (∃ earlier, before.shared.activePartitions.lookup partition = some earlier
        ∧ (∀ range ∈ state.deliveredSourceRanges, range ∈ earlier.deliveredSourceRanges)
        ∧ state.pendingCommit = earlier.pendingCommit)
      ∨ state.deliveredSourceRanges = [] ∧ state.pendingCommit = none)
    (keeps : ∀ earlier, before.shared.activePartitions.lookup partition = some earlier →
      ∃ state, after.shared.activePartitions.lookup partition = some state
        ∧ state.pendingCommit = earlier.pendingCommit)
    (collected : ∀ operation ∈ after.driver.todo, ∀ commits, unpassed operation = some commits →
      commits = before.shared.pendingCommits
        ∨ ∃ earlier ∈ before.driver.todo, unpassed earlier = some commits) :
    before.GoesOn after events partition where
  continues := continues
  covers := by
    rintro state found offset checkpoint ⟨range, member, facts⟩
    rcases states state found with ⟨earlier, known, ranges, -⟩ | ⟨ranges, -⟩
    · exact .inl ⟨earlier, known, range, ranges range member, facts⟩
    · rw [ranges] at member
      cases member
  staged := by
    intro state found commit staged
    rcases states state found with ⟨earlier, known, -, same⟩ | ⟨-, none⟩
    · exact .inl ⟨earlier, known, by rw [← same, staged]⟩
    · rw [none] at staged
      cases staged
  keeps := by
    intro earlier known commit staged
    obtain ⟨state, found, same⟩ := keeps earlier known
    exact ⟨state, commit, found, by rw [same, staged], Nat.le_refl _⟩
  collected := collected

theorem GoesOn.of_active_eq (continues : ∀ event ∈ events, event.restarts partition = false)
    (active : after.shared.activePartitions = before.shared.activePartitions)
    (collected : ∀ operation ∈ after.driver.todo, ∀ commits, unpassed operation = some commits →
      commits = before.shared.pendingCommits
        ∨ ∃ earlier ∈ before.driver.todo, unpassed earlier = some commits) :
    before.GoesOn after events partition := by
  refine .of_states continues ?_ ?_ collected
  · intro state found
    rw [active] at found
    exact .inl ⟨state, found, fun _ member => member, rfl⟩
  · intro earlier known
    rw [active]
    exact ⟨earlier, known, rfl⟩

/-! ### Steps -/

/-- What a step logs, and what it does to every partition. -/
def PeriodStep (before after : IteratorWorld) : Prop :=
  ∃ events, after.history = events ++ before.history
    ∧ ∀ partition, before.GoesOn after events partition ∨ after.Restarts events partition

theorem collected_of_driver_eq (driver : after.driver = before.driver) :
    ∀ operation ∈ after.driver.todo, ∀ commits, unpassed operation = some commits →
      commits = before.shared.pendingCommits
        ∨ ∃ earlier ∈ before.driver.todo, unpassed earlier = some commits := by
  rw [driver]
  exact fun operation member commits holds => .inr ⟨operation, member, holds⟩

theorem application_period (effect : before.ApplicationEffect after) : before.PeriodStep after := by
  have collected := collected_of_driver_eq effect.driver_eq
  cases effect with
  | polled delivery active records hands idle =>
    refine ⟨records.reverse.map .delivered, rfl, fun partition => .inl ⟨?_, ?_, ?_, ?_, collected⟩⟩
    · intro event member
      obtain ⟨record, -, rfl⟩ := List.mem_map.mp member
      rfl
    · intro state found offset checkpoint covered
      obtain ⟨earlier, known, -, covers⟩ := hands.states partition state found
      rcases covers offset checkpoint covered with old | ⟨handed, member, facts⟩
      · exact .inl ⟨earlier, known, old⟩
      · exact .inr ⟨handed, List.mem_map_of_mem (List.mem_reverse.mpr member), facts⟩
    · intro state found commit staged
      obtain ⟨earlier, known, same, -⟩ := hands.states partition state found
      exact .inl ⟨earlier, known, by rw [← same, staged]⟩
    · intro earlier known commit staged
      have kept := (hands.keys partition).mpr (AList.lookup_isSome.mp (by rw [known]; rfl))
      obtain ⟨state, found⟩ := Option.isSome_iff_exists.mp (AList.lookup_isSome.mpr kept)
      obtain ⟨old, foundOld, same, -⟩ := hands.states partition state found
      rw [known] at foundOld
      cases foundOld
      exact ⟨state, commit, found, by rw [same, staged], Nat.le_refl _⟩
  | revoked | acknowledged =>
    exact ⟨[], rfl, fun partition => .inl (.of_active_eq nofun rfl collected)⟩
  | stored partition offset shared accepted =>
    obtain ⟨state, checkpoint, source, known, covers, notBelow, rfl⟩ :=
      before.shared.storeOffset_eq_ok accepted
    refine ⟨[.stored partition offset], rfl, fun other => .inl ?_⟩
    have quiet : ∀ event ∈ [IteratorEvent.stored partition offset],
        event.restarts other = false := by
      intro event member
      rw [List.mem_singleton.mp member]
      rfl
    by_cases same : other = partition
    · subst same
      have stored : ({ before.shared with
          activePartitions := before.shared.activePartitions.insert other
            { state with pendingCommit := some ⟨offset, checkpoint⟩
                         lastStoredSource := some source } } :
          SharedState ReadRecord).activePartitions.lookup other = some _ :=
        AList.lookup_insert _
      refine ⟨quiet, ?_, ?_, ?_, collected⟩
      · intro next found covered delivered covering
        cases stored.symm.trans found
        exact .inl ⟨state, known, covering⟩
      · intro next found commit staged
        cases stored.symm.trans found
        cases staged
        exact .inr ⟨List.mem_singleton_self _, state, known, covers⟩
      · intro earlier old commit staged
        rw [known] at old
        cases old
        exact ⟨_, _, stored, rfl, notBelow commit staged⟩
    · refine .of_states quiet ?_ ?_ collected
      · intro next found
        exact .inl ⟨next, (AList.lookup_insert_ne same).symm.trans found, fun _ member => member, rfl⟩
      · intro earlier old
        exact ⟨earlier, (AList.lookup_insert_ne same).trans old, rfl⟩

/-- Cursors published for a partition do not change what was delivered or staged of it. -/
theorem lookup_publishCursors {shared : SharedState ReadRecord}
    {recovered : List (VirtualPartitionId × RecoveredCursor)} :
    (∀ state, (shared.publishCursors recovered).activePartitions.lookup partition = some state →
      (∃ earlier, shared.activePartitions.lookup partition = some earlier
        ∧ state.deliveredSourceRanges = earlier.deliveredSourceRanges
        ∧ state.pendingCommit = earlier.pendingCommit)
      ∨ state.deliveredSourceRanges = [] ∧ state.pendingCommit = none)
    ∧ ∀ earlier, shared.activePartitions.lookup partition = some earlier →
      ∃ state, (shared.publishCursors recovered).activePartitions.lookup partition = some state
        ∧ state.pendingCommit = earlier.pendingCommit := by
  unfold SharedState.publishCursors
  dsimp only
  generalize shared.activePartitions = active
  induction recovered generalizing active with
  | nil =>
    exact ⟨fun state found => .inl ⟨state, found, rfl, rfl⟩, fun earlier known => ⟨earlier, known, rfl⟩⟩
  | cons entry rest ih =>
    obtain ⟨back, forth⟩ := ih (active.insert entry.1
      { (active.lookup entry.1).getD {} with
        deliveryGapBaseline := ((active.lookup entry.1).getD {}).deliveryGapBaseline.or
          (some entry.2.committedCursor.seqEnd) })
    by_cases same : partition = entry.1
    · subst same
      constructor
      · intro state found
        rcases back state found with ⟨middle, known, ranges, staged⟩ | fresh
        · cases (AList.lookup_insert _).symm.trans known
          cases old : active.lookup entry.1 with
          | none =>
            simp only [old, Option.getD_none] at ranges staged
            exact .inr ⟨ranges, staged⟩
          | some earlier =>
            simp only [old, Option.getD_some] at ranges staged
            exact .inl ⟨earlier, rfl, ranges, staged⟩
        · exact .inr fresh
      · intro earlier known
        obtain ⟨state, found, staged⟩ := forth _ (AList.lookup_insert _)
        refine ⟨state, found, ?_⟩
        simpa [known] using staged
    · rw [AList.lookup_insert_ne same] at back forth
      exact ⟨back, forth⟩

theorem driver_period (first : before.CollectsFirst) (effect : before.DriverEffect after) :
    before.PeriodStep after := by
  -- What is left of a procedure holds nothing.
  have rest_empty : ∀ {head : DriverOp} {rest : List DriverOp}, before.driver.todo = head :: rest →
      ∀ operation ∈ rest, unpassed operation = none := by
    intro head rest todo operation member
    exact first operation (by rw [todo]; exact member)
  have nothing : ∀ {todo : List DriverOp}, (∀ operation ∈ todo, unpassed operation = none) →
      ∀ operation ∈ todo, ∀ commits, unpassed operation = some commits →
        commits = before.shared.pendingCommits
          ∨ ∃ earlier ∈ before.driver.todo, unpassed earlier = some commits := by
    intro todo empty operation member commits holds
    rw [empty operation member] at holds
    cases holds
  cases effect with
  | moved driver opened events passes todo head =>
    refine ⟨events, rfl, fun partition => .inl (.of_active_eq ?_ rfl ?_)⟩
    · intro event member
      obtain ⟨operation, -, commits, other, commit, -, -, rfl⟩ := passes event member
      rfl
    · intro operation member commits holds
      rcases todo operation member with old | prepared
      · exact .inr ⟨operation, old, holds⟩
      · exact prepared.2 commits holds
  | sent command operation rest todo epoch head | stopped rest todo =>
    exact ⟨[], rfl, fun partition => .inl (.of_active_eq nofun rfl (nothing (rest_empty todo)))⟩
  | recorded renewed commits rest todo =>
    refine ⟨[], rfl, fun partition => .inl (.of_states nofun ?_ ?_ (nothing (rest_empty todo)))⟩
    · intro state found
      have mapped := (AList.lookup_mapValues _ before.shared.activePartitions partition).symm.trans found
      obtain ⟨earlier, known, rfl⟩ := Option.map_eq_some_iff.mp mapped
      refine .inl ⟨earlier, known, ?_, ?_⟩
      · intro range member
        split at member
        · split at member
          · exact (List.mem_filter.mp member).1
          · exact member
        · exact member
      · split
        · split <;> rfl
        · rfl
    · intro earlier known
      refine ⟨_, (AList.lookup_mapValues _ before.shared.activePartitions partition).trans
        (by rw [known]; rfl), ?_⟩
      split
      · split <;> rfl
      · rfl
  | published recovered now rest todo =>
    refine ⟨[], rfl, fun partition => .inl (.of_states nofun ?_ ?_ (nothing (rest_empty todo)))⟩
    · intro state found
      rcases lookup_publishCursors.1 state found with ⟨earlier, known, ranges, staged⟩ | fresh
      · exact .inl ⟨earlier, known, fun range member => by rwa [← ranges], staged⟩
      · exact .inr fresh
    · exact lookup_publishCursors.2
  | revoked revoked next operation rest todo head =>
    refine ⟨[.fenced revoked], rfl, fun partition => .inl (.of_active_eq ?_ rfl (nothing ?_))⟩
    · intro event member
      rw [List.mem_singleton.mp member]
      rfl
    · intro other member
      rcases List.mem_cons.mp member with rfl | member
      · rfl
      · rcases List.mem_cons.mp member with rfl | member
        · rfl
        · exact rest_empty todo other member
  | removed fenced rest todo =>
    have empty : ∀ operation ∈ DriverOp.sendSuspend fenced
        (before.shared.removeFencedPartitions fenced).readEpoch :: rest, unpassed operation = none := by
      intro other member
      rcases List.mem_cons.mp member with rfl | member
      · rfl
      · exact rest_empty todo other member
    refine ⟨[.removed fenced, .fenced fenced], rfl, fun partition => ?_⟩
    have kept := AList.lookup_retain (· ∉ fenced) before.shared.activePartitions partition
    by_cases lost : partition ∈ fenced
    · refine .inr ⟨⟨.removed fenced, by simp, by simpa [IteratorEvent.restarts] using lost⟩, ?_, ?_⟩
      · intro state found
        rw [if_neg (by simpa using lost)] at kept
        cases kept.symm.trans found
      · intro operation member commits holds
        rw [empty operation member] at holds
        cases holds
    · rw [if_pos (by simpa using lost)] at kept
      refine .inl (.of_states ?_ ?_ ?_ (nothing empty))
      · intro event member
        simp only [List.mem_cons, List.not_mem_nil, or_false] at member
        rcases member with rfl | rfl
        · simpa [IteratorEvent.restarts] using lost
        · rfl
      · intro state found
        exact .inl ⟨state, kept.symm.trans found, fun _ member => member, rfl⟩
      · exact fun earlier known => ⟨earlier, kept.trans known, rfl⟩
  | activated assignment rest todo =>
    refine ⟨[.assigned assignment], rfl, fun partition => ?_⟩
    have kept := AList.lookup_retain (· ∈ assignment) before.shared.activePartitions partition
    have filled := AList.lookup_orInsertAll assignment ({} : ActivePartitionState)
      (before.shared.activePartitions.retain (· ∈ assignment)) partition
    by_cases listed : partition ∈ assignment
    · rw [if_pos (by simpa using listed)] at kept
      rw [if_pos listed, kept] at filled
      refine .inl (.of_states ?_ ?_ ?_ (nothing (rest_empty todo)))
      · intro event member
        rw [List.mem_singleton.mp member]
        simpa [IteratorEvent.restarts] using listed
      · intro state found
        cases Option.some.inj (filled.symm.trans found)
        cases old : before.shared.activePartitions.lookup partition with
        | none => exact .inr ⟨rfl, rfl⟩
        | some earlier => exact .inl ⟨earlier, rfl, fun _ member => member, rfl⟩
      · intro earlier known
        rw [known] at filled
        exact ⟨earlier, filled, rfl⟩
    · rw [if_neg (by simpa using listed)] at kept
      rw [if_neg listed, kept] at filled
      refine .inr ⟨⟨_, List.mem_singleton_self _, by simpa [IteratorEvent.restarts] using listed⟩,
        ?_, ?_⟩
      · intro state found
        cases filled.symm.trans found
      · intro operation member commits holds
        rw [rest_empty todo operation member] at holds
        cases holds

/-- The driver collected a staged offset of the partition and did not pass it on yet. -/
def holdsCollected (world : IteratorWorld) (partition : VirtualPartitionId) : Bool :=
  world.driver.todo.any fun operation =>
    (unpassed operation).any fun commits => (commits.lookup partition).isSome

/-- The step applies no seek of a partition whose staged offset was collected and not passed on. -/
def seekSettled (world : IteratorWorld) : Action → Prop
  | .worker (.command _) =>
    match world.commands with
    | .seek partition _ _ :: _ => world.holdsCollected partition = false
    | _ => True
  | _ => True

instance (world : IteratorWorld) (action : Action) : Decidable (world.seekSettled action) := by
  unfold seekSettled
  split
  · split <;> infer_instance
  · infer_instance

theorem worker_period {action : WorkerAction} (meets : before.seekSettled (.worker action))
    (stepped : before.workerStep config action = some after) : before.PeriodStep after := by
  have effect := workerStep_effect stepped
  have collected := collected_of_driver_eq effect.driver_eq
  cases effect with
  | hydrated | assigned | suspended | refused | completed | idled | failed | finished =>
    exact ⟨[], rfl, fun partition => .inl (.of_active_eq nofun rfl collected)⟩
  | admitted prefetchMaxBytes next phase unfinished idle =>
    have spec := PendingBatches.admit_spec prefetchMaxBytes before.worker.pending before.shared
    exact ⟨[], rfl, fun partition => .inl (.of_active_eq nofun spec.activePartitions collected)⟩
  | began capacity last running phase =>
    refine ⟨[.readBegan (before.passes + 1)], rfl,
      fun partition => .inl (.of_active_eq ?_ rfl collected)⟩
    intro event member
    rw [List.mem_singleton.mp member]
    rfl
  | sought settings partition target now rest shared phase queue accepted =>
    obtain ⟨-, -, rfl⟩ := before.shared.applySeek_eq_ok accepted
    refine ⟨[.sought partition target.offset], rfl, fun other => ?_⟩
    by_cases same : other = partition
    · -- A seek starts over, and nothing of the partition waits to be passed on.
      subst same
      have settled : before.holdsCollected other = false := by
        cases action with
        | command settings => simpa [seekSettled, queue] using meets
        | completeAssignment | commandsDone | admitPending | beginRead | finishRead | failRead =>
          simp [workerStep, phase, queue] at stepped
      refine .inr ⟨⟨_, List.mem_singleton_self _, by simp [IteratorEvent.restarts]⟩, ?_, ?_⟩
      · intro state found
        cases (AList.lookup_insert _).symm.trans found
        exact ⟨rfl, rfl⟩
      · intro operation member commits holds
        simp only [holdsCollected, List.any_eq_false] at settled
        simpa [holds] using settled operation member
    · refine .inl (.of_states ?_ ?_ ?_ collected)
      · intro event member
        rw [List.mem_singleton.mp member]
        simpa [IteratorEvent.restarts] using Ne.symm same
      · intro state found
        exact .inl ⟨state, (AList.lookup_insert_ne same).symm.trans found, fun _ member => member,
          rfl⟩
      · exact fun earlier known => ⟨earlier, (AList.lookup_insert_ne same).trans known, rfl⟩

/-! ### Runs -/

structure ProgressKept (world : IteratorWorld) : Prop where
  first : world.CollectsFirst
  tracked : ∀ partition, world.Tracked partition

variable {action : Action}

theorem period_step (first : before.CollectsFirst)
    (meets : before.seekSettled action) (stepped : before.step config action = some after) :
    before.PeriodStep after := by
  cases action with
  | application action => exact application_period (applicationStep_effect stepped)
  | driver action => exact driver_period first (driverStep_step stepped).effect
  | worker action => exact worker_period meets stepped

theorem collectsFirst_step (first : before.CollectsFirst)
    (stepped : before.step config action = some after) : after.CollectsFirst := by
  cases action with
  | application action =>
    unfold CollectsFirst
    rw [(applicationStep_effect stepped).driver_eq]
    exact first
  | driver action => exact (driverStep_step stepped).first first
  | worker action =>
    unfold CollectsFirst
    rw [(workerStep_effect stepped).driver_eq]
    exact first

theorem ProgressKept.step (kept : before.ProgressKept)
    (meets : before.seekSettled action) (stepped : before.step config action = some after) :
    after.ProgressKept := by
  refine ⟨collectsFirst_step kept.first stepped, fun partition => ?_⟩
  obtain ⟨events, history, partitions⟩ := period_step kept.first meets stepped
  rcases partitions partition with goesOn | restarted
  · exact (kept.tracked partition).go_on history goesOn
  · exact tracked_of_fresh restarted.states restarted.collected

theorem progressKept_bootstrap (config : DriverConfig) (plan : Option ConsumerGroupAssignmentPlan)
    (outcomes : List ClaimOutcome) (settings : ReadSettings) (now : Int) :
    (bootstrap config plan outcomes settings now).ProgressKept := by
  refine ⟨nofun, fun partition => tracked_of_fresh ?_ nofun⟩
  intro state found
  unfold bootstrap SharedState.applyActiveAssignment at found
  dsimp only at found
  generalize ((({} : Coordinator).accept plan).finishRebalance config.memberId
    (desiredAssignment plan) outcomes).2 = report at found
  rw [AList.lookup_orInsertAll, AList.lookup_retain] at found
  have published : ∀ earlier, (({} : SharedState ReadRecord).publishCursors
      report.recoveredCursors).activePartitions.lookup partition = some earlier →
      earlier.deliveredSourceRanges = [] ∧ earlier.pendingCommit = none := by
    intro earlier known
    rcases lookup_publishCursors.1 earlier known with ⟨start, none, -⟩ | fresh
    · cases none
    · exact fresh
  split at found
  next listed =>
    rw [if_pos (by simpa using listed)] at found
    cases known : (({} : SharedState ReadRecord).publishCursors
      report.recoveredCursors).activePartitions.lookup partition with
    | none =>
      rw [known] at found
      cases found
      exact ⟨rfl, rfl⟩
    | some earlier =>
      rw [known] at found
      cases found
      exact published _ known
  next other =>
    rw [if_neg (by simpa using other)] at found
    cases found

/-! ### Passing cursors on -/

/-- Only the driver passes cursors on, and only those it collected. -/
theorem passesHeld_of_passed (stepped : before.step config action = some after)
    (history : after.history = events ++ before.history) {cursor : CommittedCursor}
    (member : .passed cursor ∈ events) : before.PassesHeld (.passed cursor) := by
  -- Other steps log other events.
  have other : (∃ others, after.history = others ++ before.history
      ∧ .passed cursor ∉ others) → before.PassesHeld (.passed cursor) := by
    rintro ⟨others, logged, none⟩
    rw [history] at logged
    rw [List.append_cancel_right logged] at member
    exact absurd member none
  cases action with
  | application action =>
    refine other ?_
    cases applicationStep_effect stepped with
    | polled delivery active records hands idle =>
      exact ⟨records.reverse.map .delivered, rfl, by simp⟩
    | revoked | acknowledged => exact ⟨[], rfl, nofun⟩
    | stored partition offset => exact ⟨[.stored partition offset], rfl, by simp⟩
  | driver action =>
    cases (driverStep_step stepped).effect with
    | moved driver opened logged passes todo head =>
      rw [← List.append_cancel_right history] at member
      exact passes _ member
    | sent | recorded | published | stopped => exact other ⟨[], rfl, nofun⟩
    | revoked revoked => exact other ⟨[.fenced revoked], rfl, by simp⟩
    | removed fenced => exact other ⟨[.removed fenced, .fenced fenced], rfl, by simp⟩
    | activated assignment => exact other ⟨[.assigned assignment], rfl, by simp⟩
  | worker action =>
    refine other ?_
    cases workerStep_effect stepped with
    | hydrated | assigned | suspended | refused | completed | idled | admitted | failed
    | finished => exact ⟨[], rfl, nofun⟩
    | sought settings partition target => exact ⟨[.sought partition target.offset], rfl, by simp⟩
    | began => exact ⟨[.readBegan (before.passes + 1)], rfl, by simp⟩

def stagedCommit (world : IteratorWorld) (partition : VirtualPartitionId) : Option PendingCommit :=
  (world.shared.activePartitions.lookup partition).bind ActivePartitionState.pendingCommit

/-- Within a period the staged offset does not decrease. -/
theorem stagedCommit_of_reachable (kept : before.ProgressKept)
    (reached : Reachable (step config) seekSettled before after) :
    after.ProgressKept ∧ ∃ events, after.history = events ++ before.history
      ∧ ∀ partition, (∀ event ∈ events, event.restarts partition = false) →
        ∀ commit, before.stagedCommit partition = some commit →
          ∃ later, after.stagedCommit partition = some later ∧ commit.offset ≤ later.offset := by
  induction reached with
  | refl =>
    exact ⟨kept, [], rfl, fun partition _ commit staged => ⟨commit, staged, Nat.le_refl _⟩⟩
  | @tail middle last action _ meets stepped ih =>
    obtain ⟨keptMiddle, events, history, monotone⟩ := ih
    obtain ⟨added, grown, partitions⟩ := period_step keptMiddle.first meets stepped
    refine ⟨keptMiddle.step meets stepped, added ++ events, ?_, ?_⟩
    · rw [grown, history, List.append_assoc]
    · intro partition continues commit staged
      obtain ⟨between, stagedBetween, bound⟩ := monotone partition
        (fun event member => continues event (List.mem_append_right _ member)) commit staged
      obtain ⟨state, known, pending⟩ := Option.bind_eq_some_iff.mp stagedBetween
      rcases partitions partition with goesOn | restarted
      · obtain ⟨next, later, found, pendingLater, notBelow⟩ :=
          goesOn.keeps state known between pending
        exact ⟨later, Option.bind_eq_some_iff.mpr ⟨next, found, pendingLater⟩,
          bound.trans notBelow⟩
      · obtain ⟨event, member, restarts⟩ := restarted.restarts
        rw [continues event (List.mem_append_left _ member)] at restarts
        cases restarts

/-- If no seek of a partition is applied between the collection of its staged offset and the call of
the coordinator, every cursor the coordinator is called with was delivered in the current period of
its partition with the checkpoint of its row and stored by the application, and the staged offset does
not decrease within a period. -/
theorem passed_cursor_stored (config : DriverConfig) (plan : Option ConsumerGroupAssignmentPlan)
    (outcomes : List ClaimOutcome) (settings : ReadSettings) (now : Int) (world : IteratorWorld)
    (reached : Reachable (step config) seekSettled (bootstrap config plan outcomes settings now)
      world) :
    (∀ action after, world.step config action = some after →
      ∀ events, after.history = events ++ world.history →
        ∀ cursor, .passed cursor ∈ events →
          ∃ checkpoint, cursor.sourceCheckpoint = some checkpoint
            ∧ StoredIn (currentPeriod cursor.virtualPartitionId world.history)
              cursor.virtualPartitionId ⟨cursor.seqEnd, checkpoint⟩)
      ∧ ∀ later events, Reachable (step config) seekSettled world later →
        later.history = events ++ world.history →
          ∀ partition, (∀ event ∈ events, event.restarts partition = false) →
            ∀ commit, world.stagedCommit partition = some commit →
              ∃ next, later.stagedCommit partition = some next ∧ commit.offset ≤ next.offset := by
  have kept : world.ProgressKept := by
    induction reached with
    | refl => exact progressKept_bootstrap config plan outcomes settings now
    | tail _ meets stepped kept => exact kept.step meets stepped
  constructor
  · intro action after stepped events history cursor member
    obtain ⟨operation, listed, commits, partition, commit, holds, found, same⟩ :=
      passesHeld_of_passed stepped history member
    cases same
    exact ⟨commit.sourceCheckpoint, rfl,
      (kept.tracked partition).collected operation listed commits holds commit found⟩
  · intro later events reachedLater history partition continues commit staged
    obtain ⟨-, logged, grown, monotone⟩ := stagedCommit_of_reachable kept reachedLater
    rw [history] at grown
    rw [List.append_cancel_right grown] at continues
    exact monotone partition continues commit staged

/-! ### A seek between collection and call -/

section Overtaken

def storedFour : List Action := [.application .next, .application (.storeOffset 0 4)]

def collecting : List Action := [.driver (.heartbeat .scheduled 0), .driver (.proceed 0)]

def sentSeek : List Action := .driver (.seek 0 ⟨3, 0, none⟩ 0) :: proceedTimes 2

/-- The worker's pass fails, and it applies the command that arrived. -/
def appliesCommand : List Action :=
  [.worker (.beginRead 100), .worker (.failRead none false), .worker (.command {})]

/-- Offset 4 is read, and the actions follow up to the answer of the membership heartbeat. -/
def heartbeatAfter (actions : List Action) : Option IteratorWorld :=
  (readAfter 4 []).bind fun world =>
    run (step oneSecondLeases) world (actions ++ [.driver (.membershipAnswered true)])

/-- What the driver calls the coordinator with, and the period of partition 0 at that time. -/
def passedAfter (actions : List Action) : Option (Bool × List IteratorEvent) :=
  (heartbeatAfter actions).bind fun world =>
    (world.step oneSecondLeases (.driver (.proceed 0))).map fun after =>
      (decide (after.history = .passed ⟨0, 4, some ⟨0, 7⟩⟩ :: world.history),
        currentPeriod 0 world.history)

theorem exists_passed (actions : List Action) (period : List IteratorEvent)
    (observed : passedAfter actions = some (true, period)) :
    ∃ world after, heartbeatAfter actions = some world
      ∧ world.step oneSecondLeases (.driver (.proceed 0)) = some after
      ∧ after.history = [.passed ⟨0, 4, some ⟨0, 7⟩⟩] ++ world.history
      ∧ currentPeriod 0 world.history = period := by
  obtain ⟨world, executed, passed⟩ := Option.bind_eq_some_iff.mp observed
  obtain ⟨after, stepped, facts⟩ := Option.map_eq_some_iff.mp passed
  obtain ⟨history, same⟩ := Prod.mk.inj facts
  exact ⟨world, after, executed, stepped, of_decide_eq_true history, same⟩

/-- The application seeks back to offset 3 and the worker accepts the seek after a heartbeat collected
the staged offset 4: the coordinator is called with offset 4 although nothing was delivered since. -/
theorem passed_cursor_before_seek :
    ¬∀ (config : DriverConfig) (plan : Option ConsumerGroupAssignmentPlan)
        (outcomes : List ClaimOutcome) (settings : ReadSettings) (now : Int) (world : IteratorWorld),
      Reachable (step config) anyAction (bootstrap config plan outcomes settings now) world →
        ∀ action after, world.step config action = some after →
          ∀ events, after.history = events ++ world.history →
            ∀ cursor, .passed cursor ∈ events →
              ∃ checkpoint, cursor.sourceCheckpoint = some checkpoint
                ∧ StoredIn (currentPeriod cursor.virtualPartitionId world.history)
                  cursor.virtualPartitionId ⟨cursor.seqEnd, checkpoint⟩ := by
  intro claimed
  obtain ⟨world, after, executed, stepped, history, period⟩ :=
    exists_passed (storedFour ++ sentSeek ++ collecting ++ appliesCommand) [] (by decide +kernel)
  obtain ⟨middle, first, second⟩ := Option.bind_eq_some_iff.mp executed
  have reached := (reachable_readAfter first).trans
    (reachable_of_run (runAllowed_anyAction _ _ _) second)
  obtain ⟨checkpoint, -, -, stored⟩ := claimed oneSecondLeases (some soloPlan) claimedAtThree {} 0
    world reached _ after stepped _ history _ List.mem_cons_self
  rw [period] at stored
  cases stored

/-- Actions without commands meet the condition in every state. -/
theorem runAllowed_of_no_command {actions : List Action}
    (none : ∀ action ∈ actions, ∀ settings, action ≠ .worker (.command settings)) :
    RunAllowed (step config) seekSettled world actions := by
  induction actions generalizing world with
  | nil => trivial
  | cons action rest ih =>
    refine ⟨?_, ?_⟩
    · unfold seekSettled
      split
      next settings => exact absurd rfl (none _ List.mem_cons_self settings)
      next => trivial
    · split
      · trivial
      · exact ih fun other member => none other (List.mem_cons_of_mem _ member)

/-- Without the seek the cursor was delivered and stored. -/
theorem passed_cursor_stored_four :
    ∃ world after : IteratorWorld,
      Reachable (step oneSecondLeases) seekSettled claimedIterator world
      ∧ after.history = [.passed ⟨0, 4, some ⟨0, 7⟩⟩] ++ world.history
      ∧ ∃ checkpoint, some (⟨0, 7⟩ : CommittedSourceCheckpoint) = some checkpoint
        ∧ StoredIn (currentPeriod 0 world.history) 0 ⟨4, checkpoint⟩ := by
  obtain ⟨world, after, executed, stepped, history, -⟩ :=
    exists_passed (storedFour ++ collecting)
      [.stored 0 4, .delivered (firstRead 4), .readBegan 1, .assigned [0]] (by decide +kernel)
  obtain ⟨middle, first, second⟩ := Option.bind_eq_some_iff.mp executed
  obtain ⟨idle, third, fourth⟩ := Option.bind_eq_some_iff.mp first
  have reached := ((reachable_of_run (runAllowed_of_no_command (by simp [idleWorker])) third).trans
    (reachable_of_run (runAllowed_of_no_command (by simp [readOne])) fourth)).trans
    (reachable_of_run (runAllowed_of_no_command (by simp [storedFour, collecting])) second)
  exact ⟨world, after, reached, history, (passed_cursor_stored oneSecondLeases (some soloPlan)
    claimedAtThree {} 0 world reached).1 _ after stepped _ history _ List.mem_cons_self⟩

end Overtaken

end IteratorWorld

end BlobStream.Consumer
