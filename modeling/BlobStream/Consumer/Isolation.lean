import BlobStream.Consumer.DriverMoves

/-!
# Fences and seeks isolate old output

A fence empties the queue under the same lock, but batches the worker holds back and passes in flight
are discarded later: by the suspension sent after the fence, or by an older assignment that arrives
before it. Until then the fence stays, since younger assignments are sent after the suspension.
-/

namespace BlobStream.Consumer

open Word

/-! ### What the history says -/

/-- The event separates earlier output of the partition from later output. -/
def IteratorEvent.isolates (partition : VirtualPartitionId) : IteratorEvent → Bool
  | .fenced partitions => decide (partition ∈ partitions)
  | .sought target _ => target = partition
  | _ => false

/-- Events after the last fence or seek of the partition. -/
def sinceIsolation (partition : VirtualPartitionId) (history : List IteratorEvent) :
    List IteratorEvent :=
  history.takeWhile fun event => !event.isolates partition

/-- The offset of the last seek, if the partition was not fenced since. -/
def seekFloor (partition : VirtualPartitionId) (history : List IteratorEvent) : Option Nat :=
  match history.find? (·.isolates partition) with
  | some (.sought _ offset) => some offset
  | _ => none

/-- The pass was started after the last fence or seek of the partition. -/
def ReadSince (partition : VirtualPartitionId) (history : List IteratorEvent) (pass : Nat) : Prop :=
  .readBegan pass ∈ sinceIsolation partition history

section History

variable {partition : VirtualPartitionId} {history events : List IteratorEvent} {pass : Nat}

theorem sinceIsolation_append (quiet : ∀ event ∈ events, event.isolates partition = false) :
    sinceIsolation partition (events ++ history) = events ++ sinceIsolation partition history := by
  unfold sinceIsolation
  induction events with
  | nil => rfl
  | cons event rest ih =>
    have first := quiet event List.mem_cons_self
    rw [List.cons_append, List.takeWhile_cons_of_pos (by simp [first]),
      ih fun other member => quiet other (List.mem_cons_of_mem _ member), List.cons_append]

theorem seekFloor_append (quiet : ∀ event ∈ events, event.isolates partition = false) :
    seekFloor partition (events ++ history) = seekFloor partition history := by
  unfold seekFloor
  rw [List.find?_append, List.find?_eq_none.mpr, Option.none_or]
  intro event member
  simp [quiet event member]

theorem ReadSince.append (since : ReadSince partition history pass)
    (quiet : ∀ event ∈ events, event.isolates partition = false) :
    ReadSince partition (events ++ history) pass := by
  unfold ReadSince
  rw [sinceIsolation_append quiet]
  exact List.mem_append_right _ since

theorem readSince_began : ReadSince partition (.readBegan pass :: history) pass := by
  simp [ReadSince, sinceIsolation, IteratorEvent.isolates]

end History

/-! ### Commands on their way -/

/-- The suspension of a fence arrives before every assignment that retires it. -/
def SuspendsAhead (partition : VirtualPartitionId) (epoch : ReadEpoch) : List ReaderCommand → Prop
  | [] => False
  | .suspendReadPartitions partitions readEpoch :: rest =>
    partition ∈ partitions ∧ readEpoch = epoch ∨ SuspendsAhead partition epoch rest
  | .setAssignment _ _ _ readEpoch :: rest => readEpoch < epoch ∧ SuspendsAhead partition epoch rest
  | .hydrateCursors .. :: rest | .seek .. :: rest => SuspendsAhead partition epoch rest

section Pipeline

variable {partition : VirtualPartitionId} {epoch : ReadEpoch} {commands : List ReaderCommand}

theorem SuspendsAhead.append (ahead : SuspendsAhead partition epoch commands)
    (later : List ReaderCommand) : SuspendsAhead partition epoch (commands ++ later) := by
  induction commands with
  | nil => exact ahead.elim
  | cons command rest ih =>
    cases command with
    | hydrateCursors | seek => exact ih ahead
    | setAssignment => exact ⟨ahead.1, ih ahead.2⟩
    | suspendReadPartitions =>
      rcases ahead with now | later
      · exact .inl now
      · exact .inr (ih later)

/-- A new fence is younger than everything on its way. -/
theorem suspendsAhead_new {partitions : List VirtualPartitionId} (listed : partition ∈ partitions)
    (older : ∀ command ∈ commands, command.epoch < epoch) :
    SuspendsAhead partition epoch (commands ++ [.suspendReadPartitions partitions epoch]) := by
  induction commands with
  | nil => exact .inl ⟨listed, rfl⟩
  | cons command rest ih =>
    have later := ih fun other member => older other (List.mem_cons_of_mem _ member)
    have first := older command List.mem_cons_self
    cases command with
    | hydrateCursors | seek => exact later
    | setAssignment => exact ⟨first, later⟩
    | suspendReadPartitions => exact .inr later

end Pipeline

namespace IteratorWorld

/-! ### Epochs -/

/-- No epoch is ahead of the counter. -/
structure EpochsBounded (world : IteratorWorld) : Prop where
  fences : ∀ partition epoch, world.shared.fence partition = some epoch →
    epoch ≤ world.shared.readEpoch
  delivery : ∀ epoch, world.shared.deliveryFenceEpoch = some epoch → epoch ≤ world.shared.readEpoch
  commands : ∀ command ∈ world.worker.phase.unfinished ++ world.commands,
    command.epoch ≤ world.shared.readEpoch
  todo : ∀ operation ∈ world.driver.todo, operation.epoch ≤ world.shared.readEpoch

variable {config : DriverConfig} {before after : IteratorWorld}

section

variable (bounded : before.EpochsBounded)

include bounded

theorem EpochsBounded.application (effect : before.ApplicationEffect after) :
    after.EpochsBounded := by
  cases effect with
  | polled | revoked | acknowledged =>
    exact ⟨bounded.fences, bounded.delivery, bounded.commands, bounded.todo⟩
  | stored partition offset shared accepted =>
    obtain ⟨state, checkpoint, source, -, -, -, rfl⟩ := before.shared.storeOffset_eq_ok accepted
    exact ⟨bounded.fences, bounded.delivery, bounded.commands, bounded.todo⟩

/-- New fences carry the new epoch. -/
theorem fence_le (partitions : List VirtualPartitionId) :
    ∀ partition epoch, (before.shared.fenceReads partitions).fence partition = some epoch →
      epoch ≤ before.shared.readEpoch + 1 := by
  intro partition epoch fenced
  rw [SharedState.fence_fenceReads] at fenced
  split at fenced
  · exact (Option.some.inj fenced).ge
  · exact Nat.le_succ_of_le (bounded.fences partition epoch fenced)

theorem EpochsBounded.driver (effect : before.DriverEffect after) : after.EpochsBounded := by
  have tail : ∀ {operation : DriverOp} {rest : List DriverOp},
      before.driver.todo = operation :: rest →
      operation.epoch ≤ before.shared.readEpoch ∧ ∀ other ∈ rest, other.epoch ≤ before.shared.readEpoch := by
    intro operation rest todo
    have all := bounded.todo
    rw [todo] at all
    exact ⟨all operation List.mem_cons_self, fun other member => all other (List.mem_cons_of_mem _ member)⟩
  cases effect with
  | moved driver opened events passes todo head =>
    refine ⟨bounded.fences, bounded.delivery, bounded.commands, fun operation member => ?_⟩
    rcases todo operation member with old | new
    · exact bounded.todo operation old
    · exact new.1
  | sent command operation rest todo epoch head =>
    refine ⟨bounded.fences, bounded.delivery, fun other member => ?_, (tail todo).2⟩
    rw [send, ← List.append_assoc, List.mem_append, List.mem_singleton] at member
    rcases member with old | rfl
    · exact bounded.commands other old
    · exact epoch.trans (tail todo).1
  | recorded renewed commits rest todo | published recovered now rest todo
  | activated assignment rest todo =>
    exact ⟨bounded.fences, bounded.delivery, bounded.commands, (tail todo).2⟩
  | revoked revoked next operation rest todo head =>
    refine ⟨fun partition epoch fenced => ?_, fun epoch fenced => ?_, fun command member => ?_,
      fun other member => ?_⟩
    · exact (fence_le bounded revoked) partition epoch fenced
    · exact (Option.some.inj fenced).ge
    · exact Nat.le_succ_of_le (bounded.commands command member)
    · rcases List.mem_cons.mp member with rfl | member
      · exact Nat.le_refl _
      rcases List.mem_cons.mp member with rfl | later
      · exact Nat.zero_le _
      · exact Nat.le_succ_of_le ((tail todo).2 other later)
  | removed fenced rest todo =>
    refine ⟨fun partition epoch known => ?_, fun epoch known => ?_, fun command member => ?_,
      fun other member => ?_⟩
    · exact (fence_le bounded fenced) partition epoch known
    · exact Nat.le_succ_of_le (bounded.delivery epoch known)
    · exact Nat.le_succ_of_le (bounded.commands command member)
    · rcases List.mem_cons.mp member with rfl | later
      · exact Nat.le_refl _
      · exact Nat.le_succ_of_le ((tail todo).2 other later)
  | stopped rest todo =>
    exact ⟨bounded.fences, bounded.delivery, by simp [WorkerPhase.unfinished], (tail todo).2⟩

theorem EpochsBounded.worker (effect : before.WorkerEffect config after) : after.EpochsBounded := by
  have commands : ∀ command ∈ after.worker.phase.unfinished ++ after.commands,
      command.epoch ≤ before.shared.readEpoch := by
    intro command member
    obtain ⟨earlier, queued, same, -⟩ := effect.queued command member
    exact same ▸ bounded.commands earlier queued
  cases effect with
  | hydrated | assigned | suspended | refused | idled | began | failed | finished =>
    exact ⟨bounded.fences, bounded.delivery, commands, bounded.todo⟩
  | sought settings partition target now rest shared phase queue accepted =>
    obtain ⟨-, -, rfl⟩ := before.shared.applySeek_eq_ok accepted
    exact ⟨bounded.fences, bounded.delivery, commands, bounded.todo⟩
  | completed readEpoch release phase =>
    refine ⟨fun partition epoch fenced => ?_, fun epoch fenced => ?_, commands, bounded.todo⟩
    · rw [SharedState.fence_completeReadAssignment] at fenced
      exact bounded.fences partition epoch fenced.1
    · simp only [SharedState.completeReadAssignment] at fenced
      split at fenced
      · cases fenced
      · exact bounded.delivery epoch fenced
  | admitted prefetchMaxBytes next phase unfinished idle =>
    have spec := PendingBatches.admit_spec prefetchMaxBytes before.worker.pending before.shared
    refine ⟨?_, ?_, ?_, ?_⟩
    · simpa only [SharedState.fence, spec.readFencedPartitions, spec.readEpoch] using bounded.fences
    · simpa only [spec.deliveryFenceEpoch, spec.readEpoch] using bounded.delivery
    · simpa only [spec.readEpoch] using commands
    · simpa only [spec.readEpoch] using bounded.todo

theorem EpochsBounded.step {action : Action} (stepped : before.step config action = some after) :
    after.EpochsBounded := by
  cases action with
  | application action => exact bounded.application (applicationStep_effect stepped)
  | driver action => exact bounded.driver (driverStep_step stepped).effect
  | worker action => exact bounded.worker (workerStep_effect stepped)

end

/-! ### Separation of old and new output -/

/-- The fence of the partition is still to be followed by its suspension. -/
def Suspending (world : IteratorWorld) (partition : VirtualPartitionId) : Prop :=
  ∃ epoch, world.shared.fence partition = some epoch
    ∧ SuspendsAhead partition epoch world.pipeline

/-- Everything the worker holds of the partition, or is reading, is new. -/
structure Clean (world : IteratorWorld) (partition : VirtualPartitionId) : Prop where
  pending : ∀ batch ∈ world.worker.pending.batches, batch.virtualPartitionId = partition →
    ∀ read ∈ batch.records, ReadSince partition world.history read.pass
  reading : ∀ capacity, world.worker.phase = .reading capacity →
    ReadSince partition world.history world.passes

/-- Old output is in no queue of the application, and where the worker still has some, the partition
is fenced and will be suspended. -/
structure Separated (world : IteratorWorld) : Prop where
  delivered : ∀ batch ∈ world.shared.deliveryState.held, ∀ read ∈ batch.records,
    ReadSince batch.virtualPartitionId world.history read.pass
  waiting : world.worker.phase ≠ .stopped →
    ∀ partition, world.Suspending partition ∨ world.Clean partition

variable {events : List IteratorEvent}

/-- Steps that fence nothing and leave the worker alone. -/
theorem Separated.frame (separated : before.Separated)
    (delivered : ∀ batch ∈ after.shared.deliveryState.held, ∀ read ∈ batch.records,
      ReadSince batch.virtualPartitionId before.history read.pass)
    (fences : after.shared.readFencedPartitions = before.shared.readFencedPartitions)
    (worker : after.worker = before.worker) (passes : after.passes = before.passes)
    (pipeline : before.pipeline <+: after.pipeline)
    (history : after.history = events ++ before.history)
    (quiet : ∀ partition, ∀ event ∈ events, event.isolates partition = false) :
    after.Separated where
  delivered batch member read listed := by
    rw [history]
    exact (delivered batch member read listed).append (quiet _)
  waiting running partition := by
    rw [worker] at running
    rcases separated.waiting running partition with ⟨epoch, fenced, ahead⟩ | ⟨pending, reading⟩
    · refine .inl ⟨epoch, ?_, ?_⟩
      · unfold SharedState.fence at fenced ⊢
        rw [fences]
        exact fenced
      · obtain ⟨later, grown⟩ := pipeline
        rw [← grown]
        exact ahead.append later
    · refine .inr ⟨fun batch member same read listed => ?_, fun capacity phase => ?_⟩
      · rw [worker] at member
        rw [history]
        exact (pending batch member same read listed).append (quiet _)
      · rw [worker] at phase
        rw [history, passes]
        exact (reading capacity phase).append (quiet _)

theorem Separated.application (separated : before.Separated)
    (effect : before.ApplicationEffect after) : after.Separated := by
  have same : before.pipeline <+: before.pipeline := List.prefix_refl _
  cases effect with
  | polled delivery active records hands idle =>
    obtain ⟨held, -⟩ := hands.held
      (fun partition _ _ records => ∀ read ∈ records, ReadSince partition before.history read.pass)
      (fun _ _ _ _ _ all read member => all read (List.mem_cons_of_mem _ member))
      separated.delivered
    refine separated.frame held rfl rfl rfl same rfl fun partition event member => ?_
    obtain ⟨record, -, rfl⟩ := List.mem_map.mp member
    rfl
  | revoked | acknowledged =>
    exact separated.frame separated.delivered rfl rfl rfl same (List.nil_append _).symm (by simp)
  | stored partition offset shared accepted =>
    obtain ⟨state, checkpoint, source, -, -, -, rfl⟩ := before.shared.storeOffset_eq_ok accepted
    refine separated.frame separated.delivered rfl rfl rfl same rfl fun other event member => ?_
    rw [List.mem_singleton.mp member]
    rfl

/-- A fence empties the queue and is followed by a suspension that overtakes no assignment. -/
theorem Separated.fence (separated : before.Separated) (bounded : before.EpochsBounded)
    {partitions : List VirtualPartitionId}
    (held : ∀ batch ∈ after.shared.deliveryState.held,
      batch ∈ before.shared.deliveryState.held ∧ batch.virtualPartitionId ∉ partitions)
    (fences : ∀ partition, after.shared.fence partition =
      if partition ∈ partitions then some (before.shared.readEpoch + 1)
      else before.shared.fence partition) (worker : after.worker = before.worker)
    (passes : after.passes = before.passes) (head : suspendNext before.driver.todo = [])
    (pipeline : after.pipeline = before.pipeline
      ++ [.suspendReadPartitions partitions (before.shared.readEpoch + 1)])
    (history : after.history = events ++ before.history)
    (quiet : ∀ partition, partition ∉ partitions →
      ∀ event ∈ events, event.isolates partition = false) :
    after.Separated where
  delivered batch member read listed := by
    obtain ⟨old, kept⟩ := held batch member
    rw [history]
    exact (separated.delivered batch old read listed).append (quiet _ kept)
  waiting running partition := by
    rw [worker] at running
    by_cases fenced : partition ∈ partitions
    · -- The suspension is behind everything on its way, and all of that is older.
      refine .inl ⟨before.shared.readEpoch + 1, by rw [fences, if_pos fenced], ?_⟩
      rw [pipeline]
      refine suspendsAhead_new fenced fun command member => Nat.lt_succ_of_le ?_
      apply bounded.commands command
      rwa [IteratorWorld.pipeline, head, List.append_nil] at member
    · rcases separated.waiting running partition with ⟨epoch, known, ahead⟩ | ⟨pending, reading⟩
      · refine .inl ⟨epoch, by rw [fences, if_neg fenced]; exact known, ?_⟩
        rw [pipeline]
        exact ahead.append _
      · refine .inr ⟨fun batch member same read listed => ?_, fun capacity phase => ?_⟩
        · rw [worker] at member
          rw [history]
          exact (pending batch member same read listed).append (quiet _ fenced)
        · rw [worker] at phase
          rw [history, passes]
          exact (reading capacity phase).append (quiet _ fenced)

section

variable (head : suspendNext before.driver.todo = []) (worker : after.worker = before.worker)
variable (commands : after.commands = before.commands)

include head worker commands

/-- Without a suspension at its head, the rest of a procedure only adds to the pipeline. -/
theorem pipeline_of_head : after.pipeline = before.pipeline ++ suspendNext after.driver.todo := by
  unfold pipeline
  rw [worker, commands, head, List.append_nil]

theorem prefix_pipeline : before.pipeline <+: after.pipeline :=
  ⟨_, (pipeline_of_head head worker commands).symm⟩

end

theorem Separated.driver (separated : before.Separated) (bounded : before.EpochsBounded)
    (effect : before.DriverEffect after) : after.Separated := by
  cases effect with
  | moved driver opened events passes todo head =>
    refine separated.frame separated.delivered rfl rfl rfl (prefix_pipeline head rfl rfl) rfl
      fun partition event member => ?_
    obtain ⟨operation, -, commits, other, commit, -, -, rfl⟩ := passes event member
    rfl
  | sent command operation rest todo epoch head =>
    refine separated.frame separated.delivered rfl rfl rfl ?_ (List.nil_append _).symm (by simp)
    rcases head with none | this
    · exact ⟨command :: suspendNext rest, by simp [pipeline, send, withTodo, none]⟩
    · exact ⟨suspendNext rest, by simp [pipeline, send, withTodo, this]⟩
  | recorded renewed commits rest todo | published recovered now rest todo =>
    exact separated.frame separated.delivered rfl rfl rfl
      (prefix_pipeline (by rw [todo]; rfl) rfl rfl) (List.nil_append _).symm (by simp)
  | revoked revoked next operation rest todo head =>
    refine separated.fence bounded (fun batch member => ?_)
      (before.shared.fence_beginRevocation revoked) rfl rfl head
      (pipeline_of_head head rfl rfl) rfl fun partition kept event member => ?_
    · exact (before.shared.mem_held_beginRevocation).mp member
    · rw [List.mem_singleton.mp member]
      simpa [IteratorEvent.isolates] using kept
  | removed fenced rest todo =>
    have head : suspendNext before.driver.todo = [] := by rw [todo]; rfl
    refine separated.fence bounded (fun batch member => ?_)
      (before.shared.fence_removeFencedPartitions fenced) rfl rfl head
      (pipeline_of_head head rfl rfl) rfl fun partition kept event member => ?_
    · exact (before.shared.mem_held_removeFencedPartitions).mp member
    · simp only [List.mem_cons, List.not_mem_nil, or_false] at member
      rcases member with rfl | rfl
      · rfl
      · simpa [IteratorEvent.isolates] using kept
  | activated assignment rest todo =>
    refine separated.frame (fun batch member => ?_) rfl rfl rfl
      (prefix_pipeline (by rw [todo]; rfl) rfl rfl) rfl fun partition event member => ?_
    · exact separated.delivered batch (before.shared.mem_held_applyActiveAssignment member)
    · rw [List.mem_singleton.mp member]
      rfl
  | stopped rest todo => exact ⟨separated.delivered, fun running => absurd rfl running⟩

/-- Steps of the worker that isolate nothing: what is suspended later stays so, and what is clean
stays clean. -/
theorem Separated.worker_frame (separated : before.Separated)
    (delivered : ∀ batch ∈ after.shared.deliveryState.held, ∀ read ∈ batch.records,
      ReadSince batch.virtualPartitionId before.history read.pass)
    (history : after.history = before.history)
    (running : before.worker.phase ≠ .stopped)
    (suspending : ∀ partition epoch, before.shared.fence partition = some epoch →
      SuspendsAhead partition epoch before.pipeline →
        after.Suspending partition ∨ after.Clean partition)
    (clean : ∀ partition, before.Clean partition → after.Clean partition) : after.Separated where
  delivered batch member read listed := by
    rw [history]
    exact delivered batch member read listed
  waiting _ partition := by
    rcases separated.waiting running partition with ⟨epoch, fenced, ahead⟩ | isClean
    · exact suspending partition epoch fenced ahead
    · exact .inr (clean partition isClean)

/-- Outside a read pass only the pending batches count. -/
theorem Clean.of_pending {partition : VirtualPartitionId}
    (pending : ∀ batch ∈ after.worker.pending.batches, batch.virtualPartitionId = partition →
      ∀ read ∈ batch.records, ReadSince partition after.history read.pass)
    (idle : ∀ capacity, after.worker.phase ≠ .reading capacity) : after.Clean partition :=
  ⟨pending, fun capacity phase => absurd phase (idle capacity)⟩

theorem Separated.worker (separated : before.Separated)
    (effect : before.WorkerEffect config after) : after.Separated := by
  cases effect with
  | hydrated settings recovered now rest phase queue =>
    refine separated.worker_frame separated.delivered rfl (by simp [phase])
      (fun partition epoch fenced ahead => .inl ⟨epoch, fenced, ?_⟩)
      (fun partition clean => ⟨clean.pending, clean.reading⟩)
    simpa [pipeline, queue, phase, WorkerPhase.unfinished, SuspendsAhead, Worker.hydrateCursors]
      using ahead
  | assigned assignment now release readEpoch rest phase queue =>
    refine separated.worker_frame separated.delivered rfl (by simp [phase])
      (fun partition epoch fenced ahead => .inl ⟨epoch, fenced, ?_⟩)
      (fun partition clean => .of_pending (fun batch member => ?_) (by rintro _ ⟨⟩))
    · simpa [pipeline, queue, phase, WorkerPhase.unfinished, SuspendsAhead, Worker.setAssignment]
        using ahead
    · exact clean.pending batch (PendingBatches.mem_retain.mp member).1
  | suspended partitions readEpoch rest phase queue =>
    refine separated.worker_frame separated.delivered rfl (by simp [phase])
      (fun partition epoch fenced ahead => ?_)
      (fun partition clean => .of_pending (fun batch member => ?_)
        (by simp [Worker.suspendReadPartitions, phase]))
    · simp only [pipeline, queue, phase, WorkerPhase.unfinished, List.nil_append, List.cons_append,
        SuspendsAhead] at ahead
      rcases ahead with ⟨listed, rfl⟩ | later
      · -- The suspension of the fence has arrived.
        refine .inr (.of_pending (fun batch member same => ?_)
          (by simp [Worker.suspendReadPartitions, phase]))
        obtain ⟨-, kept⟩ := PendingBatches.mem_retain.mp member
        rw [same] at kept
        simp only [List.mem_filter, decide_eq_true_eq, not_and] at kept
        exact absurd fenced (kept listed)
      · refine .inl ⟨epoch, fenced, ?_⟩
        simpa [pipeline, phase, WorkerPhase.unfinished, Worker.suspendReadPartitions] using later
    · exact clean.pending batch (PendingBatches.mem_retain.mp member).1
  | refused partition target now rest phase queue =>
    refine separated.worker_frame separated.delivered rfl (by simp [phase])
      (fun partition epoch fenced ahead => .inl ⟨epoch, fenced, ?_⟩)
      (fun partition clean => ⟨clean.pending, clean.reading⟩)
    simpa [pipeline, queue, phase, WorkerPhase.unfinished, SuspendsAhead] using ahead
  | sought settings partition target now rest shared phase queue accepted =>
    obtain ⟨-, -, rfl⟩ := before.shared.applySeek_eq_ok accepted
    have quiet : ∀ other, other ≠ partition →
        ∀ event ∈ [IteratorEvent.sought partition target.offset], event.isolates other = false := by
      intro other different event member
      rw [List.mem_singleton.mp member]
      simpa [IteratorEvent.isolates] using Ne.symm different
    have idle : ∀ capacity, before.worker.phase ≠ .reading capacity := by
      simp [phase]
    refine ⟨fun batch member read listed => ?_, fun _ other => ?_⟩
    · obtain ⟨old, kept⟩ := DeliveryState.mem_held_dropPartitions.mp member
      have different : batch.virtualPartitionId ≠ partition := by simpa using kept
      exact (separated.delivered batch old read listed).append (quiet _ different)
    · by_cases same : other = partition
      · refine .inr (.of_pending (fun batch member isOther => ?_) idle)
        obtain ⟨-, kept⟩ := PendingBatches.mem_retain.mp member
        exact absurd (isOther.trans same) (by simpa using kept)
      · rcases separated.waiting (by simp [phase]) other with ⟨epoch, fenced, ahead⟩ | clean
        · refine .inl ⟨epoch, fenced, ?_⟩
          simpa [pipeline, queue, phase, WorkerPhase.unfinished, SuspendsAhead, log, Worker.seek]
            using ahead
        · refine .inr (.of_pending (fun batch member isOther read listed => ?_) idle)
          have old := (PendingBatches.mem_retain.mp member).1
          exact (clean.pending batch old isOther read listed).append (quiet other same)
  | completed readEpoch release phase =>
    refine separated.worker_frame separated.delivered rfl (by simp [phase])
      (fun partition epoch fenced ahead => .inl ⟨epoch, ?_, ?_⟩)
      (fun partition clean => .of_pending clean.pending (by rintro _ ⟨⟩))
    · simp only [pipeline, phase, WorkerPhase.unfinished, List.cons_append, SuspendsAhead] at ahead
      exact (before.shared.fence_completeReadAssignment _ _ _ _).mpr ⟨fenced, .inl ahead.1⟩
    · simp only [pipeline, phase, WorkerPhase.unfinished, List.cons_append, SuspendsAhead] at ahead
      exact ahead.2
  | idled next running phase unfinished idle =>
    refine separated.worker_frame separated.delivered rfl running
      (fun partition epoch fenced ahead => .inl ⟨epoch, fenced, ?_⟩)
      (fun partition clean => .of_pending clean.pending idle)
    simpa [pipeline, phase, unfinished, withWorker] using ahead
  | admitted prefetchMaxBytes next phase unfinished idle =>
    have spec := PendingBatches.admit_spec prefetchMaxBytes before.worker.pending before.shared
    have running : before.worker.phase ≠ .stopped := by simp [phase]
    refine separated.worker_frame (fun batch member => ?_) rfl running
      (fun partition epoch fenced ahead => .inl ⟨epoch, ?_, ?_⟩)
      (fun partition clean => .of_pending (fun batch member => ?_) idle)
    · rcases spec.held batch member with old | ⟨admitted, listed, rfl, allowed⟩
      · exact separated.delivered batch old
      · -- Only partitions without a fence are admitted, and what the worker holds of them is new.
        simp only [SharedState.readAllowed, Bool.and_eq_true, decide_eq_true_eq] at allowed
        have unfenced := SharedState.not_mem_fences.mp allowed.2
        rcases separated.waiting running admitted.virtualPartitionId
          with ⟨epoch, fenced, -⟩ | clean
        · rw [unfenced] at fenced
          cases fenced
        · exact clean.pending admitted listed rfl
    · unfold SharedState.fence at fenced ⊢
      rw [spec.readFencedPartitions]
      exact fenced
    · rw [pipeline, phase] at ahead
      rw [pipeline, unfinished]
      exact ahead
    · exact clean.pending batch (spec.left batch member)
  | began capacity last running phase =>
    have quiet : ∀ partition, ∀ event ∈ [IteratorEvent.readBegan (before.passes + 1)],
        event.isolates partition = false := by
      intro partition event member
      rw [List.mem_singleton.mp member]
      rfl
    refine ⟨fun batch member read listed => ?_, fun _ partition => ?_⟩
    · exact (separated.delivered batch member read listed).append (quiet _)
    · rcases separated.waiting running partition with ⟨epoch, fenced, ahead⟩ | clean
      · refine .inl ⟨epoch, fenced, ?_⟩
        rw [pipeline, phase] at ahead
        exact ahead
      · exact .inr ⟨fun batch member same read listed =>
          (clean.pending batch member same read listed).append (quiet _), fun _ _ => readSince_began⟩
  | failed last running phase =>
    refine separated.worker_frame separated.delivered rfl running
      (fun partition epoch fenced ahead => .inl ⟨epoch, fenced, ?_⟩)
      (fun partition clean => .of_pending clean.pending (by rintro _ ⟨⟩))
    rw [pipeline, phase] at ahead
    exact ahead
  | finished capacity next batches phase advances readable =>
    refine separated.worker_frame separated.delivered rfl (by simp [phase])
      (fun partition epoch fenced ahead => .inl ⟨epoch, fenced, ?_⟩)
      (fun partition clean => .of_pending (fun batch member same => ?_) (by rintro _ ⟨⟩))
    · rw [pipeline, phase] at ahead
      exact ahead
    · rcases List.mem_append.mp member with old | new
      · exact clean.pending batch old same
      · -- The pass itself was started after the last fence or seek.
        obtain ⟨emitted, -, rfl⟩ := List.mem_map.mp (List.mem_filter.mp new).1
        intro read listed
        obtain ⟨record, -, rfl⟩ := List.mem_map.mp listed
        exact clean.reading capacity phase

end IteratorWorld

end BlobStream.Consumer
