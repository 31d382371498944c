import BlobStream.Consumer.AssignmentOrder

/-!
# Seeks hold until the next fence

After an accepted seek the reader starts at the target and only moves forward, as long as every
assignment on its way contains a partition that was sought and not fenced since. A seek that the
worker receives after a fence is refused, since the fence is younger than every assignment ahead of it.
-/

namespace BlobStream.Consumer

open Word

/-! ### Queues -/

/-- A command of a queue with others behind it is one of the queue or one of the others. -/
theorem append_split {queue added before after : List ReaderCommand} {command : ReaderCommand}
    (split : queue ++ added = before ++ command :: after) :
    (∃ rest, after = rest ++ added ∧ queue = before ++ command :: rest)
      ∨ ∃ front, before = queue ++ front ∧ added = front ++ command :: after := by
  rcases List.append_eq_append_iff.mp split with ⟨front, rfl, tail⟩ | ⟨shared, rfl, tail⟩
  · exact .inr ⟨front, rfl, tail⟩
  · cases shared with
    | nil => exact .inr ⟨[], by simp, tail.symm⟩
    | cons first rest =>
      obtain ⟨rfl, rfl⟩ := List.cons.inj tail
      exact .inl ⟨rest, rfl, rfl⟩

namespace IteratorWorld

/-- A seek behind `before` and ahead of `after` is either refused, since its partition is fenced and
no assignment ahead of it retires the fence, or the partition stays assigned. -/
def SeekHeld (world : IteratorWorld) (partition : VirtualPartitionId)
    (before after : List ReaderCommand) : Prop :=
  (∃ epoch, world.shared.fence partition = some epoch ∧ ∀ command ∈ before, command.epoch < epoch)
    ∨ world.shared.fence partition = none ∧ world.Secure partition
      ∧ ∀ command ∈ after, command.retains partition

/-- The reader has passed the offset, and the batches that were read of the partition are behind it. -/
def ReadsBehind (world : IteratorWorld) (partition : VirtualPartitionId) (offset : Nat) : Prop :=
  world.worker.reader.AtLeast partition offset
    ∧ (∀ batch ∈ world.worker.pending.batches, batch.virtualPartitionId = partition →
      offset < batch.seqRange.start ∧ batch.seqRange.start ≤ u64Max)
    ∧ ∀ batch ∈ world.shared.deliveryState.held, batch.virtualPartitionId = partition →
      offset < batch.nextOffset ∧ batch.nextOffset ≤ u64Max

/-- The partition stays assigned and everything read of it is behind the offset. -/
structure ReadsAbove (world : IteratorWorld) (partition : VirtualPartitionId) (offset : Nat) :
    Prop where
  unfenced : world.shared.fence partition = none
  secure : world.Secure partition
  commands : ∀ command ∈ world.commands, command.retains partition
  read : world.ReadsBehind partition offset

structure SeeksKept (world : IteratorWorld) : Prop where
  queued : ∀ before partition target now after,
    world.worker.phase.unfinished ++ world.commands = before ++ .seek partition target now :: after →
      world.SeekHeld partition before after
  sending : ∀ partition target now, DriverOp.sendSeek partition target now ∈ world.driver.todo →
    world.shared.fence partition = none ∧ world.Secure partition
  floor : ∀ partition offset, seekFloor partition world.history = some offset →
    world.ReadsAbove partition offset

variable {config : DriverConfig} {before after : IteratorWorld} {partition : VirtualPartitionId}
  {offset : Nat}

theorem Secure.of_driver_eq (secure : before.Secure partition)
    (driver : after.driver = before.driver) : after.Secure partition := by
  obtain ⟨active, pending, todo⟩ := secure
  rw [← driver] at active pending todo
  exact ⟨active, pending, todo⟩

/-! ### Steps that send nothing -/

/-- A command that is left was there before. A queued seek was queued before, with the same behind it
and no epoch newly ahead. -/
structure QueueShrinks (before after : IteratorWorld) : Prop where
  commands : ∀ command ∈ after.commands, command ∈ before.commands
  seeks : ∀ earlier partition target now later,
    after.worker.phase.unfinished ++ after.commands = earlier ++ .seek partition target now :: later →
    ∃ front, before.worker.phase.unfinished ++ before.commands =
        front ++ .seek partition target now :: later
      ∧ ∀ command ∈ earlier, ∃ same ∈ front, same.epoch = command.epoch

theorem QueueShrinks.of_suffix (commands : ∀ command ∈ after.commands, command ∈ before.commands)
    (suffix : after.worker.phase.unfinished ++ after.commands
      <:+ before.worker.phase.unfinished ++ before.commands) : before.QueueShrinks after := by
  refine ⟨commands, fun earlier partition target now later split => ?_⟩
  obtain ⟨dropped, queue⟩ := suffix
  refine ⟨dropped ++ earlier, by rw [← queue, split, List.append_assoc], fun other member => ?_⟩
  exact ⟨other, List.mem_append_right _ member, rfl⟩

theorem QueueShrinks.popped {command : ReaderCommand} (phase : before.worker.phase = .commands)
    (queue : before.commands = command :: after.commands)
    (same : after.worker.phase = before.worker.phase) : before.QueueShrinks after := by
  refine .of_suffix (fun other member => by rw [queue]; exact List.mem_cons_of_mem _ member) ?_
  rw [same, phase, queue]
  exact List.suffix_cons command after.commands

theorem QueueShrinks.kept (commands : after.commands = before.commands)
    (unfinished : after.worker.phase.unfinished = before.worker.phase.unfinished) :
    before.QueueShrinks after :=
  .of_suffix (by simp [commands]) (by simp [commands, unfinished])

theorem ReadsAbove.frame (above : before.ReadsAbove partition offset)
    (driver : after.driver = before.driver)
    (fences : after.shared.readFencedPartitions = before.shared.readFencedPartitions)
    (commands : ∀ command ∈ after.commands, command ∈ before.commands)
    (read : after.ReadsBehind partition offset) : after.ReadsAbove partition offset :=
  ⟨(SharedState.fence_congr fences).trans above.unfenced, above.secure.of_driver_eq driver,
    fun command member => above.commands command (commands command member), read⟩

section Frames

variable (kept : before.SeeksKept) (driver : after.driver = before.driver)
variable (fences : after.shared.readFencedPartitions = before.shared.readFencedPartitions)
variable (queue : before.QueueShrinks after)

include kept driver fences queue

theorem SeeksKept.of_floor (floor : ∀ partition offset,
      seekFloor partition after.history = some offset → after.ReadsAbove partition offset) :
    after.SeeksKept := by
  have fence (partition : VirtualPartitionId) :
      after.shared.fence partition = before.shared.fence partition := SharedState.fence_congr fences
  refine ⟨?_, ?_, floor⟩
  · intro earlier partition target now later split
    obtain ⟨front, known, epochs⟩ := queue.seeks earlier partition target now later split
    rcases kept.queued front partition target now later known
      with ⟨epoch, fenced, older⟩ | ⟨unfenced, secure, retained⟩
    · refine .inl ⟨epoch, (fence partition).trans fenced, fun command member => ?_⟩
      obtain ⟨same, listed, equal⟩ := epochs command member
      rw [← equal]
      exact older same listed
    · exact .inr ⟨(fence partition).trans unfenced, secure.of_driver_eq driver, retained⟩
  · intro partition target now member
    rw [driver] at member
    obtain ⟨unfenced, secure⟩ := kept.sending partition target now member
    exact ⟨(fence partition).trans unfenced, secure.of_driver_eq driver⟩

/-- Steps that accept no seek and retire no fence. -/
theorem SeeksKept.frame (read : ∀ partition offset, before.ReadsAbove partition offset →
      after.ReadsBehind partition offset)
    (history : ∀ partition, seekFloor partition after.history = seekFloor partition before.history) :
    after.SeeksKept := by
  refine kept.of_floor driver fences queue fun partition offset floor => ?_
  rw [history partition] at floor
  have above := kept.floor partition offset floor
  exact above.frame driver fences queue.commands (read partition offset above)

end Frames

/-! ### Application -/

/-- The offset of the next record stays above the floor. -/
theorem advances_above (partition : VirtualPartitionId) (offset : Nat) :
    DeliveryState.Advances (R := ReadRecord) fun other _ next _ =>
      other = partition → offset < next ∧ next ≤ u64Max := by
  intro other _ next _ _ above same
  obtain ⟨first, bound⟩ := above same
  unfold saturatingAdd
  omega

theorem SeeksKept.application (kept : before.SeeksKept)
    (effect : before.ApplicationEffect after) : after.SeeksKept := by
  cases effect with
  | polled delivery active records hands idle =>
    refine kept.frame rfl rfl (.kept rfl rfl) (fun partition offset above => ?_)
      fun partition => seekFloor_append fun event member => ?_
    · obtain ⟨cursor, pending, held⟩ := above.read
      exact ⟨cursor, pending, (hands.held _ (advances_above partition offset) held).1⟩
    · obtain ⟨record, -, rfl⟩ := List.mem_map.mp member
      rfl
  | revoked | acknowledged =>
    exact kept.frame rfl rfl (.kept rfl rfl) (fun _ _ above => above.read) fun _ => rfl
  | stored partition offset shared accepted =>
    obtain ⟨state, checkpoint, source, -, -, -, rfl⟩ := before.shared.storeOffset_eq_ok accepted
    refine kept.frame rfl rfl (.kept rfl rfl) (fun _ _ above => above.read)
      fun other => seekFloor_append fun event member => ?_
    rw [List.mem_singleton.mp member]
    rfl

/-! ### Driver -/

variable {earlier later : List ReaderCommand}

/-- A step of the driver keeps the seeks in the queue: a partition it fences gets an epoch that is
younger than everything sent. -/
theorem SeekHeld.driver (kept : before.SeekHeld partition earlier later)
    (orderly : before.driver.Orderly) (move : before.DriverMove after)
    (fence : after.shared.fence partition = before.shared.fence partition
      ∨ ∃ epoch, after.shared.fence partition = some epoch
        ∧ ∀ command ∈ earlier, command.epoch < epoch) {added : List ReaderCommand}
    (retained : before.Secure partition → ∀ command ∈ added, command.retains partition) :
    after.SeekHeld partition earlier (later ++ added) := by
  rcases fence with same | younger
  · rcases kept with ⟨epoch, fenced, older⟩ | ⟨unfenced, secure, retains⟩
    · exact .inl ⟨epoch, same.trans fenced, older⟩
    · refine .inr ⟨same.trans unfenced, secure.driver orderly move (same.trans unfenced), ?_⟩
      intro command member
      rcases List.mem_append.mp member with old | new
      · exact retains command old
      · exact retained secure command new
  · exact .inl younger

/-- Fences end the floors of the partitions they fence. -/
theorem fence_or_floor {partitions : List VirtualPartitionId} (events : List IteratorEvent)
    (fences : ∀ partition, after.shared.fence partition =
      if partition ∈ partitions then some (before.shared.readEpoch + 1)
      else before.shared.fence partition)
    (history : after.history = events ++ .fenced partitions :: before.history)
    (quiet : ∀ partition, ∀ event ∈ events, event.isolates partition = false) :
    ∀ partition, after.shared.fence partition = before.shared.fence partition
        ∧ seekFloor partition after.history = seekFloor partition before.history
      ∨ after.shared.fence partition = some (before.shared.readEpoch + 1)
        ∧ seekFloor partition after.history = none := by
  intro partition
  rw [fences, history, seekFloor_append (quiet partition)]
  by_cases lost : partition ∈ partitions
  · rw [if_pos lost]
    exact .inr ⟨rfl, by simp [seekFloor, IteratorEvent.isolates, lost]⟩
  · rw [if_neg lost]
    exact .inl ⟨rfl, by simp [seekFloor, IteratorEvent.isolates, lost]⟩

section Driver

variable (kept : before.SeeksKept) (bounded : before.EpochsBounded)
variable (orderly : before.driver.Orderly) (move : before.DriverMove after)

include kept bounded orderly move

/-- Steps of the driver that keep the queue or send a command. -/
theorem SeeksKept.driver_frame (worker : after.worker = before.worker) (added : List ReaderCommand)
    (commands : after.commands = before.commands ++ added)
    (seeks : ∀ partition target now, .seek partition target now ∈ added →
      added = [.seek partition target now] ∧ after.shared.fence partition = none
        ∧ after.Secure partition)
    (retained : ∀ partition, before.Secure partition →
      ∀ command ∈ added, command.retains partition)
    (sending : ∀ partition target now,
      DriverOp.sendSeek partition target now ∈ after.driver.todo →
        after.shared.fence partition = none ∧ after.Secure partition)
    (held : ∀ batch ∈ after.shared.deliveryState.held, batch ∈ before.shared.deliveryState.held)
    (fence : ∀ partition, after.shared.fence partition = before.shared.fence partition
        ∧ seekFloor partition after.history = seekFloor partition before.history
      ∨ after.shared.fence partition = some (before.shared.readEpoch + 1)
        ∧ seekFloor partition after.history = none) : after.SeeksKept := by
  constructor
  · intro earlier partition target now later split
    rw [worker, commands, ← List.append_assoc] at split
    rcases append_split split with ⟨rest, rfl, queue⟩ | ⟨front, -, new⟩
    · refine (kept.queued earlier partition target now rest queue).driver orderly move ?_
        (retained partition)
      refine (fence partition).imp (fun same => same.1) fun new => ⟨_, new.1, fun command member => ?_⟩
      have old : command ∈ before.worker.phase.unfinished ++ before.commands := by
        rw [queue]
        exact List.mem_append_left _ member
      exact Nat.lt_succ_of_le (bounded.commands command old)
    · -- The seek is the command that is sent, and nothing is behind it.
      obtain ⟨only, unfenced, secure⟩ := seeks partition target now (by rw [new]; simp)
      rw [only] at new
      cases front with
      | nil =>
        cases new
        exact .inr ⟨unfenced, secure, nofun⟩
      | cons first front => simp at new
  · exact sending
  · intro partition offset floor
    rcases fence partition with ⟨same, history⟩ | ⟨-, none⟩
    · rw [history] at floor
      have above := kept.floor partition offset floor
      have unfenced := same.trans above.unfenced
      obtain ⟨cursor, pending, old⟩ := above.read
      rw [← worker] at cursor pending
      refine ⟨unfenced, above.secure.driver orderly move unfenced, ?_, cursor, pending,
        fun batch member => old batch (held batch member)⟩
      rw [commands]
      intro command member
      rcases List.mem_append.mp member with old | new
      · exact above.commands command old
      · exact retained partition above.secure command new
    · rw [none] at floor
      cases floor

theorem SeeksKept.driver (revocation : before.RevocationHeld) : after.SeeksKept := by
  -- A seek is a procedure of its own, so it is in no rest.
  have rest_unsent : ∀ {head : DriverOp} {rest : List DriverOp},
      before.driver.todo = head :: rest → ∀ partition target now,
        DriverOp.sendSeek partition target now ∈ rest →
          after.shared.fence partition = none ∧ after.Secure partition := by
    intro head rest todo partition target now member
    cases orderly.not_alone todo _ member
  have silent : ∀ partition, before.shared.fence partition = before.shared.fence partition
        ∧ seekFloor partition before.history = seekFloor partition before.history
      ∨ before.shared.fence partition = some (before.shared.readEpoch + 1)
        ∧ seekFloor partition before.history = none := fun _ => .inl ⟨rfl, rfl⟩
  have unsent (worker : after.worker = before.worker) (commands : after.commands = before.commands) :=
    kept.driver_frame bounded orderly move worker [] (commands.trans (List.append_nil _).symm)
      (by simp) (by simp)
  -- Moves that only replace the driver.
  have moved : ∀ driver : Driver, after = { before with driver } →
      (∀ partition target now, DriverOp.sendSeek partition target now ∈ driver.todo →
        after.shared.fence partition = none ∧ after.Secure partition) → after.SeeksKept := by
    rintro driver rfl sending
    exact unsent rfl rfl sending (fun _ member => member) silent
  have step := move
  cases move with
  | plain shared driver opened commands events fences fence delivery same todo sent logged =>
    refine kept.driver_frame bounded orderly step rfl commands rfl ?_ ?_ ?_ ?_ ?_
    · intro partition target now member
      cases sent _ member
    · intro partition _ command member
      have plain := sent command member
      cases command <;> trivial
    · intro partition target now member
      rcases todo _ member with old | ⟨plain, -⟩
      · cases known : before.driver.todo with
        | nil =>
          rw [known] at old
          cases old
        | cons head rest =>
          rw [known] at old
          exact rest_unsent known partition target now old
      · cases plain
    · exact fun batch member => by rwa [← delivery]
    · intro partition
      refine .inl ⟨SharedState.fence_congr fences, seekFloor_append fun event member => ?_⟩
      obtain ⟨cursor, rfl⟩ := logged event member
      rfl
  | rebalanced driver report now idle settled same todo =>
    refine moved driver rfl fun partition target at_ listed => ?_
    rw [todo] at listed
    rcases Driver.mem_rebalanceOperations listed with same | same | ⟨-, same | same⟩ | same
    all_goals cases same
  | seekBegun partition target now idle active =>
    refine moved _ rfl fun sought goal at_ member => ?_
    cases List.mem_singleton.mp member
  | seekChecked partition target now rest todo unfenced =>
    cases orderly.rest_of_alone todo rfl
    refine moved _ rfl fun other goal at_ member => ?_
    cases List.mem_singleton.mp member
    have free := SharedState.not_mem_fences.mp unfenced
    have active := orderly.seeking partition target now (by rw [todo]; exact List.mem_cons_self)
    refine ⟨free, active, fun assignment saved => ?_, ?_⟩
    · -- A pending revocation keeps every partition it has not fenced.
      rcases revocation.covered assignment (.inl saved) partition active with kept | ⟨epoch, fenced⟩
      · exact kept
      · rw [free] at fenced
        cases fenced
    · intro operation member
      rw [List.mem_singleton.mp member]
      trivial
  | seekSent partition target now rest todo =>
    refine kept.driver_frame bounded orderly step rfl [_] rfl ?_ ?_ (rest_unsent todo)
      (fun _ member => member) silent
    · intro other goal at_ member
      cases List.mem_singleton.mp member
      obtain ⟨unfenced, secure⟩ :=
        kept.sending partition target now (by rw [todo]; exact List.mem_cons_self)
      exact ⟨rfl, unfenced, secure.driver orderly step unfenced⟩
    · intro other _ command member
      rw [List.mem_singleton.mp member]
      trivial
  | revoked revoked next operation rest todo cause =>
    refine unsent rfl rfl ?_ (fun batch member => ?_) (fence_or_floor []
      (before.shared.fence_beginRevocation revoked) (List.nil_append _).symm (by simp))
    · intro partition target now member
      rcases List.mem_cons.mp member with same | member
      · cases same
      · rcases List.mem_cons.mp member with same | member
        · cases same
        · exact rest_unsent todo partition target now member
    · exact ((before.shared.mem_held_beginRevocation).mp member).1
  | saved revoked next rest todo =>
    exact moved _ rfl (rest_unsent todo)
  | releasing driver revoked now idle waiting same todo =>
    refine moved driver rfl fun partition target at_ listed => ?_
    rw [todo] at listed
    cases List.mem_singleton.mp listed
  | released driver revoked now rest head active pending awaiting todo =>
    refine moved driver rfl fun partition target at_ listed => ?_
    rw [todo] at listed
    rcases List.mem_append.mp listed with new | old
    · simp [Driver.applyAssignment] at new
    · exact rest_unsent head partition target at_ old
  | removed fenced rest todo =>
    refine unsent rfl rfl ?_ (fun batch member => ?_) (fence_or_floor [.removed fenced]
      (before.shared.fence_removeFencedPartitions fenced) rfl ?_)
    · intro partition target now member
      rcases List.mem_cons.mp member with same | member
      · cases same
      · exact rest_unsent todo partition target now member
    · exact ((before.shared.mem_held_removeFencedPartitions).mp member).1
    · intro partition event member
      rw [List.mem_singleton.mp member]
      rfl
  | epochRead assignment now release rest todo =>
    refine moved _ rfl fun partition target at_ member => ?_
    rcases List.mem_cons.mp member with same | member
    · cases same
    · exact rest_unsent todo partition target at_ member
  | assignmentSent assignment now release readEpoch rest todo =>
    -- A secure partition is in the assignment that is sent.
    refine kept.driver_frame bounded orderly step rfl [_] rfl ?_ (fun partition secure => ?_)
      (rest_unsent todo) (fun _ member => member) silent
    · intro partition target at_ member
      cases List.mem_singleton.mp member
    · intro command member
      rw [List.mem_singleton.mp member]
      exact secure.todo _ (by rw [todo]; exact List.mem_cons_self)
  | activated assignment rest todo =>
    refine unsent rfl rfl (rest_unsent todo)
      (fun batch member => before.shared.mem_held_applyActiveAssignment member)
      fun partition => .inl ⟨rfl, seekFloor_append fun event member => ?_⟩
    rw [List.mem_singleton.mp member]
    rfl
  | stopped rest todo =>
    constructor
    · intro earlier partition target now later split
      have empty : ([] : List ReaderCommand) = earlier ++ .seek partition target now :: later := split
      simp at empty
    · exact rest_unsent todo
    · intro partition offset floor
      have above := kept.floor partition offset floor
      exact ⟨above.unfenced, above.secure.driver orderly step above.unfenced, by simp, above.read⟩

end Driver

/-! ### Worker -/

theorem atLeast_readerAdvances {reader next : Reader}
    (atLeast : reader.AtLeast partition offset) (advances : readerAdvances reader next = true) :
    next.AtLeast partition offset := by
  obtain ⟨state, cursor, found, current, bound⟩ := atLeast.state
  simp only [readerAdvances, Bool.and_eq_true, List.all_eq_true] at advances
  have kept := advances.2 ⟨partition, state⟩ (AList.mem_lookup_iff.mp found)
  obtain ⟨after, known, moved⟩ := (Option.any_eq_true _ _).mp kept
  simp only [Bool.and_eq_true, current] at moved
  cases reached : after.cursor with
  | none => simp [reached, cursorNotBehind] at moved
  | some position =>
    simp only [reached, cursorNotBehind, decide_eq_true_eq] at moved
    exact Reader.atLeast_of_state known reached (bound.trans moved.2)

theorem SeeksKept.worker (kept : before.SeeksKept)
    (effect : before.WorkerEffect config after) : after.SeeksKept := by
  cases effect with
  | hydrated settings recovered now rest phase queue =>
    refine kept.frame rfl rfl (.popped phase queue rfl) (fun partition offset above => ?_) fun _ => rfl
    obtain ⟨cursor, read⟩ := above.read
    exact ⟨List.foldlRecOn (motive := fun reader : Reader => reader.AtLeast partition offset) recovered
      _ cursor fun _ atLeast _ _ => atLeast.hydrateCursorWithSource, read⟩
  | assigned assignment now release readEpoch rest phase queue =>
    refine kept.frame rfl rfl ⟨?_, ?_⟩ (fun partition offset above => ?_) fun _ => rfl
    · exact fun other member => by rw [queue]; exact List.mem_cons_of_mem _ member
    · intro earlier partition target at_ later split
      cases earlier with
      | nil => cases split
      | cons first earlier =>
        obtain ⟨rfl, tail⟩ := List.cons.inj split
        refine ⟨.setAssignment assignment now release readEpoch :: earlier, ?_, ?_⟩
        · rw [phase, queue]
          exact congrArg (List.cons _) tail
        · intro command member
          rcases List.mem_cons.mp member with rfl | member
          · exact ⟨_, List.mem_cons_self, rfl⟩
          · exact ⟨command, List.mem_cons_of_mem _ member, rfl⟩
    · -- The assignment contains the partition, and nothing fences it.
      have listed : partition ∈ Worker.allowedAssignment before.shared assignment release readEpoch := by
        have named : partition ∈ assignment :=
          above.commands (.setAssignment assignment now release readEpoch)
            (by rw [queue]; exact List.mem_cons_self)
        have unfenced : before.shared.readFencedPartitions.lookup partition = none := above.unfenced
        simp [Worker.allowedAssignment, SharedState.assignmentReadAllowed, named, unfenced]
      obtain ⟨cursor, pending, held⟩ := above.read
      exact ⟨cursor.setAssignedVirtualPartitions listed,
        fun batch member => pending batch (PendingBatches.mem_retain.mp member).1, held⟩
  | suspended partitions readEpoch rest phase queue =>
    refine kept.frame rfl rfl (.popped phase queue rfl) (fun partition offset above => ?_) fun _ => rfl
    obtain ⟨cursor, pending, held⟩ := above.read
    refine ⟨cursor.of_state_eq ((Reader.state_suspendReadPartitions _).trans (if_neg ?_)),
      fun batch member => pending batch (PendingBatches.mem_retain.mp member).1, held⟩
    -- Only fenced partitions are suspended.
    have unfenced : before.shared.readFencedPartitions.lookup partition = none := above.unfenced
    simp [unfenced]
  | refused partition target now rest phase queue =>
    exact kept.frame rfl rfl (.popped phase queue rfl) (fun _ _ above => above.read) fun _ => rfl
  | sought settings partition target now rest shared phase queue accepted =>
    obtain ⟨free, -, rfl⟩ := before.shared.applySeek_eq_ok accepted
    refine kept.of_floor rfl rfl (.popped phase queue rfl) fun other offset floor => ?_
    by_cases same : other = partition
    · -- The seek starts over at its target; the partition is not fenced and stays assigned.
      subst same
      have target_eq : offset = target.offset := by
        simpa [log, seekFloor, IteratorEvent.isolates, eq_comm] using floor
      rw [target_eq]
      rcases kept.queued [] other target now rest (by rw [phase, queue]; rfl)
        with ⟨epoch, fenced, -⟩ | ⟨-, secure, retained⟩
      · rw [free] at fenced
        cases fenced
      · refine ⟨free, secure.of_driver_eq rfl, retained, Reader.atLeast_seek settings target now, ?_, ?_⟩
        · intro batch member isPartition
          obtain ⟨-, kept⟩ := PendingBatches.mem_retain.mp member
          exact absurd isPartition (by simpa using kept)
        · intro batch member isPartition
          obtain ⟨-, kept⟩ := DeliveryState.mem_held_dropPartitions.mp member
          exact absurd isPartition (by simpa using kept)
    · have quiet : ∀ event ∈ [IteratorEvent.sought partition target.offset],
          event.isolates other = false := by
        intro event member
        rw [List.mem_singleton.mp member]
        simpa [IteratorEvent.isolates] using Ne.symm same
      have above := kept.floor other offset ((seekFloor_append quiet).symm.trans floor)
      obtain ⟨cursor, pending, held⟩ := above.read
      refine above.frame rfl rfl (fun command member => ?_)
        ⟨cursor.of_state_eq (Reader.state_seek_of_ne same),
          fun batch member => pending batch (PendingBatches.mem_retain.mp member).1,
          fun batch member => held batch (DeliveryState.mem_held_dropPartitions.mp member).1⟩
      rw [queue]
      exact List.mem_cons_of_mem _ member
  | completed readEpoch release phase =>
    have unfenced : ∀ partition, before.shared.fence partition = none →
        (before.shared.completeReadAssignment readEpoch release).fence partition = none := by
      intro partition free
      rw [Option.eq_none_iff_forall_ne_some]
      intro epoch fenced
      rw [((before.shared.fence_completeReadAssignment ..).mp fenced).1] at free
      cases free
    constructor
    · intro earlier partition target now later split
      have known : before.worker.phase.unfinished ++ before.commands =
          (.setAssignment [] 0 release readEpoch :: earlier) ++ .seek partition target now :: later := by
        rw [phase]
        exact congrArg (List.cons _) split
      rcases kept.queued _ partition target now later known
        with ⟨epoch, fenced, older⟩ | ⟨free, secure, retained⟩
      · -- The assignment is ahead of the seek, so it is older than the fence.
        have newer : readEpoch < epoch := older _ List.mem_cons_self
        exact .inl ⟨epoch,
          (before.shared.fence_completeReadAssignment ..).mpr ⟨fenced, .inl newer⟩,
          fun command member => older command (List.mem_cons_of_mem _ member)⟩
      · exact .inr ⟨unfenced partition free, secure.of_driver_eq rfl, retained⟩
    · intro partition target now member
      obtain ⟨free, secure⟩ := kept.sending partition target now member
      exact ⟨unfenced partition free, secure.of_driver_eq rfl⟩
    · intro partition offset floor
      have above := kept.floor partition offset floor
      exact ⟨unfenced partition above.unfenced, above.secure.of_driver_eq rfl, above.commands,
        above.read⟩
  | idled next running phase unfinished idle =>
    exact kept.frame rfl rfl (.kept rfl (unfinished.trans phase.symm)) (fun _ _ above => above.read)
      fun _ => rfl
  | admitted prefetchMaxBytes next phase unfinished idle =>
    have spec := PendingBatches.admit_spec prefetchMaxBytes before.worker.pending before.shared
    refine kept.frame rfl spec.readFencedPartitions
      (.kept rfl (unfinished.trans (by rw [phase]; rfl))) (fun partition offset above => ?_) fun _ => rfl
    obtain ⟨cursor, pending, held⟩ := above.read
    refine ⟨cursor, fun batch member => pending batch (spec.left batch member), ?_⟩
    intro batch member isPartition
    rcases spec.held batch member with old | ⟨admitted, listed, rfl, -⟩
    · exact held batch old isPartition
    · exact pending admitted listed isPartition
  | began capacity last running phase =>
    refine kept.frame rfl rfl (.kept rfl phase.symm) (fun _ _ above => above.read)
      fun partition => seekFloor_append fun event member => ?_
    rw [List.mem_singleton.mp member]
    rfl
  | failed last running phase =>
    exact kept.frame rfl rfl (.kept rfl phase.symm) (fun _ _ above => above.read) fun _ => rfl
  | finished capacity next batches phase advances readable =>
    refine kept.frame rfl rfl (.kept rfl (by rw [phase]; rfl)) (fun partition offset above => ?_)
      fun _ => rfl
    obtain ⟨cursor, pending, held⟩ := above.read
    refine ⟨atLeast_readerAdvances cursor advances, fun batch member isPartition => ?_, held⟩
    rcases List.mem_append.mp member with old | new
    · exact pending batch old isPartition
    · obtain ⟨emitted, listed, rfl⟩ := List.mem_map.mp (List.mem_filter.mp new).1
      -- A read pass emits only what is behind the cursor.
      have ahead := readable emitted listed
      obtain ⟨state, cursor, found, current, bound⟩ := cursor.state
      simp only [batchReadable, show emitted.virtualPartitionId = partition from isPartition, found,
        Option.any_some, current, Option.all_some, Bool.and_eq_true, decide_eq_true_eq] at ahead
      show offset < emitted.seqRange.start ∧ emitted.seqRange.start ≤ u64Max
      omega

end IteratorWorld

end BlobStream.Consumer
