import BlobStream.Consumer.Isolation

/-!
# What the driver goes on with

The driver drops a partition from its assignment only after fencing it, and whatever it assigns later
contains every active partition without a fence. While a revocation is pending this rests on the
fences staying in place: no assignment on its way is young enough to retire them.
-/

namespace BlobStream.Consumer

/-! ### What the driver is about to assign -/

/-- The operation is a procedure of its own. -/
def DriverOp.alone : DriverOp → Bool
  | .release .. | .checkSeek .. | .sendSeek .. => true
  | _ => false

/-- The operation neither assigns, seeks, releases nor starts a revocation. -/
def DriverOp.quiet : DriverOp → Bool
  | .readEpoch .. | .sendAssignment .. | .activate _ | .release .. | .checkSeek .. | .sendSeek ..
  | .revoke .. => false
  | _ => true

variable {operation : DriverOp}

theorem DriverOp.quiet_of_plain (plain : operation.plain = true) :
    operation.quiet = true := by
  cases operation <;> first | rfl | cases plain

theorem DriverOp.assigns_of_quiet (quiet : operation.quiet = true) :
    operation.assigns = false := by
  cases operation <;> first | rfl | cases quiet

theorem DriverOp.alone_of_quiet (quiet : operation.quiet = true) :
    operation.alone = false := by
  cases operation <;> first | rfl | cases quiet

theorem DriverOp.alone_of_assigns (assigns : operation.assigns = true) :
    operation.alone = false := by
  cases operation <;> first | rfl | cases assigns

theorem DriverOp.ofAssignment_of_assigns
    (assigns : operation.assigns = true) : operation.ofAssignment = true := by
  cases operation <;> first | rfl | cases assigns

/-- Whatever the operation assigns or saves contains the partition. -/
def DriverOp.keeps (partition : VirtualPartitionId) : DriverOp → Prop
  | .readEpoch assignment .. | .sendAssignment assignment .. | .activate assignment
  | .saveRevocation _ assignment => partition ∈ assignment
  | .revoke revoked next => partition ∈ revoked ∨ partition ∈ next
  | _ => True

theorem DriverOp.keeps_of_plain (plain : operation.plain = true)
    (partition : VirtualPartitionId) : operation.keeps partition := by
  cases operation <;> trivial

/-- An assignment contains the partition. -/
def ReaderCommand.retains (partition : VirtualPartitionId) : ReaderCommand → Prop
  | .setAssignment assignment .. => partition ∈ assignment
  | _ => True

theorem ReaderCommand.epoch_of_assignment {command : ReaderCommand} {epoch : ReadEpoch}
    (assigns : command.assignmentEpoch = some epoch) : command.epoch = epoch := by
  cases command <;> first | exact Option.some.inj assigns | cases assigns

/-- Procedures that assign partitions run without a pending revocation and do nothing else; seeks and
releases are procedures of their own. -/
structure Driver.Orderly (driver : Driver) : Prop where
  paired : driver.awaitingAcknowledgement = driver.pendingAssignment.isSome
  assigning : ∀ operation ∈ driver.todo, operation.assigns = true →
    driver.pendingAssignment = none ∧ ∀ other ∈ driver.todo, other.ofAssignment = true
  alone : ∀ operation ∈ driver.todo, operation.alone = true → driver.todo = [operation]
  releasing : ∀ revoked now, DriverOp.release revoked now ∈ driver.todo →
    driver.pendingAssignment.isSome = true
  seeking : ∀ partition target now, DriverOp.checkSeek partition target now ∈ driver.todo →
    partition ∈ driver.activeAssignment
  revoking : ∀ revoked next, DriverOp.revoke revoked next ∈ driver.todo →
    ∀ partition ∈ driver.activeAssignment, partition ∈ revoked ∨ partition ∈ next

section Orderly

variable {driver : Driver} {head : DriverOp} {rest : List DriverOp}

theorem Driver.Orderly.paired_of {next : Driver} (orderly : driver.Orderly)
    (same : driver.KeepsAssignments next) :
    next.awaitingAcknowledgement = next.pendingAssignment.isSome := by
  rw [same.awaiting, same.pending]
  exact orderly.paired

section

variable (orderly : driver.Orderly) (todo : driver.todo = head :: rest)

include orderly todo

/-- Nothing is left of a seek or a release. -/
theorem Driver.Orderly.rest_of_alone (alone : head.alone = true) : rest = [] := by
  have only := orderly.alone head (by rw [todo]; exact List.mem_cons_self) alone
  rw [todo] at only
  exact (List.cons.inj only).2

/-- Seeks and releases follow no other operation. -/
theorem Driver.Orderly.not_alone : ∀ operation ∈ rest, operation.alone = false := by
  intro operation later
  by_contra alone
  have only := orderly.alone operation (by rw [todo]; exact List.mem_cons_of_mem _ later)
    (by simpa using alone)
  rw [todo] at only
  rw [(List.cons.inj only).2] at later
  cases later

/-- A procedure goes on with its rest, with quiet operations, or from one assignment operation to the
next. -/
theorem Driver.Orderly.go_on {next : Driver}
    (paired : next.awaitingAcknowledgement = next.pendingAssignment.isSome)
    (pending : head.ofAssignment = true → driver.pendingAssignment = none →
      next.pendingAssignment = none)
    (active : head.assigns = true
      ∨ ∀ partition ∈ next.activeAssignment, partition ∈ driver.activeAssignment)
    (kept : ∀ operation ∈ next.todo, operation ∈ rest
      ∨ operation.quiet = true ∧ head.ofAssignment = false
      ∨ operation.assigns = true ∧ head.assigns = true) : next.Orderly := by
  have first : head ∈ driver.todo := by rw [todo]; exact List.mem_cons_self
  have later : ∀ operation ∈ rest, operation ∈ driver.todo :=
    fun operation member => by rw [todo]; exact List.mem_cons_of_mem _ member
  -- Seeks and releases are not in the rest, and nothing here adds one.
  have not_alone : ∀ operation ∈ next.todo, operation.alone = false := by
    intro operation member
    rcases kept operation member with old | ⟨quiet, -⟩ | ⟨assigns, -⟩
    · exact orderly.not_alone todo operation old
    · exact DriverOp.alone_of_quiet quiet
    · exact DriverOp.alone_of_assigns assigns
  refine ⟨paired, ?_, ?_, ?_, ?_, ?_⟩
  · intro operation member assigns
    have assigning : driver.pendingAssignment = none
        ∧ ∀ other ∈ driver.todo, other.ofAssignment = true := by
      rcases kept operation member with old | ⟨quiet, -⟩ | ⟨-, same⟩
      · exact orderly.assigning operation (later operation old) assigns
      · rw [DriverOp.assigns_of_quiet quiet] at assigns
        cases assigns
      · exact orderly.assigning head first same
    refine ⟨pending (assigning.2 head first) assigning.1, fun other listed => ?_⟩
    rcases kept other listed with old | ⟨-, procedure⟩ | ⟨also, -⟩
    · exact assigning.2 other (later other old)
    · rw [assigning.2 head first] at procedure
      cases procedure
    · exact DriverOp.ofAssignment_of_assigns also
  · intro operation member alone
    rw [not_alone operation member] at alone
    cases alone
  · intro revoked now member
    cases not_alone _ member
  · intro partition target now member
    cases not_alone _ member
  · intro revoked following member partition listed
    rcases kept _ member with old | ⟨quiet, -⟩ | ⟨assigns, -⟩
    · rcases active with assigns | subset
      · cases (orderly.assigning head first assigns).2 _ (later _ old)
      · exact orderly.revoking revoked following (later _ old) partition (subset partition listed)
    · cases quiet
    · cases assigns

end

/-- A procedure begins with quiet operations. -/
theorem Driver.Orderly.of_quiet
    (paired : driver.awaitingAcknowledgement = driver.pendingAssignment.isSome)
    (quiet : ∀ operation ∈ driver.todo, operation.quiet = true) : driver.Orderly := by
  refine ⟨paired, ?_, ?_, ?_, ?_, ?_⟩
  · intro operation member assigns
    rw [DriverOp.assigns_of_quiet (quiet operation member)] at assigns
    cases assigns
  · intro operation member alone
    rw [DriverOp.alone_of_quiet (quiet operation member)] at alone
    cases alone
  · intro revoked now member
    cases quiet _ member
  · intro partition target now member
    cases quiet _ member
  · intro revoked next member
    cases quiet _ member

theorem Driver.Orderly.of_single (todo : driver.todo = [operation])
    (paired : driver.awaitingAcknowledgement = driver.pendingAssignment.isSome)
    (alone : operation.alone = true) (releasing : ∀ revoked now, operation = .release revoked now →
      driver.pendingAssignment.isSome = true)
    (seeking : ∀ partition target now, operation = .checkSeek partition target now →
      partition ∈ driver.activeAssignment) : driver.Orderly := by
  have only : ∀ other ∈ driver.todo, other = operation := by
    rw [todo]
    exact fun other member => List.mem_singleton.mp member
  refine ⟨paired, ?_, ?_, ?_, ?_, ?_⟩
  · intro other member assigns
    rw [only other member] at assigns
    rw [DriverOp.alone_of_assigns assigns] at alone
    cases alone
  · intro other member _
    rw [only other member, todo]
  · exact fun revoked now member => releasing revoked now (only _ member).symm
  · exact fun partition target now member => seeking partition target now (only _ member).symm
  · intro revoked next member
    rw [← only _ member] at alone
    cases alone

end Orderly

/-- A rebalance either assigns or revokes. -/
theorem Driver.rebalanceOperations_shape (driver : Driver) (report : RebalanceReport) (now : Int) :
    (∀ operation ∈ driver.rebalanceOperations report now, operation.ofAssignment = true)
      ∨ ∀ operation ∈ driver.rebalanceOperations report now, operation.assigns = false := by
  unfold Driver.rebalanceOperations Driver.hydrateCursors Driver.applyAssignment
  dsimp only
  split <;> split <;> try split
  all_goals simp [DriverOp.ofAssignment, DriverOp.assigns]

namespace IteratorWorld

/-- The assignment waits for the acknowledgement of a revocation. -/
def Saved (world : IteratorWorld) (assignment : List VirtualPartitionId) : Prop :=
  world.driver.pendingAssignment = some assignment
    ∨ ∃ revoked, DriverOp.saveRevocation revoked assignment ∈ world.driver.todo

/-- While a revocation is pending, every active partition is in the saved assignment or fenced, and
nothing on its way retires the fences. -/
structure RevocationHeld (world : IteratorWorld) : Prop where
  fenced : ∀ assignment, world.Saved assignment →
    ∃ fence, world.shared.deliveryFenceEpoch = some fence
      ∧ ∀ command ∈ world.worker.phase.unfinished ++ world.commands,
        ∀ epoch, command.assignmentEpoch = some epoch → epoch < fence
  covered : ∀ assignment, world.Saved assignment → ∀ partition ∈ world.driver.activeAssignment,
    partition ∈ assignment ∨ ∃ epoch, world.shared.fence partition = some epoch

variable {config : DriverConfig} {before after : IteratorWorld}

theorem orderly_move (orderly : before.driver.Orderly) (move : before.DriverMove after) :
    after.driver.Orderly := by
  cases move with
  | plain shared driver opened commands events fences fence delivery same todo =>
    have paired := orderly.paired_of same
    cases known : before.driver.todo with
    | nil =>
      refine .of_quiet paired fun operation member => ?_
      rcases todo operation member with kept | ⟨plain, -⟩
      · rw [known] at kept
        cases kept
      · exact DriverOp.quiet_of_plain plain
    | cons head rest =>
      refine orderly.go_on known paired (fun _ none => by rw [same.pending, none]) (.inr ?_) ?_
      · rw [same.active]
        exact fun _ member => member
      · intro operation member
        rcases todo operation member with kept | ⟨plain, procedure⟩
        · rw [known] at kept
          exact .inl kept
        · exact .inr (.inl ⟨DriverOp.quiet_of_plain plain, procedure head (by rw [known]; rfl)⟩)
  | rebalanced driver report now idle settled same todo =>
    have unsaved : before.driver.pendingAssignment = none := by
      have paired := orderly.paired
      rw [settled] at paired
      simpa using paired.symm
    have not_alone : ∀ operation ∈ driver.todo, operation.alone = false := by
      intro operation member
      rw [todo] at member
      rcases Driver.mem_rebalanceOperations member with rfl | rfl | ⟨-, rfl | rfl⟩ | rfl <;> rfl
    refine ⟨orderly.paired_of same, ?_, ?_, ?_, ?_, ?_⟩
    · intro operation member assigns
      rw [todo] at member ⊢
      rcases before.driver.rebalanceOperations_shape report now with all | nothing
      · exact ⟨by rw [same.pending, unsaved], all⟩
      · rw [nothing operation member] at assigns
        cases assigns
    · intro operation member alone
      rw [not_alone operation member] at alone
      cases alone
    · intro revoked at_ member
      cases not_alone _ member
    · intro partition target at_ member
      cases not_alone _ member
    · intro revoked next member partition listed
      rw [todo] at member
      rw [same.active] at listed
      rcases Driver.mem_rebalanceOperations member with same | same | ⟨-, same | same⟩ | same
      all_goals cases same
      by_cases kept : partition ∈ report.ownedPartitions
      · exact .inr kept
      · exact .inl (List.mem_filter.mpr ⟨listed, by simpa using kept⟩)
  | seekBegun partition target now idle active =>
    refine .of_single rfl orderly.paired rfl (by simp) fun _ _ _ same => ?_
    cases same
    exact active
  | seekChecked partition target now rest todo unfenced =>
    cases orderly.rest_of_alone todo rfl
    exact .of_single rfl orderly.paired rfl (by simp) (by simp)
  | seekSent partition target now rest todo
  | assignmentSent assignment now release readEpoch rest todo | stopped rest todo =>
    exact orderly.go_on todo orderly.paired (fun _ none => none) (.inr fun _ member => member)
      fun _ member => .inl member
  | revoked revoked next operation rest todo cause =>
    have procedure : operation.ofAssignment = false := by
      rcases cause with rfl | ⟨rfl, -, -⟩ <;> rfl
    refine orderly.go_on todo orderly.paired (fun _ none => none) (.inr fun _ member => member) ?_
    intro other member
    rcases List.mem_cons.mp member with rfl | member
    · exact .inr (.inl ⟨rfl, procedure⟩)
    · rcases List.mem_cons.mp member with rfl | member
      · exact .inr (.inl ⟨rfl, procedure⟩)
      · exact .inl member
  | saved revoked next rest todo =>
    exact orderly.go_on todo rfl (by rintro ⟨⟩) (.inr fun _ member => member) fun _ member => .inl member
  | releasing driver revoked now idle waiting same todo =>
    refine .of_single todo (orderly.paired_of same) rfl (fun _ _ _ => ?_) (by simp)
    rw [same.pending, ← orderly.paired]
    exact waiting
  | released driver revoked now rest head active pending awaiting todo =>
    cases orderly.rest_of_alone head rfl
    have assigning : ∀ operation ∈ driver.todo,
        operation.ofAssignment = true ∧ operation.alone = false := by
      rw [todo]
      simp [Driver.applyAssignment, DriverOp.ofAssignment, DriverOp.alone]
    refine ⟨?_, ?_, ?_, ?_, ?_, ?_⟩
    · rw [awaiting, pending]
      rfl
    · exact fun operation member assigns => ⟨pending, fun other listed => (assigning other listed).1⟩
    · intro operation member alone
      rw [(assigning operation member).2] at alone
      cases alone
    · intro other at_ member
      cases (assigning _ member).2
    · intro partition target at_ member
      cases (assigning _ member).2
    · intro other next member
      cases (assigning _ member).1
  | removed fenced rest todo =>
    refine orderly.go_on todo ?_ (by rintro ⟨⟩)
      (.inr fun _ member => List.mem_of_mem_filter member) ?_
    · simpa [removeFenced, log] using orderly.paired
    · intro other member
      rcases List.mem_cons.mp member with rfl | member
      · exact .inr (.inl ⟨rfl, rfl⟩)
      · exact .inl member
  | epochRead assignment now release rest todo =>
    refine orderly.go_on todo orderly.paired (fun _ none => none) (.inr fun _ member => member) ?_
    intro other member
    rcases List.mem_cons.mp member with rfl | member
    · exact .inr (.inr ⟨rfl, rfl⟩)
    · exact .inl member
  | activated assignment rest todo =>
    exact orderly.go_on todo orderly.paired (fun _ none => none) (.inl rfl) fun _ member => .inl member

/-- Steps that save nothing, keep the fences and send no assignment. -/
theorem RevocationHeld.narrow (held : before.RevocationHeld)
    (saved : ∀ assignment, after.Saved assignment → before.Saved assignment)
    (active : ∀ partition ∈ after.driver.activeAssignment,
      partition ∈ before.driver.activeAssignment)
    (fence : after.shared.deliveryFenceEpoch = before.shared.deliveryFenceEpoch)
    (fences : after.shared.readFencedPartitions = before.shared.readFencedPartitions)
    (commands : ∀ command ∈ after.worker.phase.unfinished ++ after.commands,
      ∀ epoch, command.assignmentEpoch = some epoch →
        ∃ earlier ∈ before.worker.phase.unfinished ++ before.commands,
          earlier.assignmentEpoch = some epoch) : after.RevocationHeld := by
  constructor
  · intro assignment waits
    obtain ⟨bound, known, older⟩ := held.fenced assignment (saved assignment waits)
    refine ⟨bound, by rw [fence, known], fun command member epoch assigns => ?_⟩
    obtain ⟨earlier, listed, same⟩ := commands command member epoch assigns
    exact older earlier listed epoch same
  · intro assignment waits partition listed
    rw [SharedState.fence_congr fences]
    exact held.covered assignment (saved assignment waits) partition (active partition listed)

/-- Steps outside the driver. -/
theorem RevocationHeld.frame (held : before.RevocationHeld) (driver : after.driver = before.driver)
    (fence : after.shared.deliveryFenceEpoch = before.shared.deliveryFenceEpoch)
    (fences : after.shared.readFencedPartitions = before.shared.readFencedPartitions)
    (commands : ∀ command ∈ after.worker.phase.unfinished ++ after.commands,
      ∃ earlier ∈ before.worker.phase.unfinished ++ before.commands,
        earlier.assignmentEpoch = command.assignmentEpoch) : after.RevocationHeld := by
  refine held.narrow (fun assignment => ?_) ?_ fence fences fun command member epoch assigns => ?_
  · unfold Saved
    rw [driver]
    exact id
  · rw [driver]
    exact fun _ member => member
  · obtain ⟨earlier, queued, same⟩ := commands command member
    exact ⟨earlier, queued, same.trans assigns⟩

theorem RevocationHeld.of_not_saved (unsaved : ∀ assignment, ¬after.Saved assignment) :
    after.RevocationHeld :=
  ⟨fun assignment waits => absurd waits (unsaved assignment),
    fun assignment waits => absurd waits (unsaved assignment)⟩

theorem RevocationHeld.application (held : before.RevocationHeld)
    (effect : before.ApplicationEffect after) : after.RevocationHeld := by
  cases effect with
  | polled | revoked | acknowledged =>
    exact held.frame rfl rfl rfl fun command member => ⟨command, member, rfl⟩
  | stored partition offset shared accepted =>
    obtain ⟨state, checkpoint, source, -, -, -, rfl⟩ := before.shared.storeOffset_eq_ok accepted
    exact held.frame rfl rfl rfl fun command member => ⟨command, member, rfl⟩

theorem RevocationHeld.worker (held : before.RevocationHeld)
    (effect : before.WorkerEffect config after) : after.RevocationHeld := by
  have commands : ∀ command ∈ after.worker.phase.unfinished ++ after.commands,
      ∃ earlier ∈ before.worker.phase.unfinished ++ before.commands,
        earlier.assignmentEpoch = command.assignmentEpoch := by
    intro command member
    obtain ⟨earlier, queued, -, same⟩ := effect.queued command member
    exact ⟨earlier, queued, same⟩
  cases effect with
  | hydrated | assigned | suspended | refused | idled | began | failed | finished =>
    exact held.frame rfl rfl rfl commands
  | sought settings partition target now rest shared phase queue accepted =>
    obtain ⟨-, -, rfl⟩ := before.shared.applySeek_eq_ok accepted
    exact held.frame rfl rfl rfl commands
  | completed readEpoch release phase =>
    -- The assignment is older than the revocation and retires nothing.
    have incomplete : ∀ assignment, before.Saved assignment →
        before.shared.deliveryFenceEpoch.isSome
          ∧ before.shared.completesReadRevocation readEpoch release = false := by
      intro assignment saved
      obtain ⟨fence, known, older⟩ := held.fenced assignment saved
      have newer := older (.setAssignment [] 0 release readEpoch)
        (by rw [phase]; exact List.mem_append_left _ List.mem_cons_self) readEpoch rfl
      refine ⟨by rw [known]; rfl, ?_⟩
      simp [SharedState.completesReadRevocation, known, newer]
    constructor
    · intro assignment saved
      obtain ⟨fence, known, older⟩ := held.fenced assignment saved
      refine ⟨fence, ?_, fun command member => older command (List.mem_append_right _ member)⟩
      simpa [SharedState.completeReadAssignment, (incomplete assignment saved).2] using known
    · intro assignment saved partition active
      rcases held.covered assignment saved partition active with kept | ⟨epoch, fenced⟩
      · exact .inl kept
      · exact .inr ⟨epoch, (before.shared.fence_completeReadAssignment readEpoch release partition
          epoch).mpr ⟨fenced, .inr (incomplete assignment saved)⟩⟩
  | admitted prefetchMaxBytes next phase unfinished idle =>
    have spec := PendingBatches.admit_spec prefetchMaxBytes before.worker.pending before.shared
    exact held.frame rfl spec.deliveryFenceEpoch spec.readFencedPartitions commands

theorem RevocationHeld.driver (held : before.RevocationHeld) (bounded : before.EpochsBounded)
    (orderly : before.driver.Orderly) (move : before.DriverMove after) : after.RevocationHeld := by
  -- What is saved and stays in the procedure was saved before.
  have kept : ∀ (next : Driver) {head : DriverOp} {rest : List DriverOp},
      before.driver.todo = head :: rest →
      (next.pendingAssignment = before.driver.pendingAssignment) →
      (∀ revoked assignment, DriverOp.saveRevocation revoked assignment ∈ next.todo →
        DriverOp.saveRevocation revoked assignment ∈ rest) →
      ∀ assignment, { before with driver := next }.Saved assignment → before.Saved assignment := by
    rintro next head rest todo pending later assignment (saved | ⟨revoked, saving⟩)
    · exact .inl (by rw [← pending]; exact saved)
    · exact .inr ⟨revoked, by rw [todo]; exact List.mem_cons_of_mem _ (later _ _ saving)⟩
  have unsent : ∀ command ∈ before.worker.phase.unfinished ++ before.commands, ∀ epoch,
      command.assignmentEpoch = some epoch →
        ∃ earlier ∈ before.worker.phase.unfinished ++ before.commands,
          earlier.assignmentEpoch = some epoch :=
    fun command member epoch assigns => ⟨command, member, assigns⟩
  -- Other commands are no assignments.
  have appended : ∀ commands : List ReaderCommand,
      (∀ command ∈ commands, command.assignmentEpoch = none) →
      ∀ command ∈ before.worker.phase.unfinished ++ (before.commands ++ commands), ∀ epoch,
        command.assignmentEpoch = some epoch →
          ∃ earlier ∈ before.worker.phase.unfinished ++ before.commands,
            earlier.assignmentEpoch = some epoch := by
    intro commands others command member epoch assigns
    rw [← List.append_assoc] at member
    rcases List.mem_append.mp member with old | new
    · exact ⟨command, old, assigns⟩
    · rw [others command new] at assigns
      cases assigns
  cases move with
  | plain shared driver opened commands events fences fence delivery same todo sent =>
    refine held.narrow ?_ ?_ fence fences (appended commands fun command member => ?_)
    · rintro assignment (saved | ⟨revoked, saving⟩)
      · exact .inl (by rw [← same.pending]; exact saved)
      · rcases todo _ saving with old | ⟨plain, -⟩
        · exact .inr ⟨revoked, List.mem_of_mem_tail old⟩
        · cases plain
    · intro partition listed
      rw [← same.active]
      exact listed
    · have plain := sent command member
      cases command <;> first | rfl | cases plain
  | rebalanced driver report now idle settled same todo =>
    refine .of_not_saved ?_
    rintro assignment (saved | ⟨revoked, saving⟩)
    · have paired := orderly.paired
      rw [settled, ← same.pending] at paired
      have waiting : driver.pendingAssignment = some assignment := saved
      rw [waiting] at paired
      cases paired
    · have member : DriverOp.saveRevocation revoked assignment ∈ driver.todo := saving
      rw [todo] at member
      rcases Driver.mem_rebalanceOperations member with same | same | ⟨-, same | same⟩ | same
      all_goals cases same
  | seekBegun partition target now idle active =>
    refine held.narrow ?_ (fun _ member => member) rfl rfl unsent
    rintro assignment (saved | ⟨revoked, saving⟩)
    · exact .inl saved
    · cases List.mem_singleton.mp saving
  | seekChecked partition target now rest todo unfenced
  | epochRead assignment now release rest todo =>
    refine held.narrow (kept _ todo rfl fun revoked assignment member => ?_) (fun _ member => member)
      rfl rfl unsent
    rcases List.mem_cons.mp member with same | later
    · cases same
    · exact later
  | seekSent partition target now rest todo =>
    refine held.narrow (kept _ todo rfl fun _ _ member => member) (fun _ member => member) rfl rfl ?_
    exact appended _ fun command member => by rw [List.mem_singleton.mp member]; rfl
  | revoked revoked next operation rest todo cause =>
    have waits : ∀ assignment, (before.fenceForRevocation revoked next rest).Saved assignment →
        assignment = next ∨ before.Saved assignment := by
      rintro assignment (saved | ⟨other, saving⟩)
      · exact .inr (.inl saved)
      · rcases List.mem_cons.mp saving with same | saving
        · cases same
        · rcases List.mem_cons.mp saving with same | saving
          · cases same
            exact .inl rfl
          · exact .inr (.inr ⟨other, by rw [todo]; exact List.mem_cons_of_mem _ saving⟩)
    constructor
    · -- The new fence is newer than everything sent so far.
      intro assignment _
      refine ⟨before.shared.readEpoch + 1, rfl, fun command member epoch assigns => ?_⟩
      rw [← ReaderCommand.epoch_of_assignment assigns]
      exact Nat.lt_succ_of_le (bounded.commands command member)
    · intro assignment saved partition active
      have fence := before.shared.fence_beginRevocation revoked partition
      by_cases lost : partition ∈ revoked
      · rw [if_pos lost] at fence
        exact .inr ⟨_, fence⟩
      · rw [if_neg lost] at fence
        rcases waits assignment saved with rfl | old
        · left
          rcases cause with rfl | ⟨-, rfl, -⟩
          · have covers := orderly.revoking revoked assignment
              (by rw [todo]; exact List.mem_cons_self) partition active
            exact covers.resolve_left lost
          · exact List.mem_filter.mpr ⟨active, by simpa using lost⟩
        · exact (held.covered assignment old partition active).imp_right
            fun ⟨epoch, fenced⟩ => ⟨epoch, fence.trans fenced⟩
  | saved revoked next rest todo =>
    refine held.narrow ?_ (fun _ member => member) rfl rfl unsent
    rintro assignment (saved | ⟨other, saving⟩)
    · cases saved
      exact .inr ⟨revoked, by rw [todo]; exact List.mem_cons_self⟩
    · exact .inr ⟨other, by rw [todo]; exact List.mem_cons_of_mem _ saving⟩
  | releasing driver revoked now idle waiting same todo =>
    refine held.narrow ?_ ?_ rfl rfl unsent
    · rintro assignment (saved | ⟨other, saving⟩)
      · exact .inl (by rw [← same.pending]; exact saved)
      · have member : DriverOp.saveRevocation other assignment ∈ driver.todo := saving
        rw [todo] at member
        cases List.mem_singleton.mp member
    · intro partition listed
      rw [← same.active]
      exact listed
  | released driver revoked now rest head active pending awaiting todo =>
    cases orderly.rest_of_alone head rfl
    refine .of_not_saved ?_
    rintro assignment (saved | ⟨other, saving⟩)
    · have waiting : driver.pendingAssignment = some assignment := saved
      rw [pending] at waiting
      cases waiting
    · have member : DriverOp.saveRevocation other assignment ∈ driver.todo := saving
      rw [todo] at member
      simp [Driver.applyAssignment] at member
  | removed fenced rest todo =>
    have waits : ∀ assignment, (before.removeFenced fenced rest).Saved assignment →
        ∃ earlier, before.Saved earlier
          ∧ ∀ partition ∈ earlier, partition ∉ fenced → partition ∈ assignment := by
      rintro assignment (saved | ⟨other, saving⟩)
      · obtain ⟨earlier, known, rfl⟩ := Option.map_eq_some_iff.mp saved
        exact ⟨earlier, .inl known,
          fun partition member live => List.mem_filter.mpr ⟨member, by simpa using live⟩⟩
      · rcases List.mem_cons.mp saving with same | saving
        · cases same
        · exact ⟨assignment, .inr ⟨other, by rw [todo]; exact List.mem_cons_of_mem _ saving⟩,
            fun _ member _ => member⟩
    constructor
    · intro assignment saved
      obtain ⟨earlier, known, -⟩ := waits assignment saved
      exact held.fenced earlier known
    · intro assignment saved partition active
      obtain ⟨listed, live⟩ := List.mem_filter.mp active
      replace live : partition ∉ fenced := by simpa using live
      obtain ⟨earlier, known, keeps⟩ := waits assignment saved
      have fence := before.shared.fence_removeFencedPartitions fenced partition
      rw [if_neg live] at fence
      exact (held.covered earlier known partition listed).imp (fun member => keeps _ member live)
        fun ⟨epoch, blocked⟩ => ⟨epoch, fence.trans blocked⟩
  | assignmentSent assignment now release readEpoch rest todo | activated assignment rest todo =>
    refine .of_not_saved fun assignment saved => ?_
    obtain ⟨unsaved, all⟩ := orderly.assigning _ (by rw [todo]; exact List.mem_cons_self) rfl
    -- Nothing is saved while the driver assigns.
    rcases kept { before.driver with todo := rest } todo rfl (fun _ _ member => member) assignment
      saved with saved | ⟨revoked, saving⟩
    · rw [unsaved] at saved
      cases saved
    · cases all _ saving
  | stopped rest todo =>
    exact held.narrow (kept _ todo rfl fun _ _ member => member) (fun _ member => member) rfl rfl
      (fun command member => absurd member List.not_mem_nil)

/-! ### Partitions the driver goes on with -/

/-- The partition is active and in everything the driver is about to assign. -/
structure Secure (world : IteratorWorld) (partition : VirtualPartitionId) : Prop where
  active : partition ∈ world.driver.activeAssignment
  pending : ∀ assignment, world.driver.pendingAssignment = some assignment → partition ∈ assignment
  todo : ∀ operation ∈ world.driver.todo, operation.keeps partition

theorem Secure.of_same {partition : VirtualPartitionId} (secure : before.Secure partition)
    (same : before.driver.KeepsAssignments after.driver)
    (todo : ∀ operation ∈ after.driver.todo, operation.keeps partition) : after.Secure partition :=
  ⟨same.active ▸ secure.active, same.pending ▸ secure.pending, todo⟩

/-- A partition without a fence is not among those that were just fenced. -/
theorem not_mem_of_unfenced {partitions : List VirtualPartitionId} {partition : VirtualPartitionId}
    {epoch : ReadEpoch} {older fence : Option ReadEpoch}
    (fences : fence = if partition ∈ partitions then some epoch else older)
    (unfenced : fence = none) : partition ∉ partitions := by
  intro listed
  rw [if_pos listed] at fences
  cases fences.symm.trans unfenced

/-- The driver drops only partitions it fences. -/
theorem Secure.driver {partition : VirtualPartitionId} (secure : before.Secure partition)
    (orderly : before.driver.Orderly) (move : before.DriverMove after)
    (unfenced : after.shared.fence partition = none) : after.Secure partition := by
  have later : ∀ {head : DriverOp} {rest : List DriverOp}, before.driver.todo = head :: rest →
      head.keeps partition ∧ ∀ operation ∈ rest, operation.keeps partition := by
    intro head rest todo
    have all := secure.todo
    rw [todo] at all
    exact List.forall_mem_cons.mp all
  cases move with
  | plain shared driver opened commands events fences fence delivery same todo sent =>
    refine secure.of_same same fun operation member => ?_
    rcases todo operation member with old | ⟨plain, -⟩
    · exact secure.todo operation (List.mem_of_mem_tail old)
    · exact DriverOp.keeps_of_plain plain partition
  | rebalanced driver report now idle settled same todo =>
    refine secure.of_same same fun operation member => ?_
    have listed : operation ∈ driver.todo := member
    rw [todo] at listed
    rcases Driver.mem_rebalanceOperations listed with rfl | rfl | ⟨all, rfl | rfl⟩ | rfl
    · trivial
    · trivial
    · exact all partition secure.active
    · exact all partition secure.active
    · by_cases kept : partition ∈ report.ownedPartitions
      · exact .inr kept
      · exact .inl (List.mem_filter.mpr ⟨secure.active, by simpa using kept⟩)
  | seekBegun sought target now idle active =>
    refine ⟨secure.active, secure.pending, fun operation member => ?_⟩
    rw [List.mem_singleton.mp member]
    trivial
  | seekChecked sought target now rest todo unfenced =>
    exact ⟨secure.active, secure.pending, List.forall_mem_cons.mpr ⟨trivial, (later todo).2⟩⟩
  | seekSent sought target now rest todo
  | assignmentSent assignment now release readEpoch rest todo | stopped rest todo =>
    exact ⟨secure.active, secure.pending, (later todo).2⟩
  | revoked revoked next operation rest todo cause =>
    -- The partition is not among the revoked ones, so it is in the next assignment.
    have kept := not_mem_of_unfenced (before.shared.fence_beginRevocation revoked partition) unfenced
    have following : partition ∈ next := by
      rcases cause with rfl | ⟨-, rfl, -⟩
      · exact (later todo).1.resolve_left kept
      · exact List.mem_filter.mpr ⟨secure.active, by simpa using kept⟩
    exact ⟨secure.active, secure.pending,
      List.forall_mem_cons.mpr ⟨trivial, List.forall_mem_cons.mpr ⟨following, (later todo).2⟩⟩⟩
  | saved revoked next rest todo =>
    refine ⟨secure.active, fun assignment saved => ?_, (later todo).2⟩
    cases saved
    exact (later todo).1
  | releasing driver revoked now idle waiting same todo =>
    refine secure.of_same same fun operation member => ?_
    have listed : operation ∈ driver.todo := member
    rw [todo] at listed
    rw [List.mem_singleton.mp listed]
    trivial
  | released driver revoked now rest head active pending awaiting todo =>
    obtain ⟨assignment, saved⟩ := Option.isSome_iff_exists.mp
      (orderly.releasing revoked now (by rw [head]; exact List.mem_cons_self))
    have kept := secure.pending assignment saved
    refine ⟨by rw [active]; exact secure.active, fun other none => ?_, ?_⟩
    · have same : driver.pendingAssignment = some other := none
      rw [pending] at same
      cases same
    · show ∀ operation ∈ driver.todo, operation.keeps partition
      rw [todo, saved]
      exact List.forall_mem_cons.mpr ⟨kept, List.forall_mem_cons.mpr ⟨kept, (later head).2⟩⟩
  | removed fenced rest todo =>
    have kept :=
      not_mem_of_unfenced (before.shared.fence_removeFencedPartitions fenced partition) unfenced
    refine ⟨List.mem_filter.mpr ⟨secure.active, by simpa using kept⟩, fun assignment saved => ?_,
      List.forall_mem_cons.mpr ⟨trivial, (later todo).2⟩⟩
    obtain ⟨earlier, known, rfl⟩ := Option.map_eq_some_iff.mp saved
    exact List.mem_filter.mpr ⟨secure.pending earlier known, by simpa using kept⟩
  | epochRead assignment now release rest todo =>
    obtain ⟨kept, others⟩ := later todo
    exact ⟨secure.active, secure.pending, List.forall_mem_cons.mpr ⟨kept, others⟩⟩
  | activated assignment rest todo => exact ⟨(later todo).1, secure.pending, (later todo).2⟩

end IteratorWorld

end BlobStream.Consumer
