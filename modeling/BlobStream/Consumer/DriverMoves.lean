import BlobStream.Consumer.IteratorSteps

/-!
# What the driver does to its assignment

Most operations of the driver leave the active assignment, the saved one and the fences alone. A
move is either such a plain step or one of the steps that assign, revoke, fence or seek partitions.
-/

namespace BlobStream.Consumer

/-- The operation neither assigns, revokes, releases nor seeks partitions. -/
def DriverOp.plain : DriverOp → Bool
  | .readEpoch .. | .sendAssignment .. | .activate _ | .revoke .. | .saveRevocation ..
  | .release .. | .checkSeek .. | .sendSeek .. => false
  | _ => true

/-- The operation assigns partitions without a revocation in progress. -/
def DriverOp.assigns : DriverOp → Bool
  | .readEpoch .. | .sendAssignment .. | .activate _ => true
  | _ => false

/-- The operation belongs to a procedure that assigns partitions. -/
def DriverOp.ofAssignment : DriverOp → Bool
  | .readEpoch .. | .sendAssignment .. | .activate _ | .publishCursors .. | .sendHydrate .. => true
  | _ => false

def ReaderCommand.plain : ReaderCommand → Bool
  | .setAssignment .. | .seek .. => false
  | _ => true

structure Driver.KeepsAssignments (before after : Driver) : Prop where
  active : after.activeAssignment = before.activeAssignment
  pending : after.pendingAssignment = before.pendingAssignment
  awaiting : after.awaitingAcknowledgement = before.awaitingAcknowledgement

namespace IteratorWorld

/-- A plain operation that a procedure which assigns nothing goes on with. -/
def Continues (before : IteratorWorld) (operation : DriverOp) : Prop :=
  operation ∈ before.driver.todo.tail
    ∨ operation.plain = true
      ∧ ∀ head ∈ before.driver.todo.head?, head.ofAssignment = false

section Moves

variable (before : IteratorWorld)

/-- The steps of the driver, by what they do to the assignment. -/
inductive DriverMove : IteratorWorld → Prop
  | plain (shared : SharedState ReadRecord) (driver : Driver) (opened : Bool)
      (commands : List ReaderCommand) (events : List IteratorEvent)
      (fences : shared.readFencedPartitions = before.shared.readFencedPartitions)
      (fence : shared.deliveryFenceEpoch = before.shared.deliveryFenceEpoch)
      (delivery : shared.deliveryState = before.shared.deliveryState)
      (same : before.driver.KeepsAssignments driver)
      (todo : ∀ operation ∈ driver.todo, before.Continues operation)
      (sent : ∀ command ∈ commands, command.plain = true)
      (logged : ∀ event ∈ events, ∃ cursor, event = .passed cursor) :
      DriverMove { before with
        shared, driver, opened, commands := before.commands ++ commands
        history := events ++ before.history }
  | rebalanced (driver : Driver) (report : RebalanceReport) (now : Int)
      (idle : before.driver.todo = []) (settled : before.driver.awaitingAcknowledgement = false)
      (same : before.driver.KeepsAssignments driver)
      (todo : driver.todo = before.driver.rebalanceOperations report now) :
      DriverMove { before with driver }
  | seekBegun (partition : VirtualPartitionId) (target : ConsumerSeekTarget) (now : Int)
      (idle : before.driver.todo = []) (active : partition ∈ before.driver.activeAssignment) :
      DriverMove (before.withTodo [.checkSeek partition target now])
  | seekChecked (partition : VirtualPartitionId) (target : ConsumerSeekTarget) (now : Int)
      (rest : List DriverOp) (todo : before.driver.todo = .checkSeek partition target now :: rest)
      (unfenced : partition ∉ before.shared.readFencedPartitions) :
      DriverMove (before.withTodo (.sendSeek partition target now :: rest))
  | seekSent (partition : VirtualPartitionId) (target : ConsumerSeekTarget) (now : Int)
      (rest : List DriverOp) (todo : before.driver.todo = .sendSeek partition target now :: rest) :
      DriverMove (before.send (.seek partition target now) rest)
  | revoked (revoked next : List VirtualPartitionId) (operation : DriverOp) (rest : List DriverOp)
      (todo : before.driver.todo = operation :: rest)
      (cause : operation = .revoke revoked next
        ∨ operation = .fencePartitions revoked
          ∧ next = before.driver.activeAssignment.filter (· ∉ revoked)
          ∧ before.driver.awaitingAcknowledgement = false) :
      DriverMove (before.fenceForRevocation revoked next rest)
  | saved (revoked next : List VirtualPartitionId) (rest : List DriverOp)
      (todo : before.driver.todo = .saveRevocation revoked next :: rest) :
      DriverMove { before with
        driver := { before.driver with
          pendingAssignment := some next
          awaitingAcknowledgement := true
          pendingRevocationPartitions := some revoked
          todo := rest } }
  | releasing (driver : Driver) (revoked : List VirtualPartitionId) (now : Int)
      (idle : before.driver.todo = []) (waiting : before.driver.awaitingAcknowledgement = true)
      (same : before.driver.KeepsAssignments driver)
      (todo : driver.todo = [.release revoked now]) :
      DriverMove { before with driver }
  | released (driver : Driver) (revoked : List VirtualPartitionId) (now : Int)
      (rest : List DriverOp) (head : before.driver.todo = .release revoked now :: rest)
      (active : driver.activeAssignment = before.driver.activeAssignment)
      (pending : driver.pendingAssignment = none)
      (awaiting : driver.awaitingAcknowledgement = false)
      (todo : driver.todo =
        Driver.applyAssignment (before.driver.pendingAssignment.getD []) true ++ rest) :
      DriverMove { before with driver }
  | removed (fenced : List VirtualPartitionId) (rest : List DriverOp)
      (todo : before.driver.todo = .removeFenced fenced :: rest) :
      DriverMove (before.removeFenced fenced rest)
  | epochRead (assignment : List VirtualPartitionId) (now : Int) (release : Bool)
      (rest : List DriverOp) (todo : before.driver.todo = .readEpoch assignment release :: rest) :
      DriverMove
        (before.withTodo (.sendAssignment assignment now release before.shared.readEpoch :: rest))
  | assignmentSent (assignment : List VirtualPartitionId) (now : Int) (release : Bool)
      (readEpoch : ReadEpoch) (rest : List DriverOp)
      (todo : before.driver.todo = .sendAssignment assignment now release readEpoch :: rest) :
      DriverMove (before.send (.setAssignment assignment now release readEpoch) rest)
  | activated (assignment : List VirtualPartitionId) (rest : List DriverOp)
      (todo : before.driver.todo = .activate assignment :: rest) :
      DriverMove ({ before with
        shared := before.shared.applyActiveAssignment assignment
        driver := { before.driver with activeAssignment := assignment, todo := rest } }.log
          [.assigned assignment])
  | stopped (rest : List DriverOp) (todo : before.driver.todo = .stopPrefetch :: rest) :
      DriverMove { before.withTodo rest with
        worker := { before.worker with phase := .stopped }
        commands := []
        ended := true }

end Moves

variable {before world : IteratorWorld} {rest : List DriverOp} {operation : DriverOp}
variable {head : DriverOp}

theorem continues_of_mem (todo : before.driver.todo = head :: rest) :
    ∀ operation ∈ rest, before.Continues operation :=
  fun _ member => .inl (by rwa [todo])

/-- Plain operations before the rest of a procedure that assigns nothing. -/
theorem continues_append (todo : before.driver.todo = head :: rest)
    (procedure : head.ofAssignment = false) (added : List DriverOp)
    (plain : ∀ operation ∈ added, operation.plain = true) :
    ∀ operation ∈ added ++ rest, before.Continues operation := by
  intro operation member
  rcases List.mem_append.mp member with new | later
  · refine .inr ⟨plain operation new, fun first known => ?_⟩
    rw [todo] at known
    cases known
    exact procedure
  · exact continues_of_mem todo operation later

variable {added : List DriverOp}

theorem continues_begun (idle : before.driver.todo = [])
    (plain : ∀ operation ∈ added, operation.plain = true) :
    ∀ operation ∈ added, before.Continues operation := by
  intro operation member
  refine .inr ⟨plain operation member, fun first known => ?_⟩
  rw [idle] at known
  cases known

/-- Steps that only change the driver and go on with plain operations. -/
theorem DriverMove.of_driver (driver : Driver) (opened : Bool)
    (same : before.driver.KeepsAssignments driver)
    (todo : ∀ operation ∈ driver.todo, before.Continues operation) :
    before.DriverMove { before with driver, opened } := by
  have move := DriverMove.plain before.shared driver opened [] [] rfl rfl rfl same todo (by simp) (by simp)
  simpa using move

/-- Steps that only pop an operation and add plain ones. -/
theorem DriverMove.of_todo {todo : List DriverOp}
    (plain : ∀ operation ∈ todo, before.Continues operation) :
    before.DriverMove (before.withTodo todo) :=
  .of_driver { before.driver with todo } before.opened ⟨rfl, rfl, rfl⟩ plain

/-- Steps that update the shared state without touching fences or the queue. -/
theorem DriverMove.of_shared (shared : SharedState ReadRecord)
    (todo : before.driver.todo = operation :: rest)
    (fences : shared.readFencedPartitions = before.shared.readFencedPartitions)
    (fence : shared.deliveryFenceEpoch = before.shared.deliveryFenceEpoch)
    (delivery : shared.deliveryState = before.shared.deliveryState) :
    before.DriverMove (before.withShared shared rest) := by
  have move := DriverMove.plain shared { before.driver with todo := rest } before.opened [] []
    fences fence delivery ⟨rfl, rfl, rfl⟩ (continues_of_mem todo) (by simp) (by simp)
  rw [List.append_nil] at move
  exact move

theorem DriverMove.of_send {command : ReaderCommand} (plain : command.plain = true)
    (todo : before.driver.todo = operation :: rest) :
    before.DriverMove (before.send command rest) := by
  have move := DriverMove.plain before.shared { before.driver with todo := rest } before.opened
    [command] [] rfl rfl rfl ⟨rfl, rfl, rfl⟩ (continues_of_mem todo)
    (by simpa using plain) (by simp)
  exact move

/-- Collected offsets are held by the operation the driver executes next. -/
def CollectsFirst (world : IteratorWorld) : Prop :=
  ∀ operation ∈ world.driver.todo.tail, unpassed operation = none

structure DriverStep (before after : IteratorWorld) : Prop where
  effect : before.DriverEffect after
  move : before.DriverMove after
  first : before.CollectsFirst → after.CollectsFirst

variable {after : IteratorWorld}

theorem execute_step (todo : world.driver.todo = operation :: rest)
    (executed : world.execute now rest operation = some after) : world.DriverStep after := by
  have keeps : ∀ other ∈ rest, other ∈ world.driver.todo ∨ world.Prepared other := by
    intro other member
    rw [todo]
    exact .inl (List.mem_cons_of_mem _ member)
  have later := continues_of_mem todo
  -- What follows the operation holds no offsets.
  have empty (first : world.CollectsFirst) : ∀ other ∈ rest, unpassed other = none :=
    fun other member => first other (by rw [todo]; exact member)
  have tail (first : world.CollectsFirst) : ∀ other ∈ rest.tail, unpassed other = none :=
    fun other member => empty first other (List.mem_of_mem_tail member)
  cases operation with
  | heartbeatMember | maintain | release | releaseOwned => cases executed
  | collectCommits trigger now =>
    cases executed
    cases trigger with
    | scheduled | commit =>
      refine ⟨.of_driver _ _ (fun other member => ?_) (by rw [todo]; rfl),
        .of_todo (continues_append todo rfl [_] (by simp [DriverOp.plain])), empty⟩
      rcases List.mem_cons.mp member with rfl | old
      · exact .inr ⟨Nat.zero_le _, fun commits held => .inl (Option.some.inj held).symm⟩
      · exact keeps other old
  | passCursors trigger now commits =>
    cases executed
    have move : world.DriverMove _ := .plain world.shared
      { world.driver with todo := .maintain trigger now commits :: rest } world.opened []
      ((Driver.committedCursors commits).entries.map fun entry => .passed entry.2) rfl rfl rfl
      ⟨rfl, rfl, rfl⟩ (continues_append todo rfl [_] (by simp [DriverOp.plain])) (by simp)
      fun event member => by
        obtain ⟨entry, -, rfl⟩ := List.mem_map.mp member
        exact ⟨_, rfl⟩
    rw [List.append_nil] at move
    refine ⟨.moved _ _ _ (fun event member => ?_) (fun other member => ?_) (by rw [todo]; rfl), move,
      empty⟩
    · obtain ⟨entry, listed, rfl⟩ := List.mem_map.mp member
      obtain ⟨⟨partition, commit⟩, staged, rfl⟩ := List.mem_map.mp listed
      exact ⟨_, by rw [todo]; exact List.mem_cons_self, commits, partition, commit, rfl,
        AList.mem_lookup_iff.mpr staged, rfl⟩
    · rcases List.mem_cons.mp member with rfl | old
      · exact .inr (prepared_of_plain rfl rfl)
      · exact keeps other old
  | recordSuccess renewed commits =>
    cases executed
    exact ⟨.recorded renewed commits rest todo, .of_shared _ todo rfl rfl rfl, tail⟩
  | publishCursors recovered now =>
    cases executed
    exact ⟨.published recovered now rest todo, .of_shared _ todo rfl rfl rfl, tail⟩
  | removeFenced fenced =>
    cases executed
    split
    · exact ⟨.of_driver _ _ keeps (by rw [todo]; rfl), .of_todo later, tail⟩
    · exact ⟨.removed fenced rest todo, .removed fenced rest todo, empty⟩
  | fencePartitions fenced =>
    cases executed
    split
    · exact ⟨.of_driver _ _ keeps (by rw [todo]; rfl), .of_todo later, tail⟩
    next fences =>
      rw [not_or, Bool.not_eq_true] at fences
      exact ⟨.revoked fenced _ _ rest todo (by rw [todo]; rfl),
        .revoked fenced _ _ rest todo (.inr ⟨rfl, rfl, fences.1⟩),
        fun first => List.forall_mem_cons.mpr ⟨rfl, empty first⟩⟩
  | revoke revoked following =>
    cases executed
    exact ⟨.revoked revoked following _ rest todo (by rw [todo]; rfl),
      .revoked revoked following _ rest todo (.inl rfl),
      fun first => List.forall_mem_cons.mpr ⟨rfl, empty first⟩⟩
  | sendSuspend partitions epoch =>
    cases executed
    exact ⟨.sent _ _ rest todo (Nat.le_refl _) (.inr (by rw [todo]; rfl)), .of_send rfl todo, tail⟩
  | sendHydrate recovered now =>
    cases executed
    exact ⟨.sent _ _ rest todo (Nat.zero_le _) (.inl (by rw [todo]; rfl)), .of_send rfl todo, tail⟩
  | sendSeek partition target now =>
    cases executed
    exact ⟨.sent _ _ rest todo (Nat.zero_le _) (.inl (by rw [todo]; rfl)),
      .seekSent partition target now rest todo, tail⟩
  | sendAssignment assignment now release epoch =>
    cases executed
    exact ⟨.sent _ _ rest todo (Nat.le_refl _) (.inl (by rw [todo]; rfl)),
      .assignmentSent assignment now release epoch rest todo, tail⟩
  | saveRevocation revoked following =>
    cases executed
    exact ⟨.of_driver _ _ keeps (by rw [todo]; rfl), .saved revoked following rest todo, tail⟩
  | readEpoch assignment release =>
    cases executed
    refine ⟨.of_driver _ _ (fun other member => ?_) (by rw [todo]; rfl),
      .epochRead assignment now release rest todo, empty⟩
    rcases List.mem_cons.mp member with rfl | old
    · exact .inr ⟨Nat.le_refl _, nofun⟩
    · exact keeps other old
  | activate assignment =>
    cases executed
    exact ⟨.activated assignment rest todo, .activated assignment rest todo, tail⟩
  | checkSeek partition target now =>
    cases executed
    split
    · exact ⟨.of_driver _ _ keeps (by rw [todo]; rfl), .of_todo later, tail⟩
    next unfenced =>
      refine ⟨.of_driver _ _ (fun other member => ?_) (by rw [todo]; rfl),
        .seekChecked partition target now rest todo unfenced, empty⟩
      rcases List.mem_cons.mp member with rfl | old
      · exact .inr (prepared_of_plain rfl rfl)
      · exact keeps other old
  | stopPrefetch =>
    cases executed
    exact ⟨.stopped rest todo, .stopped rest todo, tail⟩

variable {config : DriverConfig}

theorem maintenanceAnswered_move {trigger : HeartbeatTrigger} {now : Int} {commits : PendingCommits}
    (todo : world.driver.todo = .maintain trigger now commits :: rest)
    (outcomes : List MaintenanceOutcome) :
    world.DriverMove { world with
      driver := world.driver.maintenanceAnswered config trigger now commits outcomes rest } := by
  unfold Driver.maintenanceAnswered
  dsimp only
  split
  · exact .of_driver _ world.opened ⟨rfl, rfl, rfl⟩
      (continues_append todo rfl [_, _] (by simp [DriverOp.plain]))
  · refine .of_driver _ world.opened ⟨rfl, rfl, rfl⟩ (continues_append todo rfl _ fun operation member => ?_)
    rcases List.mem_cons.mp member with rfl | overdue
    · rfl
    · split at overdue
      · rw [List.mem_singleton.mp overdue]
        rfl
      · cases overdue

/-- A procedure begins with operations that hold no epoch and no offsets. -/
theorem prepared_begun
    (plain : ∀ operation ∈ added, operation.epoch = 0 ∧ unpassed operation = none) :
    ∀ operation ∈ added, operation ∈ before.driver.todo ∨ before.Prepared operation :=
  fun operation member => .inr (prepared_of_plain (plain operation member).1 (plain operation member).2)

theorem driverStep_step {action : DriverAction}
    (stepped : world.driverStep config action = some after) : world.DriverStep after := by
  have empty (first : world.CollectsFirst) {head : DriverOp} {rest : List DriverOp}
      (todo : world.driver.todo = head :: rest) : ∀ other ∈ rest, unpassed other = none :=
    fun other member => first other (by rw [todo]; exact member)
  cases action with
  | heartbeat trigger now =>
    obtain ⟨idle, rfl⟩ := begin_eq_some stepped
    exact ⟨.of_driver _ _ (prepared_begun (by simp [DriverOp.epoch, unpassed])) (by rw [idle]; rfl),
      .of_todo (continues_begun idle (by simp [DriverOp.plain])), fun _ => nofun⟩
  | rebalance plan partitions outcomes now =>
    simp only [driverStep, Option.ite_none_left_eq_some, Option.map_eq_some_iff, not_or,
      Bool.not_eq_true] at stepped
    obtain ⟨⟨settled, -⟩, begun, started, rfl⟩ := stepped
    obtain ⟨idle, rfl⟩ := begin_eq_some started
    exact ⟨.of_driver _ _ (prepared_begun (rebalanceOperations_plain _ _ now)) (by rw [idle]; rfl),
      .rebalanced _ _ now idle settled ⟨rfl, rfl, rfl⟩ rfl, fun _ operation member =>
        (rebalanceOperations_plain _ _ now operation (List.mem_of_mem_tail member)).2⟩
  | seek partition target now =>
    have begun : world.begin _ = some after := stepped
    obtain ⟨idle, rfl⟩ := begin_eq_some begun
    split
    next active =>
      exact ⟨.of_driver _ _ (prepared_begun (by simp [DriverOp.epoch, unpassed]))
        (by rw [idle]; rfl), .seekBegun partition target now idle active, fun _ => nofun⟩
    next => exact ⟨.of_driver _ _ nofun (by rw [idle]; rfl), .of_todo nofun, fun _ => nofun⟩
  | finishRevocation now =>
    simp only [driverStep, Option.ite_none_right_eq_some, Option.map_eq_some_iff] at stepped
    obtain ⟨⟨waiting, -⟩, begun, started, rfl⟩ := stepped
    obtain ⟨idle, rfl⟩ := begin_eq_some started
    exact ⟨.of_driver _ _ (prepared_begun (by simp [withTodo, DriverOp.epoch, unpassed]))
      (by rw [idle]; rfl), .releasing _ _ now idle waiting ⟨rfl, rfl, rfl⟩ rfl, fun _ => nofun⟩
  | shutdown now =>
    simp only [driverStep, Option.map_eq_some_iff] at stepped
    obtain ⟨begun, started, rfl⟩ := stepped
    obtain ⟨idle, rfl⟩ := begin_eq_some started
    refine ⟨.of_driver _ false (prepared_begun ?_) (by rw [idle]; rfl),
      .of_driver _ false ⟨rfl, rfl, rfl⟩ (continues_begun idle ?_), fun _ => ?_⟩
    · simp [withTodo, Driver.shutdownOperations, DriverOp.epoch, unpassed]
    · simp [withTodo, Driver.shutdownOperations, DriverOp.plain]
    · simp [CollectsFirst, withTodo, Driver.shutdownOperations, unpassed]
  | proceed =>
    simp only [driverStep] at stepped
    split at stepped
    · cases stepped
    next operation rest todo => exact execute_step todo stepped
  | membershipAnswered succeeded =>
    simp only [driverStep] at stepped
    split at stepped
    next now commits rest todo =>
      cases stepped
      unfold Driver.membershipAnswered
      split
      · refine ⟨.of_driver _ world.opened (fun other member => ?_) (by rw [todo]; rfl),
          .of_driver _ world.opened ⟨rfl, rfl, rfl⟩
            (continues_append todo rfl [_] (by simp [DriverOp.plain])), fun first => empty first todo⟩
        rw [todo]
        rcases List.mem_cons.mp member with rfl | later
        · refine .inr ⟨Nat.zero_le _, fun passed held => .inr ⟨.heartbeatMember now commits, ?_, held⟩⟩
          rw [todo]
          exact List.mem_cons_self
        · exact .inl (List.mem_cons_of_mem _ later)
      · split
        · refine ⟨.of_plain _ todo (fun other member => ?_) rfl, .of_driver _ world.opened ⟨rfl, rfl, rfl⟩
            (continues_append todo rfl _ (by simp [DriverOp.plain])), fun first => empty first todo⟩
          rcases List.mem_cons.mp member with rfl | later
          · exact .inr ⟨rfl, rfl⟩
          · exact .inl later
        · exact ⟨.of_plain _ todo (fun _ member => .inl member) rfl,
            .of_driver _ world.opened ⟨rfl, rfl, rfl⟩ (continues_of_mem todo),
            fun first other member => empty first todo other (List.mem_of_mem_tail member)⟩
    next => cases stepped
  | maintenanceAnswered outcomes =>
    simp only [driverStep] at stepped
    split at stepped
    next trigger now commits rest todo =>
      rw [Option.ite_none_right_eq_some] at stepped
      obtain ⟨-, stepped⟩ := stepped
      cases stepped
      have answered := maintenanceAnswered_todo config world.driver trigger now commits outcomes rest
      refine ⟨.of_plain _ todo answered rfl, maintenanceAnswered_move todo outcomes,
        fun first other member => ?_⟩
      exact (answered other (List.mem_of_mem_tail member)).elim (empty first todo other) And.right
    next => cases stepped
  | releaseAnswered released succeeded now =>
    simp only [driverStep] at stepped
    split at stepped
    next revoked begun rest todo =>
      rw [Option.ite_none_right_eq_some] at stepped
      obtain ⟨-, stepped⟩ := stepped
      cases stepped
      have answered := releaseAnswered_todo world.driver released succeeded now rest
      refine ⟨.of_plain _ todo answered rfl, ?_, fun first other member => ?_⟩
      · unfold Driver.releaseAnswered
        split
        · exact .released _ revoked begun rest todo rfl rfl rfl rfl
        · -- A failed release ends the driver and forgets the rest of the procedure.
          refine .of_driver _ world.opened ⟨rfl, rfl, rfl⟩ fun operation member => ?_
          exact continues_append todo rfl _ (by simp [Driver.shutdownOperations, DriverOp.plain])
            operation (List.mem_append_left _ member)
      · exact (answered other (List.mem_of_mem_tail member)).elim (empty first todo other) And.right
    next begun rest todo =>
      rw [Option.ite_none_right_eq_some] at stepped
      obtain ⟨-, stepped⟩ := stepped
      cases stepped
      exact ⟨.of_plain _ todo (fun _ member => .inl member) rfl,
        .of_driver _ world.opened ⟨rfl, rfl, rfl⟩ (continues_of_mem todo),
        fun first other member => empty first todo other (List.mem_of_mem_tail member)⟩
    next => cases stepped

end IteratorWorld

end BlobStream.Consumer
