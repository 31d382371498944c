import BlobStream.Lib.FiniteMap
import BlobStream.Snowflake

/-!
# Partition states of a consumer reader

Cursors that arrive before their partition is assigned are pending; an assigned partition scans its
first window (`fresh`), a part of the retained history (`recovering`) or the windows that can still
change (`fast`). Cursors move backwards only when the application seeks.
-/

namespace BlobStream.Consumer

open Write (SnowflakeId TopicWindowKey windowStart)

/-! ### States -/

/-- Windows a recovery still has to scan, up to the cutover captured at its start. -/
structure RecoveryState where
  nextWindowStartUnixSeconds : Int
  cutoverWindowStartUnixSeconds : Int
  firstWindowStartUnixSeconds : Option Int
  firstWindowMinSnowflake : Option SnowflakeId
deriving DecidableEq, Repr

/-- A gap that is probed until the window before it is mature. -/
structure FastGapState where
  nextProbeAt : Int
  maturityAt : Int
  expectedSequence : Nat
deriving DecidableEq, Repr

inductive VirtualPartitionState
  | pendingCursor (cursor : Nat)
  | pendingRecovering (cursor : Nat) (recovery : RecoveryState)
  | pendingFast (cursor : Nat)
  | fresh (cursor : Option Nat) (initialWindowStartUnixSeconds : Int)
  | recovering (cursor : Option Nat) (recovery : RecoveryState)
  | fast (cursor : Option Nat) (coverageFloor : Option Int) (gap : Option FastGapState)
deriving DecidableEq, Repr

namespace VirtualPartitionState

/-- Pending partitions are not scanned. -/
def isAssigned : VirtualPartitionState → Bool
  | pendingCursor _ | pendingRecovering .. | pendingFast _ => false
  | fresh .. | recovering .. | fast .. => true

def cursor : VirtualPartitionState → Option Nat
  | pendingCursor cursor | pendingRecovering cursor _ | pendingFast cursor => some cursor
  | fresh cursor _ | recovering cursor _ | fast cursor _ _ => cursor

def storeCursor (cursor : Nat) : VirtualPartitionState → VirtualPartitionState
  | pendingCursor _ => pendingCursor cursor
  | pendingRecovering _ recovery => pendingRecovering cursor recovery
  | pendingFast _ => pendingFast cursor
  | fresh _ initial => fresh (some cursor) initial
  | recovering _ recovery => recovering (some cursor) recovery
  | fast _ floor gap => fast (some cursor) floor gap

def clearFastGapHold : VirtualPartitionState → VirtualPartitionState
  | fast cursor floor _ => fast cursor floor none
  | state => state

/-- Clear a hold once a read consumed the sequence it was waiting for. -/
def resolveFastGapHoldThrough (cursor : Nat) : VirtualPartitionState → VirtualPartitionState
  | fast own floor (some gap) =>
    if gap.expectedSequence ≤ cursor then fast own floor none else fast own floor (some gap)
  | state => state

/-- An explicit seek replaces the cursor. -/
def setCursor (cursor : Nat) (state : VirtualPartitionState) : VirtualPartitionState :=
  (state.storeCursor cursor).clearFastGapHold

def advanceCursor (cursor : Nat) (state : VirtualPartitionState) : VirtualPartitionState :=
  let next := match state.cursor with
    | some current => max current cursor
    | none => cursor
  (state.storeCursor next).resolveFastGapHoldThrough next

def intoAssigned (initialWindowStart : Int) : VirtualPartitionState → VirtualPartitionState
  | pendingCursor cursor => fresh (some cursor) initialWindowStart
  | pendingRecovering cursor recovery => recovering (some cursor) recovery
  | pendingFast cursor => fast (some cursor) none none
  | state => state

def startRecovery (recovery : RecoveryState) (state : VirtualPartitionState) :
    VirtualPartitionState :=
  if state.isAssigned then recovering state.cursor recovery
  else pendingRecovering (state.cursor.getD 0) recovery

def fastCoverageFloor : VirtualPartitionState → Option Int
  | fast _ floor _ => floor
  | _ => none

def fastGap : VirtualPartitionState → Option FastGapState
  | fast _ _ gap => gap
  | _ => none

/-- Clear a hold when nothing can be published before the gap any more. -/
def clearFastGapHoldIfMature (now : Int) (state : VirtualPartitionState) : VirtualPartitionState :=
  match state.fastGap with
  | some gap => if gap.maturityAt ≤ now then state.clearFastGapHold else state
  | none => state

def isFast : VirtualPartitionState → Bool
  | fast .. => true
  | _ => false

section Cursors

variable (state : VirtualPartitionState)

@[simp] theorem storeCursor_cursor (cursor : Nat) : (state.storeCursor cursor).cursor = some cursor := by
  cases state <;> rfl

@[simp] theorem clearFastGapHold_cursor : state.clearFastGapHold.cursor = state.cursor := by
  cases state <;> rfl

@[simp] theorem resolveFastGapHoldThrough_cursor (cursor : Nat) :
    (state.resolveFastGapHoldThrough cursor).cursor = state.cursor := by
  unfold resolveFastGapHoldThrough
  repeat' split
  all_goals rfl

@[simp] theorem setCursor_cursor (cursor : Nat) : (state.setCursor cursor).cursor = some cursor := by
  simp [setCursor]

@[simp] theorem intoAssigned_cursor (initial : Int) :
    (state.intoAssigned initial).cursor = state.cursor := by
  cases state <;> rfl

/-- Reads and recovered cursors never move a cursor backwards. -/
theorem advanceCursor_cursor (cursor : Nat) :
    ∃ next, (state.advanceCursor cursor).cursor = some next ∧ cursor ≤ next
      ∧ ∀ current, state.cursor = some current → current ≤ next := by
  refine ⟨match state.cursor with | some current => max current cursor | none => cursor, ?_, ?_, ?_⟩
  · simp [advanceCursor]
  · split
    · exact Nat.le_max_right _ _
    · exact Nat.le_refl _
  · intro current known
    rw [known]
    exact Nat.le_max_left _ _

end Cursors

end VirtualPartitionState

/-! ### Configuration -/

inductive MetadataReadConsistency
  | strong
  | eventual
deriving DecidableEq, Repr

/-- Settings that can change between two passes. Spans are in nanoseconds. -/
structure ReadSettings where
  metadataReadConsistency : MetadataReadConsistency := .strong
  metadataVisibilityDelay : Nat := 0
deriving DecidableEq, Repr

/-- Configuration of a reader. Spans are in nanoseconds; windows are whole seconds. -/
structure ReaderConfig where
  topic : Topic
  retention : Nat
  maximumMetadataPublicationLag : Nat
  maximumClockSkew : Nat
  metadataCacheMaxAge : Nat := 0
  metadataWindowSeconds : Nat
  retention_pos : 0 < retention
  window_pos : 0 < metadataWindowSeconds
  sonyflake : Sonyflake

/-- Windows of ten seconds; clocks differ by at most one second. -/
def tenSecondWindows : ReaderConfig where
  topic := "orders"
  retention := 100000000000
  maximumMetadataPublicationLag := 5000000000
  maximumClockSkew := 1000000000
  metadataWindowSeconds := 10
  retention_pos := by decide
  window_pos := by decide
  sonyflake := tenMillisecondSonyflake

namespace ReaderConfig

variable (config : ReaderConfig)

def metadataWindowSize : Int := config.metadataWindowSeconds * nanoseconds

/-- `availability_horizon`: how long metadata may stay unpublished or invisible. -/
def availabilityHorizon (settings : ReadSettings) : Nat :=
  config.maximumMetadataPublicationLag + config.maximumClockSkew + settings.metadataVisibilityDelay
    + match settings.metadataReadConsistency with
      | .eventual => config.metadataCacheMaxAge
      | .strong => 0

def window (instant : Int) : Int := windowStart instant config.metadataWindowSize

def retentionFloorWindowStart (cutoverWindowStart : Int) : Int :=
  config.window (saturatingSubTime cutoverWindowStart config.retention)

end ReaderConfig

/-! ### Lifecycle -/

abbrev PartitionStates := AList fun _ : VirtualPartitionId => VirtualPartitionState

structure Reader where
  virtualPartitionStates : PartitionStates := ∅
  /-- Inclusive replay points of fast scans, by partition and window. -/
  fastFrontiers : VirtualPartitionId → Int → Option SnowflakeId := fun _ _ => none
  recoveryScanLastPartition : Option VirtualPartitionId := none

structure ConsumerSeekTarget where
  offset : Nat
  windowStartUnixSeconds : Int
  snowflakeId : Option SnowflakeId
deriving DecidableEq, Repr

namespace Reader

variable (config : ReaderConfig) (reader : Reader)

def state (partition : VirtualPartitionId) : Option VirtualPartitionState :=
  reader.virtualPartitionStates.lookup partition

def cursor (partition : VirtualPartitionId) : Option Nat :=
  (reader.state partition).bind VirtualPartitionState.cursor

def assignedVirtualPartitionIds : List VirtualPartitionId :=
  ((reader.virtualPartitionStates.entries.filter fun entry => entry.2.isAssigned).map
    Sigma.fst).insertionSort (· ≤ ·)

def retainFrontiers (keep : VirtualPartitionId → Bool) : VirtualPartitionId → Int → Option SnowflakeId :=
  fun partition window => if keep partition then reader.fastFrontiers partition window else none

/-- Activate the state of one partition, or start it in the current window. -/
def assignPartition (initialWindowStart : Int) (states : PartitionStates)
    (partition : VirtualPartitionId) : PartitionStates :=
  states.insert partition <|
    match states.lookup partition with
    | some state => state.intoAssigned initialWindowStart
    | none => .fresh none initialWindowStart

/-- `set_assigned_virtual_partitions`: states of other partitions are dropped. -/
def setAssignedVirtualPartitions (assigned : List VirtualPartitionId) (now : Int) : Reader where
  virtualPartitionStates :=
    assigned.foldl (assignPartition (unixSeconds (config.window now)))
      (reader.virtualPartitionStates.retain (· ∈ assigned))
  fastFrontiers :=
    if reader.assignedVirtualPartitionIds = assigned then reader.fastFrontiers
    else reader.retainFrontiers (· ∈ assigned)
  recoveryScanLastPartition := reader.recoveryScanLastPartition

def suspendReadPartitions (revoked : List VirtualPartitionId) : Reader where
  virtualPartitionStates := reader.virtualPartitionStates.retain (· ∉ revoked)
  fastFrontiers := reader.retainFrontiers (· ∉ revoked)
  recoveryScanLastPartition := reader.recoveryScanLastPartition.filter (· ∉ revoked)

def setState (partition : VirtualPartitionId) (state : VirtualPartitionState) : Reader :=
  { reader with virtualPartitionStates := reader.virtualPartitionStates.insert partition state }

def setCursor (partition : VirtualPartitionId) (seqEnd : Nat) : Reader :=
  let state := match reader.state partition with
    | some state => state.setCursor seqEnd
    | none => .pendingFast seqEnd
  { reader.setState partition state with
    fastFrontiers := reader.retainFrontiers (· ≠ partition) }

/-- Lowest identity to read again in the first window of a recovery from a checkpoint. -/
def checkpointMinSnowflake (settings : ReadSettings) (snowflakeId : SnowflakeId) (window : Int) :
    Option SnowflakeId :=
  (config.sonyflake.timestamp snowflakeId).map fun timestamp =>
    config.sonyflake.minimumForTimestamp
      (max (saturatingSubTime timestamp (config.availabilityHorizon settings)) window)

/-- The recovery a seek starts: from the target's window, but neither after the current window nor
before the retained ones. -/
def seekRecovery (settings : ReadSettings) (target : ConsumerSeekTarget) (now : Int) :
    RecoveryState :=
  let cutover := config.window now
  let targetWindow := config.window (instantOfUnixSeconds target.windowStartUnixSeconds)
  let start := max (min targetWindow cutover) (config.retentionFloorWindowStart cutover)
  { nextWindowStartUnixSeconds := unixSeconds start
    cutoverWindowStartUnixSeconds := unixSeconds cutover
    firstWindowStartUnixSeconds := if start = targetWindow then some (unixSeconds start) else none
    firstWindowMinSnowflake :=
      if start = targetWindow then
        target.snowflakeId.bind fun id => checkpointMinSnowflake config settings id start
      else none }

def seek (settings : ReadSettings) (partition : VirtualPartitionId) (target : ConsumerSeekTarget)
    (now : Int) : Reader :=
  let recovery := seekRecovery config settings target now
  let moved := reader.setCursor partition target.offset
  match moved.state partition with
  | some state => moved.setState partition (state.startRecovery recovery)
  | none => moved.setState partition (.pendingRecovering target.offset recovery)

def sourceWindowStart (committed : CommittedCursor) (committedTsMs : Option Int) (now : Int) : Int :=
  let floor := config.retentionFloorWindowStart (config.window now)
  let source := match committed.sourceCheckpoint with
    | some checkpoint => some (instantOfUnixSeconds checkpoint.windowStartUnixSeconds)
    | none => committedTsMs.map fun millis => config.window (instantOfUnixMillis millis)
  max (source.getD floor) floor

def hydrateRecovery (settings : ReadSettings) (committed : CommittedCursor)
    (committedTsMs : Option Int) (now : Int) : RecoveryState :=
  let cutover := config.window now
  let source := sourceWindowStart config committed committedTsMs now
  { nextWindowStartUnixSeconds := unixSeconds source
    cutoverWindowStartUnixSeconds := unixSeconds cutover
    firstWindowStartUnixSeconds := committed.sourceCheckpoint.map (·.windowStartUnixSeconds)
    firstWindowMinSnowflake :=
      (committed.sourceCheckpoint.filter fun checkpoint =>
        instantOfUnixSeconds checkpoint.windowStartUnixSeconds = source && source ≤ cutover).bind
        fun checkpoint => checkpointMinSnowflake config settings checkpoint.snowflakeId source }

/-- `hydrate_cursor_with_source`: a partition that already has a plan only moves its cursor. -/
def hydrateCursorWithSource (settings : ReadSettings) (partition : VirtualPartitionId)
    (committed : CommittedCursor) (committedTsMs : Option Int) (now : Int) : Reader :=
  let hydrated := match reader.cursor partition with
    | some cursor => max cursor committed.seqEnd
    | none => committed.seqEnd
  let planned :=
    if sourceWindowStart config committed committedTsMs now ≤ config.window now then
      .pendingRecovering hydrated (hydrateRecovery config settings committed committedTsMs now)
    else .pendingFast hydrated
  match reader.state partition with
  | some (.pendingCursor _) | none => reader.setState partition planned
  | some state => reader.setState partition (state.advanceCursor committed.seqEnd)

/-! ### Cursors under commands -/

def AtLeast (partition : VirtualPartitionId) (offset : Nat) : Prop :=
  ∃ cursor, reader.cursor partition = some cursor ∧ offset ≤ cursor

variable {config reader} {partition other : VirtualPartitionId} {offset : Nat}

theorem state_setState (state : VirtualPartitionState) :
    (reader.setState other state).state partition =
      if partition = other then some state else reader.state partition := by
  unfold setState Reader.state
  split
  next same => rw [same, AList.lookup_insert]
  next different => exact AList.lookup_insert_ne different

theorem AtLeast.of_state_eq {next : Reader} (atLeast : reader.AtLeast partition offset)
    (same : next.state partition = reader.state partition) : next.AtLeast partition offset := by
  unfold AtLeast cursor at atLeast ⊢
  rwa [same]

theorem atLeast_of_state {state : VirtualPartitionState} {cursor : Nat}
    (known : reader.state partition = some state) (current : state.cursor = some cursor)
    (bound : offset ≤ cursor) : reader.AtLeast partition offset :=
  ⟨cursor, by simp [Reader.cursor, known, current], bound⟩

theorem AtLeast.state (atLeast : reader.AtLeast partition offset) :
    ∃ state cursor, reader.state partition = some state ∧ state.cursor = some cursor
      ∧ offset ≤ cursor := by
  obtain ⟨cursor, known, bound⟩ := atLeast
  obtain ⟨state, found, current⟩ := Option.bind_eq_some_iff.mp known
  exact ⟨state, cursor, found, current, bound⟩

theorem foldl_assignPartition_lookup (initial : Int) (assigned : List VirtualPartitionId)
    (states : PartitionStates) {state : VirtualPartitionState} {cursor : Nat}
    (found : states.lookup partition = some state) (current : state.cursor = some cursor) :
    ∃ next, (assigned.foldl (assignPartition initial) states).lookup partition = some next
      ∧ next.cursor = some cursor := by
  induction assigned generalizing states state with
  | nil => exact ⟨state, found, current⟩
  | cons first rest ih =>
    by_cases same : partition = first
    · subst same
      have moved : (assignPartition initial states partition).lookup partition
          = some (state.intoAssigned initial) := by
        simp [assignPartition, found]
      exact ih _ moved (by simpa using current)
    · refine ih _ ?_ current
      rw [assignPartition, AList.lookup_insert_ne same]
      exact found

variable {now : Int} {assigned : List VirtualPartitionId}

theorem AtLeast.setAssignedVirtualPartitions
    (atLeast : reader.AtLeast partition offset) (listed : partition ∈ assigned) :
    (reader.setAssignedVirtualPartitions config assigned now).AtLeast partition offset := by
  obtain ⟨state, cursor, found, current, bound⟩ := atLeast.state
  have kept : (reader.virtualPartitionStates.retain (· ∈ assigned)).lookup partition = some state := by
    rw [AList.lookup_retain, if_pos (by simpa using listed)]
    exact found
  obtain ⟨next, foundNext, currentNext⟩ := foldl_assignPartition_lookup _ assigned _ kept current
  exact atLeast_of_state foundNext currentNext bound

theorem foldl_assignPartition_of_not_mem (initial : Int)
    (states : PartitionStates) (other : partition ∉ assigned) :
    (assigned.foldl (assignPartition initial) states).lookup partition = states.lookup partition := by
  induction assigned generalizing states with
  | nil => rfl
  | cons first rest ih =>
    rw [List.mem_cons, not_or] at other
    rw [List.foldl_cons, ih _ other.2, assignPartition, AList.lookup_insert_ne other.1]

theorem state_setAssignedVirtualPartitions_of_not_mem (other : partition ∉ assigned) :
    (reader.setAssignedVirtualPartitions config assigned now).state partition = none := by
  unfold setAssignedVirtualPartitions Reader.state
  rw [foldl_assignPartition_of_not_mem _ _ other, AList.lookup_retain, if_neg (by simpa using other)]

theorem state_suspendReadPartitions (revoked : List VirtualPartitionId) :
    (reader.suspendReadPartitions revoked).state partition =
      if partition ∈ revoked then none else reader.state partition := by
  unfold suspendReadPartitions Reader.state
  rw [AList.lookup_retain]
  by_cases listed : partition ∈ revoked <;> simp [listed]

variable {settings : ReadSettings}

theorem AtLeast.hydrateCursorWithSource {committed : CommittedCursor} {committedTsMs : Option Int}
    (atLeast : reader.AtLeast partition offset) :
    (reader.hydrateCursorWithSource config settings other committed committedTsMs now).AtLeast
      partition offset := by
  obtain ⟨state, cursor, found, current, bound⟩ := atLeast.state
  by_cases same : partition = other
  · subst same
    have known : reader.cursor partition = some cursor := by simp [Reader.cursor, found, current]
    have advanced : (reader.setState partition (state.advanceCursor committed.seqEnd)).AtLeast
        partition offset := by
      obtain ⟨next, moved, -, notBehind⟩ := state.advanceCursor_cursor committed.seqEnd
      exact atLeast_of_state (by rw [state_setState, if_pos rfl]) moved
        (bound.trans (notBehind cursor current))
    unfold Reader.hydrateCursorWithSource
    cases state with
    | pendingCursor own =>
      simp only [found, known]
      refine atLeast_of_state (by rw [state_setState, if_pos rfl]) ?_
        (bound.trans (Nat.le_max_left cursor committed.seqEnd))
      split <;> rfl
    | pendingRecovering | pendingFast | fresh | recovering | fast =>
      simpa only [found] using advanced
  · unfold Reader.hydrateCursorWithSource
    refine atLeast.of_state_eq ?_
    rcases reader.state other with _ | (_ | _ | _ | _ | _ | _) <;>
      exact (state_setState _).trans (if_neg same)

theorem state_seek_of_ne {target : ConsumerSeekTarget} (different : partition ≠ other) :
    (reader.seek config settings other target now).state partition = reader.state partition := by
  unfold seek
  dsimp only
  split <;> rw [state_setState, if_neg different] <;>
    exact (state_setState _).trans (if_neg different)

theorem atLeast_seek (settings : ReadSettings) (target : ConsumerSeekTarget) (now : Int) :
    (reader.seek config settings partition target now).AtLeast partition target.offset := by
  have moved : ∃ state, (reader.setCursor partition target.offset).state partition = some state
      ∧ state.cursor = some target.offset := by
    refine ⟨_, (state_setState _).trans (if_pos rfl), ?_⟩
    split
    · simp
    · rfl
  obtain ⟨state, found, current⟩ := moved
  unfold seek
  simp only [found]
  exact atLeast_of_state (by rw [state_setState, if_pos rfl])
    (by unfold VirtualPartitionState.startRecovery; rw [current]; split <;> rfl) (Nat.le_refl _)

end Reader

end BlobStream.Consumer
