import BlobStream.Consumer.ScanPlanning

/-!
# Recovery from a checkpoint

A recovery from a committed cursor starts in the window of the row that supplied it, a horizon below
that row's identity. Rows that follow in the sequence are stamped later, but by brokers whose clocks
may be behind: after a hand-over, the next row can fall into the window before. The rows covered are
those of the first window of the recovery and of later ones; a checkpoint that is the clock skew inside
its window misses none.
-/

namespace BlobStream.Consumer

open Write (SnowflakeId SegmentMetadata windowKey windowStart)

/-! ### Rows stamped by brokers -/

structure BrokerClocks where
  reading : String → Int → Int
  monotone : ∀ broker {earlier later : Int}, earlier ≤ later →
    reading broker earlier ≤ reading broker later

/-- At every instant the clocks differ by at most the given span. -/
def BrokerClocks.Within (clocks : BrokerClocks) (skew : Nat) : Prop :=
  ∀ first second instant, clocks.reading first instant ≤ clocks.reading second instant + skew

/-- A metadata row with the broker that stamped it and the real time at which it did. -/
structure StampedRow where
  broker : String
  stampedAt : Int
  metadata : SegmentMetadata
deriving DecidableEq

namespace StampedRow

def instant (clocks : BrokerClocks) (row : StampedRow) : Int :=
  clocks.reading row.broker row.stampedAt

def range (partition : VirtualPartitionId) (row : StampedRow) : Option SeqRange :=
  (row.metadata.segmentIndex.lookup partition).map (·.seqRange)

def window (row : StampedRow) : Int := row.metadata.window.windowStartUnixSeconds

/-- Window and identity come from one reading of the broker's clock. -/
structure Stamped (config : ReaderConfig) (clocks : BrokerClocks) (row : StampedRow) : Prop where
  window : row.metadata.window
    = windowKey (row.instant clocks) config.metadataWindowSize config.topic
  generated : config.sonyflake.Generated row.metadata.snowflakeId (row.instant clocks)

def checkpoint (row : StampedRow) : CommittedSourceCheckpoint :=
  ⟨row.window, row.metadata.snowflakeId⟩

end StampedRow

/-- Rows of one partition under the single-writer discipline: their ranges do not overlap, and a row
with later sequences is stamped later. -/
structure PublicationHistory (config : ReaderConfig) (clocks : BrokerClocks)
    (partition : VirtualPartitionId) (rows : List StampedRow) : Prop where
  stamped : ∀ row ∈ rows, row.Stamped config clocks
  valid : ∀ row ∈ rows, ∀ range, row.range partition = some range → range.start ≤ range.end
  ordered : ∀ first ∈ rows, ∀ second ∈ rows, first ≠ second → ∀ low high,
    first.range partition = some low → second.range partition = some high →
      (low.end < high.start ∧ first.stampedAt ≤ second.stampedAt)
        ∨ (high.end < low.start ∧ second.stampedAt ≤ first.stampedAt)

/-! ### Requests that serve a row -/

/-- A recovery request returns the row of the given identity to the partition. -/
structure ScanRequest.Serves (request : ScanRequest) (window : Int)
    (partition : VirtualPartitionId) (id : SnowflakeId) : Prop where
  window : request.window.windowStartUnixSeconds = window
  query : ∀ bound, request.minSnowflake = some bound → bound ≤ id
  eligible : partition ∈ request.eligibility.recoveringPartitions
  bounded : ∃ lower, request.recoveryPartitionBounds.lookup partition = some lower
    ∧ ∀ bound, lower = some bound → bound ≤ id

/-- The request does not raise the partition's bound above the identity. -/
def ScanRequest.Harmless (request : ScanRequest) (partition : VirtualPartitionId)
    (id : SnowflakeId) : Prop :=
  ∀ lower, request.recoveryPartitionBounds.lookup partition = some lower →
    ∀ bound, lower = some bound → bound ≤ id

section Merging

variable {window : Int} {partition : VirtualPartitionId} {id : SnowflakeId}
variable {request added : ScanRequest} {requests : ScanRequests}

theorem minBound_le_left {left right : Option SnowflakeId}
    (below : ∀ bound, left = some bound → bound ≤ id) :
    ∀ bound, minBound left right = some bound → bound ≤ id := by
  intro bound is
  match left, right, is with
  | some first, some second, is =>
    cases is
    exact Nat.le_trans (Nat.min_le_left _ _) (below first rfl)

theorem minBound_comm (left right : Option SnowflakeId) : minBound left right = minBound right left := by
  cases left <;> cases right <;> simp [minBound, Nat.min_comm]

theorem ScanRequest.Serves.merge_left (serves : request.Serves window partition id)
    (harmless : added.Harmless partition id) :
    (request.merge added).Serves window partition id := by
  obtain ⟨isWindow, query, eligible, lower, found, below⟩ := serves
  constructor
  · exact isWindow
  · exact minBound_le_left query
  · exact List.mem_append_left _ eligible
  · show ∃ lower, (added.recoveryPartitionBounds ∪ request.recoveryPartitionBounds).lookup partition
      = some lower ∧ _
    by_cases overridden : partition ∈ added.recoveryPartitionBounds
    · obtain ⟨own, isOwn⟩ := Option.isSome_iff_exists.mp (AList.lookup_isSome.mpr overridden)
      rw [AList.lookup_union_left overridden]
      exact ⟨own, isOwn, harmless own isOwn⟩
    · rw [AList.lookup_union_right overridden]
      exact ⟨lower, found, below⟩

theorem ScanRequest.Serves.merge_right (serves : added.Serves window partition id)
    (same : added.window.windowStartUnixSeconds = request.window.windowStartUnixSeconds) :
    (request.merge added).Serves window partition id := by
  obtain ⟨isWindow, query, eligible, lower, found, below⟩ := serves
  constructor
  · exact same.symm.trans isWindow
  · show ∀ bound, minBound request.minSnowflake added.minSnowflake = some bound → bound ≤ id
    rw [minBound_comm]
    exact minBound_le_left query
  · by_cases known : partition ∈ request.eligibility.recoveringPartitions
    · exact List.mem_append_left _ known
    · exact List.mem_append_right _ (List.mem_filter.mpr ⟨eligible, by simpa using known⟩)
  · show ∃ lower, (added.recoveryPartitionBounds ∪ request.recoveryPartitionBounds).lookup partition
      = some lower ∧ _
    have present : partition ∈ added.recoveryPartitionBounds :=
      AList.lookup_isSome.mp (by rw [found]; rfl)
    rw [AList.lookup_union_left present]
    exact ⟨lower, found, below⟩

/-- A request is inserted as it is, or merged into the one of its window. -/
theorem insertScanRequest_cases (added : ScanRequest) (requests : ScanRequests) :
    (∃ front back, requests = front ++ back
        ∧ insertScanRequest added requests = front ++ added :: back)
      ∨ ∃ front old back, requests = front ++ old :: back
        ∧ added.window.windowStartUnixSeconds = old.window.windowStartUnixSeconds
        ∧ insertScanRequest added requests = front ++ old.merge added :: back := by
  induction requests with
  | nil => exact .inl ⟨[], [], rfl, rfl⟩
  | cons first rest ih =>
    unfold insertScanRequest
    split
    · exact .inl ⟨[], first :: rest, rfl, rfl⟩
    · split
      next same => exact .inr ⟨[], first, rest, rfl, same, rfl⟩
      · rcases ih with ⟨front, back, rfl, is⟩ | ⟨front, old, back, rfl, same, is⟩
        · exact .inl ⟨first :: front, back, rfl, congrArg _ is⟩
        · exact .inr ⟨first :: front, old, back, rfl, same, congrArg _ is⟩

theorem insertScanRequest_serves_new (serves : added.Serves window partition id)
    (requests : ScanRequests) :
    ∃ request ∈ insertScanRequest added requests, request.Serves window partition id := by
  rcases insertScanRequest_cases added requests with ⟨_, _, -, is⟩ | ⟨_, old, _, -, same, is⟩
  · exact ⟨added, by simp [is], serves⟩
  · exact ⟨old.merge added, by simp [is], serves.merge_right same⟩

theorem insertScanRequest_serves_old
    (harmless : added.window.windowStartUnixSeconds = window → added.Harmless partition id)
    (served : ∃ request ∈ requests, request.Serves window partition id) :
    ∃ request ∈ insertScanRequest added requests, request.Serves window partition id := by
  obtain ⟨request, member, serves⟩ := served
  rcases insertScanRequest_cases added requests
    with ⟨front, back, rfl, is⟩ | ⟨front, old, back, rfl, same, is⟩
  · refine ⟨request, ?_, serves⟩
    rw [is]
    exact (List.sublist_cons_self added back).append_left front |>.subset member
  · by_cases merged : request = old
    · subst merged
      exact ⟨_, by simp [is], serves.merge_left (harmless (same.trans serves.window))⟩
    · refine ⟨request, ?_, serves⟩
      simp only [is, List.mem_append, List.mem_cons, merged, false_or] at member ⊢
      exact member.imp_right .inr

theorem foldl_insert_serves (list : List ScanRequest)
    (harmless : ∀ request ∈ list, request.window.windowStartUnixSeconds = window →
      request.Harmless partition id)
    (served : (∃ request ∈ requests, request.Serves window partition id)
      ∨ ∃ request ∈ list, request.Serves window partition id) :
    ∃ request ∈ list.foldl (fun requests request => insertScanRequest request requests) requests,
      request.Serves window partition id := by
  induction list generalizing requests with
  | nil =>
    rcases served with served | ⟨_, member, -⟩
    · exact served
    · cases member
  | cons first rest ih =>
    refine ih (fun request member => harmless request (List.mem_cons_of_mem _ member)) ?_
    rcases served with served | ⟨request, member, serves⟩
    · exact Or.inl (insertScanRequest_serves_old (harmless first List.mem_cons_self) served)
    · rcases List.mem_cons.mp member with rfl | later
      · exact Or.inl (insertScanRequest_serves_new serves requests)
      · exact Or.inr ⟨request, later, serves⟩

end Merging

/-! ### Recovery requests of a pass -/

section Requests

variable {config : ReaderConfig} {settings : ReadSettings} {reader planned : Reader}
variable {partition : VirtualPartitionId} {cursor : Option Nat} {recovery : RecoveryState}
variable {requests : ScanRequests}

theorem insertScanRequest_eligible {added request : ScanRequest}
    (member : request ∈ insertScanRequest added requests)
    (eligible : partition ∈ request.eligibility.recoveringPartitions) :
    partition ∈ added.eligibility.recoveringPartitions
      ∨ ∃ old ∈ requests, partition ∈ old.eligibility.recoveringPartitions := by
  rcases insertScanRequest_cases added requests
    with ⟨front, back, rfl, is⟩ | ⟨front, old, back, rfl, -, is⟩
  · simp only [is, List.mem_append, List.mem_cons] at member ⊢
    rcases member with before | rfl | behind
    · exact .inr ⟨request, .inl before, eligible⟩
    · exact .inl eligible
    · exact .inr ⟨request, .inr behind, eligible⟩
  · simp only [is, List.mem_append, List.mem_cons] at member ⊢
    rcases member with before | rfl | behind
    · exact .inr ⟨request, .inl before, eligible⟩
    · rcases List.mem_append.mp eligible with kept | new
      · exact .inr ⟨old, .inr (.inl rfl), kept⟩
      · exact .inl (List.mem_filter.mp new).1
    · exact .inr ⟨request, .inr (.inr behind), eligible⟩

variable {request : ScanRequest}

/-- A merged request recovers only partitions that some request recovers. -/
theorem foldl_insert_eligible {list : List ScanRequest}
    (member : request ∈ list.foldl (fun requests request => insertScanRequest request requests)
      requests) (eligible : partition ∈ request.eligibility.recoveringPartitions) :
    (∃ old ∈ requests, partition ∈ old.eligibility.recoveringPartitions)
      ∨ ∃ new ∈ list, partition ∈ new.eligibility.recoveringPartitions := by
  induction list generalizing requests with
  | nil => exact Or.inl ⟨request, member, eligible⟩
  | cons first rest ih =>
    rcases ih member with ⟨old, inside, kept⟩ | ⟨new, inside, kept⟩
    · rcases insertScanRequest_eligible inside kept with new | ⟨older, within, still⟩
      · exact Or.inr ⟨first, List.mem_cons_self, new⟩
      · exact Or.inl ⟨older, within, still⟩
    · exact Or.inr ⟨new, List.mem_cons_of_mem _ inside, kept⟩

theorem mem_takeWhile_le {items : List Int} (sorted : items.Pairwise (· ≤ ·)) {item bound : Int}
    (member : item ∈ items) (below : item ≤ bound) :
    item ∈ items.takeWhile fun other => decide (other ≤ bound) := by
  induction items with
  | nil => cases member
  | cons first rest ih =>
    obtain ⟨least, sorted⟩ := List.pairwise_cons.mp sorted
    rcases List.mem_cons.mp member with rfl | later
    · rw [List.takeWhile_cons_of_pos (by simpa using below)]
      exact List.mem_cons_self
    · have inside : first ≤ bound := Int.le_trans (least item later) below
      rw [List.takeWhile_cons_of_pos (by simpa using inside)]
      exact List.mem_cons_of_mem _ (ih sorted later)

/-- One pass takes the next windows of a recovery up to its cutover. -/
theorem mem_recoverySlice {next cutover : Int} {steps : Nat}
    (near : steps < maxRecoveryWindowsPerScan)
    (inside : next + steps * config.metadataWindowSeconds ≤ cutover) :
    next + steps * config.metadataWindowSeconds ∈ Reader.recoverySlice config next cutover := by
  apply mem_takeWhile_le
  · rw [List.pairwise_map]
    apply List.pairwise_lt_range.imp
    intro first second before
    have := Int.mul_le_mul_of_nonneg_right (Int.ofNat_le.mpr (Nat.le_of_lt before))
      (Int.natCast_nonneg config.metadataWindowSeconds)
    omega
  · exact List.mem_map.mpr ⟨steps, List.mem_range.mpr near, rfl⟩
  · exact inside

theorem mem_recoveringPartitions {entry : VirtualPartitionId × Int × Int} :
    entry ∈ reader.recoveringPartitions ↔ ∃ cursor recovery,
      reader.state entry.1 = some (.recovering cursor recovery)
        ∧ entry.2 = (recovery.nextWindowStartUnixSeconds, recovery.cutoverWindowStartUnixSeconds) := by
  unfold Reader.recoveringPartitions Reader.state
  rw [List.mem_insertionSort, List.mem_filterMap]
  constructor
  · rintro ⟨⟨key, state⟩, member, made⟩
    cases state with
    | recovering cursor recovery =>
      cases made
      exact ⟨cursor, recovery, AList.mem_lookup_iff.mpr member, rfl⟩
    | _ => cases made
  · rintro ⟨cursor, recovery, found, same⟩
    obtain ⟨key, next, cutover⟩ := entry
    cases same
    exact ⟨⟨key, .recovering cursor recovery⟩, AList.mem_lookup_iff.mp found, rfl⟩

variable {assigned : List VirtualPartitionId}
variable {now : Int} {flag : Bool}

theorem scanRequests_recovering
    (plans : reader.scanRequests config settings assigned now = some (planned, requests, flag))
    (state : reader.state partition = some (.recovering cursor recovery)) :
    planned.state partition = some (.recovering cursor recovery) := by
  obtain ⟨cleared, started, rest⟩ := Option.bind_eq_some_iff.mp plans
  obtain ⟨fast, -, made⟩ := Option.bind_eq_some_iff.mp rest
  cases made
  have held : (reader.clearMatureHolds now).state partition = some (.recovering cursor recovery) := by
    show (reader.virtualPartitionStates.mapValues _).lookup partition = _
    rw [AList.lookup_mapValues]
    have state : reader.virtualPartitionStates.lookup partition = _ := state
    rw [state]
    rfl
  obtain ⟨windows, -, is⟩ := Option.map_eq_some_iff.mp started
  show cleared.state partition = _
  rw [← is]
  split
  · exact held
  · show ((reader.clearMatureHolds now).virtualPartitionStates.mapValues _).lookup partition = _
    rw [AList.lookup_mapValues]
    have held : (reader.clearMatureHolds now).virtualPartitionStates.lookup partition = _ := held
    rw [held]
    rfl

variable {id : SnowflakeId}

theorem recoveryRequest_harmless {other : VirtualPartitionId} {window : Int}
    (below : ∀ bound, reader.recoveryScanMinSnowflake partition window = some bound → bound ≤ id) :
    (reader.recoveryRequest config other window).Harmless partition id := by
  intro lower found bound is
  by_cases same : partition = other
  · subst same
    have found := (AList.lookup_singleton_self _ _).symm.trans found
    cases found
    exact below bound is
  · cases (AList.lookup_singleton_of_ne same _).symm.trans found

theorem planRecovery_mem (member : request ∈ (reader.planRecovery config).1) :
    ∃ other window, request = reader.recoveryRequest config other window := by
  unfold Reader.planRecovery at member
  simp only at member
  split at member
  · obtain ⟨entry, -, rfl⟩ := List.mem_map.mp member
    exact ⟨entry.1, entry.2.1, rfl⟩
  · split at member
    · obtain ⟨window, -, rfl⟩ := List.mem_map.mp member
      exact ⟨_, window, rfl⟩
    · cases member

theorem recoveryRequest_serves {window : Int}
    (below : ∀ bound, reader.recoveryScanMinSnowflake partition window = some bound → bound ≤ id) :
    (reader.recoveryRequest config partition window).Serves window partition id where
  window := rfl
  query := below
  eligible := List.mem_singleton_self _
  bounded := ⟨_, AList.lookup_singleton_self _ _, below⟩

/-- A pass that recovers the partition requests every window of its slice. -/
theorem planRecovery_slice (state : reader.state partition = some (.recovering cursor recovery))
    (turn : ∃ request ∈ (reader.planRecovery config).1,
      partition ∈ request.eligibility.recoveringPartitions)
    {window : Int} (inside : window ∈ Reader.recoverySlice config recovery.nextWindowStartUnixSeconds
      recovery.cutoverWindowStartUnixSeconds)
    (after : recovery.nextWindowStartUnixSeconds ≤ window) :
    reader.recoveryRequest config partition window ∈ (reader.planRecovery config).1 := by
  have own : (partition, recovery.nextWindowStartUnixSeconds, recovery.cutoverWindowStartUnixSeconds)
      ∈ reader.recoveringPartitions := mem_recoveringPartitions.mpr ⟨cursor, recovery, state, rfl⟩
  have below : window ≤ recovery.cutoverWindowStartUnixSeconds := by
    simpa using List.all_eq_true.mp List.all_takeWhile window inside
  obtain ⟨request, member, eligible⟩ := turn
  unfold Reader.planRecovery at member ⊢
  simp only at member ⊢
  split at member
  next shared =>
    -- Every recovery is at its cutover, so the slice is that one window.
    rw [if_pos shared]
    have atCutover := List.all_eq_true.mp shared _ own
    simp only [decide_eq_true_eq] at atCutover
    have same : window = recovery.nextWindowStartUnixSeconds := by omega
    subst same
    exact List.mem_map.mpr ⟨_, own, rfl⟩
  next apart =>
    rw [if_neg apart]
    split at member
    next chosen next cutover is =>
      obtain ⟨scanned, -, rfl⟩ := List.mem_map.mp member
      cases List.mem_singleton.mp eligible
      -- The partition of the slice is this one, so its windows are those of its own state.
      have listed : (partition, next, cutover) ∈ reader.recoveringPartitions := by
        unfold Reader.nextRecovering at is
        split at is
        · rcases Option.or_eq_some_iff.mp is with found | ⟨-, first⟩
          · exact List.mem_of_find?_eq_some found
          · exact List.mem_of_head? first
        · exact List.mem_of_head? is
      obtain ⟨_, _, found, same⟩ := mem_recoveringPartitions.mp listed
      cases state.symm.trans found
      cases same
      exact List.mem_map.mpr ⟨window, inside, rfl⟩
    · cases member

theorem freshRequests_harmless (member : request ∈ reader.freshRequests config) (id : SnowflakeId) :
    request.Harmless partition id ∧ request.eligibility.recoveringPartitions = [] := by
  obtain ⟨⟨key, state⟩, -, made⟩ := List.mem_filterMap.mp member
  cases state with
  | fresh cursor initial =>
    cases made
    refine ⟨fun lower found bound is => ?_, rfl⟩
    by_cases same : partition = key
    · subst same
      cases (AList.lookup_singleton_self _ _).symm.trans found
      cases is
    · cases (AList.lookup_singleton_of_ne same _).symm.trans found
  | _ => cases made

theorem fastRequest_harmless {start : Int} {bounds : FastBounds}
    (member : request ∈ Reader.fastRequest config start bounds) (id : SnowflakeId) :
    request.Harmless partition id ∧ request.eligibility.recoveringPartitions = [] := by
  unfold Reader.fastRequest at member
  split at member
  · cases member
  · rw [List.mem_singleton.mp member]
    refine ⟨fun lower found => ?_, rfl⟩
    cases (AList.lookup_empty partition).symm.trans found

theorem fastRequests_harmless {fast : List ScanRequest}
    (plans : reader.fastRequests config settings assigned now = some fast) (member : request ∈ fast)
    (id : SnowflakeId) :
    request.Harmless partition id ∧ request.eligibility.recoveringPartitions = [] := by
  unfold Reader.fastRequests at plans
  split at plans
  · obtain ⟨windows, -, rfl⟩ := Option.map_eq_some_iff.mp plans
    rcases List.mem_append.mp member with tail | live
    · split at tail
      · exact fastRequest_harmless tail id
      · cases tail
    · obtain ⟨window, -, inside⟩ := List.mem_flatMap.mp live
      exact fastRequest_harmless inside id
  · cases plans
    cases member

/-- A pass that recovers the partition serves it every row of its slice above the lower bounds. -/
theorem scanRequests_serves {window : Int}
    (plans : reader.scanRequests config settings assigned now = some (planned, requests, flag))
    (state : reader.state partition = some (.recovering cursor recovery))
    (turn : ∃ request ∈ requests, partition ∈ request.eligibility.recoveringPartitions)
    (inside : window ∈ Reader.recoverySlice config recovery.nextWindowStartUnixSeconds
      recovery.cutoverWindowStartUnixSeconds) (after : recovery.nextWindowStartUnixSeconds ≤ window)
    (below : ∀ bound, reader.recoveryScanMinSnowflake partition window = some bound → bound ≤ id) :
    ∃ request ∈ requests, request.Serves window partition id := by
  have kept := scanRequests_recovering plans state
  obtain ⟨cleared, -, rest⟩ := Option.bind_eq_some_iff.mp plans
  obtain ⟨fast, fastPlans, made⟩ := Option.bind_eq_some_iff.mp rest
  cases made
  have kept : cleared.state partition = some (.recovering cursor recovery) := kept
  have below : ∀ bound, cleared.recoveryScanMinSnowflake partition window = some bound →
      bound ≤ id := by
    unfold Reader.recoveryScanMinSnowflake at below ⊢
    rw [state] at below
    rw [kept]
    exact below
  -- Only recovery requests name the partition, so the pass plans its slice.
  have planned : ∃ request ∈ (cleared.planRecovery config).1,
      partition ∈ request.eligibility.recoveringPartitions := by
    obtain ⟨request, member, eligible⟩ := turn
    rcases foldl_insert_eligible member eligible with ⟨_, impossible, -⟩ | ⟨source, listed, eligible⟩
    · cases impossible
    · rcases List.mem_append.mp listed with listed | isFast
      · rcases List.mem_append.mp listed with recovers | isFresh
        · exact ⟨source, recovers, eligible⟩
        · rw [(@freshRequests_harmless _ _ partition _ isFresh id).2] at eligible
          cases eligible
      · rw [(@fastRequests_harmless _ _ _ partition _ _ _ _ fastPlans isFast id).2] at eligible
        cases eligible
  apply foldl_insert_serves
  · intro request listed here
    rcases List.mem_append.mp listed with listed | isFast
    · rcases List.mem_append.mp listed with recovers | isFresh
      · obtain ⟨other, scanned, rfl⟩ := planRecovery_mem recovers
        cases here
        exact recoveryRequest_harmless below
      · exact (freshRequests_harmless isFresh id).1
    · exact (fastRequests_harmless fastPlans isFast id).1
  · have listed := planRecovery_slice kept planned inside after
    exact Or.inr ⟨_, List.mem_append_left _ (List.mem_append_left _ listed),
      recoveryRequest_serves below⟩

end Requests

/-! ### Rows a recovery covers -/

/-- The plan of a recovery, pending or under way. -/
def VirtualPartitionState.recovery : VirtualPartitionState → Option RecoveryState
  | .pendingRecovering _ recovery | .recovering _ recovery => some recovery
  | _ => none

def RecoveryState.after (config : ReaderConfig) (recovery : RecoveryState) (finished : Nat) :
    RecoveryState :=
  { recovery with
    nextWindowStartUnixSeconds :=
      recovery.nextWindowStartUnixSeconds + finished * config.metadataWindowSeconds }

/-- The partition has a recovery whose windows include the row's one, and whenever that window is in
the slice of a pass that recovers the partition, the pass serves the row. -/
def CoversRow (config : ReaderConfig) (reader : Reader) (partition : VirtualPartitionId)
    (window : Int) (id : SnowflakeId) : Prop :=
  ∃ (recovery : RecoveryState) (steps : Nat),
    (reader.state partition).bind VirtualPartitionState.recovery = some recovery
      ∧ window = recovery.nextWindowStartUnixSeconds + steps * config.metadataWindowSeconds
      ∧ window ≤ recovery.cutoverWindowStartUnixSeconds
      ∧ ∀ (finished : Nat) (later planned : Reader) (cursor : Option Nat) (settings : ReadSettings)
        (assigned : List VirtualPartitionId) (now : Int) (requests : ScanRequests) (flag : Bool),
        finished ≤ steps → steps < finished + maxRecoveryWindowsPerScan →
        later.state partition = some (.recovering cursor (recovery.after config finished)) →
        later.scanRequests config settings assigned now = some (planned, requests, flag) →
        (∃ request ∈ requests, partition ∈ request.eligibility.recoveringPartitions) →
        ∃ request ∈ requests, request.Serves window partition id

section Covering

variable {config : ReaderConfig} {settings : ReadSettings} {reader : Reader}
variable {partition : VirtualPartitionId}

theorem coversRow_of_plan {recovery : RecoveryState} {window : Int} {id : SnowflakeId} {steps : Nat}
    (plan : (reader.state partition).bind VirtualPartitionState.recovery = some recovery)
    (distance : window = recovery.nextWindowStartUnixSeconds + steps * config.metadataWindowSeconds)
    (cutover : window ≤ recovery.cutoverWindowStartUnixSeconds)
    (below : recovery.firstWindowStartUnixSeconds = some window →
      ∀ bound, recovery.firstWindowMinSnowflake = some bound → bound ≤ id) :
    CoversRow config reader partition window id := by
  refine ⟨recovery, steps, plan, distance, cutover, ?_⟩
  intro finished later planned cursor settings assigned now requests flag before near state plans turn
  -- The window is the remaining number of steps ahead of the recovery.
  have ahead : window = (recovery.after config finished).nextWindowStartUnixSeconds
      + (steps - finished : Nat) * config.metadataWindowSeconds := by
    rw [distance, RecoveryState.after, Int.ofNat_sub before]
    ring
  have nonneg : (0 : Int) ≤ (steps - finished : Nat) * config.metadataWindowSeconds :=
    Int.mul_nonneg (Int.natCast_nonneg _) (Int.natCast_nonneg _)
  apply scanRequests_serves plans state turn
  · rw [ahead]
    apply mem_recoverySlice (by omega)
    rw [← ahead]
    exact cutover
  · omega
  · intro bound is
    unfold Reader.recoveryScanMinSnowflake at is
    simp only [state] at is
    split at is
    · cases is
    · split at is
      next first => exact below first.1 bound is
      · cases is

end Covering

/-! ### Windows -/

variable {first : Int}

namespace ReaderConfig

variable (config : ReaderConfig)

theorem window_eq (instant : Int) :
    config.window instant = instant / config.metadataWindowSize * config.metadataWindowSize := rfl

theorem metadataWindowSize_pos : 0 < config.metadataWindowSize := by
  have := config.window_pos
  unfold metadataWindowSize nanoseconds
  omega

theorem unixSeconds_mul (index : Int) : unixSeconds (index * config.metadataWindowSize)
    = index * config.metadataWindowSeconds := by
  unfold unixSeconds metadataWindowSize
  rw [← Int.mul_assoc]
  exact Int.mul_ediv_cancel _ (by decide)

theorem unixSeconds_window (instant : Int) : unixSeconds (config.window instant)
    = instant / config.metadataWindowSize * config.metadataWindowSeconds := by
  rw [window_eq, unixSeconds_mul]

theorem mul_windowSeconds_le_iff {second : Int} :
    first * config.metadataWindowSeconds ≤ second * config.metadataWindowSeconds ↔ first ≤ second := by
  have := config.window_pos
  exact Int.mul_le_mul_iff_of_pos_right (by omega)

end ReaderConfig

/-! ### Recoveries from a checkpoint -/

/-- The two ways a partition resumes after an offset, from the checkpoint of its row: a partition
without a plan recovers from a committed cursor, or the application seeks to a delivered record. The
first index is the window from which on a retained row is recovered. -/
inductive Resumes (config : ReaderConfig) (settings : ReadSettings)
    (partition : VirtualPartitionId) (checkpoint : CommittedSourceCheckpoint) (offset : Nat) (now : Int)
    (reader : Reader) : Int → Reader → Prop
  | hydrated {committedTsMs : Option Int}
      (unplanned : reader.state partition = none
        ∨ ∃ cursor, reader.state partition = some (.pendingCursor cursor)) :
      Resumes config settings partition checkpoint offset now reader checkpoint.windowStartUnixSeconds
        (reader.hydrateCursorWithSource config settings partition ⟨partition, offset, some checkpoint⟩
          committedTsMs now)
  | sought :
      Resumes config settings partition checkpoint offset now reader
        (min checkpoint.windowStartUnixSeconds (unixSeconds (config.window now)))
        (reader.seek config settings partition
          ⟨offset, checkpoint.windowStartUnixSeconds, some checkpoint.snowflakeId⟩ now)

section Resuming

variable {config : ReaderConfig} {settings : ReadSettings} {reader resumed : Reader}
variable {partition : VirtualPartitionId} {offset : Nat} {now : Int}

theorem setState_state (state : VirtualPartitionState) :
    (reader.setState partition state).state partition = some state := AList.lookup_insert _

/-- A seek plans a recovery, whatever the partition did before. -/
theorem seek_recovery (target : ConsumerSeekTarget) :
    ((reader.seek config settings partition target now).state partition).bind
      VirtualPartitionState.recovery = some (Reader.seekRecovery config settings target now) := by
  unfold Reader.seek
  simp only
  split
  next state _ =>
    rw [setState_state]
    unfold VirtualPartitionState.startRecovery
    split <;> rfl
  next => rw [setState_state]; rfl

/-- A committed cursor plans a recovery when its window is not after the current one. -/
theorem hydrate_recovery {committed : CommittedCursor} {committedTsMs : Option Int}
    (unplanned : reader.state partition = none
      ∨ ∃ cursor, reader.state partition = some (.pendingCursor cursor)) :
    ((reader.hydrateCursorWithSource config settings partition committed committedTsMs now).state
      partition).bind VirtualPartitionState.recovery
      = if Reader.sourceWindowStart config committed committedTsMs now ≤ config.window now then
          some (Reader.hydrateRecovery config settings committed committedTsMs now)
        else none := by
  unfold Reader.hydrateCursorWithSource
  rcases unplanned with nothing | ⟨cursor, pending⟩
  · simp only [nothing, setState_state]
    split <;> rfl
  · simp only [pending, setState_state]
    split <;> rfl

/-- Where a row lies: its instant, the index of its window, and the start of that window. -/
structure Placed (config : ReaderConfig) (clocks : BrokerClocks) (row : StampedRow) (index : Int) :
    Prop where
  window : row.window = index * config.metadataWindowSeconds
  start_nonneg : 0 ≤ index * config.metadataWindowSize
  start_le : index * config.metadataWindowSize ≤ row.instant clocks
  instant_le : row.instant clocks ≤ maxTime
  index_eq : row.instant clocks / config.metadataWindowSize = index

variable {clocks : BrokerClocks} {row source : StampedRow}

theorem StampedRow.Stamped.placed (stamped : row.Stamped config clocks) :
    ∃ index, Placed config clocks row index := by
  obtain ⟨nonneg, instant_le⟩ := config.sonyflake.generated_mem stamped.generated
  refine ⟨row.instant clocks / config.metadataWindowSize, ⟨?_, ?_, ?_, instant_le, rfl⟩⟩
  · rw [StampedRow.window, stamped.window]
    exact config.unixSeconds_window (row.instant clocks)
  · exact Int.mul_nonneg (Int.ediv_nonneg nonneg (Int.le_of_lt config.metadataWindowSize_pos))
      (Int.le_of_lt config.metadataWindowSize_pos)
  · exact Int.ediv_mul_le _ (Int.ne_of_gt config.metadataWindowSize_pos)

theorem Placed.instantOfUnixSeconds {index : Int} (placed : Placed config clocks row index) :
    BlobStream.instantOfUnixSeconds row.window = index * config.metadataWindowSize := by
  have seconds : row.window * nanoseconds = index * config.metadataWindowSize := by
    rw [placed.window, ReaderConfig.metadataWindowSize, Int.mul_assoc]
  unfold BlobStream.instantOfUnixSeconds
  rw [seconds]
  have low : minTime ≤ 0 := by decide
  exact clampTime_of_mem (Int.le_trans low placed.start_nonneg)
    (Int.le_trans placed.start_le placed.instant_le)

/-- The lower bound of a recovery from a checkpoint is below every row of the same window that is
stamped at most the clock skew before the checkpoint's row. -/
theorem checkpointMinSnowflake_le {index : Int} (stamped : source.Stamped config clocks)
    (generated : row.Stamped config clocks) (placed : Placed config clocks row index)
    (near : source.instant clocks - config.maximumClockSkew ≤ row.instant clocks)
    {bound : SnowflakeId}
    (is : Reader.checkpointMinSnowflake config settings source.metadata.snowflakeId
      (index * config.metadataWindowSize) = some bound) : bound ≤ row.metadata.snowflakeId := by
  obtain ⟨time, decoded, rfl⟩ := Option.map_eq_some_iff.mp is
  have encoded := config.sonyflake.timestamp_le stamped.generated decoded
  have horizon : (config.maximumClockSkew : Int) ≤ config.availabilityHorizon settings := by
    unfold ReaderConfig.availabilityHorizon
    omega
  have nonneg : 0 ≤ row.instant clocks := Int.le_trans placed.start_nonneg placed.start_le
  have low : minTime ≤ 0 := by decide
  apply config.sonyflake.minimum_le generated.generated
  apply max_le
  · unfold saturatingSubTime clampTime
    omega
  · exact placed.start_le

def ReaderConfig.floorIndex (config : ReaderConfig) (now : Int) : Int :=
  saturatingSubTime (config.window now) config.retention / config.metadataWindowSize

/-- A recovery from a checkpoint covers the retained rows from its first window up to the cutover. -/
theorem coversRow_from (settings : ReadSettings) {start last : Int} {recovery : RecoveryState}
    (stamped : source.Stamped config clocks) (generated : row.Stamped config clocks)
    (sourcePlaced : Placed config clocks source first) (rowPlaced : Placed config clocks row last)
    (near : source.instant clocks - config.maximumClockSkew ≤ row.instant clocks)
    (retained : config.floorIndex now ≤ last) (cutover : last ≤ now / config.metadataWindowSize)
    (plan : (resumed.state partition).bind VirtualPartitionState.recovery = some recovery)
    (starts : recovery.nextWindowStartUnixSeconds
      = unixSeconds (max start (config.floorIndex now) * config.metadataWindowSize))
    (ends : recovery.cutoverWindowStartUnixSeconds = unixSeconds (config.window now))
    (bounded : ∀ bound, recovery.firstWindowStartUnixSeconds = some source.window →
      recovery.firstWindowMinSnowflake = some bound →
        Reader.checkpointMinSnowflake config settings source.metadata.snowflakeId
          (first * config.metadataWindowSize) = some bound)
    (named : ∀ window, recovery.firstWindowStartUnixSeconds = some window → window = source.window) :
    CoversRow config resumed partition row.window row.metadata.snowflakeId ↔ start ≤ last := by
  constructor
  · -- A row it covers is some windows after the first one.
    rintro ⟨other, steps, same, distance, -⟩
    cases plan.symm.trans same
    rw [starts, config.unixSeconds_mul, rowPlaced.window] at distance
    have ahead : (0 : Int) ≤ steps * config.metadataWindowSeconds :=
      Int.mul_nonneg (Int.natCast_nonneg _) (Int.natCast_nonneg _)
    have reached : max start (config.floorIndex now) ≤ last :=
      config.mul_windowSeconds_le_iff.mp (by omega)
    exact Int.le_trans (Int.le_max_left _ _) reached
  · intro order
    have before : max start (config.floorIndex now) ≤ last := max_le order retained
    refine @coversRow_of_plan _ _ _ _ _ _ (last - max start (config.floorIndex now)).toNat plan
      ?_ ?_ ?_
    · rw [starts, config.unixSeconds_mul, rowPlaced.window, Int.toNat_of_nonneg (by omega)]
      ring
    · rw [ends, config.unixSeconds_window, rowPlaced.window]
      exact config.mul_windowSeconds_le_iff.mpr cutover
    · intro here bound is
      have same : row.window = source.window := named _ here
      -- The row lies in the checkpoint's window, the only one with a lower bound.
      have index : last = first := by
        rw [rowPlaced.window, sourcePlaced.window] at same
        exact Int.le_antisymm (config.mul_windowSeconds_le_iff.mp (Int.le_of_eq same))
          (config.mul_windowSeconds_le_iff.mp (Int.le_of_eq same.symm))
      subst index
      exact checkpointMinSnowflake_le stamped generated rowPlaced near (bounded bound (same ▸ here) is)

theorem coversRow_resumes {window last : Int}
    (resumes : Resumes config settings partition source.checkpoint offset now reader window resumed)
    (stamped : source.Stamped config clocks) (generated : row.Stamped config clocks)
    (sourcePlaced : Placed config clocks source first) (rowPlaced : Placed config clocks row last)
    (near : source.instant clocks - config.maximumClockSkew ≤ row.instant clocks)
    (retained : config.floorIndex now ≤ last) (cutover : last ≤ now / config.metadataWindowSize) :
    CoversRow config resumed partition row.window row.metadata.snowflakeId ↔ window ≤ row.window := by
  have converted := sourcePlaced.instantOfUnixSeconds
  have positive := config.metadataWindowSize_pos
  have nonneg := Int.le_of_lt positive
  have floor : config.retentionFloorWindowStart (config.window now)
      = config.floorIndex now * config.metadataWindowSize := rfl
  cases resumes with
  | @hydrated committedTsMs unplanned =>
    have start : Reader.sourceWindowStart config ⟨partition, offset, some source.checkpoint⟩
        committedTsMs now = max first (config.floorIndex now) * config.metadataWindowSize := by
      rw [max_mul_of_nonneg _ _ nonneg, ← converted, ← floor]
      rfl
    have order : source.checkpoint.windowStartUnixSeconds ≤ row.window ↔ first ≤ last := by
      show source.window ≤ row.window ↔ _
      rw [sourcePlaced.window, rowPlaced.window]
      exact config.mul_windowSeconds_le_iff
    have plan := @hydrate_recovery config settings reader partition now
      ⟨partition, offset, some source.checkpoint⟩ committedTsMs unplanned
    rw [order]
    split at plan
    next reached =>
      refine coversRow_from settings stamped generated sourcePlaced rowPlaced near retained cutover
        plan (congrArg unixSeconds start) rfl ?_ ?_
      · intro bound _ is
        obtain ⟨checkpoint, kept, made⟩ := Option.bind_eq_some_iff.mp is
        obtain ⟨same, matching⟩ := Option.filter_eq_some_iff.mp kept
        cases same
        have here : instantOfUnixSeconds source.window
            = Reader.sourceWindowStart config ⟨partition, offset, some source.checkpoint⟩
              committedTsMs now :=
          of_decide_eq_true (Bool.and_eq_true_iff.mp matching).1
        rw [← here, converted] at made
        exact made
      · intro window is
        cases is
        rfl
    next unreached =>
      -- The checkpoint is after the cutover, so nothing is recovered.
      refine iff_of_false ?_ ?_
      · rintro ⟨recovery, steps, planned, -⟩
        cases plan.symm.trans planned
      · intro before
        refine unreached (start ▸ ?_)
        exact Int.mul_le_mul_of_nonneg_right (max_le (Int.le_trans before cutover)
          (Int.le_trans retained cutover)) nonneg
  | sought =>
    have target : config.window (instantOfUnixSeconds source.window)
        = first * config.metadataWindowSize := by
      rw [converted, ReaderConfig.window_eq, Int.mul_ediv_cancel _ (Int.ne_of_gt positive)]
    have start : max (min (config.window (instantOfUnixSeconds source.window)) (config.window now))
        (config.retentionFloorWindowStart (config.window now))
        = max (min first (now / config.metadataWindowSize)) (config.floorIndex now)
          * config.metadataWindowSize := by
      rw [target, floor, max_mul_of_nonneg _ _ nonneg, min_mul_of_nonneg _ _ nonneg]
      rfl
    have order : min source.checkpoint.windowStartUnixSeconds (unixSeconds (config.window now))
        ≤ row.window ↔ min first (now / config.metadataWindowSize) ≤ last := by
      show min source.window _ ≤ row.window ↔ _
      rw [sourcePlaced.window, rowPlaced.window, config.unixSeconds_window, min_le_iff, min_le_iff,
        config.mul_windowSeconds_le_iff, config.mul_windowSeconds_le_iff]
    rw [order]
    refine coversRow_from settings stamped generated sourcePlaced rowPlaced near retained cutover
      (seek_recovery _) (congrArg unixSeconds start) rfl ?_ ?_
    · intro bound _ is
      unfold Reader.seekRecovery at is
      simp only at is
      split at is
      next same =>
        rw [same] at is
        rw [← target]
        exact is
      · cases is
    · intro window is
      unfold Reader.seekRecovery at is
      simp only at is
      split at is
      next same =>
        cases is
        rw [same]
        show unixSeconds (config.window (instantOfUnixSeconds source.window)) = source.window
        rw [target, config.unixSeconds_mul, sourcePlaced.window]
      · cases is

end Resuming

variable {config : ReaderConfig} {clocks : BrokerClocks} {partition : VirtualPartitionId}
variable {source row : StampedRow} {offset : Nat}

/-- Under the single-writer discipline a row with later sequences is stamped at most the clock skew
before an earlier row. -/
theorem PublicationHistory.near {rows : List StampedRow}
    (history : PublicationHistory config clocks partition rows)
    (within : clocks.Within config.maximumClockSkew) {range later : SeqRange}
    (sourceIn : source ∈ rows) (rowIn : row ∈ rows) (supplied : source.range partition = some range)
    (carried : row.range partition = some later) (inside : range.start ≤ offset)
    (above : offset < later.end) :
    source.instant clocks - config.maximumClockSkew ≤ row.instant clocks := by
  by_cases same : source = row
  · subst same
    omega
  · rcases history.ordered source sourceIn row rowIn same range later supplied carried with
      ⟨-, stampedLater⟩ | ⟨before, -⟩
    · -- The slower clock may only be behind by the skew.
      have skewed := within source.broker row.broker source.stampedAt
      have advanced := clocks.monotone row.broker stampedLater
      unfold StampedRow.instant
      omega
    · omega

theorem Resumes.window_le {settings : ReadSettings} {source : StampedRow} {now window : Int}
    {reader resumed : Reader}
    (resumes : Resumes config settings partition source.checkpoint offset now reader window resumed) :
    window ≤ source.window := by
  cases resumes with
  | hydrated => exact Int.le_refl _
  | sought => exact Int.min_le_left _ _

/-- No later row falls into an earlier window than a checkpoint that lies at least the clock skew inside
its own. -/
theorem StampedRow.Stamped.window_le (stamped : source.Stamped config clocks)
    (generated : row.Stamped config clocks)
    (near : source.instant clocks - config.maximumClockSkew ≤ row.instant clocks) {time : Int}
    (decoded : config.sonyflake.timestamp source.metadata.snowflakeId = some time)
    (late : source.window * nanoseconds + config.maximumClockSkew ≤ time) :
    source.window ≤ row.window := by
  have encoded := config.sonyflake.timestamp_le stamped.generated decoded
  obtain ⟨first, sourcePlaced⟩ := stamped.placed
  obtain ⟨last, rowPlaced⟩ := generated.placed
  have seconds : source.window * nanoseconds = first * config.metadataWindowSize := by
    rw [sourcePlaced.window, ReaderConfig.metadataWindowSize, Int.mul_assoc]
  rw [sourcePlaced.window, rowPlaced.window]
  apply config.mul_windowSeconds_le_iff.mpr
  rw [← rowPlaced.index_eq]
  apply (Int.le_ediv_iff_mul_le config.metadataWindowSize_pos).mpr
  omega

/-- A recovery from a checkpoint covers a row with later sequences, whose window is retained and not
after the cutover, if and only if it does not start after that window: a committed cursor starts in the
checkpoint's window, a seek in that or in the current one. So a checkpoint that lies at least the clock
skew inside its window misses no such row. -/
theorem checkpoint_covers_successors (config : ReaderConfig) (settings : ReadSettings)
    (clocks : BrokerClocks) (within : clocks.Within config.maximumClockSkew)
    (partition : VirtualPartitionId) (rows : List StampedRow)
    (history : PublicationHistory config clocks partition rows)
    (source row : StampedRow) (sourceIn : source ∈ rows) (rowIn : row ∈ rows) (range later : SeqRange)
    (supplied : source.range partition = some range) (carried : row.range partition = some later)
    (offset : Nat) (inside : range.start ≤ offset ∧ offset ≤ range.end) (above : offset < later.end)
    (now window : Int) (reader resumed : Reader)
    (resumes : Resumes config settings partition source.checkpoint offset now reader window resumed)
    (retained : unixSeconds (config.retentionFloorWindowStart (config.window now)) ≤ row.window)
    (cutover : row.window ≤ unixSeconds (config.window now)) :
    (CoversRow config resumed partition row.window row.metadata.snowflakeId ↔ window ≤ row.window)
      ∧ ∀ time, config.sonyflake.timestamp source.metadata.snowflakeId = some time →
        source.window * nanoseconds + config.maximumClockSkew ≤ time →
          CoversRow config resumed partition row.window row.metadata.snowflakeId := by
  have stamped := history.stamped source sourceIn
  have generated := history.stamped row rowIn
  have near := history.near within sourceIn rowIn supplied carried inside.1 above
  have covered : CoversRow config resumed partition row.window row.metadata.snowflakeId
      ↔ window ≤ row.window := by
    obtain ⟨first, sourcePlaced⟩ := stamped.placed
    obtain ⟨last, rowPlaced⟩ := generated.placed
    apply coversRow_resumes resumes stamped generated sourcePlaced rowPlaced near
    · apply config.mul_windowSeconds_le_iff.mp
      rw [← rowPlaced.window]
      unfold ReaderConfig.retentionFloorWindowStart at retained
      rw [config.unixSeconds_window] at retained
      exact retained
    · apply config.mul_windowSeconds_le_iff.mp
      rw [← rowPlaced.window, ← config.unixSeconds_window]
      exact cutover
  refine ⟨covered, fun time decoded late => covered.mpr ?_⟩
  exact Int.le_trans resumes.window_le (stamped.window_le generated near decoded late)

/-! ### A hand-over near the start of a window -/

def aheadClocks : BrokerClocks where
  reading broker instant := if broker = "a" then instant + 500000000 else instant
  monotone := by
    intro broker earlier later before
    split <;> omega

theorem aheadClocks_within : aheadClocks.Within tenSecondWindows.maximumClockSkew := by
  intro first second instant
  simp only [aheadClocks, tenSecondWindows]
  split <;> split <;> omega

/-- A row with one record, stamped by a broker so many milliseconds after the start of a window. -/
def stampedRow (broker : String) (millis : Int) (sequence : Nat) : StampedRow :=
  let stampedAt := 2000000000 * nanoseconds + millis * 1000000
  let instant := aheadClocks.reading broker stampedAt
  { broker := broker
    stampedAt := stampedAt
    metadata :=
      { window := windowKey instant tenSecondWindows.metadataWindowSize "orders"
        snowflakeId := tenMillisecondSonyflake.minimumForTimestamp instant
        blobKey := ""
        compression := ⟨.none, none⟩
        segmentIndex := [(0, ⟨⟨sequence, sequence⟩, ⟨0, 1⟩, 1⟩)]
        createdAt := instant
        metadataPublishedAt := instant } }

/-- Two records, the first stamped by `a` and the second, after a hand-over, by `b`. -/
theorem handOver_history {second : Int} (order : first ≤ second)
    (stampedFirst : (stampedRow "a" first 0).Stamped tenSecondWindows aheadClocks)
    (stampedSecond : (stampedRow "b" second 1).Stamped tenSecondWindows aheadClocks) :
    PublicationHistory tenSecondWindows aheadClocks 0
      [stampedRow "a" first 0, stampedRow "b" second 1] := by
  constructor
  · intro row member
    rcases List.mem_pair.mp member with rfl | rfl
    · exact stampedFirst
    · exact stampedSecond
  · intro row member range is
    rcases List.mem_pair.mp member with rfl | rfl
    · cases is
      exact Nat.le_refl _
    · cases is
      exact Nat.le_refl _
  · intro one oneIn two twoIn different low high isLow isHigh
    have later : (stampedRow "a" first 0).stampedAt ≤ (stampedRow "b" second 1).stampedAt := by
      simp only [stampedRow]
      omega
    rcases List.mem_pair.mp oneIn with rfl | rfl
    · rcases List.mem_pair.mp twoIn with rfl | rfl
      · exact absurd rfl different
      · cases isLow
        cases isHigh
        exact Or.inl ⟨by decide, later⟩
    · rcases List.mem_pair.mp twoIn with rfl | rfl
      · cases isLow
        cases isHigh
        exact Or.inr ⟨by decide, later⟩
      · exact absurd rfl different

/-- `a` stamps a row three tenths of a second into a window, and after a hand-over `b` stamps the
next row in the window before: a recovery from the first row never requests that window. -/
theorem checkpoint_misses_successor :
    ∃ (config : ReaderConfig) (settings : ReadSettings) (clocks : BrokerClocks)
      (partition : VirtualPartitionId) (rows : List StampedRow) (source row : StampedRow)
      (range later : SeqRange) (offset : Nat) (now window : Int) (reader resumed : Reader),
      clocks.Within config.maximumClockSkew ∧ PublicationHistory config clocks partition rows
        ∧ source ∈ rows ∧ row ∈ rows ∧ source.range partition = some range
        ∧ row.range partition = some later ∧ (range.start ≤ offset ∧ offset ≤ range.end)
        ∧ offset < later.end
        ∧ Resumes config settings partition source.checkpoint offset now reader window resumed
        ∧ unixSeconds (config.retentionFloorWindowStart (config.window now)) ≤ row.window
        ∧ row.window ≤ unixSeconds (config.window now)
        ∧ ¬ CoversRow config resumed partition row.window row.metadata.snowflakeId := by
  refine ⟨tenSecondWindows, {}, aheadClocks, 0, [stampedRow "a" (-200) 0, stampedRow "b" (-100) 1],
    stampedRow "a" (-200) 0, stampedRow "b" (-100) 1, ⟨0, 0⟩, ⟨1, 1⟩, 0, 2000000005 * nanoseconds, _,
    {}, _, aheadClocks_within, handOver_history (by decide)
      ⟨rfl, by decide, by decide, by decide⟩ ⟨rfl, by decide, by decide, by decide⟩, .head _,
    .tail _ (.head _), rfl, rfl, by decide, by decide,
    @Resumes.hydrated _ _ _ _ _ _ _ none (Or.inl rfl), by decide, by decide, ?_⟩
  rintro ⟨recovery, steps, plan, distance, -⟩
  have planned : recovery.nextWindowStartUnixSeconds = 2000000000 := by
    have starts : (Reader.hydrateRecovery tenSecondWindows {}
        ⟨0, 0, some (stampedRow "a" (-200) 0).checkpoint⟩ none
        (2000000005 * nanoseconds)).nextWindowStartUnixSeconds = 2000000000 := by decide
    rw [hydrate_recovery (Or.inl rfl), if_pos (by decide)] at plan
    cases plan
    exact starts
  have behind : (stampedRow "b" (-100) 1).window = 1999999990 := by decide
  rw [planned, behind] at distance
  simp only [tenSecondWindows] at distance
  omega

/-- Three seconds into the window, both rows of the hand-over lie in it. -/
theorem checkpoint_covers_successors_handOver :
    ((stampedRow "b" 3100 1).metadata.snowflakeId < (stampedRow "a" 3000 0).metadata.snowflakeId)
      ∧ CoversRow tenSecondWindows (({} : Reader).seek tenSecondWindows {} 0
          ⟨0, 2000000000, some (stampedRow "a" 3000 0).metadata.snowflakeId⟩ (2000000025 * nanoseconds))
        0 2000000000 (stampedRow "b" 3100 1).metadata.snowflakeId := by
  refine ⟨by decide, ?_⟩
  refine (checkpoint_covers_successors tenSecondWindows {} aheadClocks aheadClocks_within 0
    [stampedRow "a" 3000 0, stampedRow "b" 3100 1]
    (handOver_history (by decide) ⟨rfl, by decide, by decide, by decide⟩
      ⟨rfl, by decide, by decide, by decide⟩) (stampedRow "a" 3000 0)
    (stampedRow "b" 3100 1) (.head _) (.tail _ (.head _)) ⟨0, 0⟩ ⟨1, 1⟩ rfl rfl 0 (by decide)
    (by decide) (2000000025 * nanoseconds) _ {} _ .sought (by decide) (by decide)).1.mpr ?_
  decide

end BlobStream.Consumer
