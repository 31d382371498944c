import BlobStream.Consumer.Reader

/-!
# Metadata requests of a read pass

A pass asks for metadata windows. Windows of a recovery, the first window of a fresh partition and
the windows that can still change are merged into one request per window, each partition with its
own lower bound.
-/

namespace BlobStream.Consumer

open Write (SnowflakeId TopicWindowKey)

def maxRecoveryWindowsPerScan : Nat := 32

def maxCandidateWindows : Nat := 32

structure ScanEligibility where
  recoveringPartitions : List VirtualPartitionId := []
  fast : Bool := false
  fresh : Bool := false
deriving DecidableEq, Repr

abbrev FastBounds := AList fun _ : VirtualPartitionId => SnowflakeId

/-- Lower bounds by partition; no bound reads the whole window. -/
abbrev RecoveryBounds := AList fun _ : VirtualPartitionId => Option SnowflakeId

structure ScanRequest where
  window : TopicWindowKey
  minSnowflake : Option SnowflakeId
  fastPartitionBounds : FastBounds
  recoveryPartitionBounds : RecoveryBounds
  recoveryScan : Bool
  eligibility : ScanEligibility

def minBound : Option SnowflakeId → Option SnowflakeId → Option SnowflakeId
  | some left, some right => some (min left right)
  | _, _ => none

def leastBound (bounds : List SnowflakeId) : Option SnowflakeId := bounds.min?

def ScanRequest.merge (request added : ScanRequest) : ScanRequest where
  window := request.window
  minSnowflake := minBound request.minSnowflake added.minSnowflake
  fastPartitionBounds := added.fastPartitionBounds ∪ request.fastPartitionBounds
  recoveryPartitionBounds := added.recoveryPartitionBounds ∪ request.recoveryPartitionBounds
  recoveryScan := request.recoveryScan || added.recoveryScan
  eligibility :=
    { recoveringPartitions := request.eligibility.recoveringPartitions
        ++ added.eligibility.recoveringPartitions.filter
          (· ∉ request.eligibility.recoveringPartitions)
      fast := request.eligibility.fast || added.eligibility.fast
      fresh := request.eligibility.fresh || added.eligibility.fresh }

/-- Requests in the order of their windows. -/
abbrev ScanRequests := List ScanRequest

/-- `insert_scan_request`: one request per window, ordered by window. -/
def insertScanRequest (added : ScanRequest) : ScanRequests → ScanRequests
  | [] => [added]
  | request :: rest =>
    if added.window.windowStartUnixSeconds < request.window.windowStartUnixSeconds then
      added :: request :: rest
    else if added.window.windowStartUnixSeconds = request.window.windowStartUnixSeconds then
      request.merge added :: rest
    else request :: insertScanRequest added rest

namespace Reader

variable (config : ReaderConfig) (settings : ReadSettings) (reader : Reader)

/-! ### Fast scans -/

/-- Older metadata is published and visible. -/
def fastScanSafeTimestamp (now : Int) : Int :=
  saturatingSubTime now (config.availabilityHorizon settings)

/-- `consumer_candidate_window_count_with_availability_horizon`: the current window and those the
horizon reaches back to; too many are an error. -/
def candidateWindowCount : Option Nat :=
  let size := config.metadataWindowSeconds * 1000000000
  let count := (config.availabilityHorizon settings + (size - 1)) / size + 1
  if count ≤ maxCandidateWindows then some count else none

def scanWindows (now : Int) : Option (List Int) :=
  (candidateWindowCount config settings).map fun count =>
    (List.range count).reverse.map fun offset : Nat =>
      unixSeconds (config.window now) - offset * config.metadataWindowSeconds

def eligibleFastScanWindows (now : Int) : Option (List Int) :=
  (scanWindows config settings now).map fun windows => windows.filter fun start =>
    fastScanSafeTimestamp config settings now < (start + config.metadataWindowSeconds) * nanoseconds

/-- The instant from which a partition still needs the metadata of a window, unless the partition
waits for the next probe of a gap. -/
def fastScanPartitionTimeFloor (partition : VirtualPartitionId) (windowStart now : Int) :
    Option Int :=
  match reader.state partition with
  | some (.fast _ coverageFloor gap) =>
    if (gap.map (·.nextProbeAt)).any (now < ·) then none
    else
      let safe := fastScanSafeTimestamp config settings now
      some (max (instantOfUnixSeconds windowStart) (min safe (coverageFloor.getD safe)))
  | _ => none

/-- The higher of the replay point and the time floor. -/
def fastScanPartitionLowerBound (partition : VirtualPartitionId) (windowStart : Int)
    (safeFloor : SnowflakeId) : SnowflakeId :=
  match reader.fastFrontiers partition windowStart with
  | some frontier => max frontier safeFloor
  | none => safeFloor

def fastScanPartitionBound (partition : VirtualPartitionId) (windowStart now : Int) :
    Option SnowflakeId :=
  (reader.fastScanPartitionTimeFloor config settings partition windowStart now).map fun floor =>
    reader.fastScanPartitionLowerBound partition windowStart
      (config.sonyflake.minimumForTimestamp floor)

def fastScanPartitionBounds (assigned : List VirtualPartitionId) (windowStart now : Int) :
    FastBounds :=
  assigned.foldl (fun bounds partition =>
    match reader.fastScanPartitionBound config settings partition windowStart now with
    | some bound => bounds.insert partition bound
    | none => bounds) ∅

/-- `fast_gap_maturity_at`: until when a jump in the sequence may be explained by a row that is
published late in an earlier window. -/
def fastGapMaturityAt (partition : VirtualPartitionId) (candidateWindowStart : Int)
    (currentCursor : Option Nat) (candidateSequenceStart : Nat) (now : Int) : Option Int :=
  match reader.state partition, currentCursor with
  | some (.fast ..), some cursor =>
    if candidateSequenceStart ≤ Word.saturatingAdd Word.u64Max cursor 1 then none
    else if instantOfUnixSeconds candidateWindowStart ≤ fastScanSafeTimestamp config settings now then
      none
    else
      some (saturatingAddTime (instantOfUnixSeconds candidateWindowStart)
        (config.availabilityHorizon settings))
  | _, _ => none

/-! ### Recovery -/

/-- `recovery_scan_min_snowflake`: only the first window of a recovery that has not moved on has a
lower bound. -/
def recoveryScanMinSnowflake (partition : VirtualPartitionId) (windowStart : Int) :
    Option SnowflakeId :=
  match reader.state partition with
  | some (.recovering _ recovery) =>
    if recovery.nextWindowStartUnixSeconds > windowStart
        ∨ windowStart > recovery.cutoverWindowStartUnixSeconds then none
    else if recovery.firstWindowStartUnixSeconds = some windowStart
        ∧ recovery.nextWindowStartUnixSeconds = windowStart then recovery.firstWindowMinSnowflake
    else none
  | _ => none

/-- Start of the window that holds the oldest metadata a fast partition still needs. -/
def coverageWindow (coverageFloor now : Int) : Int :=
  unixSeconds (config.window
    (max coverageFloor (config.retentionFloorWindowStart (config.window now))))

/-- Coverage debt that is more than one window behind the fast windows becomes a recovery. -/
def startFastCoverageRecovery (firstFastWindow now : Int) (state : VirtualPartitionState) :
    VirtualPartitionState :=
  match state.fastCoverageFloor with
  | none => state
  | some coverageFloor =>
    let floor := max coverageFloor (config.retentionFloorWindowStart (config.window now))
    let start := unixSeconds (config.window floor)
    if start + config.metadataWindowSeconds < firstFastWindow then
      state.startRecovery
        { nextWindowStartUnixSeconds := start
          cutoverWindowStartUnixSeconds := unixSeconds (config.window now)
          firstWindowStartUnixSeconds := some start
          firstWindowMinSnowflake := some (config.sonyflake.minimumForTimestamp floor) }
    else state

def startFastCoverageRecoveries (now : Int) : Option Reader :=
  (eligibleFastScanWindows config settings now).map fun windows =>
    match windows.head? with
    | none => reader
    | some firstFastWindow =>
      { reader with
        virtualPartitionStates := reader.virtualPartitionStates.mapValues fun _ state =>
          startFastCoverageRecovery config firstFastWindow now state }

def recoveringPartitions : List (VirtualPartitionId × Int × Int) :=
  (reader.virtualPartitionStates.entries.filterMap fun entry =>
    match entry.2 with
    | .recovering _ recovery => some (entry.1, recovery.nextWindowStartUnixSeconds,
        recovery.cutoverWindowStartUnixSeconds)
    | _ => none).insertionSort fun left right => left.1 ≤ right.1

def recoveryRequest (partition : VirtualPartitionId) (windowStart : Int) : ScanRequest where
  window := ⟨config.topic, windowStart⟩
  minSnowflake := reader.recoveryScanMinSnowflake partition windowStart
  fastPartitionBounds := ∅
  recoveryPartitionBounds :=
    AList.singleton partition (reader.recoveryScanMinSnowflake partition windowStart)
  recoveryScan := true
  eligibility := { recoveringPartitions := [partition] }

/-- The windows of a recovery that one pass takes. -/
def recoverySlice (nextWindow cutover : Int) : List Int :=
  ((List.range maxRecoveryWindowsPerScan).map fun offset : Nat =>
    nextWindow + (offset : Int) * config.metadataWindowSeconds).takeWhile (· ≤ cutover)

/-- The partition whose turn it is: the first one after the last. -/
def nextRecovering (last : Option VirtualPartitionId)
    (recovering : List (VirtualPartitionId × Int × Int)) : Option (VirtualPartitionId × Int × Int) :=
  match last with
  | some last => (recovering.find? fun candidate => last < candidate.1).or recovering.head?
  | none => recovering.head?

/-- Recoveries that only need their cutover window share a request; otherwise one partition at a
time takes a slice of its windows. -/
def planRecovery : List ScanRequest × Option VirtualPartitionId :=
  let recovering := reader.recoveringPartitions
  if recovering.all fun entry => entry.2.1 = entry.2.2 then
    (recovering.map fun entry => reader.recoveryRequest config entry.1 entry.2.1, none)
  else
    match nextRecovering reader.recoveryScanLastPartition recovering with
    | some (partition, next, cutover) =>
      ((recoverySlice config next cutover).map (reader.recoveryRequest config partition),
        some partition)
    | none => ([], none)

/-! ### Requests of a pass -/

def freshRequests : List ScanRequest :=
  reader.virtualPartitionStates.entries.filterMap fun entry =>
    match entry.2 with
    | .fresh _ initial => some
      { window := ⟨config.topic, initial⟩
        minSnowflake := none
        fastPartitionBounds := ∅
        recoveryPartitionBounds := AList.singleton entry.1 none
        recoveryScan := true
        eligibility := { fresh := true } }
    | _ => none

def fastRequest (windowStart : Int) (bounds : FastBounds) : List ScanRequest :=
  if bounds.entries.isEmpty then []
  else
    [{ window := ⟨config.topic, windowStart⟩
       minSnowflake := leastBound (bounds.entries.map Sigma.snd)
       fastPartitionBounds := bounds
       recoveryPartitionBounds := ∅
       recoveryScan := false
       eligibility := { fast := true } }]

/-- Bounds of the partitions whose last complete coverage ended in the window before the fast
ones. -/
def coverageTailBounds (assigned : List VirtualPartitionId) (tailWindow now : Int) : FastBounds :=
  (reader.fastScanPartitionBounds config settings assigned tailWindow now).retain fun partition =>
    ((reader.state partition).bind VirtualPartitionState.fastCoverageFloor).any fun floor =>
      coverageWindow config floor now = tailWindow

def fastRequests (assigned : List VirtualPartitionId) (now : Int) : Option (List ScanRequest) :=
  if reader.virtualPartitionStates.entries.any fun entry => entry.2.isFast then
    (eligibleFastScanWindows config settings now).map fun windows =>
      let tail := match windows.head? with
        | some first =>
          fastRequest config (first - config.metadataWindowSeconds)
            (reader.coverageTailBounds config settings assigned
              (first - config.metadataWindowSeconds) now)
        | none => []
      tail ++ windows.flatMap fun window => fastRequest config window
        (reader.fastScanPartitionBounds config settings assigned window now)
  else some []

/-- Holds whose gap can no longer be filled are cleared before planning. -/
def clearMatureHolds (now : Int) : Reader :=
  { reader with
    virtualPartitionStates := reader.virtualPartitionStates.mapValues fun _ state =>
      state.clearFastGapHoldIfMature now }

/-- `scan_requests`: the reader after planning, the requests of the pass and whether some of them
read retained history. -/
def scanRequests (assigned : List VirtualPartitionId) (now : Int) :
    Option (Reader × ScanRequests × Bool) := do
  let planned ← (reader.clearMatureHolds now).startFastCoverageRecoveries config settings now
  let (recovery, last) := planned.planRecovery config
  let fresh := planned.freshRequests config
  let fast ← planned.fastRequests config settings assigned now
  pure ({ planned with recoveryScanLastPartition := last },
    (recovery ++ fresh ++ fast).foldl (fun requests request => insertScanRequest request requests) [],
    !recovery.isEmpty || !fresh.isEmpty)

end Reader

end BlobStream.Consumer
