import BlobStream.Write.Segment

/-!
# Flush configuration of a broker

`fromBrokerConfig` checks the static configuration; `effectiveFlushConfig` resolves it against the
feature flags of the moment. Durations are nanoseconds; flags and the adaptive delay count whole
milliseconds, so that a configured duration can lie between two of them.
-/

namespace BlobStream.Write.Config

def milliseconds (count : Int) : Int := count * 1000000

/-- `Ord::clamp`; none is its panic on an empty interval. -/
def checkedClamp (low high value : Int) : Option Int :=
  if low ≤ high then some (max low (min value high)) else none

/-- The broker's part of the runtime configuration, as far as it is read here. -/
structure BrokerConfig where
  writerId : Option Nat
  flushMaxBytes : Nat
  maxSegmentBytes : Option Nat
  flushMaxDelay : Option Int
  adaptiveFlushMaxDelayEnabled : Option Bool
  adaptiveFlushMaxDelayFloor : Option Int
  leaseDuration : Option Int
  heartbeatInterval : Option Int
  sequenceReservationSize : Option Nat
  fencedMetadataWrites : Bool
  segmentCompression : Option CompressionCodec
deriving DecidableEq, Repr

structure WriteConfig where
  flushMaxBytes : Nat
  maxSegmentBytes : Nat
  flushMaxDelay : Int
  adaptiveFlushMaxDelayEnabled : Bool
  adaptiveFlushMaxDelayFloor : Option Int
  leaseDuration : Int
  heartbeatInterval : Int
  reservationSize : Nat
  writerId : Nat
  compression : Compression
  blobPrefix : Option String
  fencedMetadataWrites : Bool
deriving DecidableEq, Repr

def WriteConfig.withDefaults : WriteConfig where
  flushMaxBytes := 64 * 1024 * 1024
  maxSegmentBytes := 64 * 1024 * 1024
  flushMaxDelay := nanoseconds
  adaptiveFlushMaxDelayEnabled := true
  adaptiveFlushMaxDelayFloor := none
  leaseDuration := 30 * nanoseconds
  heartbeatInterval := 10 * nanoseconds
  reservationSize := 10000
  writerId := 0
  compression := ⟨.zstd, some defaultZstdLevel⟩
  blobPrefix := none
  fencedMetadataWrites := false

inductive ConfigError
  | writerIdMissing
  | flushMaxDelayTooShort
  | floorTooShort
  | floorAboveMaxDelay
  | heartbeatNotBelowLease
  | reservationSizeZero
deriving DecidableEq, Repr

def ConfigError.message : ConfigError → String
  | .writerIdMissing => "broker writer_id must be explicitly configured"
  | .flushMaxDelayTooShort => "broker flush_max_delay must be at least one millisecond"
  | .floorTooShort => "broker adaptive_flush_max_delay_floor must be at least one millisecond"
  | .floorAboveMaxDelay =>
    "broker adaptive_flush_max_delay_floor must not exceed flush_max_delay"
  | .heartbeatNotBelowLease => "broker heartbeat_interval must be less than lease_duration"
  | .reservationSizeZero => "broker sequence_reservation_size must be positive"

def checkFlushMaxDelay : Option Int → Except ConfigError Int
  | none => .ok WriteConfig.withDefaults.flushMaxDelay
  | some delay => if milliseconds 1 ≤ delay then .ok delay else .error .flushMaxDelayTooShort

/-- The configured floor, between a millisecond and the configured delay. -/
def checkFloor (flushMaxDelay : Int) : Option Int → Except ConfigError (Option Int)
  | none => .ok none
  | some floor =>
    if ¬ 0 < wholeMilliseconds floor then .error .floorTooShort
    else if ¬ floor ≤ flushMaxDelay then .error .floorAboveMaxDelay
    else .ok (some floor)

def checkReservationSize : Option Nat → Except ConfigError Nat
  | none => .ok WriteConfig.withDefaults.reservationSize
  | some size => if 0 < size then .ok size else .error .reservationSizeZero

def fromBrokerConfig (broker : BrokerConfig) : Except ConfigError WriteConfig := do
  let defaults := WriteConfig.withDefaults
  let writerId ← match broker.writerId with
    | none => throw .writerIdMissing
    | some writerId => pure writerId
  let flushMaxDelay ← checkFlushMaxDelay broker.flushMaxDelay
  let adaptiveFlushMaxDelayFloor ← checkFloor flushMaxDelay broker.adaptiveFlushMaxDelayFloor
  let leaseDuration := broker.leaseDuration.getD defaults.leaseDuration
  let heartbeatInterval := broker.heartbeatInterval.getD defaults.heartbeatInterval
  if ¬ heartbeatInterval < leaseDuration then throw .heartbeatNotBelowLease
  let reservationSize ← checkReservationSize broker.sequenceReservationSize
  return {
    flushMaxBytes := if 0 < broker.flushMaxBytes then broker.flushMaxBytes else defaults.flushMaxBytes
    maxSegmentBytes := broker.maxSegmentBytes.getD defaults.maxSegmentBytes
    flushMaxDelay
    adaptiveFlushMaxDelayEnabled := broker.adaptiveFlushMaxDelayEnabled.getD true
    adaptiveFlushMaxDelayFloor
    leaseDuration
    heartbeatInterval
    reservationSize
    writerId
    compression := if broker.segmentCompression = some .none then ⟨.none, none⟩
      else defaults.compression
    blobPrefix := defaults.blobPrefix
    fencedMetadataWrites := broker.fencedMetadataWrites }

/-! ### Live overrides -/

/-- Values of the feature flags at some moment; a flag that is not set has none. -/
structure FeatureFlags where
  integer : String → Option Nat
  bool : String → Option Bool

def getInteger (flags : Option FeatureFlags) (name : String) (default : Nat) : Nat :=
  ((flags.bind fun flags => flags.integer name)).getD default

def getBool (flags : Option FeatureFlags) (name : String) (default : Bool) : Bool :=
  ((flags.bind fun flags => flags.bool name)).getD default

/-- Adaptive flush-delay settings resolved against the live maximum. -/
structure AdaptiveFlushDelayConfig where
  enabled : Bool
  floor : Int
  maxDelay : Int
deriving DecidableEq, Repr

structure EffectiveFlushConfig extends Write.EffectiveFlushConfig where
  adaptiveFlushDelay : AdaptiveFlushDelayConfig
deriving DecidableEq, Repr

/-- A number of milliseconds as a delay, if it is positive and at most the bound. -/
def boundedMilliseconds (count bound : Int) : Option Int :=
  ((Word.toInt64 count).filter fun count => decide (0 < count)).map milliseconds
    |>.filter fun delay => decide (delay ≤ bound)

/-- Half the maximum, at least a millisecond. -/
def defaultFloor (maxDelay : Int) : Int :=
  let count := max ((wholeMilliseconds maxDelay).tdiv 2) 1
  milliseconds ((Word.toInt64 count).getD Word.int64Max)

section Effective

variable (config : WriteConfig) (flags : Option FeatureFlags)

def effectiveMaxBytes : Nat :=
  let maxBytes := getInteger flags "blob_stream_broker_flush_max_bytes" config.flushMaxBytes
  if 0 < maxBytes then maxBytes else config.flushMaxBytes

def effectiveMaxDelay : Int :=
  let configured := (Word.toU64 (wholeMilliseconds config.flushMaxDelay)).getD 0
  let count := getInteger flags "blob_stream_broker_flush_max_delay_ms" configured
  (boundedMilliseconds count config.flushMaxDelay).getD config.flushMaxDelay

/-- The floor without overrides; none is the panic of the clamp. -/
def configuredFloor (maxDelay : Int) : Option Int :=
  checkedClamp (milliseconds 1) maxDelay
    (config.adaptiveFlushMaxDelayFloor.getD (defaultFloor maxDelay))

def adaptiveFloor (maxDelay configured : Int) : Int :=
  let configuredCount := wholeMilliseconds configured
  -- Without flags the configured count itself is used, however large it is.
  let count := match flags with
    | none => configuredCount
    | some _ => (getInteger flags "blob_stream_broker_adaptive_flush_max_delay_floor_ms"
        ((Word.toU64 configuredCount).getD 1) : Nat)
  (boundedMilliseconds count maxDelay).getD configured

/-- The thresholds of the moment; none when resolving them panics. -/
def effectiveFlushConfig : Option EffectiveFlushConfig := do
  let maxDelay := effectiveMaxDelay config flags
  let configured ← configuredFloor config maxDelay
  return {
    maxBytes := effectiveMaxBytes config flags
    maxDelay
    adaptiveFlushDelay :=
      { enabled := getBool flags "blob_stream_broker_adaptive_flush_max_delay_enabled"
          config.adaptiveFlushMaxDelayEnabled
        floor := adaptiveFloor flags maxDelay configured
        maxDelay } }

end Effective

/-! ### Bounds of the effective values -/

structure WriteConfig.Accepted (config : WriteConfig) : Prop where
  delay : milliseconds 1 ≤ config.flushMaxDelay
  floor : ∀ floor ∈ config.adaptiveFlushMaxDelayFloor, floor ≤ config.flushMaxDelay

variable {delay : Int}

theorem checkFlushMaxDelay_ok {configured : Option Int}
    (checked : checkFlushMaxDelay configured = .ok delay) : milliseconds 1 ≤ delay := by
  unfold checkFlushMaxDelay at checked
  split at checked
  · cases checked
    decide
  · split at checked
    next long =>
      cases checked
      exact long
    next => cases checked

theorem checkFloor_ok {configured checkedFloor : Option Int}
    (checked : checkFloor delay configured = .ok checkedFloor) :
    ∀ floor ∈ checkedFloor, floor ≤ delay := by
  unfold checkFloor at checked
  split at checked
  · cases checked
    nofun
  · split at checked
    next => cases checked
    next =>
      split at checked
      next => cases checked
      next below =>
        cases checked
        rintro floor ⟨⟩
        exact Int.not_lt.mp (fun above => below (by omega))

variable {config : WriteConfig}

theorem fromBrokerConfig_accepted {broker : BrokerConfig}
    (built : fromBrokerConfig broker = .ok config) : config.Accepted := by
  simp only [fromBrokerConfig, bind, Except.bind, pure, Except.pure, throw, throwThe,
    MonadExceptOf.throw] at built
  split at built
  · cases built
  split at built
  · cases built
  next delay delayChecked =>
    split at built
    · cases built
    next floor floorChecked =>
      split at built
      · cases built
      split at built
      · cases built
      · cases built
        exact ⟨checkFlushMaxDelay_ok delayChecked, checkFloor_ok floorChecked⟩

/-- An override in milliseconds is taken only inside its bounds. -/
theorem boundedMilliseconds_eq_some {count bound delay : Int}
    (taken : boundedMilliseconds count bound = some delay) :
    delay = milliseconds count ∧ 0 < count ∧ count ≤ Word.int64Max ∧ delay ≤ bound := by
  obtain ⟨taken, below⟩ := Option.filter_eq_some_iff.mp taken
  obtain ⟨converted, kept, rfl⟩ := Option.map_eq_some_iff.mp taken
  obtain ⟨fits, positive⟩ := Option.filter_eq_some_iff.mp kept
  unfold Word.toInt64 at fits
  split at fits
  next inside =>
    cases fits
    exact ⟨rfl, by simpa using positive, inside.2, by simpa using below⟩
  next => cases fits

theorem effectiveMaxDelay_bounds (accepted : config.Accepted) (flags : Option FeatureFlags) :
    milliseconds 1 ≤ effectiveMaxDelay config flags
      ∧ effectiveMaxDelay config flags ≤ config.flushMaxDelay := by
  unfold effectiveMaxDelay
  dsimp only
  generalize getInteger flags _ _ = count
  cases taken : boundedMilliseconds count config.flushMaxDelay with
  | none => exact ⟨accepted.delay, Int.le_refl _⟩
  | some delay =>
    obtain ⟨rfl, positive, -, below⟩ := boundedMilliseconds_eq_some taken
    refine ⟨?_, below⟩
    unfold milliseconds
    show _ ≤ milliseconds count
    unfold milliseconds
    omega

theorem configuredFloor_total (config : WriteConfig) {maxDelay : Int}
    (long : milliseconds 1 ≤ maxDelay) :
    ∃ floor, configuredFloor config maxDelay = some floor ∧ 0 ≤ floor ∧ floor ≤ maxDelay := by
  unfold configuredFloor checkedClamp
  rw [if_pos long]
  unfold milliseconds at *
  exact ⟨_, rfl, by omega, by omega⟩

theorem adaptiveFloor_bounds (flags : Option FeatureFlags) {maxDelay configured : Int}
    (nonnegative : 0 ≤ configured) (below : configured ≤ maxDelay) :
    0 ≤ adaptiveFloor flags maxDelay configured
      ∧ adaptiveFloor flags maxDelay configured ≤ maxDelay := by
  unfold adaptiveFloor
  dsimp only
  generalize (match flags with
    | none => wholeMilliseconds configured
    | some _ => _) = count
  cases taken : boundedMilliseconds count maxDelay with
  | none => exact ⟨nonnegative, below⟩
  | some floor =>
    obtain ⟨rfl, positive, -, inside⟩ := boundedMilliseconds_eq_some taken
    refine ⟨?_, inside⟩
    show 0 ≤ milliseconds count
    unfold milliseconds
    omega

/-- The delay has somewhere to be. -/
structure AdaptiveFlushDelayConfig.Valid (config : AdaptiveFlushDelayConfig) : Prop where
  nonnegative : 0 ≤ config.floor
  ordered : config.floor ≤ config.maxDelay

/-- Resolving the thresholds never panics, and the floor lies below the maximum. -/
theorem effectiveFlushConfig_total (accepted : config.Accepted) (flags : Option FeatureFlags) :
    ∃ effective, effectiveFlushConfig config flags = some effective
      ∧ effective.adaptiveFlushDelay.Valid := by
  obtain ⟨long, -⟩ := effectiveMaxDelay_bounds accepted flags
  obtain ⟨floor, clamped, nonnegative, below⟩ := configuredFloor_total config long
  unfold effectiveFlushConfig
  dsimp only
  rw [clamped]
  obtain ⟨low, high⟩ := adaptiveFloor_bounds flags nonnegative below
  exact ⟨_, rfl, low, high⟩

/-! ### Floors that the controller can represent -/

/-- The floor is a whole number of milliseconds that fits 64 bits. -/
def WholeFloor (floor : Int) : Prop :=
  floor = milliseconds (wholeMilliseconds floor) ∧ wholeMilliseconds floor ≤ Word.int64Max

instance (floor : Int) : Decidable (WholeFloor floor) := inferInstanceAs (Decidable (_ ∧ _))

theorem milliseconds_wholeMilliseconds_le (nonnegative : 0 ≤ delay) :
    milliseconds (wholeMilliseconds delay) ≤ delay := by
  unfold milliseconds wholeMilliseconds
  rw [Int.tdiv_eq_ediv_of_nonneg nonnegative]
  omega

end BlobStream.Write.Config
