import BlobStream.Lib.Machine
import BlobStream.Write.FlushConfig

/-!
# The adaptive flush delay

The controller starts at the effective maximum. Three flush plans in a row that were split shorten the
delay, three successful ones without a split lengthen it again; each change needs a new run of three.
It computes in whole milliseconds, while its bounds are durations.
-/

namespace BlobStream.Write.Config

open Machine (Reachable)

/-- `divide_rounding_up`; none is a division by zero. -/
def divideRoundingUp (dividend divisor : Int) : Option Int :=
  if dividend = 0 then some 0
  else if divisor = 0 then none
  else some ((dividend - 1).tdiv divisor + 1)

/-- `duration_from_milliseconds`, saturated to 64 bits. -/
def durationFromMilliseconds (count : Int) : Int :=
  milliseconds ((Word.toInt64 count).getD Word.int64Max)

structure AdaptiveFlushDelay where
  config : AdaptiveFlushDelayConfig
  currentDelay : Int
  consecutiveSplitPlans : Nat
  consecutiveSuccessfulUnsplitPlans : Nat
deriving DecidableEq, Repr

namespace AdaptiveFlushDelay

def new (config : AdaptiveFlushDelayConfig) : AdaptiveFlushDelay := ⟨config, config.maxDelay, 0, 0⟩

variable (delay : AdaptiveFlushDelay)

def resetStreaks : AdaptiveFlushDelay :=
  { delay with consecutiveSplitPlans := 0, consecutiveSuccessfulUnsplitPlans := 0 }

def reconfigure (config : AdaptiveFlushDelayConfig) : Option AdaptiveFlushDelay :=
  if ¬ config.enabled ∨ ¬ delay.config.enabled then some (new config)
  else
    (checkedClamp config.floor config.maxDelay delay.currentDelay).map fun currentDelay =>
      ⟨config, currentDelay, 0, 0⟩

def shortened (splitCount : Nat) : Option Int := do
  let current := wholeMilliseconds delay.currentDelay
  let floor := wholeMilliseconds delay.config.floor
  let ideal ← divideRoundingUp current (Word.saturatingAdd Word.u64Max splitCount 1 : Nat)
  let target := min (max ideal floor) (wholeMilliseconds delay.config.maxDelay)
  let reduction ← divideRoundingUp (current - target) 4
  return durationFromMilliseconds (max (current - reduction) floor)

def recovered : Option Int := do
  let current := wholeMilliseconds delay.currentDelay
  let maximum := wholeMilliseconds delay.config.maxDelay
  let step ← divideRoundingUp (maximum - current) 2
  return durationFromMilliseconds (min (current + step) maximum)

/-- Take a new delay; a change needs a new run of outcomes. -/
def adjust (currentDelay : Int) : AdaptiveFlushDelay :=
  if currentDelay ≠ delay.currentDelay then { delay.resetStreaks with currentDelay }
  else { delay with currentDelay }

def afterFlushResult (splitCount : Nat) (successful : Bool) : Option AdaptiveFlushDelay :=
  if ¬ delay.config.enabled then some (new delay.config)
  else if 0 < splitCount then
    let counted := { delay with
      consecutiveSplitPlans := Word.saturatingAdd Word.u64Max delay.consecutiveSplitPlans 1
      consecutiveSuccessfulUnsplitPlans := 0 }
    if counted.consecutiveSplitPlans < 3 then some counted
    else (counted.shortened splitCount).map counted.adjust
  else if successful then
    let counted := { delay with
      consecutiveSuccessfulUnsplitPlans :=
        Word.saturatingAdd Word.u64Max delay.consecutiveSuccessfulUnsplitPlans 1
      consecutiveSplitPlans := 0 }
    if counted.consecutiveSuccessfulUnsplitPlans < 3 then some counted
    else counted.recovered.map counted.adjust
  else some delay.resetStreaks

def recordFlushResult (splitCount : Nat) (successful : Bool) :
    Option (AdaptiveFlushDelay × Bool) :=
  (delay.afterFlushResult splitCount successful).map fun next =>
    (next, decide (next.currentDelay ≠ delay.currentDelay))

end AdaptiveFlushDelay

/-! ### Runs -/

inductive DelayCall
  | reconfigure (flags : Option FeatureFlags)
  | recordFlushResult (splitCount : Nat) (successful : Bool)

/-- One call, against the static configuration of the broker. -/
def AdaptiveFlushDelay.call (config : WriteConfig) (delay : AdaptiveFlushDelay) :
    DelayCall → Option AdaptiveFlushDelay
  | .reconfigure flags => do
    let effective ← effectiveFlushConfig config flags
    delay.reconfigure effective.adaptiveFlushDelay
  | .recordFlushResult splitCount successful =>
    (delay.recordFlushResult splitCount successful).map Prod.fst

def startController (config : WriteConfig) (flags : Option FeatureFlags) :
    Option AdaptiveFlushDelay :=
  (effectiveFlushConfig config flags).map fun effective =>
    AdaptiveFlushDelay.new effective.adaptiveFlushDelay

/-! ### Arithmetic of the adjustments -/

theorem divideRoundingUp_total (dividend : Int) {divisor : Int} (positive : 0 < divisor) :
    ∃ quotient, divideRoundingUp dividend divisor = some quotient
      ∧ (0 ≤ dividend → 0 ≤ quotient ∧ quotient ≤ dividend)
      ∧ (dividend < 0 → dividend ≤ quotient) := by
  unfold divideRoundingUp
  by_cases zero : dividend = 0
  · rw [if_pos zero]
    exact ⟨0, rfl, fun _ => by omega, fun negative => by omega⟩
  · rw [if_neg zero, if_neg (by omega)]
    refine ⟨_, rfl, fun nonnegative => ?_, fun negative => ?_⟩
    · have low : 0 ≤ (dividend - 1).tdiv divisor := Int.tdiv_nonneg (by omega) (by omega)
      have high : (dividend - 1).tdiv divisor ≤ dividend - 1 :=
        Int.tdiv_le_self divisor (by omega)
      omega
    · have mirrored : (1 - dividend).tdiv divisor ≤ 1 - dividend :=
        Int.tdiv_le_self divisor (by omega)
      rw [show dividend - 1 = -(1 - dividend) by omega, Int.neg_tdiv]
      omega

/-- A duration computed in milliseconds stays below a bound that covers the milliseconds. -/
theorem durationFromMilliseconds_le {count bound : Int} (nonnegative : 0 ≤ count)
    (below : milliseconds count ≤ bound) : durationFromMilliseconds count ≤ bound := by
  refine Int.le_trans ?_ below
  unfold durationFromMilliseconds Word.toInt64 milliseconds
  split
  next => exact Int.le_refl _
  next large =>
    show Word.int64Max * 1000000 ≤ count * 1000000
    unfold Word.int64Min at large
    omega

theorem le_durationFromMilliseconds {count floor : Int} (whole : WholeFloor floor)
    (above : wholeMilliseconds floor ≤ count) : floor ≤ durationFromMilliseconds count := by
  rw [whole.1]
  have fits := whole.2
  unfold durationFromMilliseconds Word.toInt64 milliseconds
  split
  next =>
    show _ ≤ count * 1000000
    omega
  next =>
    show _ ≤ Word.int64Max * 1000000
    omega

theorem durationFromMilliseconds_nonneg {count : Int} (nonnegative : 0 ≤ count) :
    0 ≤ durationFromMilliseconds count := by
  unfold durationFromMilliseconds Word.toInt64 milliseconds
  split
  next =>
    show 0 ≤ count * 1000000
    omega
  next => decide

/-! ### The invariant -/

/-- The delay is inside its bounds, apart from the floor. -/
structure AdaptiveFlushDelay.Bounded (delay : AdaptiveFlushDelay) : Prop where
  valid : delay.config.Valid
  nonnegative : 0 ≤ delay.currentDelay
  atMost : delay.currentDelay ≤ delay.config.maxDelay
  disabled : delay.config.enabled = false → delay.currentDelay = delay.config.maxDelay

theorem wholeMilliseconds_mono {left right : Int} (nonnegative : 0 ≤ left) (below : left ≤ right) :
    0 ≤ wholeMilliseconds left ∧ wholeMilliseconds left ≤ wholeMilliseconds right := by
  unfold wholeMilliseconds
  rw [Int.tdiv_eq_ediv_of_nonneg nonnegative, Int.tdiv_eq_ediv_of_nonneg (by omega)]
  omega

/-- Shortening does not panic and stays below the maximum; it respects the milliseconds of the
floor. -/
theorem AdaptiveFlushDelay.shortened_total {delay : AdaptiveFlushDelay} (bounded : delay.Bounded)
    (splitCount : Nat) :
    ∃ next, delay.shortened splitCount = some next ∧ 0 ≤ next ∧ next ≤ delay.config.maxDelay
      ∧ (WholeFloor delay.config.floor → delay.config.floor ≤ next) := by
  have valid := bounded.valid
  obtain ⟨floorLow, floorHigh⟩ := wholeMilliseconds_mono valid.nonnegative valid.ordered
  obtain ⟨currentLow, currentHigh⟩ := wholeMilliseconds_mono bounded.nonnegative bounded.atMost
  have maximum := milliseconds_wholeMilliseconds_le (Int.le_trans valid.nonnegative valid.ordered)
  have divisor : 0 < ((Word.saturatingAdd Word.u64Max splitCount 1 : Nat) : Int) := by
    unfold Word.saturatingAdd Word.u64Max
    omega
  obtain ⟨ideal, isIdeal, -⟩ :=
    divideRoundingUp_total (wholeMilliseconds delay.currentDelay) divisor
  generalize isTarget : min (max ideal (wholeMilliseconds delay.config.floor))
    (wholeMilliseconds delay.config.maxDelay) = target
  obtain ⟨reduction, isReduction, reduces, overshoots⟩ := divideRoundingUp_total
    (wholeMilliseconds delay.currentDelay - target) (show (0 : Int) < 4 by decide)
  -- The reduced count is at most the current count, or else at most the target.
  have inside : max (wholeMilliseconds delay.currentDelay - reduction)
      (wholeMilliseconds delay.config.floor) ≤ wholeMilliseconds delay.config.maxDelay := by
    omega
  refine ⟨durationFromMilliseconds (max (wholeMilliseconds delay.currentDelay - reduction)
      (wholeMilliseconds delay.config.floor)), ?_,
    durationFromMilliseconds_nonneg (Int.le_trans floorLow (Int.le_max_right _ _)),
    durationFromMilliseconds_le (Int.le_trans floorLow (Int.le_max_right _ _)) ?_,
    fun whole => le_durationFromMilliseconds whole (Int.le_max_right _ _)⟩
  · unfold shortened
    dsimp only
    rw [isIdeal, Option.bind_eq_bind, Option.bind_some, isTarget, isReduction]
    rfl
  · unfold milliseconds at *
    omega

/-- Recovering does not panic and stays between the current delay and the maximum. -/
theorem AdaptiveFlushDelay.recovered_total {delay : AdaptiveFlushDelay} (bounded : delay.Bounded) :
    ∃ next, delay.recovered = some next ∧ 0 ≤ next ∧ next ≤ delay.config.maxDelay
      ∧ (WholeFloor delay.config.floor → delay.config.floor ≤ delay.currentDelay →
        delay.config.floor ≤ next) := by
  have valid := bounded.valid
  obtain ⟨currentLow, currentHigh⟩ := wholeMilliseconds_mono bounded.nonnegative bounded.atMost
  have maximum := milliseconds_wholeMilliseconds_le (Int.le_trans valid.nonnegative valid.ordered)
  obtain ⟨step, isStep, rises, -⟩ := divideRoundingUp_total
    (wholeMilliseconds delay.config.maxDelay - wholeMilliseconds delay.currentDelay)
    (show (0 : Int) < 2 by decide)
  have risen := rises (by omega)
  refine ⟨durationFromMilliseconds (min (wholeMilliseconds delay.currentDelay + step)
      (wholeMilliseconds delay.config.maxDelay)), ?_, durationFromMilliseconds_nonneg ?_,
    durationFromMilliseconds_le ?_ ?_, fun whole above => le_durationFromMilliseconds whole ?_⟩
  · unfold recovered
    dsimp only
    rw [isStep]
    rfl
  · omega
  · omega
  · unfold milliseconds at *
    omega
  · have counted := (wholeMilliseconds_mono valid.nonnegative above).2
    omega

/-- The delay is at or above a floor it can represent. -/
structure AdaptiveFlushDelay.FloorHeld (delay : AdaptiveFlushDelay) : Prop where
  whole : WholeFloor delay.config.floor
  atLeast : delay.config.floor ≤ delay.currentDelay

namespace AdaptiveFlushDelay

variable {config : AdaptiveFlushDelayConfig}

theorem new_bounded (valid : config.Valid) : (new config).Bounded :=
  ⟨valid, Int.le_trans valid.nonnegative valid.ordered, Int.le_refl _, fun _ => rfl⟩

theorem new_floorHeld (valid : config.Valid) (whole : WholeFloor config.floor) :
    (new config).FloorHeld :=
  ⟨whole, valid.ordered⟩

theorem reconfigure_total (delay : AdaptiveFlushDelay) (valid : config.Valid) :
    ∃ next, delay.reconfigure config = some next ∧ next.Bounded
      ∧ (WholeFloor config.floor → next.FloorHeld) := by
  unfold reconfigure
  split
  next => exact ⟨_, rfl, new_bounded valid, new_floorHeld valid⟩
  next enabled =>
    unfold checkedClamp
    rw [if_pos valid.ordered]
    have nonnegative := valid.nonnegative
    have ordered := valid.ordered
    refine ⟨_, rfl, ⟨valid, ?_, ?_, fun disabled => ?_⟩, fun whole => ⟨whole, ?_⟩⟩
    · show 0 ≤ max config.floor (min delay.currentDelay config.maxDelay)
      omega
    · show max config.floor (min delay.currentDelay config.maxDelay) ≤ config.maxDelay
      omega
    · exact absurd (Or.inl (by rw [show config.enabled = false from disabled]; decide)) enabled
    · exact Int.le_max_left _ _

theorem adjust_currentDelay (delay : AdaptiveFlushDelay) (next : Int) :
    (delay.adjust next).currentDelay = next ∧ (delay.adjust next).config = delay.config := by
  unfold adjust
  split <;> exact ⟨rfl, rfl⟩

variable {delay : AdaptiveFlushDelay} {next : Int}

theorem adjust_bounded (valid : delay.config.Valid) (enabled : delay.config.enabled = true)
    (nonnegative : 0 ≤ next) (atMost : next ≤ delay.config.maxDelay) :
    (delay.adjust next).Bounded := by
  obtain ⟨current, config⟩ := adjust_currentDelay delay next
  refine ⟨config ▸ valid, ?_, ?_, fun disabled => ?_⟩
  · rw [current]
    exact nonnegative
  · rw [current, config]
    exact atMost
  · rw [config, enabled] at disabled
    cases disabled

theorem adjust_floorHeld (whole : WholeFloor delay.config.floor)
    (atLeast : delay.config.floor ≤ next) : (delay.adjust next).FloorHeld := by
  obtain ⟨current, config⟩ := adjust_currentDelay delay next
  refine ⟨config ▸ whole, ?_⟩
  rw [current, config]
  exact atLeast

/-- Counting an outcome changes neither the delay nor its bounds. -/
theorem Bounded.count (bounded : delay.Bounded) (split unsplit : Nat) :
    Bounded { delay with
      consecutiveSplitPlans := split, consecutiveSuccessfulUnsplitPlans := unsplit } :=
  ⟨bounded.valid, bounded.nonnegative, bounded.atMost, bounded.disabled⟩

theorem FloorHeld.count (held : delay.FloorHeld) (split unsplit : Nat) :
    FloorHeld { delay with
      consecutiveSplitPlans := split, consecutiveSuccessfulUnsplitPlans := unsplit } :=
  ⟨held.whole, held.atLeast⟩

theorem afterFlushResult_total (bounded : delay.Bounded) (splitCount : Nat) (successful : Bool) :
    ∃ next, delay.afterFlushResult splitCount successful = some next ∧ next.Bounded
      ∧ (delay.FloorHeld → next.FloorHeld) := by
  unfold afterFlushResult
  split
  next => exact ⟨_, rfl, new_bounded bounded.valid,
    fun held => new_floorHeld bounded.valid held.whole⟩
  next enabled =>
    replace enabled : delay.config.enabled = true := by simpa using enabled
    split
    next =>
      dsimp only
      split
      next => exact ⟨_, rfl, bounded.count _ _, fun held => held.count _ _⟩
      next =>
        obtain ⟨shorter, computed, nonnegative, atMost, atLeast⟩ :=
          shortened_total (bounded.count _ _) splitCount
        rw [computed]
        exact ⟨_, rfl, adjust_bounded bounded.valid enabled nonnegative atMost,
          fun held => adjust_floorHeld held.whole (atLeast held.whole)⟩
    next =>
      split
      next =>
        dsimp only
        split
        next => exact ⟨_, rfl, bounded.count _ _, fun held => held.count _ _⟩
        next =>
          obtain ⟨longer, computed, nonnegative, atMost, atLeast⟩ :=
            recovered_total (bounded.count _ _)
          rw [computed]
          exact ⟨_, rfl, adjust_bounded bounded.valid enabled nonnegative atMost,
            fun held => adjust_floorHeld held.whole (atLeast held.whole held.atLeast)⟩
      next => exact ⟨_, rfl, bounded.count _ _, fun held => held.count _ _⟩

end AdaptiveFlushDelay

/-! ### Whole runs -/

/-- The flags of the moment resolve to a floor of whole milliseconds. -/
def WholeFloorUnder (config : WriteConfig) (flags : Option FeatureFlags) : Prop :=
  ∀ effective ∈ effectiveFlushConfig config flags, WholeFloor effective.adaptiveFlushDelay.floor

/-- If the call reconfigures, then with a floor of whole milliseconds. -/
def DelayCall.WholeFloor (config : WriteConfig) : DelayCall → Prop
  | .reconfigure flags => WholeFloorUnder config flags
  | .recordFlushResult _ _ => True

theorem AdaptiveFlushDelay.call_total {config : WriteConfig} (accepted : config.Accepted)
    {delay : AdaptiveFlushDelay} (bounded : delay.Bounded) (call : DelayCall) :
    ∃ next, delay.call config call = some next ∧ next.Bounded
      ∧ (delay.FloorHeld → call.WholeFloor config → next.FloorHeld) := by
  cases call with
  | reconfigure flags =>
    obtain ⟨effective, resolved, valid⟩ := effectiveFlushConfig_total accepted flags
    obtain ⟨next, computed, kept, held⟩ := reconfigure_total delay valid
    refine ⟨next, ?_, kept, fun _ whole => held (whole effective resolved)⟩
    show (effectiveFlushConfig config flags).bind _ = some next
    rw [resolved]
    exact computed
  | recordFlushResult splitCount successful =>
    obtain ⟨next, computed, kept, held⟩ := afterFlushResult_total bounded splitCount successful
    refine ⟨next, ?_, kept, fun before _ => held before⟩
    show (delay.recordFlushResult splitCount successful).map Prod.fst = some next
    unfold recordFlushResult
    rw [computed]
    rfl

theorem AdaptiveFlushDelay.run_total {config : WriteConfig} (accepted : config.Accepted)
    (calls : List DelayCall) {delay : AdaptiveFlushDelay} (bounded : delay.Bounded) :
    ∃ last, Machine.run (AdaptiveFlushDelay.call config) delay calls = some last ∧ last.Bounded
      ∧ (delay.FloorHeld → (∀ call ∈ calls, call.WholeFloor config) → last.FloorHeld) := by
  induction calls generalizing delay with
  | nil => exact ⟨delay, rfl, bounded, fun held _ => held⟩
  | cons call rest ih =>
    obtain ⟨next, computed, kept, held⟩ := call_total accepted bounded call
    obtain ⟨last, ran, ends, heldLast⟩ := ih kept
    refine ⟨last, ?_, ends, fun before whole => ?_⟩
    · rw [Machine.run, computed]
      exact ran
    · exact heldLast (held before (whole call List.mem_cons_self))
        fun later member => whole later (List.mem_cons_of_mem call member)

/-- Whatever the flags say and however the plans end, the controller does not panic and its delay
stays at most the active maximum, which it holds while disabled. It stays at least the active floor
when the floors in use are whole milliseconds. -/
theorem adaptive_delay_bounded (broker : BrokerConfig) (config : WriteConfig)
    (built : fromBrokerConfig broker = .ok config) (flags : Option FeatureFlags)
    (calls : List DelayCall) :
    ∃ start last, startController config flags = some start
      ∧ Machine.run (AdaptiveFlushDelay.call config) start calls = some last
      ∧ last.currentDelay ≤ last.config.maxDelay
      ∧ (last.config.enabled = false → last.currentDelay = last.config.maxDelay)
      ∧ (WholeFloorUnder config flags → (∀ call ∈ calls, call.WholeFloor config) →
        last.config.floor ≤ last.currentDelay) := by
  have accepted := fromBrokerConfig_accepted built
  obtain ⟨effective, resolved, valid⟩ := effectiveFlushConfig_total accepted flags
  obtain ⟨last, ran, bounded, held⟩ :=
    AdaptiveFlushDelay.run_total accepted calls (AdaptiveFlushDelay.new_bounded valid)
  refine ⟨_, last, ?_, ran, bounded.atMost, bounded.disabled, fun starts whole => ?_⟩
  · unfold startController
    rw [resolved]
    rfl
  · exact (held (AdaptiveFlushDelay.new_floorHeld valid (starts effective resolved)) whole).atLeast

/-! ### A floor between two milliseconds -/

/-- A broker that flushes after two milliseconds, with a floor of one and a half. -/
def fractionalFloor : BrokerConfig where
  writerId := some 0
  flushMaxBytes := 0
  maxSegmentBytes := none
  flushMaxDelay := some 2000000
  adaptiveFlushMaxDelayEnabled := none
  adaptiveFlushMaxDelayFloor := some 1500000
  leaseDuration := none
  heartbeatInterval := none
  sequenceReservationSize := none
  fencedMetadataWrites := false
  segmentCompression := none

/-- Flags with an override of the floor that is refused. -/
def floorFlag : FeatureFlags where
  integer name :=
    if name = "blob_stream_broker_adaptive_flush_max_delay_floor_ms" then some 0 else none
  bool _ := none

/-- The refused override brings back the configured floor, and three split plans pass below it. -/
theorem adaptive_delay_below_fractional_floor :
    ¬ ∀ config, fromBrokerConfig fractionalFloor = .ok config → ∀ start last,
      startController config (some floorFlag) = some start →
      Machine.run (AdaptiveFlushDelay.call config) start
        (List.replicate 3 (.recordFlushResult 1 true)) = some last →
      last.config.floor ≤ last.currentDelay := by
  intro bounded
  have fell : (startController { WriteConfig.withDefaults with
        flushMaxDelay := 2000000, adaptiveFlushMaxDelayFloor := some 1500000 }
      (some floorFlag)).bind (fun start => Machine.run (AdaptiveFlushDelay.call
        { WriteConfig.withDefaults with
          flushMaxDelay := 2000000, adaptiveFlushMaxDelayFloor := some 1500000 }) start
        (List.replicate 3 (.recordFlushResult 1 true)))
      = some ⟨⟨true, 1500000, 2000000⟩, 1000000, 0, 0⟩ := by decide +kernel
  obtain ⟨start, started, ran⟩ := Option.bind_eq_some_iff.mp fell
  exact absurd (bounded _ (by decide +kernel) start _ started ran) (by decide)

/-- The same broker with a floor of one millisecond. -/
def wholeFloorConfig : WriteConfig :=
  { WriteConfig.withDefaults with
    flushMaxDelay := 2000000, adaptiveFlushMaxDelayFloor := some 1000000 }

theorem adaptive_delay_bounded_whole_floor :
    ∃ start last, startController wholeFloorConfig (some floorFlag) = some start
      ∧ Machine.run (AdaptiveFlushDelay.call wholeFloorConfig) start
        (.reconfigure none :: List.replicate 3 (.recordFlushResult 1 true)) = some last
      ∧ last.currentDelay ≤ last.config.maxDelay ∧ last.config.floor ≤ last.currentDelay := by
  have built : fromBrokerConfig { fractionalFloor with adaptiveFlushMaxDelayFloor := some 1000000 }
      = .ok wholeFloorConfig := by decide +kernel
  have whole : WholeFloorUnder wholeFloorConfig (some floorFlag)
      ∧ WholeFloorUnder wholeFloorConfig none := by
    constructor
    all_goals
      rintro effective ⟨⟩
      decide +kernel
  obtain ⟨start, last, started, ran, atMost, -, atLeast⟩ := adaptive_delay_bounded _ wholeFloorConfig
    built (some floorFlag) (.reconfigure none :: List.replicate 3 (.recordFlushResult 1 true))
  refine ⟨start, last, started, ran, atMost, atLeast whole.1 fun call member => ?_⟩
  rcases List.mem_cons.mp member with rfl | rest
  · exact whole.2
  · rw [List.eq_of_mem_replicate rest]
    trivial

end BlobStream.Write.Config
