import BlobStream.Lib.Word

/-!
# Packing partition sections into objects

`target_fill_object_groups` cuts a list of sized sections into contiguous groups of at most
`max_segment_bytes`, closing a group early when that brings it closer to an equal share of what is
left. The number of objects it may still use comes from `minimum_suffix_object_counts`, a sliding
window over the sizes.
-/

namespace BlobStream.Write.Packing

open Word

structure TargetFillGroup (α : Type*) where
  first : α
  remaining : List α := []
deriving DecidableEq, Repr

variable {α : Type*}

def TargetFillGroup.items (group : TargetFillGroup α) : List α :=
  group.first :: group.remaining

/-! ### Minimum object counts -/

/-- The inner loop: extend the window that ends at `objectEnd` while the next section fits. -/
def growObject (sizes : List Nat) (maxSegmentBytes : Nat) :
    (fuel : Nat) → (objectEnd objectBytes : Nat) → Nat × Nat
  | 0, objectEnd, objectBytes => (objectEnd, objectBytes)
  | fuel + 1, objectEnd, objectBytes =>
    match sizes[objectEnd]? with
    | none => (objectEnd, objectBytes)
    | some size =>
      if size ≤ maxSegmentBytes ∧ saturatingAdd u64Max objectBytes size ≤ maxSegmentBytes then
        growObject sizes maxSegmentBytes fuel (objectEnd + 1)
          (saturatingAdd u64Max objectBytes size)
      else (objectEnd, objectBytes)

/-- One turn of the outer loop: the window of `objectStart` and the bytes left in it once the start
moves on. -/
def windowFrom (sizes : List Nat) (maxSegmentBytes objectStart objectEnd objectBytes : Nat) :
    Nat × Nat :=
  let size := sizes.getD objectStart 0
  if objectEnd = objectStart ∧ maxSegmentBytes < size then (objectStart + 1, objectBytes)
  else
    let opened := if objectEnd = objectStart then (objectStart + 1, size)
      else (objectEnd, objectBytes)
    let grown := growObject sizes maxSegmentBytes sizes.length opened.1 opened.2
    (grown.1, grown.2 - size)

/-- `next_object_start` for `count` starts from `objectStart` on. -/
def nextObjectStarts (sizes : List Nat) (maxSegmentBytes : Nat) :
    (count : Nat) → (objectStart objectEnd objectBytes : Nat) → List Nat
  | 0, _, _, _ => []
  | count + 1, objectStart, objectEnd, objectBytes =>
    let window := windowFrom sizes maxSegmentBytes objectStart objectEnd objectBytes
    window.1 :: nextObjectStarts sizes maxSegmentBytes count (objectStart + 1) window.1 window.2

/-- Counts for the starts from `objectStart` on, given where their objects end; the list ends with
the count of the empty suffix. A count is at most the number of sections, so the saturation of the
source is never reached. -/
def suffixCounts : (objectStart : Nat) → (nextStarts : List Nat) → List Nat
  | _, [] => [0]
  | objectStart, next :: rest =>
    let counts := suffixCounts (objectStart + 1) rest
    (counts.getD (next - (objectStart + 1)) 0 + 1) :: counts

def minimumSuffixObjectCounts (sizes : List Nat) (maxSegmentBytes : Nat) : List Nat :=
  suffixCounts 0 (nextObjectStarts sizes maxSegmentBytes sizes.length 0 0 0)

/-! ### Target fill -/

/-- `div_ceil`, which panics on a zero divisor. -/
def divCeil (dividend divisor : Nat) : Option Nat :=
  if divisor = 0 then none else some ((dividend + divisor - 1) / divisor)

def absDiff (left right : Nat) : Nat := (left - right) + (right - left)

structure FillState (α : Type*) where
  groups : List (TargetFillGroup α) := []
  current : TargetFillGroup α
  currentBytes : Nat
  remainingBytes : Nat
  remainingObjectCount : Nat

namespace FillState

variable {α : Type*}

/-- Close the current group and start the next one with `item`. -/
def close (state : FillState α) (size : Nat) (item : α) : FillState α where
  groups := state.groups ++ [state.current]
  current := { first := item }
  currentBytes := size
  remainingBytes := state.remainingBytes - size
  remainingObjectCount := state.remainingObjectCount - 1

def extend (state : FillState α) (size : Nat) (item : α) : FillState α :=
  { state with
    current := { state.current with remaining := state.current.remaining ++ [item] }
    currentBytes := saturatingAdd u64Max state.currentBytes size
    remainingBytes := state.remainingBytes - size }

def turn (counts : List Nat) (maxSegmentBytes index size : Nat) (item : α)
    (state : FillState α) : Option (FillState α) :=
  if maxSegmentBytes < saturatingAdd u64Max state.currentBytes size then
    some (state.close size item)
  else
    let candidateBytes := saturatingAdd u64Max state.currentBytes size
    (divCeil (saturatingAdd u64Max state.currentBytes state.remainingBytes)
      state.remainingObjectCount).map fun targetBytes =>
        if counts.getD index 0 ≤ state.remainingObjectCount - 1
            ∧ absDiff state.currentBytes targetBytes < absDiff candidateBytes targetBytes then
          state.close size item
        else state.extend size item

def fill (counts : List Nat) (maxSegmentBytes : Nat) :
    (index : Nat) → List (Nat × α) → FillState α → Option (List (TargetFillGroup α))
  | _, [], state => some (state.groups ++ [state.current])
  | index, (size, item) :: rest, state =>
    (state.turn counts maxSegmentBytes index size item).bind
      (fill counts maxSegmentBytes (index + 1) rest)

end FillState

/-- None stands for the panic of a division by zero. -/
def targetFillObjectGroups (partitions : List (Nat × α)) (maxSegmentBytes : Nat) :
    Option (List (TargetFillGroup α)) :=
  match partitions with
  | [] => some []
  | (firstSize, first) :: rest =>
    let sizes := partitions.map Prod.fst
    let counts := minimumSuffixObjectCounts sizes maxSegmentBytes
    FillState.fill counts maxSegmentBytes 1 rest
      { current := { first }
        currentBytes := firstSize
        remainingBytes := sizes.foldl (saturatingAdd u64Max) 0 - firstSize
        remainingObjectCount := counts.getD 0 0 }

/-! ### No section is lost -/

variable {index size : Nat}

namespace FillState

variable {α : Type*} {counts : List Nat} {maxSegmentBytes : Nat}

def placed (state : FillState α) : List α :=
  state.groups.flatMap TargetFillGroup.items ++ state.current.items

theorem close_placed (state : FillState α) (size : Nat) (item : α) :
    (state.close size item).placed = state.placed ++ [item] := by
  simp [placed, close, TargetFillGroup.items]

theorem extend_placed (state : FillState α) (size : Nat) (item : α) :
    (state.extend size item).placed = state.placed ++ [item] := by
  simp [placed, extend, TargetFillGroup.items]

theorem turn_cases {item : α} {state next : FillState α}
    (turned : state.turn counts maxSegmentBytes index size item = some next) :
    (next = state.close size item
      ∧ (maxSegmentBytes < saturatingAdd u64Max state.currentBytes size
        ∨ counts.getD index 0 ≤ state.remainingObjectCount - 1))
    ∨ next = state.extend size item
      ∧ saturatingAdd u64Max state.currentBytes size ≤ maxSegmentBytes := by
  unfold turn at turned
  split at turned
  next forced =>
    cases turned
    exact Or.inl ⟨rfl, Or.inl forced⟩
  next fits =>
    obtain ⟨target, _, rfl⟩ := Option.map_eq_some_iff.mp turned
    split
    next early => exact Or.inl ⟨rfl, Or.inr early.1⟩
    next => exact Or.inr ⟨rfl, Nat.le_of_not_lt fits⟩

theorem fill_items {groups : List (TargetFillGroup α)} :
    ∀ {index : Nat} {rest : List (Nat × α)} {state : FillState α},
      fill counts maxSegmentBytes index rest state = some groups →
      groups.flatMap TargetFillGroup.items = state.placed ++ rest.map Prod.snd := by
  intro index rest
  induction rest generalizing index with
  | nil =>
    intro state filled
    cases filled
    simp [placed]
  | cons entry rest ih =>
    intro state filled
    obtain ⟨size, item⟩ := entry
    obtain ⟨next, turned, filled⟩ := Option.bind_eq_some_iff.mp filled
    have step : next.placed = state.placed ++ [item] := by
      rcases turn_cases turned with ⟨rfl, _⟩ | ⟨rfl, _⟩
      · exact close_placed ..
      · exact extend_placed ..
    rw [ih filled, step, List.map_cons, List.append_assoc, List.singleton_append]

end FillState

theorem targetFillObjectGroups_items {partitions : List (Nat × α)} {maxSegmentBytes : Nat}
    {groups : List (TargetFillGroup α)}
    (filled : targetFillObjectGroups partitions maxSegmentBytes = some groups) :
    groups.flatMap TargetFillGroup.items = partitions.map Prod.snd := by
  cases partitions with
  | nil =>
    cases filled
    rfl
  | cons entry rest => exact FillState.fill_items filled

/-! ### The window sweep -/

section Sweep

variable {sizes : List Nat} {maxSegmentBytes : Nat}

def prefixBytes (sizes : List Nat) (count : Nat) : Nat := (sizes.take count).sum

theorem prefixBytes_succ (here : sizes[index]? = some size) :
    prefixBytes sizes (index + 1) = prefixBytes sizes index + size := by
  unfold prefixBytes
  rw [List.take_add_one, here, List.sum_append]
  simp

theorem prefixBytes_mono {first second : Nat} (ordered : first ≤ second) :
    prefixBytes sizes first ≤ prefixBytes sizes second := by
  induction ordered with
  | refl => exact Nat.le_refl _
  | @step reached _ ih =>
    cases here : sizes[reached]? with
    | none =>
      have past := List.getElem?_eq_none_iff.mp here
      have same : sizes.take (reached + 1) = sizes.take reached := by
        rw [List.take_of_length_le past, List.take_of_length_le (Nat.le_succ_of_le past)]
      unfold prefixBytes at ih ⊢
      rwa [same]
    | some size =>
      rw [prefixBytes_succ here]
      omega

theorem prefixBytes_le_sum (sizes : List Nat) (count : Nat) :
    prefixBytes sizes count ≤ sizes.sum := by
  have whole := congrArg List.sum (List.take_append_drop count sizes)
  rw [List.sum_append] at whole
  unfold prefixBytes
  omega

/-- No sum that is compared with the limit saturates: the limit, or everything, is small enough. -/
def ExactSums (sizes : List Nat) (maxSegmentBytes : Nat) : Prop :=
  maxSegmentBytes < u64Max ∨ sizes.sum ≤ u64Max

variable {start bytes stop : Nat}

section

variable (bounded : ExactSums sizes maxSegmentBytes) (here : sizes[stop]? = some size)
variable (window : prefixBytes sizes start + bytes = prefixBytes sizes stop)

include bounded here window

/-- The sum of a window and the next section is compared with the limit as if it were exact. -/
theorem saturatingAdd_le_iff :
    saturatingAdd u64Max bytes size ≤ maxSegmentBytes ↔ bytes + size ≤ maxSegmentBytes := by
  have next := prefixBytes_succ here
  have total := prefixBytes_le_sum sizes (stop + 1)
  unfold saturatingAdd
  rcases bounded with small | few <;> omega

theorem saturatingAdd_window (fits : saturatingAdd u64Max bytes size ≤ maxSegmentBytes) :
    prefixBytes sizes start + saturatingAdd u64Max bytes size = prefixBytes sizes (stop + 1) := by
  have next := prefixBytes_succ here
  have total := prefixBytes_le_sum sizes (stop + 1)
  unfold saturatingAdd at fits ⊢
  rcases bounded with small | few <;> omega

end

/-- The window from `start` to `stop` holds `bytes`, which fit one object. -/
structure Window (sizes : List Nat) (maxSegmentBytes start stop bytes : Nat) : Prop where
  inside : stop ≤ sizes.length
  size : prefixBytes sizes start + bytes = prefixBytes sizes stop
  fits : bytes ≤ maxSegmentBytes

/-- The object from `start` to `next` cannot take the section at `next`. -/
def Maximal (sizes : List Nat) (maxSegmentBytes start next : Nat) : Prop :=
  next < sizes.length → prefixBytes sizes start + maxSegmentBytes < prefixBytes sizes (next + 1)

theorem growObject_spec (bounded : ExactSums sizes maxSegmentBytes) :
    ∀ (fuel : Nat) {stop bytes : Nat}, Window sizes maxSegmentBytes start stop bytes →
      sizes.length ≤ stop + fuel →
      stop ≤ (growObject sizes maxSegmentBytes fuel stop bytes).1
        ∧ Window sizes maxSegmentBytes start (growObject sizes maxSegmentBytes fuel stop bytes).1
          (growObject sizes maxSegmentBytes fuel stop bytes).2
        ∧ Maximal sizes maxSegmentBytes start (growObject sizes maxSegmentBytes fuel stop bytes).1 := by
  intro fuel
  induction fuel with
  | zero =>
    intro stop bytes window enough
    refine ⟨Nat.le_refl _, window, fun inside => ?_⟩
    simp only [growObject] at inside
    omega
  | succ fuel ih =>
    intro stop bytes window enough
    unfold growObject
    split
    next absent =>
      refine ⟨Nat.le_refl _, window, fun inside => ?_⟩
      exact absurd inside (Nat.not_lt_of_le (List.getElem?_eq_none_iff.mp absent))
    next size here =>
      have held := window.size
      split
      next grows =>
        have inside : stop + 1 ≤ sizes.length := by
          obtain ⟨bound, _⟩ := List.getElem?_eq_some_iff.mp here
          exact bound
        have wider : Window sizes maxSegmentBytes start (stop + 1)
            (saturatingAdd u64Max bytes size) :=
          ⟨inside, saturatingAdd_window bounded here held grows.2, grows.2⟩
        obtain ⟨later, grown⟩ := ih wider (by omega)
        exact ⟨by omega, grown⟩
      next stops =>
        -- A section over the limit is over it together with the window, too.
        refine ⟨Nat.le_refl _, window, fun _ => ?_⟩
        have next := prefixBytes_succ here
        rw [saturatingAdd_le_iff bounded here held] at stops
        show prefixBytes sizes start + maxSegmentBytes < prefixBytes sizes (stop + 1)
        omega

/-- Where the object that starts at `start` ends. -/
structure NextStart (sizes : List Nat) (maxSegmentBytes start next : Nat) : Prop where
  later : start < next
  inside : next ≤ sizes.length
  fits : next = start + 1
    ∨ prefixBytes sizes next ≤ prefixBytes sizes start + maxSegmentBytes
  maximal : Maximal sizes maxSegmentBytes start next

theorem windowFrom_spec (bounded : ExactSums sizes maxSegmentBytes)
    (present : start < sizes.length) (ordered : start ≤ stop)
    (window : Window sizes maxSegmentBytes start stop bytes) :
    NextStart sizes maxSegmentBytes start
        (windowFrom sizes maxSegmentBytes start stop bytes).1
      ∧ stop ≤ (windowFrom sizes maxSegmentBytes start stop bytes).1
      ∧ Window sizes maxSegmentBytes (start + 1)
        (windowFrom sizes maxSegmentBytes start stop bytes).1
        (windowFrom sizes maxSegmentBytes start stop bytes).2 := by
  have here : sizes[start]? = some (sizes.getD start 0) := by
    simp [List.getD_eq_getElem?_getD, present]
  have next := prefixBytes_succ here
  unfold windowFrom
  simp only
  split
  next oversized =>
    have empty := window.size
    rw [oversized.1] at empty
    have nothing : bytes = 0 := by omega
    refine ⟨⟨by omega, present, Or.inl rfl, fun _ => ?_⟩, by omega, present, ?_, ?_⟩
    · have later : prefixBytes sizes (start + 1) ≤ prefixBytes sizes (start + 1 + 1) :=
        prefixBytes_mono (Nat.le_succ _)
      dsimp only
      omega
    · dsimp only
      omega
    · dsimp only
      omega
  next =>
    -- The window grows from the section itself, or from what the previous start left.
    have opened : ∃ first held, (if stop = start then (start + 1, sizes.getD start 0)
          else (stop, bytes)) = (first, held)
        ∧ start < first ∧ stop ≤ first ∧ Window sizes maxSegmentBytes start first held := by
      split
      next fresh =>
        refine ⟨_, _, rfl, by omega, by omega, present, by omega, ?_⟩
        omega
      next => exact ⟨_, _, rfl, by omega, Nat.le_refl _, window⟩
    obtain ⟨first, held, eq, after, ahead, start_window⟩ := opened
    rw [eq]
    dsimp only
    obtain ⟨further, grown, maximal⟩ := growObject_spec bounded sizes.length start_window (by omega)
    have total := grown.size
    have small := grown.fits
    have mono : prefixBytes sizes (start + 1) ≤ prefixBytes sizes
        (growObject sizes maxSegmentBytes sizes.length first held).1 := prefixBytes_mono (by omega)
    refine ⟨⟨by omega, grown.inside, Or.inr (by omega), maximal⟩, by omega, grown.inside, by omega,
      by omega⟩

theorem nextObjectStarts_spec (bounded : ExactSums sizes maxSegmentBytes) :
    ∀ {count start stop bytes : Nat}, start + count = sizes.length → start ≤ stop →
      Window sizes maxSegmentBytes start stop bytes →
      (nextObjectStarts sizes maxSegmentBytes count start stop bytes).length = count
      ∧ (∀ i next, (nextObjectStarts sizes maxSegmentBytes count start stop bytes)[i]? = some next →
          NextStart sizes maxSegmentBytes (start + i) next ∧ stop ≤ next)
      ∧ (nextObjectStarts sizes maxSegmentBytes count start stop bytes).Pairwise (· ≤ ·) := by
  intro count
  induction count with
  | zero => simp [nextObjectStarts]
  | succ count ih =>
    intro start stop bytes total ordered window
    obtain ⟨spec, ahead, left⟩ := windowFrom_spec bounded (by omega) ordered window
    obtain ⟨length, ends, sorted⟩ := ih (by omega) (by have := spec.later; omega) left
    simp only [nextObjectStarts]
    refine ⟨by simp [length], ?_, ?_⟩
    · intro i next found
      cases i with
      | zero =>
        cases found
        exact ⟨spec, ahead⟩
      | succ i =>
        obtain ⟨later, after⟩ := ends i next found
        rw [show start + (i + 1) = start + 1 + i by omega]
        exact ⟨later, by omega⟩
    · refine List.pairwise_cons.mpr ⟨fun next member => ?_, sorted⟩
      obtain ⟨i, found⟩ := List.mem_iff_getElem?.mp member
      exact (ends i next found).2

/-! ### The divisor is never zero -/

theorem suffixCounts_length (nextStarts : List Nat) (start : Nat) :
    (suffixCounts start nextStarts).length = nextStarts.length + 1 := by
  induction nextStarts generalizing start with
  | nil => rfl
  | cons next rest ih => simp [suffixCounts, ih]

variable {i : Nat}

/-- The count of a suffix is one more than the count after its first object. -/
theorem suffixCounts_getD {nextStarts : List Nat} {next : Nat}
    (found : nextStarts[i]? = some next) (later : start + i < next) :
    (suffixCounts start nextStarts).getD i 0
      = (suffixCounts start nextStarts).getD (next - start) 0 + 1 := by
  induction nextStarts generalizing start i with
  | nil => simp at found
  | cons first rest ih =>
    obtain ⟨offset, distance⟩ : ∃ offset, next - start = offset + 1 := ⟨next - start - 1, by omega⟩
    rw [distance]
    cases i with
    | zero =>
      cases found
      simp only [suffixCounts, List.getD_cons_zero, List.getD_cons_succ]
      rw [show next - (start + 1) = offset by omega]
    | succ i =>
      simp only [suffixCounts, List.getD_cons_succ]
      rw [ih found (by omega), show next - (start + 1) = offset by omega]

theorem suffixCounts_pos {nextStarts : List Nat} (inside : i < nextStarts.length) :
    0 < (suffixCounts start nextStarts).getD i 0 := by
  induction nextStarts generalizing start i with
  | nil => simp at inside
  | cons first rest ih =>
    cases i with
    | zero => simp [suffixCounts]
    | succ i => exact ih (by simpa using inside)

theorem suffixCounts_end {nextStarts : List Nat} (past : nextStarts.length ≤ i) :
    (suffixCounts start nextStarts).getD i 0 = 0 := by
  induction nextStarts generalizing start i with
  | nil => cases i <;> simp [suffixCounts]
  | cons first rest ih =>
    cases i with
    | zero => simp at past
    | succ i => exact ih (by simpa using past)

variable (sizes maxSegmentBytes) in
def nextStarts : List Nat := nextObjectStarts sizes maxSegmentBytes sizes.length 0 0 0

theorem nextStarts_spec (bounded : ExactSums sizes maxSegmentBytes) :
    (nextStarts sizes maxSegmentBytes).length = sizes.length
      ∧ (∀ i next, (nextStarts sizes maxSegmentBytes)[i]? = some next →
          NextStart sizes maxSegmentBytes i next)
      ∧ (nextStarts sizes maxSegmentBytes).Pairwise (· ≤ ·) := by
  have empty : Window sizes maxSegmentBytes 0 0 0 := ⟨Nat.zero_le _, rfl, Nat.zero_le _⟩
  obtain ⟨length, ends, sorted⟩ := nextObjectStarts_spec bounded (Nat.zero_add _) (Nat.le_refl 0)
    empty
  refine ⟨length, fun i next found => ?_, sorted⟩
  have := (ends i next found).1
  rwa [Nat.zero_add] at this

abbrev objectCount (sizes : List Nat) (maxSegmentBytes start : Nat) : Nat :=
  (minimumSuffixObjectCounts sizes maxSegmentBytes).getD start 0

theorem nextObjectStarts_length (count start stop bytes : Nat) :
    (nextObjectStarts sizes maxSegmentBytes count start stop bytes).length = count := by
  induction count generalizing start stop bytes with
  | zero => rfl
  | succ count ih => simp [nextObjectStarts, ih]

theorem objectCount_pos (inside : start < sizes.length) :
    0 < objectCount sizes maxSegmentBytes start :=
  suffixCounts_pos (by rwa [nextObjectStarts_length])

theorem objectCount_next (bounded : ExactSums sizes maxSegmentBytes)
    (inside : start < sizes.length) :
    ∃ next, (nextStarts sizes maxSegmentBytes)[start]? = some next
      ∧ NextStart sizes maxSegmentBytes start next
      ∧ objectCount sizes maxSegmentBytes start = objectCount sizes maxSegmentBytes next + 1 := by
  obtain ⟨length, ends, -⟩ := nextStarts_spec bounded
  have found : (nextStarts sizes maxSegmentBytes)[start]?
      = some ((nextStarts sizes maxSegmentBytes)[start]) := List.getElem?_eq_getElem (by omega)
  have spec := ends start _ found
  have later : 0 + start < (nextStarts sizes maxSegmentBytes)[start] := by
    rw [Nat.zero_add]
    exact spec.later
  exact ⟨_, found, spec, suffixCounts_getD found later⟩

theorem objectCount_antitone (bounded : ExactSums sizes maxSegmentBytes) {first second : Nat}
    (ordered : first ≤ second) :
    objectCount sizes maxSegmentBytes second ≤ objectCount sizes maxSegmentBytes first := by
  obtain ⟨length, ends, sorted⟩ := nextStarts_spec bounded
  -- Induction on the distance from the end: both suffixes move to where their first objects end.
  induction distance : sizes.length - first using Nat.strong_induction_on
    generalizing first second with
  | _ distance ih =>
    subst distance
    rcases Nat.lt_or_ge second sizes.length with inside | past
    · rcases Nat.eq_or_lt_of_le ordered with rfl | strict
      · exact Nat.le_refl _
      · obtain ⟨next, atFirst, spec, count⟩ := objectCount_next bounded (Nat.lt_trans strict inside)
        obtain ⟨next', atSecond, _, count'⟩ := objectCount_next bounded inside
        have follows : next ≤ next' := by
          obtain ⟨inFirst, rfl⟩ := List.getElem?_eq_some_iff.mp atFirst
          obtain ⟨inSecond, rfl⟩ := List.getElem?_eq_some_iff.mp atSecond
          exact List.pairwise_iff_getElem.mp sorted first second inFirst inSecond strict
        have later := spec.later
        have := ih (sizes.length - next) (by omega) follows rfl
        omega
    · have nothing : objectCount sizes maxSegmentBytes second = 0 :=
        suffixCounts_end (by rw [← length] at past; exact past)
      omega

/-- What the fill loop keeps: the current group started at `start`, and the objects left suffice
from there. -/
structure FillSound {α : Type*} (sizes : List Nat) (maxSegmentBytes start index : Nat)
    (state : FillState α) : Prop where
  begun : start < index
  inside : index ≤ sizes.length
  bytes : ExactSums sizes maxSegmentBytes →
    prefixBytes sizes start + state.currentBytes = prefixBytes sizes index
  enough : objectCount sizes maxSegmentBytes start ≤ state.remainingObjectCount

/-- A group that cannot take the next section leaves a suffix that needs one object less. -/
theorem forced_close (bounded : ExactSums sizes maxSegmentBytes)
    (grown : start < index) (inside : index < sizes.length)
    (full : prefixBytes sizes start + maxSegmentBytes < prefixBytes sizes (index + 1)) :
    objectCount sizes maxSegmentBytes index + 1 ≤ objectCount sizes maxSegmentBytes start := by
  obtain ⟨next, -, spec, count⟩ := objectCount_next bounded (Nat.lt_trans grown inside)
  have ends : next ≤ index := by
    by_contra beyond
    have mono : prefixBytes sizes (index + 1) ≤ prefixBytes sizes next :=
      prefixBytes_mono (by omega)
    rcases spec.fits with single | fits <;> omega
  have fewer : objectCount sizes maxSegmentBytes index ≤ objectCount sizes maxSegmentBytes next :=
    objectCount_antitone bounded ends
  omega

theorem FillSound.remaining_pos {α : Type*} {state : FillState α}
    (sound : FillSound sizes maxSegmentBytes start index state) : 0 < state.remainingObjectCount := by
  have started : 0 < objectCount sizes maxSegmentBytes start :=
    objectCount_pos (Nat.lt_of_lt_of_le sound.begun sound.inside)
  have enough := sound.enough
  omega

theorem FillSound.turn {α : Type*} {item : α} {state next : FillState α}
    (sound : FillSound sizes maxSegmentBytes start index state) (here : sizes[index]? = some size)
    (turned : state.turn (minimumSuffixObjectCounts sizes maxSegmentBytes) maxSegmentBytes index size
      item = some next) :
    ∃ first, FillSound sizes maxSegmentBytes first (index + 1) next := by
  obtain ⟨inside, -⟩ := List.getElem?_eq_some_iff.mp here
  have grows := prefixBytes_succ here
  have enough := sound.enough
  rcases FillState.turn_cases turned with ⟨rfl, reason⟩ | ⟨rfl, fits⟩
  · refine ⟨index, Nat.lt_succ_self index, inside, fun _ => grows.symm, ?_⟩
    rcases reason with forced | early
    · -- The sum does not saturate below a limit that it exceeds.
      have bounded : ExactSums sizes maxSegmentBytes := by
        left
        unfold saturatingAdd at forced
        omega
      have held := sound.bytes bounded
      have full : prefixBytes sizes start + maxSegmentBytes < prefixBytes sizes (index + 1) := by
        have above := mt (saturatingAdd_le_iff bounded here held).mpr (Nat.not_le_of_lt forced)
        omega
      have fewer := forced_close bounded sound.begun inside full
      show objectCount sizes maxSegmentBytes index ≤ state.remainingObjectCount - 1
      omega
    · exact early
  · refine ⟨start, Nat.lt_succ_of_lt sound.begun, inside, fun bounded => ?_, enough⟩
    exact saturatingAdd_window bounded here (sound.bytes bounded) fits

theorem fill_isSome {α : Type*} {rest : List (Nat × α)} :
    ∀ {index start : Nat} {state : FillState α}, rest.map Prod.fst = sizes.drop index →
      FillSound sizes maxSegmentBytes start index state →
      (FillState.fill (minimumSuffixObjectCounts sizes maxSegmentBytes) maxSegmentBytes index rest
        state).isSome := by
  induction rest with
  | nil => exact fun _ _ => rfl
  | cons entry rest ih =>
    intro index start state remaining sound
    obtain ⟨size, item⟩ := entry
    have here : sizes[index]? = some size := by
      rw [← List.head?_drop, ← remaining]
      rfl
    have tail : rest.map Prod.fst = sizes.drop (index + 1) := by
      rw [← List.tail_drop, ← remaining]
      rfl
    -- The divisor is positive, so the turn succeeds.
    obtain ⟨next, turned⟩ : ∃ next, state.turn (minimumSuffixObjectCounts sizes maxSegmentBytes)
        maxSegmentBytes index size item = some next := by
      unfold FillState.turn
      split
      · exact ⟨_, rfl⟩
      · simp [divCeil, Nat.ne_of_gt sound.remaining_pos]
    obtain ⟨first, kept⟩ := sound.turn here turned
    simp only [FillState.fill, turned, Option.bind_some]
    exact ih tail kept

end Sweep

/-- The first section is the current group when the loop starts. -/
theorem fillSound_first (size : Nat) (item : α) (rest : List (Nat × α))
    (maxSegmentBytes remainingBytes : Nat) :
    FillSound (((size, item) :: rest).map Prod.fst) maxSegmentBytes 0 1
      { current := { first := item }
        currentBytes := size
        remainingBytes := remainingBytes
        remainingObjectCount := objectCount (((size, item) :: rest).map Prod.fst) maxSegmentBytes 0 } := by
  have first : prefixBytes (size :: rest.map Prod.fst) 1 = size := by simp [prefixBytes]
  refine ⟨Nat.zero_lt_one, by simp, fun _ => ?_, Nat.le_refl _⟩
  rw [List.map_cons, first]
  simp [prefixBytes]

theorem targetFillObjectGroups_isSome (partitions : List (Nat × α)) (maxSegmentBytes : Nat) :
    (targetFillObjectGroups partitions maxSegmentBytes).isSome := by
  cases partitions with
  | nil => rfl
  | cons entry rest => exact fill_isSome rfl (fillSound_first entry.1 entry.2 rest _ _)

end BlobStream.Write.Packing
