import BlobStream.Lib.Machine
import BlobStream.Write.State

/-!
# What an allocator hands out over its life

A log keeps the ranges an allocator was given and the ranges it returned. Everything returned lies below
the next number. The next number saturates, so the last 64-bit number is the one exception: once handed
out it is handed out again.
-/

namespace BlobStream.Write

open Word Machine

inductive AllocatorCall
  | installOrExtendReservation (range : SeqRange)
  | allocate (count : Nat)

/-- An allocator with the ranges it was given and the ranges it returned. -/
structure AllocatorLog where
  allocator : SeqAllocator := {}
  installed : List SeqRange := []
  returned : List SeqRange := []

namespace AllocatorLog

def step (log : AllocatorLog) : AllocatorCall → Option AllocatorLog
  | .installOrExtendReservation range =>
    some { log with
      allocator := log.allocator.installOrExtendReservation range
      installed := log.installed ++ [range] }
  | .allocate count =>
    match log.allocator.allocate count with
    | none => some log
    | some (range, allocator) => some { log with allocator, returned := log.returned ++ [range] }

/-- The store returns nonempty ranges, each above all earlier ones; counts are 64-bit numbers. -/
def storeContract (log : AllocatorLog) : AllocatorCall → Prop
  | .installOrExtendReservation range =>
    range.start ≤ range.end ∧ range.end ≤ u64Max
      ∧ ∀ earlier ∈ log.installed, earlier.end < range.start
  | .allocate count => count ≤ u64Max

instance (log : AllocatorLog) : (call : AllocatorCall) → Decidable (log.storeContract call)
  | .installOrExtendReservation _ | .allocate _ => by unfold storeContract; infer_instance

/-- An installed range, or the union of installed ranges that are adjacent one after the other. -/
inductive Joined (installed : List SeqRange) : SeqRange → Prop
  | single {range : SeqRange} : range ∈ installed → Joined installed range
  | extend {union range : SeqRange} : Joined installed union → range ∈ installed →
      union.end + 1 = range.start → Joined installed ⟨union.start, range.end⟩

theorem Joined.mono {installed more : List SeqRange} {union : SeqRange}
    (joined : Joined installed union) (kept : installed ⊆ more) : Joined more union := by
  induction joined with
  | single member => exact .single (kept member)
  | extend _ member adjacent ih => exact .extend ih (kept member) adjacent

theorem Joined.last {installed : List SeqRange} {union : SeqRange}
    (joined : Joined installed union) : ∃ range ∈ installed, range.end = union.end := by
  cases joined with
  | single member => exact ⟨_, member, rfl⟩
  | extend _ member _ => exact ⟨_, member, rfl⟩

structure Sound (log : AllocatorLog) : Prop where
  word : log.allocator.nextSeq ≤ u64Max
  reserved : ∀ reservation, log.allocator.reservation = some reservation →
    Joined log.installed reservation ∧ reservation.start ≤ log.allocator.nextSeq
      ∧ reservation.end ≤ u64Max
  covered : ∀ range ∈ log.returned, ∃ given ∈ log.installed, range.end ≤ given.end
  ahead : ∀ range ∈ log.returned, range.end < log.allocator.nextSeq ∨ range.end = u64Max

variable {log : AllocatorLog} {range : SeqRange} {count : Nat} {allocator : SeqAllocator}

theorem Sound.install (sound : log.Sound)
    (meets : log.storeContract (.installOrExtendReservation range)) :
    Sound { log with
      allocator := log.allocator.installOrExtendReservation range
      installed := log.installed ++ [range] } := by
  obtain ⟨nonempty, word, above⟩ := meets
  have newest : range ∈ log.installed ++ [range] := by simp
  have kept : log.installed ⊆ log.installed ++ [range] := by simp
  have covered : ∀ earlier ∈ log.returned, ∃ given ∈ log.installed ++ [range],
      earlier.end ≤ given.end := by
    intro earlier member
    obtain ⟨given, installed, below⟩ := sound.covered earlier member
    exact ⟨given, kept installed, below⟩
  rcases log.allocator.installOrExtendReservation_cases range with
    ⟨reservation, held, adjacent, extended⟩ | replaced
  · -- The reservation grows at its end, so the next number stays.
    obtain ⟨joined, started, -⟩ := sound.reserved reservation held
    have meet := (checkedAdd_eq_some.mp (of_decide_eq_true adjacent)).1
    rw [extended]
    refine ⟨sound.word, ?_, covered, sound.ahead⟩
    rintro _ ⟨⟩
    exact ⟨.extend (joined.mono kept) newest meet, started, word⟩
  · -- The next number moves past everything installed before, hence past everything returned.
    rw [replaced]
    refine ⟨by simp only; omega, ?_, covered, ?_⟩
    · rintro _ ⟨⟩
      exact ⟨.single newest, Nat.le_refl _, word⟩
    · intro earlier member
      obtain ⟨given, installed, below⟩ := sound.covered earlier member
      have := above given installed
      left
      simp only
      omega

theorem Sound.allocate (sound : log.Sound)
    (allocated : log.allocator.allocate count = some (range, allocator)) :
    Sound { log with allocator, returned := log.returned ++ [range] } := by
  obtain ⟨reservation, held, -, inside, word, isRange, rfl⟩ :=
    SeqAllocator.allocate_eq_some allocated
  obtain ⟨joined, started, -⟩ := sound.reserved reservation held
  have first : log.allocator.nextSeq ≤ range.end := by rw [isRange]; simp
  have next : saturatingAdd u64Max range.end 1 = min (range.end + 1) u64Max := rfl
  constructor
  · simp only [next]
    omega
  · intro kept same
    cases held.symm.trans same
    obtain ⟨-, -, bound⟩ := sound.reserved reservation held
    simp only [next]
    exact ⟨joined, by omega, bound⟩
  · intro each member
    rcases List.mem_append.mp member with earlier | latest
    · exact sound.covered each earlier
    · obtain ⟨given, installed, same⟩ := joined.last
      rw [List.mem_singleton.mp latest]
      exact ⟨given, installed, by omega⟩
  · intro each member
    simp only [next]
    rcases List.mem_append.mp member with earlier | latest
    · rcases sound.ahead each earlier with below | top
      · left
        omega
      · exact Or.inr top
    · rw [List.mem_singleton.mp latest]
      omega

theorem sound_reachable (reached : Reachable step storeContract {} log) : log.Sound := by
  induction reached with
  | refl => constructor <;> simp
  | @tail before after call _ meets stepped ih =>
    cases call with
    | installOrExtendReservation range =>
      cases stepped
      exact ih.install meets
    | allocate count =>
      simp only [step] at stepped
      split at stepped
      · cases stepped
        exact ih
      next range allocator allocated =>
        cases stepped
        exact ih.allocate allocated

/-- The saturated end of `can_allocate` and the checked one of `allocate` agree with the capacity. -/
theorem allocate_isSome_iff (sound : log.Sound) (word : count ≤ u64Max) :
    (log.allocator.allocate count).isSome = true
      ↔ count ≤ log.allocator.remainingCapacity ∧ 0 < count := by
  unfold SeqAllocator.allocate SeqAllocator.canAllocate SeqAllocator.remainingCapacity
  cases held : log.allocator.reservation with
  | none => simp
  | some reservation =>
    obtain ⟨-, -, bound⟩ := sound.reserved reservation held
    have next := sound.word
    simp only [checkedAdd, checkedSub, saturatingAdd]
    -- Below the top both ends are the true one; past it only the checked one refuses.
    by_cases empty : count = 0
    · simp [empty]
    by_cases fits : log.allocator.nextSeq + (count - 1) ≤ u64Max
    · by_cases started : log.allocator.nextSeq ≤ reservation.end
      · simp [empty, fits, started]
        omega
      · simp [empty, fits, started]
        omega
    · by_cases started : log.allocator.nextSeq ≤ reservation.end
      · simp [empty, fits, started]
        omega
      · simp [empty, fits, started]

/-- Every allocation of a run returns the numbers it was asked for, inside what the store gave, and
it returns some exactly when the capacity suffices. The numbers are new exactly as long as the last
64-bit number was not handed out. -/
theorem allocated_numbers_new (reached : Reachable step storeContract {} log)
    (word : count ≤ u64Max) :
    ((log.allocator.allocate count).isSome = true
        ↔ count ≤ log.allocator.remainingCapacity ∧ 0 < count)
      ∧ ∀ range allocator, log.allocator.allocate count = some (range, allocator) →
        range.end + 1 = range.start + count
        ∧ (∃ union, Joined log.installed union ∧ union.start ≤ range.start
          ∧ range.end ≤ union.end)
        ∧ ((∀ earlier ∈ log.returned, earlier.end < range.start)
          ↔ ∀ earlier ∈ log.returned, earlier.end ≠ u64Max) := by
  have sound := sound_reachable reached
  refine ⟨allocate_isSome_iff sound word, ?_⟩
  intro range allocator allocated
  obtain ⟨reservation, held, positive, inside, -, rfl, -⟩ :=
    SeqAllocator.allocate_eq_some allocated
  obtain ⟨joined, started, -⟩ := sound.reserved reservation held
  refine ⟨by simp only; omega, ⟨reservation, joined, started, inside⟩, ?_⟩
  constructor
  · intro new earlier member
    have := new earlier member
    have := sound.word
    simp only at *
    omega
  · intro unspent earlier member
    exact (sound.ahead earlier member).resolve_right (unspent earlier member)

/-- A reservation of the last number alone hands that number out twice. -/
theorem last_number_reused :
    ∃ log range allocator, Reachable step storeContract {} log
      ∧ log.allocator.allocate 1 = some (range, allocator) ∧ range ∈ log.returned := by
  let calls := [AllocatorCall.installOrExtendReservation ⟨u64Max, u64Max⟩, .allocate 1]
  have allowed : RunAllowed step storeContract {} calls := by decide +kernel
  have observed : (run step {} calls).map (fun log => (log.allocator.allocate 1).map
      fun answer => decide (answer.1 ∈ log.returned)) = some (some true) := by decide +kernel
  obtain ⟨log, executed, answered⟩ := Option.map_eq_some_iff.mp observed
  obtain ⟨⟨range, allocator⟩, allocated, member⟩ := Option.map_eq_some_iff.mp answered
  exact ⟨log, range, allocator, reachable_of_run allowed executed, allocated,
    of_decide_eq_true member⟩

/-- Two adjacent reservations serve one allocation across their border. -/
theorem allocated_numbers_new_adjacent :
    ∃ log range allocator, Reachable step storeContract {} log
      ∧ log.allocator.allocate 5 = some (range, allocator) ∧ range = ⟨7, 11⟩
      ∧ ∀ earlier ∈ log.returned, earlier.end < range.start := by
  let calls := [AllocatorCall.installOrExtendReservation ⟨0, 9⟩, .allocate 7,
    .installOrExtendReservation ⟨10, 19⟩]
  have allowed : RunAllowed step storeContract {} calls := by decide +kernel
  have observed : (run step {} calls).map (fun log =>
      ((log.allocator.allocate 5).map Prod.fst, decide (∀ earlier ∈ log.returned,
        earlier.end ≠ u64Max))) = some (some ⟨7, 11⟩, true) := by decide +kernel
  obtain ⟨log, executed, facts⟩ := Option.map_eq_some_iff.mp observed
  obtain ⟨answered, unspent⟩ := Prod.mk.inj facts
  obtain ⟨⟨range, allocator⟩, allocated, isRange⟩ := Option.map_eq_some_iff.mp answered
  have reached := reachable_of_run allowed executed
  have new := (allocated_numbers_new reached (by decide)).2 range allocator allocated
  exact ⟨log, range, allocator, reached, allocated, isRange,
    new.2.2.mpr (of_decide_eq_true unspent)⟩

end AllocatorLog

end BlobStream.Write
