import Mathlib

/-!
# Machine words as bounded numbers

Unsigned words are naturals together with their largest value, signed ones integers in a range; the
checked and saturating operations are those of a fixed-width integer.
-/

namespace Word

def u64Max : Nat := 2 ^ 64 - 1

def u32Max : Nat := 2 ^ 32 - 1

def checkedAdd (limit left right : Nat) : Option Nat :=
  if left + right ≤ limit then some (left + right) else none

def saturatingAdd (limit left right : Nat) : Nat := min (left + right) limit

def saturatingMul (limit left right : Nat) : Nat := min (left * right) limit

def checkedSub (left right : Nat) : Option Nat :=
  if right ≤ left then some (left - right) else none

theorem checkedAdd_eq_some {limit left right sum : Nat} :
    checkedAdd limit left right = some sum ↔ left + right = sum ∧ sum ≤ limit := by
  unfold checkedAdd
  split
  next fits => simp; omega
  next overflow => simp; omega

variable {limit left right : Nat}

theorem saturatingAdd_of_le (fits : left + right ≤ limit) :
    saturatingAdd limit left right = left + right :=
  Nat.min_eq_left fits

theorem saturatingAdd_of_not_lt {bound limit left right : Nat} (representable : bound < limit)
    (fits : ¬ bound < saturatingAdd limit left right) :
    saturatingAdd limit left right = left + right := by
  unfold saturatingAdd at fits ⊢
  omega

theorem le_saturatingAdd (bound : left ≤ limit) : left ≤ saturatingAdd limit left right := by
  unfold saturatingAdd
  omega

def toU64 (value : Int) : Option Nat :=
  if 0 ≤ value ∧ value ≤ u64Max then some value.toNat else none

def int64Min : Int := -2 ^ 63

def int64Max : Int := 2 ^ 63 - 1

def toInt64 (value : Int) : Option Int :=
  if int64Min ≤ value ∧ value ≤ int64Max then some value else none

theorem toInt64_eq_some {value word : Int} (converted : toInt64 value = some word) :
    word = value := by
  unfold toInt64 at converted
  split at converted
  · cases converted
    rfl
  · cases converted

end Word
