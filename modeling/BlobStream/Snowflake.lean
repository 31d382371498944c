import BlobStream.Write.Segment

/-!
# Snowflake identities and time

The generator is outside this development. It is taken to put the instant of the generating clock,
rounded down, into the high bits of an identity, so that identities can be compared with instants.
-/

namespace BlobStream

open Write (SnowflakeId)

/-- What the readers rely on about the generator of snowflake identities. -/
structure Sonyflake where
  /-- The lowest identity that can be generated at or after an instant. -/
  minimumForTimestamp : Int → SnowflakeId
  /-- The instant encoded in an identity. -/
  timestamp : SnowflakeId → Option Int
  /-- The identity can be generated when the clock of the process reads the instant. -/
  Generated : SnowflakeId → Int → Prop
  minimum_le : ∀ {id instant earliest}, Generated id instant → earliest ≤ instant →
    minimumForTimestamp earliest ≤ id
  timestamp_le : ∀ {id instant time}, Generated id instant → timestamp id = some time →
    time ≤ instant
  /-- Identities are generated at representable instants after the Unix epoch. -/
  generated_mem : ∀ {id instant}, Generated id instant → 0 ≤ instant ∧ instant ≤ maxTime

/-- Identities that count intervals of ten milliseconds since 2014-09-01, with room for sequence
and machine numbers below. -/
def tenMillisecondSonyflake : Sonyflake where
  minimumForTimestamp instant := ((instant - 1409529600 * nanoseconds) / 10000000).toNat * 2 ^ 24
  timestamp id := checkedAddTime (1409529600 * nanoseconds) ((id / 2 ^ 24 : Nat) * 10000000)
  Generated id instant := 1409529600 * nanoseconds ≤ instant ∧ instant ≤ maxTime
    ∧ ((id / 2 ^ 24 : Nat) : Int) = (instant - 1409529600 * nanoseconds) / 10000000
  minimum_le := by
    rintro id instant earliest ⟨-, -, encoded⟩ before
    have bucket : ((earliest - 1409529600 * nanoseconds) / 10000000).toNat ≤ id / 2 ^ 24 := by
      have monotone : (earliest - 1409529600 * nanoseconds) / 10000000
          ≤ (instant - 1409529600 * nanoseconds) / 10000000 :=
        Int.ediv_le_ediv (by decide) (by omega)
      omega
    exact Nat.le_trans (Nat.mul_le_mul_right _ bucket) (Nat.div_mul_le_self id (2 ^ 24))
  timestamp_le := by
    rintro id instant time ⟨-, -, encoded⟩ decoded
    obtain ⟨rfl, -⟩ := checkedAddTime_eq_some.mp decoded
    rw [encoded]
    have := Int.ediv_mul_le (instant - 1409529600 * nanoseconds) (b := 10000000) (by decide)
    omega
  generated_mem := by
    rintro id instant ⟨low, high, -⟩
    exact ⟨Int.le_trans (by decide) low, high⟩

end BlobStream
