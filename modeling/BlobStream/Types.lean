import BlobStream.Lib.Word

/-!
# Types shared by broker, stores and consumer
-/

namespace BlobStream

/-! ### Time

Instants are integers, in nanoseconds since the Unix epoch; durations are signed integers.
-/

/-- The first instant the clock type represents, the start of year -9999. -/
def minTime : Int := -377705116800000000000

/-- The last instant the clock type represents, the end of year 9999. -/
def maxTime : Int := 253402300799999999999

/-- `OffsetDateTime::checked_add`: an instant that is not representable is refused. -/
def checkedAddTime (instant span : Int) : Option Int :=
  if minTime ≤ instant + span ∧ instant + span ≤ maxTime then some (instant + span) else none

theorem checkedAddTime_eq_some {instant sum span : Int} :
    checkedAddTime instant span = some sum ↔
      instant + span = sum ∧ minTime ≤ sum ∧ sum ≤ maxTime := by
  unfold checkedAddTime
  split
  next fits => simp; omega
  next overflow => simp; omega

/-- The representable instant closest to the given one. -/
def clampTime (instant : Int) : Int := max minTime (min instant maxTime)

/-- `OffsetDateTime::saturating_add`. -/
def saturatingAddTime (instant span : Int) : Int := clampTime (instant + span)

/-- `OffsetDateTime::saturating_sub`. -/
def saturatingSubTime (instant span : Int) : Int := clampTime (instant - span)

theorem clampTime_of_mem {instant : Int} (low : minTime ≤ instant) (high : instant ≤ maxTime) :
    clampTime instant = instant := by
  unfold clampTime
  omega

def nanoseconds : Int := 1000000000

/-- `OffsetDateTime::unix_timestamp`. -/
def unixSeconds (instant : Int) : Int := instant / nanoseconds

/-- `offset_datetime_from_unix_seconds`. -/
def instantOfUnixSeconds (seconds : Int) : Int := clampTime (seconds * nanoseconds)

/-- `offset_datetime_from_unix_millis`. -/
def instantOfUnixMillis (millis : Int) : Int := clampTime (millis * 1000000)

/-- `unix_millis_from_offset_datetime`. -/
def unixMillis (instant : Int) : Option Int := Word.toInt64 (instant / 1000000)

/-- `Duration::whole_milliseconds`, truncated towards zero. -/
def wholeMilliseconds (span : Int) : Int := span.tdiv 1000000

abbrev Topic := String

abbrev VirtualPartitionId := Nat

structure PartitionKey where
  topic : Topic
  virtualPartitionId : VirtualPartitionId
deriving DecidableEq, Repr

/-- Inclusive range of sequence numbers. -/
structure SeqRange where
  start : Nat
  «end» : Nat
deriving DecidableEq, Repr

/-- Metadata row that produced a committed consumer cursor. -/
structure CommittedSourceCheckpoint where
  windowStartUnixSeconds : Int
  snowflakeId : Nat
deriving DecidableEq, Repr

/-- Progress of a consumer group on one virtual partition. -/
structure CommittedCursor where
  virtualPartitionId : VirtualPartitionId
  /-- Highest fully processed sequence. -/
  seqEnd : Nat
  sourceCheckpoint : Option CommittedSourceCheckpoint
deriving DecidableEq, Repr

end BlobStream
