import BlobStream.Types
import BlobStream.Lib.Machine

/-!
# Consumer partition leases, in memory

One row per virtual partition of a group records the owning member, the generation (plan version) it
claimed the partition for, the lease expiration and the committed cursor. Every operation runs under
the store's lock, so it is a function from the row before the call to its outcome and the row after
the call.
-/

namespace BlobStream.ConsumerLeases

open Word Machine

structure ConsumerGroupLeaseKey where
  topic : Topic
  groupId : String
  virtualPartitionId : VirtualPartitionId
deriving DecidableEq, Repr

structure ConsumerGroupLease where
  key : ConsumerGroupLeaseKey
  ownerId : String
  generation : Nat
  leaseExpirationTsMs : Int
  lastHeartbeatTsMs : Int
  committedCursor : Option CommittedCursor
  committedTsMs : Option Int
deriving DecidableEq, Repr

/-- How a successful claim changed the owner. -/
inductive ConsumerGroupLeaseTransition
  | initial
  | retained
  | gracefulHandoff (previousOwnerId : String) (previousGeneration : Nat)
      (previousLastHeartbeatTsMs gracefulReleaseTsMs : Int)
  | expiryTakeover (previousOwnerId : String) (previousGeneration : Nat)
      (previousLastHeartbeatTsMs : Int)
deriving DecidableEq, Repr

inductive ConsumerGroupAssignmentOutcome
  | assigned (lease : ConsumerGroupLease) (previousLease : Option ConsumerGroupLease)
      (transition : ConsumerGroupLeaseTransition)
  | heldByOther (lease : ConsumerGroupLease)
deriving DecidableEq, Repr

inductive ConsumerGroupHeartbeatOutcome
  | renewed (lease : ConsumerGroupLease)
  | heldByOther (lease : ConsumerGroupLease)
  | expired
deriving DecidableEq, Repr

inductive ConsumerGroupCommitOutcome
  | committed (lease : ConsumerGroupLease)
  | heldByOther (lease : ConsumerGroupLease)
  | expired
deriving DecidableEq, Repr

inductive ConsumerGroupReleaseOutcome
  | released
  | heldByOther (lease : ConsumerGroupLease)
  | expired
deriving DecidableEq, Repr

inductive ConsumerLeaseError
  | nowOutOfRange
  | leaseDurationOutOfRange
  | leaseExpirationOverflow
  | cursorPartitionMismatch (expected found : VirtualPartitionId)
deriving DecidableEq, Repr

def ConsumerLeaseError.message : ConsumerLeaseError → String
  | .nowOutOfRange => "current time exceeds in-memory millisecond range"
  | .leaseDurationOutOfRange => "lease duration exceeds in-memory millisecond range"
  | .leaseExpirationOverflow => "lease expiration overflow"
  | .cursorPartitionMismatch expected found =>
    s!"committed cursor partition mismatch: {expected} != {found}"

/-- A row of the store. -/
structure LeaseState where
  ownerId : String
  generation : Nat
  leaseExpirationTsMs : Int
  lastHeartbeatTsMs : Int
  committedCursor : Option CommittedCursor
  committedTsMs : Option Int
  gracefulReleaseTsMs : Option Int
deriving DecidableEq, Repr

def LeaseState.isExpired (state : LeaseState) (nowTsMs : Int) : Bool :=
  state.leaseExpirationTsMs ≤ nowTsMs

def LeaseState.toLease (state : LeaseState) (key : ConsumerGroupLeaseKey) : ConsumerGroupLease where
  key := key
  ownerId := state.ownerId
  generation := state.generation
  leaseExpirationTsMs := state.leaseExpirationTsMs
  lastHeartbeatTsMs := state.lastHeartbeatTsMs
  committedCursor := state.committedCursor
  committedTsMs := state.committedTsMs

/-- The member and the generation both have to match. -/
def LeaseState.heldBy (state : LeaseState) (ownerId : String) (generation : Nat) : Bool :=
  state.ownerId = ownerId ∧ state.generation = generation

def consumerGroupLeaseTransition (previous : Option LeaseState) (ownerId : String) :
    ConsumerGroupLeaseTransition :=
  match previous with
  | none => .initial
  | some previous =>
    if previous.ownerId = ownerId then .retained
    else match previous.gracefulReleaseTsMs with
    | some gracefulReleaseTsMs => .gracefulHandoff previous.ownerId previous.generation
        previous.lastHeartbeatTsMs gracefulReleaseTsMs
    | none => .expiryTakeover previous.ownerId previous.generation previous.lastHeartbeatTsMs

def validateCursor (key : ConsumerGroupLeaseKey) (cursor : CommittedCursor) :
    Except ConsumerLeaseError Unit :=
  if key.virtualPartitionId ≠ cursor.virtualPartitionId then
    .error (.cursorPartitionMismatch key.virtualPartitionId cursor.virtualPartitionId)
  else .ok ()

def expiresAt (nowTsMs leaseDurationMs : Int) : Except ConsumerLeaseError Int :=
  match toInt64 (nowTsMs + leaseDurationMs) with
  | some instant => .ok instant
  | none => .error .leaseExpirationOverflow

def nowMillis (now : Int) : Except ConsumerLeaseError Int :=
  match unixMillis now with
  | some nowTsMs => .ok nowTsMs
  | none => .error .nowOutOfRange

def durationMillis (leaseDuration : Int) : Except ConsumerLeaseError Int :=
  match toInt64 (wholeMilliseconds leaseDuration) with
  | some leaseDurationMs => .ok leaseDurationMs
  | none => .error .leaseDurationOutOfRange

/-- What a call returns, and the row it leaves behind. -/
abbrev StoreCall (Outcome : Type) := Except ConsumerLeaseError Outcome × Option LeaseState

def leaseTerm (now leaseDuration : Int) : Except ConsumerLeaseError (Int × Int) := do
  let nowTsMs ← nowMillis now
  let leaseDurationMs ← durationMillis leaseDuration
  let expiration ← expiresAt nowTsMs leaseDurationMs
  return (nowTsMs, expiration)

def LeaseState.claimed (state : LeaseState) (ownerId : String) (generation : Nat)
    (nowTsMs expiration : Int) : LeaseState :=
  { state with
    ownerId, generation
    leaseExpirationTsMs := expiration
    lastHeartbeatTsMs := nowTsMs
    gracefulReleaseTsMs := none }

def freshLeaseState (ownerId : String) (generation : Nat) (nowTsMs expiration : Int) :
    LeaseState where
  ownerId := ownerId
  generation := generation
  leaseExpirationTsMs := expiration
  lastHeartbeatTsMs := nowTsMs
  committedCursor := none
  committedTsMs := none
  gracefulReleaseTsMs := none

def assignPartition (row : Option LeaseState) (key : ConsumerGroupLeaseKey) (ownerId : String)
    (generation : Nat) (now leaseDuration : Int) : StoreCall ConsumerGroupAssignmentOutcome :=
  match leaseTerm now leaseDuration with
  | .error error => (.error error, row)
  | .ok (nowTsMs, expiration) =>
    match row with
    | none =>
      let lease := freshLeaseState ownerId generation nowTsMs expiration
      (.ok (.assigned (lease.toLease key) none .initial), some lease)
    | some state =>
      let claimed := state.claimed ownerId generation nowTsMs expiration
      if state.isExpired nowTsMs then
        (.ok (.assigned (claimed.toLease key) (some (state.toLease key))
          (consumerGroupLeaseTransition (some state) ownerId)), some claimed)
      else if state.ownerId = ownerId then
        if generation < state.generation then (.ok (.heldByOther (state.toLease key)), some state)
        else (.ok (.assigned (claimed.toLease key) (some (state.toLease key)) .retained), some claimed)
      else (.ok (.heldByOther (state.toLease key)), some state)

def LeaseState.withCursor (state : LeaseState) (cursor : CommittedCursor) (nowTsMs : Int) :
    LeaseState :=
  { state with committedCursor := some cursor, committedTsMs := some nowTsMs }

def heartbeatPartition (row : Option LeaseState) (key : ConsumerGroupLeaseKey) (ownerId : String)
    (generation : Nat) (now leaseDuration : Int) (committedCursor : Option CommittedCursor) :
    StoreCall ConsumerGroupHeartbeatOutcome :=
  match (do
    committedCursor.forM (validateCursor key)
    return (← nowMillis now, ← durationMillis leaseDuration)) with
  | .error error => (.error error, row)
  | .ok (nowTsMs, leaseDurationMs) =>
    match row with
    | none => (.ok .expired, none)
    | some state =>
      if state.isExpired nowTsMs then (.ok .expired, some state)
      else if !state.heldBy ownerId generation then
        (.ok (.heldByOther (state.toLease key)), some state)
      else match expiresAt nowTsMs leaseDurationMs with
      | .error error => (.error error, some state)
      | .ok expiration =>
        let renewed :=
          { state with leaseExpirationTsMs := expiration, lastHeartbeatTsMs := nowTsMs }
        let recorded := match committedCursor with
          | some cursor => renewed.withCursor cursor nowTsMs
          | none => renewed
        (.ok (.renewed (recorded.toLease key)), some recorded)

def commitCursor (row : Option LeaseState) (key : ConsumerGroupLeaseKey) (ownerId : String)
    (generation : Nat) (now : Int) (committedCursor : CommittedCursor) :
    StoreCall ConsumerGroupCommitOutcome :=
  match (do
    validateCursor key committedCursor
    nowMillis now) with
  | .error error => (.error error, row)
  | .ok nowTsMs =>
    match row with
    | none => (.ok .expired, none)
    | some state =>
      if state.isExpired nowTsMs then (.ok .expired, some state)
      else if !state.heldBy ownerId generation then
        (.ok (.heldByOther (state.toLease key)), some state)
      else
        let recorded := state.withCursor committedCursor nowTsMs
        (.ok (.committed (recorded.toLease key)), some recorded)

def releasePartition (row : Option LeaseState) (key : ConsumerGroupLeaseKey) (ownerId : String)
    (generation : Nat) (now : Int) : StoreCall ConsumerGroupReleaseOutcome :=
  match nowMillis now with
  | .error error => (.error error, row)
  | .ok nowTsMs =>
    match row with
    | none => (.ok .expired, none)
    | some state =>
      if state.isExpired nowTsMs then (.ok .expired, some state)
      else if !state.heldBy ownerId generation then
        (.ok (.heldByOther (state.toLease key)), some state)
      else
        -- Expired in place, so that the committed cursor remains for the next owner.
        (.ok .released, some { state with
          leaseExpirationTsMs := nowTsMs
          lastHeartbeatTsMs := nowTsMs
          gracefulReleaseTsMs := some nowTsMs })

/-! ### What one call does to the row of its key -/

inductive LeaseCall
  | assign (ownerId : String) (generation : Nat) (leaseDuration : Int)
  | heartbeat (ownerId : String) (generation : Nat) (leaseDuration : Int)
      (committedCursor : Option CommittedCursor)
  | commit (ownerId : String) (generation : Nat) (committedCursor : CommittedCursor)
  | release (ownerId : String) (generation : Nat)
deriving DecidableEq, Repr

inductive LeaseReply
  | assignment (outcome : ConsumerGroupAssignmentOutcome)
  | heartbeat (outcome : ConsumerGroupHeartbeatOutcome)
  | commit (outcome : ConsumerGroupCommitOutcome)
  | release (outcome : ConsumerGroupReleaseOutcome)
deriving DecidableEq, Repr

def LeaseReply.succeeded : LeaseReply → Bool
  | .assignment (.assigned ..) => true
  | .heartbeat (.renewed _) => true
  | .commit (.committed _) => true
  | .release .released => true
  | _ => false

def LeaseReply.lease : LeaseReply → Option ConsumerGroupLease
  | .assignment (.assigned lease ..) => some lease
  | .heartbeat (.renewed lease) => some lease
  | .commit (.committed lease) => some lease
  | _ => none

def carriedOut : Except ConsumerLeaseError LeaseReply → Bool
  | .ok reply => reply.succeeded
  | .error _ => false

def runCall (row : Option LeaseState) (key : ConsumerGroupLeaseKey) (now : Int) :
    LeaseCall → StoreCall LeaseReply
  | .assign ownerId generation leaseDuration =>
    (assignPartition row key ownerId generation now leaseDuration).map (.map .assignment) id
  | .heartbeat ownerId generation leaseDuration committedCursor =>
    (heartbeatPartition row key ownerId generation now leaseDuration committedCursor).map
      (.map .heartbeat) id
  | .commit ownerId generation committedCursor =>
    (commitCursor row key ownerId generation now committedCursor).map (.map .commit) id
  | .release ownerId generation =>
    (releasePartition row key ownerId generation now).map (.map .release) id

inductive Performed (nowTsMs : Int) : LeaseCall → Option LeaseState → LeaseState → Prop
  | inserted {ownerId : String} {generation : Nat} {leaseDuration expiration : Int}
      (term : expiration = nowTsMs + wholeMilliseconds leaseDuration) :
      Performed nowTsMs (.assign ownerId generation leaseDuration) none
        (freshLeaseState ownerId generation nowTsMs expiration)
  | claimed {state : LeaseState} {ownerId : String} {generation : Nat}
      {leaseDuration expiration : Int}
      (free : state.isExpired nowTsMs = true
        ∨ state.ownerId = ownerId ∧ state.generation ≤ generation)
      (term : expiration = nowTsMs + wholeMilliseconds leaseDuration) :
      Performed nowTsMs (.assign ownerId generation leaseDuration) (some state)
        (state.claimed ownerId generation nowTsMs expiration)
  | renewed {state renewed : LeaseState} {leaseDuration expiration : Int}
      {committedCursor : Option CommittedCursor} (live : state.isExpired nowTsMs = false)
      (term : expiration = nowTsMs + wholeMilliseconds leaseDuration)
      (isRenewed : renewed =
        { state with leaseExpirationTsMs := expiration, lastHeartbeatTsMs := nowTsMs }) :
      Performed nowTsMs
        (.heartbeat state.ownerId state.generation leaseDuration committedCursor) (some state)
        (match committedCursor with
          | some cursor => renewed.withCursor cursor nowTsMs
          | none => renewed)
  | committed {state : LeaseState} {cursor : CommittedCursor}
      (live : state.isExpired nowTsMs = false) :
      Performed nowTsMs (.commit state.ownerId state.generation cursor) (some state)
        (state.withCursor cursor nowTsMs)
  | released {state : LeaseState} (live : state.isExpired nowTsMs = false) :
      Performed nowTsMs (.release state.ownerId state.generation) (some state)
        { state with
          leaseExpirationTsMs := nowTsMs
          lastHeartbeatTsMs := nowTsMs
          gracefulReleaseTsMs := some nowTsMs }

/-- A call leaves the row alone, or it is carried out and reports the new row. -/
inductive CallResult (key : ConsumerGroupLeaseKey) (now : Int) (row : Option LeaseState)
    (call : LeaseCall) : Except ConsumerLeaseError LeaseReply → Option LeaseState → Prop
  | kept {reply : Except ConsumerLeaseError LeaseReply} (refused : carriedOut reply = false) :
      CallResult key now row call reply row
  | done {reply : LeaseReply} {state : LeaseState} {nowTsMs : Int}
      (succeeded : reply.succeeded = true) (isNow : unixMillis now = some nowTsMs)
      (performed : Performed nowTsMs call row state)
      (reported : ∀ lease, reply.lease = some lease → lease = state.toLease key) :
      CallResult key now row call (.ok reply) (some state)

section Inversion

variable {row : Option LeaseState} {key : ConsumerGroupLeaseKey} {ownerId : String}
variable {generation : Nat} {now leaseDuration : Int}

theorem nowMillis_eq {nowTsMs : Int} (clock : nowMillis now = .ok nowTsMs) :
    unixMillis now = some nowTsMs := by
  unfold nowMillis at clock
  split at clock
  next value isValue =>
    cases clock
    exact isValue
  · cases clock

theorem durationMillis_eq {leaseDurationMs : Int}
    (duration : durationMillis leaseDuration = .ok leaseDurationMs) :
    leaseDurationMs = wholeMilliseconds leaseDuration := by
  unfold durationMillis at duration
  split at duration
  next value isValue =>
    cases duration
    exact toInt64_eq_some isValue
  · cases duration

theorem expiresAt_eq {nowTsMs leaseDurationMs expiration : Int}
    (expires : expiresAt nowTsMs leaseDurationMs = .ok expiration) :
    expiration = nowTsMs + leaseDurationMs := by
  unfold expiresAt at expires
  split at expires
  next value isValue =>
    cases expires
    exact toInt64_eq_some isValue
  · cases expires

/-- A sequence of fallible steps succeeds when each one does. -/
theorem bind_eq_ok {α β : Type} {first : Except ConsumerLeaseError α}
    {rest : α → Except ConsumerLeaseError β} {result : β}
    (succeeded : (first >>= rest) = .ok result) :
    ∃ value, first = .ok value ∧ rest value = .ok result := by
  cases first with
  | error error => cases succeeded
  | ok value => exact ⟨value, rfl, succeeded⟩

theorem leaseTerm_eq {nowTsMs expiration : Int}
    (term : leaseTerm now leaseDuration = .ok (nowTsMs, expiration)) :
    unixMillis now = some nowTsMs ∧ expiration = nowTsMs + wholeMilliseconds leaseDuration := by
  obtain ⟨clock, isClock, term⟩ := bind_eq_ok term
  obtain ⟨duration, isDuration, term⟩ := bind_eq_ok term
  obtain ⟨instant, expires, term⟩ := bind_eq_ok term
  cases term
  rw [durationMillis_eq isDuration] at expires
  exact ⟨nowMillis_eq isClock, expiresAt_eq expires⟩

theorem assignPartition_result :
    CallResult key now row (.assign ownerId generation leaseDuration)
      (runCall row key now (.assign ownerId generation leaseDuration)).1
      (runCall row key now (.assign ownerId generation leaseDuration)).2 := by
  simp only [runCall, assignPartition]
  split
  · exact .kept rfl
  next nowTsMs expiration term =>
    obtain ⟨isNow, isExpiration⟩ := leaseTerm_eq term
    split
    · exact .done rfl isNow (.inserted isExpiration) (by rintro lease ⟨⟩; rfl)
    next state =>
      split
      next expired =>
        exact .done rfl isNow (.claimed (Or.inl expired) isExpiration) (by rintro lease ⟨⟩; rfl)
      · split
        next owner =>
          split
          · exact .kept rfl
          next current =>
            exact .done rfl isNow (.claimed (Or.inr ⟨owner, Nat.le_of_not_lt current⟩) isExpiration)
              (by rintro lease ⟨⟩; rfl)
        · exact .kept rfl

theorem heldBy_eq {state : LeaseState} (held : ¬(!state.heldBy ownerId generation) = true) :
    state.ownerId = ownerId ∧ state.generation = generation := by
  have both : state.heldBy ownerId generation = true := by simpa using held
  exact of_decide_eq_true both

theorem heartbeatPartition_result {committedCursor : Option CommittedCursor} :
    CallResult key now row (.heartbeat ownerId generation leaseDuration committedCursor)
      (runCall row key now (.heartbeat ownerId generation leaseDuration committedCursor)).1
      (runCall row key now (.heartbeat ownerId generation leaseDuration committedCursor)).2 := by
  simp only [runCall, heartbeatPartition]
  split
  · exact .kept rfl
  next nowTsMs leaseDurationMs checked =>
    obtain ⟨_, -, checked⟩ := bind_eq_ok checked
    obtain ⟨clock, isClock, checked⟩ := bind_eq_ok checked
    obtain ⟨duration, isDuration, checked⟩ := bind_eq_ok checked
    cases checked
    split
    · exact .kept rfl
    next state =>
      split
      · exact .kept rfl
      next live =>
        split
        · exact .kept rfl
        next held =>
          obtain ⟨rfl, rfl⟩ := heldBy_eq held
          split
          · exact .kept rfl
          next expiration expires =>
            rw [durationMillis_eq isDuration] at expires
            refine .done rfl (nowMillis_eq isClock)
              (.renewed (by simpa using live) (expiresAt_eq expires) rfl) ?_
            rintro lease ⟨⟩
            rfl

theorem commitCursor_result {committedCursor : CommittedCursor} :
    CallResult key now row (.commit ownerId generation committedCursor)
      (runCall row key now (.commit ownerId generation committedCursor)).1
      (runCall row key now (.commit ownerId generation committedCursor)).2 := by
  simp only [runCall, commitCursor]
  split
  · exact .kept rfl
  next nowTsMs checked =>
    obtain ⟨_, -, isClock⟩ := bind_eq_ok checked
    split
    · exact .kept rfl
    next state =>
      split
      · exact .kept rfl
      next live =>
        split
        · exact .kept rfl
        next held =>
          obtain ⟨rfl, rfl⟩ := heldBy_eq held
          refine .done rfl (nowMillis_eq isClock) (.committed (by simpa using live)) ?_
          rintro lease ⟨⟩
          rfl

theorem releasePartition_result :
    CallResult key now row (.release ownerId generation)
      (runCall row key now (.release ownerId generation)).1
      (runCall row key now (.release ownerId generation)).2 := by
  simp only [runCall, releasePartition]
  split
  · exact .kept rfl
  next nowTsMs isClock =>
    split
    · exact .kept rfl
    next state =>
      split
      · exact .kept rfl
      next live =>
        split
        · exact .kept rfl
        next held =>
          obtain ⟨rfl, rfl⟩ := heldBy_eq held
          exact .done rfl (nowMillis_eq isClock) (.released (by simpa using live))
            (by rintro lease ⟨⟩)

theorem runCall_result (row : Option LeaseState) (key : ConsumerGroupLeaseKey) (now : Int)
    (call : LeaseCall) :
    CallResult key now row call (runCall row key now call).1 (runCall row key now call).2 := by
  cases call with
  | assign ownerId generation leaseDuration => exact assignPartition_result
  | heartbeat ownerId generation leaseDuration cursor => exact heartbeatPartition_result
  | commit ownerId generation cursor => exact commitCursor_result
  | release ownerId generation => exact releasePartition_result

end Inversion

end BlobStream.ConsumerLeases
