import BlobStream.Store.LeaseGenerations

/-!
# The two consumer lease stores agree

From the same row the two stores give the same answer and leave the same lease, except where the
DynamoDB condition is wider: it lets the owner of a lease in force claim an older generation. It also
checks that expiration and time to live are representable before it looks at the row. The condition
for a call to be answered alike is exact.
-/

namespace BlobStream.ConsumerLeases

def answerOf {ε : Type} (reply : Except ε LeaseReply) : Option LeaseReply := reply.toOption

/-- The call is no claim of a lease in force by its owner for an older generation, and the time to
live it asks for is representable. The expiration a heartbeat asks for may be out of range only where
the in-memory store computes it too: for a lease in force of the caller. -/
def Dynamo.inContract (ttlBuffer : Int) (row : Option DynamoLeaseItem) (key : ConsumerGroupLeaseKey)
    (now : Int) : LeaseCall → Prop
  | .assign ownerId generation leaseDuration =>
    ∀ nowTsMs expiration, leaseTerm now leaseDuration = .ok (nowTsMs, expiration) →
      (∃ ttl, ttlEpochSeconds expiration ttlBuffer = .ok ttl)
        ∧ ∀ item, row = some item → item.isExpired nowTsMs = false → item.ownerId = ownerId →
          item.generation ≤ generation
  | .heartbeat ownerId generation leaseDuration committedCursor =>
    committedCursor.forM (validateCursor key) = .ok () →
      ∀ nowTsMs leaseDurationMs, nowMillis now = .ok nowTsMs →
        durationMillis leaseDuration = .ok leaseDurationMs →
          match expiresAt nowTsMs leaseDurationMs with
          | .ok expiration => ∃ ttl, ttlEpochSeconds expiration ttlBuffer = .ok ttl
          | .error _ => leaseInForce row ownerId generation nowTsMs = true
  | .commit .. => True
  | .release .. =>
    ∀ nowTsMs, nowMillis now = .ok nowTsMs → ∃ ttl, ttlEpochSeconds nowTsMs ttlBuffer = .ok ttl

def Agree {ε δ : Type} (memory : Except ε LeaseReply × Option LeaseState)
    (dynamo : Except δ LeaseReply × Option DynamoLeaseItem) : Prop :=
  answerOf dynamo.1 = answerOf memory.1 ∧ leaseOf dynamo.2 = memory.2

/-- A refused call and an answered one are no agreement. -/
private theorem not_agree_refused {ε δ : Type} {reply : LeaseReply} {error : δ}
    {state : Option LeaseState} {item : Option DynamoLeaseItem} :
    ¬ Agree ((.ok reply : Except ε LeaseReply), state) (.error error, item) := by
  rintro ⟨answer, -⟩
  cases answer

private theorem dynamoTerm_ok {now leaseDuration ttlBuffer nowTsMs expiration ttl : Int}
    (term : leaseTerm now leaseDuration = .ok (nowTsMs, expiration))
    (fits : ttlEpochSeconds expiration ttlBuffer = .ok ttl) :
    dynamoTerm now leaseDuration ttlBuffer = .ok (nowTsMs, expiration, ttl) := by
  simp [dynamoTerm, term, fits, Except.mapError, bind, Except.bind, pure, Except.pure]

private theorem dynamoTerm_error {now leaseDuration ttlBuffer nowTsMs expiration : Int}
    {error : DynamoLeaseError} (term : leaseTerm now leaseDuration = .ok (nowTsMs, expiration))
    (refused : ttlEpochSeconds expiration ttlBuffer = .error error) :
    dynamoTerm now leaseDuration ttlBuffer = .error error := by
  simp [dynamoTerm, term, refused, Except.mapError, bind, Except.bind]

section Calls

variable (ttlBuffer : Int) (row : Option DynamoLeaseItem) (key : ConsumerGroupLeaseKey) (now : Int)
variable {ownerId : String} {generation : Nat}

private theorem inContract_assign {leaseDuration nowTsMs expiration : Int}
    (term : leaseTerm now leaseDuration = .ok (nowTsMs, expiration)) :
    Dynamo.inContract ttlBuffer row key now (.assign ownerId generation leaseDuration)
      ↔ (∃ ttl, ttlEpochSeconds expiration ttlBuffer = .ok ttl)
        ∧ ∀ item, row = some item → item.isExpired nowTsMs = false → item.ownerId = ownerId →
          item.generation ≤ generation := by
  refine ⟨fun meets => meets nowTsMs expiration term, ?_⟩
  intro meets _ _ known
  cases term.symm.trans known
  exact meets

private theorem inContract_heartbeat {leaseDuration nowTsMs leaseDurationMs : Int}
    {committedCursor : Option CommittedCursor}
    (valid : committedCursor.forM (validateCursor key) = .ok ())
    (clock : nowMillis now = .ok nowTsMs)
    (length : durationMillis leaseDuration = .ok leaseDurationMs) :
    Dynamo.inContract ttlBuffer row key now
        (.heartbeat ownerId generation leaseDuration committedCursor)
      ↔ match expiresAt nowTsMs leaseDurationMs with
        | .ok expiration => ∃ ttl, ttlEpochSeconds expiration ttlBuffer = .ok ttl
        | .error _ => leaseInForce row ownerId generation nowTsMs = true := by
  refine ⟨fun meets => meets valid nowTsMs leaseDurationMs clock length, ?_⟩
  intro meets _ _ _ known long
  cases clock.symm.trans known
  cases length.symm.trans long
  exact meets

section

variable (ownerId : String) (generation : Nat)

theorem assign_agrees (leaseDuration : Int) :
    Agree (runCall (leaseOf row) key now (.assign ownerId generation leaseDuration))
        (Dynamo.runCall ttlBuffer row key now row (.assign ownerId generation leaseDuration))
      ↔ Dynamo.inContract ttlBuffer row key now (.assign ownerId generation leaseDuration) := by
  cases term : leaseTerm now leaseDuration with
  | error error =>
    simp [Agree, answerOf, runCall, Dynamo.runCall, assignPartition, Dynamo.assignPartition,
      dynamoTerm, Dynamo.inContract, term, Except.mapError, Except.map, Except.toOption, bind,
      Except.bind]
  | ok times =>
    obtain ⟨nowTsMs, expiration⟩ := times
    simp only [inContract_assign _ _ _ _ term, runCall, Dynamo.runCall, assignPartition,
      Dynamo.assignPartition, term]
    cases fits : ttlEpochSeconds expiration ttlBuffer with
    | error error =>
      -- The in-memory store has no time to live and answers.
      simp only [dynamoTerm_error term fits, reduceCtorEq, exists_false, false_and, iff_false]
      cases row with
      | none => exact not_agree_refused
      | some item =>
        simp only [leaseOf, Option.map_some]
        repeat' split
        all_goals exact not_agree_refused
    | ok ttl =>
      simp only [dynamoTerm_ok term fits, Except.ok.injEq, exists_eq', true_and]
      cases row with
      | none => exact iff_of_true ⟨rfl, rfl⟩ (by simp)
      | some item =>
        -- The condition of the update is the disjunction of the branches that grant the claim.
        by_cases expired : item.isExpired nowTsMs
        · simp [Agree, claimable, updateItem, leaseOf, expired, answerOf, claimedItem,
            LeaseState.toLease, LeaseState.claimed, Except.map, Except.toOption]
        · have live : item.isExpired nowTsMs = false := by simpa using expired
          by_cases owned : item.ownerId = ownerId
          · by_cases older : generation < item.generation
            · have newer : ¬ item.generation ≤ generation := Nat.not_le.mpr older
              simp [Agree, claimable, updateItem, leaseOf, live, owned, older, newer, answerOf,
                Except.map, Except.toOption]
            · simp [Agree, claimable, updateItem, leaseOf, live, owned, older, Nat.le_of_not_lt older,
                answerOf, claimedItem, LeaseState.toLease, LeaseState.claimed,
                consumerGroupLeaseTransition, Except.map, Except.toOption]
          · simp [Agree, claimable, updateItem, leaseOf, live, owned, answerOf, Except.map,
              Except.toOption]

theorem heartbeat_agrees (leaseDuration : Int) (committedCursor : Option CommittedCursor) :
    Agree
        (runCall (leaseOf row) key now (.heartbeat ownerId generation leaseDuration committedCursor))
        (Dynamo.runCall ttlBuffer row key now row
          (.heartbeat ownerId generation leaseDuration committedCursor))
      ↔ Dynamo.inContract ttlBuffer row key now
        (.heartbeat ownerId generation leaseDuration committedCursor) := by
  simp only [runCall, Dynamo.runCall, heartbeatPartition, Dynamo.heartbeatPartition]
  cases valid : committedCursor.forM (validateCursor key) with
  | error error =>
    refine iff_of_true ⟨rfl, rfl⟩ ?_
    intro passed
    cases valid.symm.trans passed
  | ok _ =>
    cases clock : nowMillis now with
    | error error =>
      simp [Agree, Dynamo.inContract, dynamoTerm, leaseTerm, clock, answerOf, Except.mapError,
        Except.map, Except.toOption, bind, Except.bind]
    | ok nowTsMs =>
      cases length : durationMillis leaseDuration with
      | error error =>
        simp [Agree, Dynamo.inContract, dynamoTerm, leaseTerm, clock, length, answerOf,
          Except.mapError, Except.map, Except.toOption, bind, Except.bind]
      | ok leaseDurationMs =>
        simp only [inContract_heartbeat _ _ _ _ valid clock length, bind, Except.bind, pure,
          Except.pure, Except.mapError]
        cases fits : expiresAt nowTsMs leaseDurationMs with
        | error error =>
          have term : dynamoTerm now leaseDuration ttlBuffer = .error (.lease error) := by
            simp [dynamoTerm, leaseTerm, clock, length, fits, Except.mapError, bind, Except.bind]
          simp only [term]
          cases row with
          | none => exact iff_of_false not_agree_refused Bool.false_ne_true
          | some item =>
            by_cases expired : item.isExpired nowTsMs
            · simp [Agree, leaseOf, leaseInForce, expired, answerOf, Except.map, Except.toOption]
            · by_cases held : item.heldBy ownerId generation
              · simp [Agree, leaseOf, leaseInForce, expired, held, answerOf, Except.map,
                  Except.toOption]
              · simp [Agree, leaseOf, leaseInForce, expired, held, answerOf, Except.map,
                  Except.toOption]
        | ok expiration =>
          have term : leaseTerm now leaseDuration = .ok (nowTsMs, expiration) := by
            simp [leaseTerm, clock, length, fits, bind, Except.bind, pure, Except.pure]
          cases lives : ttlEpochSeconds expiration ttlBuffer with
          | error error =>
            simp only [dynamoTerm_error term lives, lives, reduceCtorEq, exists_false, iff_false]
            cases row with
            | none => exact not_agree_refused
            | some item =>
              simp only [leaseOf, Option.map_some]
              repeat' split
              all_goals exact not_agree_refused
          | ok ttl =>
            simp only [dynamoTerm_ok term lives, lives, Except.ok.injEq, exists_eq', iff_true]
            cases row with
            | none => exact ⟨rfl, rfl⟩
            | some item =>
              by_cases expired : item.isExpired nowTsMs
              · simp [Agree, leaseOf, leaseInForce, Dynamo.refusal, expired, answerOf, Except.map,
                  Except.toOption]
              · by_cases held : item.heldBy ownerId generation
                · cases committedCursor <;>
                  simp [Agree, leaseOf, leaseInForce, Dynamo.heldItem, expired, held, answerOf,
                    Except.map, Except.toOption]
                · simp [Agree, leaseOf, leaseInForce, Dynamo.refusal, expired, held, answerOf,
                    Except.map, Except.toOption]

theorem commit_agrees (committedCursor : CommittedCursor) :
    Agree (runCall (leaseOf row) key now (.commit ownerId generation committedCursor))
      (Dynamo.runCall ttlBuffer row key now row (.commit ownerId generation committedCursor)) := by
  simp only [Agree, runCall, Dynamo.runCall, commitCursor, Dynamo.commitCursor]
  cases valid : validateCursor key committedCursor with
  | error error => exact ⟨rfl, rfl⟩
  | ok _ =>
    cases clock : nowMillis now with
    | error error => exact ⟨rfl, rfl⟩
    | ok nowTsMs =>
      cases row with
      | none => exact ⟨rfl, rfl⟩
      | some item =>
        by_cases expired : item.isExpired nowTsMs
        · simp [leaseOf, leaseInForce, Dynamo.refusal, expired, answerOf, Except.map,
            Except.mapError, Except.toOption, bind, Except.bind]
        · by_cases held : item.heldBy ownerId generation
          · simp [leaseOf, leaseInForce, Dynamo.heldItem, expired, held, answerOf, Except.map,
              Except.mapError, Except.toOption, bind, Except.bind]
          · simp [leaseOf, leaseInForce, Dynamo.refusal, expired, held, answerOf, Except.map,
              Except.mapError, Except.toOption, bind, Except.bind]

theorem release_agrees :
    Agree (runCall (leaseOf row) key now (.release ownerId generation))
        (Dynamo.runCall ttlBuffer row key now row (.release ownerId generation))
      ↔ Dynamo.inContract ttlBuffer row key now (.release ownerId generation) := by
  simp only [runCall, Dynamo.runCall, releasePartition, Dynamo.releasePartition, Dynamo.inContract]
  cases clock : nowMillis now with
  | error error => exact iff_of_true ⟨rfl, rfl⟩ (by rintro _ ⟨⟩)
  | ok nowTsMs =>
    simp only [Except.mapError, bind, Except.bind, pure, Except.pure, Except.ok.injEq, forall_eq']
    cases fits : ttlEpochSeconds nowTsMs ttlBuffer with
    | error error =>
      simp only [reduceCtorEq, exists_false, iff_false]
      cases row with
      | none => exact not_agree_refused
      | some item =>
        simp only [leaseOf, Option.map_some]
        repeat' split
        all_goals exact not_agree_refused
    | ok ttl =>
      simp only [Except.ok.injEq, exists_eq', iff_true]
      cases row with
      | none => exact ⟨rfl, rfl⟩
      | some item =>
        by_cases expired : item.isExpired nowTsMs
        · simp [Agree, leaseOf, leaseInForce, Dynamo.refusal, expired, answerOf, Except.map,
            Except.toOption]
        · by_cases held : item.heldBy ownerId generation
          · simp [Agree, leaseOf, leaseInForce, Dynamo.heldItem, expired, held, answerOf, Except.map,
              Except.toOption]
          · simp [Agree, leaseOf, leaseInForce, Dynamo.refusal, expired, held, answerOf, Except.map,
              Except.toOption]

end

/-- The two stores give the same answer and leave the same lease for the calls within the contract,
and for no other. -/
theorem consumer_stores_agree (call : LeaseCall) :
    Agree (runCall (leaseOf row) key now call) (Dynamo.runCall ttlBuffer row key now row call)
      ↔ Dynamo.inContract ttlBuffer row key now call := by
  cases call with
  | assign ownerId generation leaseDuration =>
    exact assign_agrees ttlBuffer row key now ownerId generation leaseDuration
  | heartbeat ownerId generation leaseDuration committedCursor =>
    exact heartbeat_agrees ttlBuffer row key now ownerId generation leaseDuration committedCursor
  | commit ownerId generation committedCursor =>
    exact iff_of_true (commit_agrees ttlBuffer row key now ownerId generation committedCursor)
      trivial
  | release ownerId generation =>
    exact release_agrees ttlBuffer row key now ownerId generation

end Calls

/-- The row of a partition that member `a` claimed for plan 5. -/
def claimedForFive : DynamoLeaseItem where
  toLeaseState := freshLeaseState "a" 5 0 10000
  ttlEpochSeconds := 70

/-- The owner asks for its own lease again, for the older plan 3. -/
def claimForThree : LeaseCall := .assign "a" 3 10000000000

/-- Only the DynamoDB store lets the owner of a lease in force go back to an older generation. -/
theorem consumer_stores_disagree :
    (runCall (leaseOf (some claimedForFive)) ⟨"orders", "billing", 0⟩ 50000000 claimForThree).2
        = some (freshLeaseState "a" 5 0 10000)
      ∧ leaseOf (Dynamo.runCall 60000000000 (some claimedForFive) ⟨"orders", "billing", 0⟩ 50000000
          (some claimedForFive) claimForThree).2
        = some (freshLeaseState "a" 3 50 10050)
      ∧ ¬ Agree
        (runCall (leaseOf (some claimedForFive)) ⟨"orders", "billing", 0⟩ 50000000 claimForThree)
        (Dynamo.runCall 60000000000 (some claimedForFive) ⟨"orders", "billing", 0⟩ 50000000
          (some claimedForFive) claimForThree) := by
  refine ⟨by decide, by decide, ?_⟩
  intro agree
  exact absurd agree.2 (by decide)

/-- The same claim for the newer plan 6 is within the contract. -/
theorem consumer_stores_agree_newer_claim :
    Dynamo.inContract 60000000000 (some claimedForFive) ⟨"orders", "billing", 0⟩ 50000000
        (.assign "a" 6 10000000000)
      ∧ Agree
        (runCall (leaseOf (some claimedForFive)) ⟨"orders", "billing", 0⟩ 50000000
          (.assign "a" 6 10000000000))
        (Dynamo.runCall 60000000000 (some claimedForFive) ⟨"orders", "billing", 0⟩ 50000000
          (some claimedForFive) (.assign "a" 6 10000000000)) := by
  have meets : Dynamo.inContract 60000000000 (some claimedForFive) ⟨"orders", "billing", 0⟩ 50000000
      (.assign "a" 6 10000000000) := by
    intro nowTsMs expiration term
    have times : (nowTsMs, expiration) = (50, 10050) :=
      (Except.ok.inj ((show leaseTerm 50000000 10000000000 = .ok (50, 10050) by decide).symm.trans
        term)).symm
    obtain ⟨rfl, rfl⟩ := Prod.mk.inj times
    refine ⟨⟨70, by decide⟩, ?_⟩
    intro item isItem _ _
    cases isItem
    decide
  exact ⟨meets, (consumer_stores_agree _ _ _ _ _).mpr meets⟩

end BlobStream.ConsumerLeases
