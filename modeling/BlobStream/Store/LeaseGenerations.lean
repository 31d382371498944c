import BlobStream.Store.ConsumerLeasesDynamo

/-!
# Generations of consumer leases

Both stores grant a claim of an expired partition whatever generation it carries; the DynamoDB store
also grants the owner of a lease a claim for an older one. So a member that follows an old plan can set
the generation of a row back; nothing else does.
-/

namespace BlobStream.ConsumerLeases

open Machine

/-- A claim for an older generation that the in-memory store would grant. -/
def grantsOlder (row : Option LeaseState) (now : Int) : LeaseCall → Bool
  | .assign _ generation leaseDuration =>
    match row, leaseTerm now leaseDuration with
    | some state, .ok (nowTsMs, _) =>
      state.isExpired nowTsMs && decide (generation < state.generation)
    | _, _ => false
  | _ => false

def GenerationKept (row next : Option LeaseState) : Prop :=
  ∀ state, row = some state → ∃ later, next = some later ∧ state.generation ≤ later.generation

theorem GenerationKept.refl (row : Option LeaseState) : GenerationKept row row :=
  fun state present => ⟨state, present, Nat.le_refl _⟩

theorem GenerationKept.trans {row middle next : Option LeaseState}
    (first : GenerationKept row middle) (second : GenerationKept middle next) :
    GenerationKept row next := by
  intro state present
  obtain ⟨between, isBetween, below⟩ := first state present
  obtain ⟨later, isLater, above⟩ := second between isBetween
  exact ⟨later, isLater, Nat.le_trans below above⟩

theorem generationKept_iff (state later : LeaseState) :
    GenerationKept (some state) (some later) ↔ state.generation ≤ later.generation := by
  constructor
  · intro kept
    obtain ⟨other, isOther, below⟩ := kept state rfl
    cases isOther
    exact below
  · rintro below before ⟨⟩
    exact ⟨later, rfl, below⟩

/-! ### The in-memory store -/

/-- Calls that present an owner and a generation keep the generation. -/
theorem generationKept_presented {row next : Option LeaseState} {key : ConsumerGroupLeaseKey}
    {now : Int} {call : LeaseCall} {reply : Except ConsumerLeaseError LeaseReply}
    {pair : String × Nat} (result : CallResult key now row call reply next)
    (presented : call.presents = some pair) : GenerationKept row next := by
  cases result with
  | kept => exact .refl _
  | done _ _ performed _ =>
    cases performed with
    | inserted => cases presented
    | claimed => cases presented
    | @renewed _ _ _ _ committedCursor _ _ isRenewed =>
      subst isRenewed
      refine (generationKept_iff _ _).mpr ?_
      cases committedCursor <;> exact Nat.le_refl _
    | committed => exact (generationKept_iff _ _).mpr (Nat.le_refl _)
    | released => exact (generationKept_iff _ _).mpr (Nat.le_refl _)

/-- Only a claim for an older generation of an expired partition lowers a generation. -/
theorem generationKept_runCall (row : Option LeaseState) (key : ConsumerGroupLeaseKey) (now : Int)
    (call : LeaseCall) :
    GenerationKept row (runCall row key now call).2 ↔ grantsOlder row now call = false := by
  cases call with
  | assign ownerId generation leaseDuration =>
    simp only [runCall, assignPartition, grantsOlder]
    cases term : leaseTerm now leaseDuration with
    | error error => simp [GenerationKept.refl]
    | ok times =>
      cases row with
      | none => simp [GenerationKept]
      | some state =>
        simp only
        split
        next expired => simp [generationKept_iff, LeaseState.claimed, expired]
        next live =>
          split
          · split
            · simp [GenerationKept.refl, live]
            next current =>
              have := Nat.le_of_not_lt current
              simp [generationKept_iff, LeaseState.claimed, live, this]
          · simp [GenerationKept.refl, live]
  | heartbeat | commit | release =>
    exact iff_of_true (generationKept_presented (runCall_result ..) rfl) rfl

def memoryStep (store : LeaseStore) (request : LeaseRequest) : Option LeaseStore :=
  some (request.apply store)

/-- No claim for an older generation of an expired partition. -/
def memoryContract (store : LeaseStore) (request : LeaseRequest) : Prop :=
  grantsOlder (store request.key) request.now request.call = false

theorem generationKept_memory {store later : LeaseStore}
    (reached : Reachable memoryStep memoryContract store later) (key : ConsumerGroupLeaseKey) :
    GenerationKept (store key) (later key) := by
  induction reached with
  | refl => exact .refl _
  | @tail before after request _ meets stepped ih =>
    cases stepped
    refine ih.trans ?_
    by_cases own : key = request.key
    · subst own
      rw [LeaseRequest.apply, Function.update_self]
      exact (generationKept_runCall ..).mpr meets
    · rw [LeaseRequest.apply, Function.update_of_ne own]
      exact .refl _

/-! ### The DynamoDB store -/

abbrev DynamoTable := String × String → Option DynamoLeaseItem

/-- `partition_key` and `sort_key`. -/
def ConsumerGroupLeaseKey.item (key : ConsumerGroupLeaseKey) : String × String :=
  (key.topic ++ "#" ++ key.groupId, toString key.virtualPartitionId)

/-- A request, and what the read after a failed condition returns. -/
structure DynamoRequest extends LeaseRequest where
  observed : Option DynamoLeaseItem

def Dynamo.runCall (ttlBuffer : Int) (row : Option DynamoLeaseItem) (key : ConsumerGroupLeaseKey)
    (now : Int) (observed : Option DynamoLeaseItem) : LeaseCall → DynamoCall LeaseReply
  | .assign ownerId generation leaseDuration =>
    (assignPartition row key ownerId generation now leaseDuration ttlBuffer observed).map
      (.map .assignment) id
  | .heartbeat ownerId generation leaseDuration committedCursor =>
    (heartbeatPartition row key ownerId generation now leaseDuration ttlBuffer committedCursor
      observed).map (.map .heartbeat) id
  | .commit ownerId generation committedCursor =>
    (commitCursor row key ownerId generation now committedCursor observed).map (.map .commit) id
  | .release ownerId generation =>
    (releasePartition row key ownerId generation now ttlBuffer observed).map (.map .release) id

def DynamoRequest.apply (ttlBuffer : Int) (request : DynamoRequest) (table : DynamoTable) :
    DynamoTable :=
  Function.update table request.key.item
    (Dynamo.runCall ttlBuffer (table request.key.item) request.key request.now request.observed
      request.call).2

/-- A claim for an older generation that the DynamoDB store would grant. -/
def Dynamo.grantsOlder (ttlBuffer : Int) (row : Option DynamoLeaseItem) (now : Int) :
    LeaseCall → Bool
  | .assign ownerId generation leaseDuration =>
    match row, dynamoTerm now leaseDuration ttlBuffer with
    | some item, .ok (nowTsMs, _) =>
      claimable (some item) ownerId nowTsMs && decide (generation < item.generation)
    | _, _ => false
  | _ => false

def leaseOf (row : Option DynamoLeaseItem) : Option LeaseState := row.map (·.toLeaseState)

theorem leaseOf_heldItem {row : Option DynamoLeaseItem} {item : DynamoLeaseItem}
    {change : LeaseState → LeaseState} {ttl : Option Int}
    (same : ∀ state, (change state).generation = state.generation)
    (written : Dynamo.heldItem row change ttl = some item) :
    GenerationKept (leaseOf row) (leaseOf (some item)) := by
  obtain ⟨before, rfl, rfl⟩ := Option.map_eq_some_iff.mp written
  exact (generationKept_iff _ _).mpr (Nat.le_of_eq (same before.toLeaseState).symm)

theorem generationKept_dynamo (ttlBuffer : Int) (row : Option DynamoLeaseItem)
    (key : ConsumerGroupLeaseKey) (now : Int) (observed : Option DynamoLeaseItem) (call : LeaseCall) :
    GenerationKept (leaseOf row) (leaseOf (Dynamo.runCall ttlBuffer row key now observed call).2)
      ↔ Dynamo.grantsOlder ttlBuffer row now call = false := by
  cases call with
  | assign ownerId generation leaseDuration =>
    simp only [Dynamo.runCall, Dynamo.assignPartition, Dynamo.grantsOlder]
    cases term : dynamoTerm now leaseDuration ttlBuffer with
    | error error => simp [GenerationKept.refl]
    | ok times =>
      cases row with
      | none => simp [GenerationKept, leaseOf]
      | some item =>
        simp only [updateItem]
        cases free : claimable (some item) ownerId times.1 with
        | true => simp [leaseOf, generationKept_iff, claimedItem, LeaseState.claimed]
        | false =>
          simp only [Bool.false_eq_true, if_false, Bool.false_and, iff_true]
          cases observed <;> exact .refl _
  | heartbeat ownerId generation leaseDuration cursor =>
    refine iff_of_true ?_ rfl
    simp only [Dynamo.runCall, Dynamo.heartbeatPartition]
    split
    · exact .refl _
    · split
      next written =>
        refine leaseOf_heldItem (fun state => ?_) written
        cases cursor <;> rfl
      · exact .refl _
  | commit ownerId generation cursor =>
    refine iff_of_true ?_ rfl
    simp only [Dynamo.runCall, Dynamo.commitCursor]
    split
    · exact .refl _
    · split
      next written =>
        refine leaseOf_heldItem (fun state => ?_) written
        rfl
      · exact .refl _
  | release ownerId generation =>
    refine iff_of_true ?_ rfl
    simp only [Dynamo.runCall, Dynamo.releasePartition]
    split
    · exact .refl _
    · split
      next written =>
        refine leaseOf_heldItem (fun state => ?_) written
        rfl
      · exact .refl _

def dynamoStep (ttlBuffer : Int) (table : DynamoTable) (request : DynamoRequest) :
    Option DynamoTable :=
  some (request.apply ttlBuffer table)

/-- No claim for an older generation of a partition that has expired or is the caller's. -/
def dynamoContract (ttlBuffer : Int) (table : DynamoTable) (request : DynamoRequest) : Prop :=
  Dynamo.grantsOlder ttlBuffer (table request.key.item) request.now request.call = false

theorem generationKept_table {ttlBuffer : Int} {table later : DynamoTable}
    (reached : Reachable (dynamoStep ttlBuffer) (dynamoContract ttlBuffer) table later)
    (item : String × String) : GenerationKept (leaseOf (table item)) (leaseOf (later item)) := by
  induction reached with
  | refl => exact .refl _
  | @tail before after request _ meets stepped ih =>
    cases stepped
    refine ih.trans ?_
    by_cases own : item = request.key.item
    · subst own
      rw [DynamoRequest.apply, Function.update_self]
      exact (generationKept_dynamo ..).mpr meets
    · rw [DynamoRequest.apply, Function.update_of_ne own]
      exact .refl _

/-- In every run of either store whose claims are not for an older generation than the row they would
take, the generation of a row never falls. -/
theorem generations_never_fall (ttlBuffer : Int) :
    (∀ {store later : LeaseStore}, Reachable memoryStep memoryContract store later →
      ∀ key, GenerationKept (store key) (later key))
    ∧ ∀ {table later : DynamoTable},
        Reachable (dynamoStep ttlBuffer) (dynamoContract ttlBuffer) table later →
        ∀ key : ConsumerGroupLeaseKey,
          GenerationKept (leaseOf (table key.item)) (leaseOf (later key.item)) :=
  ⟨generationKept_memory, fun reached key => generationKept_table reached key.item⟩

/-! ### A member that follows an old plan -/

/-- A claim for 100 ms. -/
def claim (now : Int) (ownerId : String) (generation : Nat) : LeaseRequest :=
  groupRequest now (.assign ownerId generation 100000000)

def followedStore : LeaseStore := (claim 0 "a" 5).apply fun _ => none

def followedTable : DynamoTable := DynamoRequest.apply 0 ⟨claim 0 "a" 5, none⟩ fun _ => none

/-- After the lease of `a` has expired, `b`, which still follows plan 3, is granted the partition by
both stores; the DynamoDB store also lets `a` itself go back to plan 3 while its lease is in force. -/
theorem generation_falls :
    (∃ later, Reachable memoryStep anyAction (fun _ => none) followedStore
        ∧ Reachable memoryStep anyAction followedStore later
        ∧ (followedStore billingKey).map LeaseState.generation = some 5
        ∧ (later billingKey).map LeaseState.generation = some 3)
    ∧ (∃ later, Reachable (dynamoStep 0) anyAction (fun _ => none) followedTable
        ∧ Reachable (dynamoStep 0) anyAction followedTable later
        ∧ (leaseOf (followedTable billingKey.item)).map LeaseState.generation = some 5
        ∧ (leaseOf (later billingKey.item)).map LeaseState.generation = some 3)
    ∧ ∃ later, Reachable (dynamoStep 0) anyAction followedTable later
        ∧ (leaseOf (followedTable billingKey.item)).map (LeaseState.isExpired · 50) = some false
        ∧ (leaseOf (later billingKey.item)).map LeaseState.generation = some 3 := by
  have followed : Reachable memoryStep anyAction (fun _ => none) followedStore :=
    Reachable.refl.tail trivial rfl
  have followedToo : Reachable (dynamoStep 0) anyAction (fun _ => none) followedTable :=
    Reachable.refl.tail trivial rfl
  refine ⟨⟨(claim 150 "b" 3).apply followedStore, followed, .tail .refl trivial rfl, ?_, ?_⟩,
    ⟨DynamoRequest.apply 0 ⟨claim 150 "b" 3, none⟩ followedTable, followedToo,
      .tail .refl trivial rfl, ?_, ?_⟩,
    ⟨DynamoRequest.apply 0 ⟨claim 50 "a" 3, none⟩ followedTable, .tail .refl trivial rfl, ?_, ?_⟩⟩
  all_goals decide

def newerStore : LeaseStore := (claim 0 "b" 3).apply fun _ => none

def newerTable : DynamoTable := DynamoRequest.apply 0 ⟨claim 0 "b" 3, none⟩ fun _ => none

/-- Claims that follow the newest plan: the generation of the row rises in both stores. -/
theorem generations_never_fall_newer :
    (∃ later, Reachable memoryStep memoryContract newerStore later
        ∧ (newerStore billingKey).map LeaseState.generation = some 3
        ∧ (later billingKey).map LeaseState.generation = some 5
        ∧ GenerationKept (newerStore billingKey) (later billingKey))
      ∧ ∃ later, Reachable (dynamoStep 0) (dynamoContract 0) newerTable later
        ∧ (leaseOf (newerTable billingKey.item)).map LeaseState.generation = some 3
        ∧ (leaseOf (later billingKey.item)).map LeaseState.generation = some 5
        ∧ GenerationKept (leaseOf (newerTable billingKey.item)) (leaseOf (later billingKey.item)) := by
  have taken : Reachable memoryStep memoryContract newerStore
      ((claim 150 "a" 5).apply newerStore) := by
    refine Reachable.refl.tail ?_ rfl
    unfold memoryContract
    decide
  have takenToo : Reachable (dynamoStep 0) (dynamoContract 0) newerTable
      (DynamoRequest.apply 0 ⟨claim 150 "a" 5, none⟩ newerTable) := by
    refine Reachable.refl.tail ?_ rfl
    unfold dynamoContract
    decide
  exact ⟨⟨_, taken, by decide, by decide, (generations_never_fall 0).1 taken billingKey⟩,
    _, takenToo, by decide, by decide, (generations_never_fall 0).2 takenToo billingKey⟩

end BlobStream.ConsumerLeases
