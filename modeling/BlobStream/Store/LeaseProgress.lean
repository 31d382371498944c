import BlobStream.Store.ConsumerLeases

/-!
# Committed progress of a consumer group

What members learn from the store's answers is enough to know a row: the last claim that was granted
names its holder, and the last commit that was accepted names its cursor. Every other call with an
owner and a generation that are not the holder's changes nothing.
-/

namespace BlobStream.ConsumerLeases

open Machine

abbrev LeaseStore := ConsumerGroupLeaseKey → Option LeaseState

structure LeaseRequest where
  key : ConsumerGroupLeaseKey
  now : Int
  call : LeaseCall

def LeaseRequest.reply (request : LeaseRequest) (store : LeaseStore) :
    Except ConsumerLeaseError LeaseReply :=
  (runCall (store request.key) request.key request.now request.call).1

def LeaseRequest.apply (request : LeaseRequest) (store : LeaseStore) : LeaseStore :=
  Function.update store request.key
    (runCall (store request.key) request.key request.now request.call).2

/-- The owner and generation a call presents; a claim presents none, it installs them. -/
def LeaseCall.presents : LeaseCall → Option (String × Nat)
  | .assign .. => none
  | .heartbeat ownerId generation _ _ => some (ownerId, generation)
  | .commit ownerId generation _ => some (ownerId, generation)
  | .release ownerId generation => some (ownerId, generation)

def LeaseCall.cursor : LeaseCall → Option CommittedCursor
  | .heartbeat _ _ _ committedCursor => committedCursor
  | .commit _ _ committedCursor => some committedCursor
  | .assign .. | .release .. => none

/-! ### What the answers tell -/

structure Progress where
  holder : Option (String × Nat) := none
  committedCursor : Option CommittedCursor := none
  committedTsMs : Option Int := none
deriving DecidableEq, Repr

/-- The last granted claim wins the partition, the last accepted cursor is its progress. -/
def Progress.observe (progress : Progress) (now : Int) (call : LeaseCall)
    (reply : Except ConsumerLeaseError LeaseReply) : Progress :=
  if carriedOut reply then
    match call, call.cursor with
    | .assign ownerId generation _, _ => { progress with holder := some (ownerId, generation) }
    | _, some cursor =>
      { progress with committedCursor := some cursor, committedTsMs := unixMillis now }
    | _, none => progress
  else progress

def recorded (row : Option LeaseState) : Progress where
  holder := row.map fun state => (state.ownerId, state.generation)
  committedCursor := row.bind LeaseState.committedCursor
  committedTsMs := row.bind LeaseState.committedTsMs

/-- The store together with what the answers so far tell about each partition. -/
structure StoreHistory where
  store : LeaseStore := fun _ => none
  known : ConsumerGroupLeaseKey → Progress := fun _ => {}

def StoreHistory.step (history : StoreHistory) (request : LeaseRequest) : Option StoreHistory :=
  some
    { store := request.apply history.store
      known := Function.update history.known request.key
        ((history.known request.key).observe request.now request.call
          (request.reply history.store)) }

section Calls

variable {row : Option LeaseState} {key : ConsumerGroupLeaseKey} {now : Int} {call : LeaseCall}
variable {reply : Except ConsumerLeaseError LeaseReply} {next : Option LeaseState}

section

variable (result : CallResult key now row call reply next)

include result

theorem recorded_call : recorded next = (recorded row).observe now call reply := by
  cases result with
  | kept refused => simp [Progress.observe, refused]
  | done succeeded isNow performed _ =>
    unfold Progress.observe
    rw [if_pos (show carriedOut (.ok _) = true from succeeded), isNow]
    cases performed with
    | inserted => rfl
    | claimed => rfl
    | @renewed _ _ _ _ committedCursor _ _ isRenewed =>
      subst isRenewed
      cases committedCursor with
      | none => rfl
      | some cursor => rfl
    | committed => rfl
    | released => rfl

/-- Whoever presents something else than the holder's owner and generation changes nothing. -/
theorem stranger_keeps {pair : String × Nat} (presented : call.presents = some pair)
    (stranger : (recorded row).holder ≠ some pair) : next = row := by
  cases result with
  | kept => rfl
  | done _ _ performed _ =>
    cases performed with
    | inserted => cases presented
    | claimed => cases presented
    | renewed | committed | released => exact absurd presented stranger

theorem progress_kept (without : call.cursor = none) :
    (recorded next).committedCursor = (recorded row).committedCursor
      ∧ (recorded next).committedTsMs = (recorded row).committedTsMs := by
  rw [recorded_call result]
  unfold Progress.observe
  split
  · rw [without]
    split
    · exact ⟨rfl, rfl⟩
    next impossible => cases impossible
    · exact ⟨rfl, rfl⟩
  · exact ⟨rfl, rfl⟩

end

end Calls

theorem StoreHistory.known_reachable {history : StoreHistory}
    (reached : Reachable StoreHistory.step anyAction {} history) (key : ConsumerGroupLeaseKey) :
    recorded (history.store key) = history.known key := by
  induction reached generalizing key with
  | refl => rfl
  | @tail history _ request _ _ stepped ih =>
    cases stepped
    by_cases own : key = request.key
    · subst own
      simp only [LeaseRequest.apply, Function.update_self, ← ih request.key]
      exact recorded_call (runCall_result ..)
    · simp only [LeaseRequest.apply, Function.update_of_ne own]
      exact ih key

/-- After any requests of any members, with any clocks: a row records the last granted claim and the
last accepted cursor; a heartbeat, commit or release that presents anything but the last granted claim
changes nothing; claims and releases keep the committed progress. -/
theorem last_commit_wins {history : StoreHistory}
    (reached : Reachable StoreHistory.step anyAction {} history) (request : LeaseRequest) :
    (∀ key, recorded (history.store key) = history.known key)
    ∧ (∀ pair, request.call.presents = some pair →
        (history.known request.key).holder ≠ some pair →
        request.apply history.store = history.store)
    ∧ (request.call.cursor = none → ∀ key,
        (recorded (request.apply history.store key)).committedCursor
            = (recorded (history.store key)).committedCursor
          ∧ (recorded (request.apply history.store key)).committedTsMs
            = (recorded (history.store key)).committedTsMs) := by
  have sound := StoreHistory.known_reachable reached
  have result := runCall_result (history.store request.key) request.key request.now request.call
  refine ⟨sound, ?_, ?_⟩
  · intro pair presented stranger
    rw [← sound request.key] at stranger
    unfold LeaseRequest.apply
    rw [stranger_keeps result presented stranger, Function.update_eq_self]
  · intro without key
    by_cases own : key = request.key
    · subst own
      rw [LeaseRequest.apply, Function.update_self]
      exact progress_kept result without
    · rw [LeaseRequest.apply, Function.update_of_ne own]
      exact ⟨rfl, rfl⟩

def billingKey : ConsumerGroupLeaseKey := ⟨"orders", "billing", 0⟩

def groupRequest (now : Int) (call : LeaseCall) : LeaseRequest where
  key := billingKey
  now := now * 1000000
  call := call

def progressAt (seqEnd : Nat) : CommittedCursor := ⟨0, seqEnd, none⟩

/-- `a` commits 7; after its lease has expired, `b` claims the partition. -/
def takenOver : List LeaseRequest :=
  [groupRequest 0 (.assign "a" 1 100000000),
    groupRequest 50 (.heartbeat "a" 1 100000000 (some (progressAt 7))),
    groupRequest 150 (.assign "b" 2 100000000)]

/-- The late commit of `a` changes nothing: the cursor is still 7 and `b` holds the partition. -/
theorem last_commit_wins_takeover :
    ∃ history, Reachable StoreHistory.step anyAction {} history
      ∧ (history.known billingKey).holder = some ("b", 2)
      ∧ (recorded (history.store billingKey)).committedCursor = some (progressAt 7)
      ∧ (groupRequest 160 (.commit "a" 1 (progressAt 9))).apply history.store = history.store := by
  have outcome : (Machine.run StoreHistory.step {} takenOver).map
      (fun history => history.known billingKey)
      = some ⟨some ("b", 2), some (progressAt 7), some 50⟩ := by decide
  obtain ⟨history, executed, known⟩ := Option.map_eq_some_iff.mp outcome
  have reached := reachable_of_run (runAllowed_anyAction _ _ _) executed
  have sound := last_commit_wins reached (groupRequest 160 (.commit "a" 1 (progressAt 9)))
  have holder : (history.known billingKey).holder = some ("b", 2) := congrArg Progress.holder known
  refine ⟨history, reached, holder, ?_, ?_⟩
  · rw [sound.1]
    exact congrArg Progress.committedCursor known
  · refine sound.2.1 ("a", 1) rfl ?_
    intro same
    exact absurd (holder.symm.trans same) (by decide)

end BlobStream.ConsumerLeases
