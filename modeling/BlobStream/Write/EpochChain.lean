import BlobStream.Write.Scheduler

/-!
# The chain of a partition's flush epochs

Every epoch waits for the epoch that was the publication tail when it was opened. As long as the
tail is dropped only after all epochs of the partition have ended, an epoch without a predecessor
comes after ended ones, and any other waits for the epoch right before it.
-/

namespace BlobStream.Write

def FlushPublicationState.ended : FlushPublicationState → Bool
  | .completed _ => true
  | _ => false

/-- The epochs of one partition, oldest first, with the publication tail. -/
structure ChainSound (publications : Publications) (tail : Option PublicationChannel)
    (epochs : List FlushPartition) : Prop where
  /-- Only the newest epoch may still wait for its segment identities. -/
  started : epochs.Pairwise fun earlier _ => publications earlier.publicationState ≠ .pending
  /-- An epoch succeeds after all earlier ones have ended. -/
  settled : epochs.Pairwise fun earlier later =>
    publications later.publicationState = .completed .succeeded →
      (publications earlier.publicationState).ended = true
  detached : epochs.Pairwise fun earlier later =>
    later.publicationPredecessor = none → (publications earlier.publicationState).ended = true
  linked : ∀ front epoch rest channel, epochs = front ++ epoch :: rest →
    epoch.publicationPredecessor = some channel →
    ∃ before last, front = before ++ [last] ∧ last.publicationState = channel
  atTail : ∀ channel, tail = some channel →
    ∃ before last, epochs = before ++ [last] ∧ last.publicationState = channel
  cleared : tail = none → ∀ epoch ∈ epochs, (publications epoch.publicationState).ended = true

theorem FlushPublicationState.ended_started {state : FlushPublicationState}
    (ended : state.ended = true) : state ≠ .pending := by
  rintro rfl
  cases ended

section Chain

variable {publications changed : Publications} {tail : Option PublicationChannel}
variable {epochs : List FlushPartition}

theorem ChainSound.nil (publications : Publications) : ChainSound publications none [] where
  started := .nil
  settled := .nil
  detached := .nil
  linked := by simp
  atTail := by simp
  cleared := by simp

variable {epoch : FlushPartition}

section

variable (sound : ChainSound publications tail epochs)

include sound

/-- An epoch whose predecessor succeeded, or that has none, comes after ended epochs only. -/
theorem ChainSound.before_ended {front rest : List FlushPartition}
    (split : epochs = front ++ epoch :: rest)
    (free : ∀ channel, epoch.publicationPredecessor = some channel →
      publications channel = .completed .succeeded) :
    ∀ earlier ∈ front, (publications earlier.publicationState).ended = true := by
  intro earlier member
  cases waits : epoch.publicationPredecessor with
  | none =>
    have detached := sound.detached
    rw [split] at detached
    exact (List.pairwise_append.mp detached).2.2 earlier member epoch List.mem_cons_self waits
  | some channel =>
    -- The predecessor is the epoch right before this one, and it ended after all others.
    have succeeded := free channel waits
    obtain ⟨before, last, rfl, here⟩ := sound.linked front epoch rest channel split waits
    have settled := sound.settled
    rw [split, List.append_assoc] at settled
    rw [← here] at succeeded
    rcases List.mem_append.mp member with old | newest
    · exact (List.pairwise_append.mp settled).2.2 earlier old last List.mem_cons_self succeeded
    · rw [List.mem_singleton.mp newest, succeeded]
      rfl

theorem ChainSound.congr
    (same : ∀ epoch ∈ epochs,
      changed epoch.publicationState = publications epoch.publicationState) :
    ChainSound changed tail epochs where
  started := sound.started.imp_of_mem fun {earlier _} first _ => by
    rw [same earlier first]
    exact id
  settled := sound.settled.imp_of_mem fun {earlier later} first second => by
    rw [same earlier first, same later second]
    exact id
  detached := sound.detached.imp_of_mem fun {earlier _} first _ => by
    rw [same earlier first]
    exact id
  linked := sound.linked
  atTail := sound.atTail
  cleared := fun gone epoch member => by
    rw [same epoch member]
    exact sound.cleared gone epoch member

theorem ChainSound.update {channel : PublicationChannel} {state : FlushPublicationState}
    (started : state ≠ .pending) (ended : (publications channel).ended = true → state.ended = true)
    (settles : state = .completed .succeeded → epochs.Pairwise fun earlier later =>
      later.publicationState = channel →
        (publications earlier.publicationState).ended = true) :
    ChainSound (Function.update publications channel state) tail epochs := by
  have moved : ∀ other, (publications other).ended = true →
      (Function.update publications channel state other).ended = true := by
    intro other before
    by_cases same : other = channel
    · subst same
      rw [Function.update_self]
      exact ended before
    · rw [Function.update_of_ne same]
      exact before
  constructor
  · refine sound.started.imp fun {earlier _} before => ?_
    by_cases same : earlier.publicationState = channel
    · rw [same, Function.update_self]
      exact started
    · rw [Function.update_of_ne same]
      exact before
  · by_cases succeeded : state = .completed .succeeded
    · refine (sound.settled.and (settles succeeded)).imp fun {earlier later} before after => ?_
      apply moved
      by_cases same : later.publicationState = channel
      · exact before.2 same
      · rw [Function.update_of_ne same] at after
        exact before.1 after
    · refine sound.settled.imp fun {earlier later} before after => moved _ (before ?_)
      by_cases same : later.publicationState = channel
      · rw [same, Function.update_self] at after
        exact absurd after succeeded
      · rwa [Function.update_of_ne same] at after
  · exact sound.detached.imp fun before detached => moved _ (before detached)
  · exact sound.linked
  · exact sound.atTail
  · exact fun gone epoch member => moved _ (sound.cleared gone epoch member)

theorem ChainSound.clear
    (ended : ∀ epoch ∈ epochs, (publications epoch.publicationState).ended = true) :
    ChainSound publications none epochs :=
  { sound with atTail := by simp, cleared := fun _ => ended }

/-- Below a tail that has its identities nothing waits for identities. -/
theorem ChainSound.all_started (eligible : tailPending publications tail = false) :
    ∀ epoch ∈ epochs, publications epoch.publicationState ≠ .pending := by
  cases newest : tail with
  | none =>
    exact fun epoch member =>
      FlushPublicationState.ended_started (sound.cleared newest epoch member)
  | some channel =>
    rw [newest] at eligible
    obtain ⟨before, last, split, here⟩ := sound.atTail channel newest
    have started := sound.started
    rw [split] at started ⊢
    intro epoch member
    rcases List.mem_append.mp member with old | final
    · exact (List.pairwise_append.mp started).2.2 epoch old last List.mem_cons_self
    · rw [List.mem_singleton.mp final, here]
      simpa [tailPending] using eligible

theorem ChainSound.take (eligible : tailPending publications tail = false)
    (follows : epoch.publicationPredecessor = tail)
    (fresh : ∀ earlier ∈ epochs, earlier.publicationState ≠ epoch.publicationState) :
    ChainSound (Function.update publications epoch.publicationState .pending)
      (some epoch.publicationState) (epochs ++ [epoch]) := by
  have same : ∀ earlier ∈ epochs, Function.update publications epoch.publicationState .pending
      earlier.publicationState = publications earlier.publicationState :=
    fun earlier member => Function.update_of_ne (fresh earlier member) ..
  have kept := sound.congr same
  have started := sound.all_started eligible
  constructor
  · refine List.pairwise_append.mpr ⟨kept.started, List.pairwise_singleton _ _, ?_⟩
    intro earlier member _ _
    rw [same earlier member]
    exact started earlier member
  · refine List.pairwise_append.mpr ⟨kept.settled, List.pairwise_singleton _ _, ?_⟩
    intro earlier _ later new succeeded
    rw [List.mem_singleton.mp new, Function.update_self] at succeeded
    cases succeeded
  · refine List.pairwise_append.mpr ⟨kept.detached, List.pairwise_singleton _ _, ?_⟩
    intro earlier member later new detached
    rw [List.mem_singleton.mp new, follows] at detached
    exact kept.cleared detached earlier member
  · intro front other rest channel split waits
    rcases List.append_eq_append_iff.mp split with ⟨more, rfl, single⟩ | ⟨more, rfl, tailEq⟩
    · -- The split lies at or behind the new epoch.
      cases more with
      | nil =>
        cases single
        rw [follows] at waits
        obtain ⟨before, last, rfl, here⟩ := sound.atTail channel waits
        exact ⟨before, last, by simp, here⟩
      | cons first more =>
        rw [List.cons_append, List.cons.injEq] at single
        simp at single
    · cases more with
      | nil =>
        cases tailEq
        rw [follows] at waits
        rw [List.append_nil] at sound
        exact sound.atTail channel waits
      | cons first more =>
        rw [List.cons_append, List.cons.injEq] at tailEq
        obtain ⟨rfl, -⟩ := tailEq
        exact sound.linked front other more channel rfl waits
  · intro channel newest
    cases newest
    exact ⟨epochs, epoch, rfl, rfl⟩
  · intro impossible
    cases impossible

end

end Chain

end BlobStream.Write
