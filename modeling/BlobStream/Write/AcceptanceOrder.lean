import BlobStream.Write.LeasePreservation

/-!
# Acceptance order of one partition

Batches of one virtual partition are accepted in increasing, disjoint sequence ranges, whichever
brokers accept them, as long as a clock reading is used before the local lease expires, and a renewal
claimed with an unexpired local lease does not find the row expired under another session: it would
take the row over and keep the local reservation.
-/

namespace BlobStream.Write.Cluster

open Word ProducerLeases

/-! ### Whole runs -/

section Runs

variable {config : String → BrokerConfig} {key : PartitionKey}

structure FocusSound (config : String → BrokerConfig) (focus : Focus) : Prop where
  ordered : focus.accepted.Pairwise fun earlier later => earlier.end < later.start
  nonempty : ∀ range ∈ focus.accepted, range.start ≤ range.end
  stored : ∀ range ∈ focus.accepted, Reserved focus.row range
  views : ∀ session, ViewSound (config session) session focus.clock focus.row focus.accepted
    (focus.views session)

theorem viewSound_default (config : BrokerConfig) (session : String) (clock : Int)
    (row : Option LeaseState) (accepted : List SeqRange) :
    ViewSound config session clock row accepted {} := by
  refine ⟨by simp, by simp, ?_, fun _ => ⟨?_, ?_⟩, by simp⟩
  · rintro range ⟨⟩
  · rintro _ ⟨⟩
  · rintro _ ⟨⟩

theorem Others.tick {clock now : Int} (later : clock ≤ now) (session : String)
    (row : Option LeaseState) (accepted : List SeqRange) :
    Others session clock row accepted now row accepted :=
  ⟨later, fun _ reserved => reserved, fun _ _ _ => rfl, fun _ => ⟨rfl, rfl⟩⟩

theorem focusSound_step {focus next : Focus} (shape : ∀ session, ViewShape (focus.views session))
    (sound : FocusSound config focus)
    (stepped : FocusStep acceptanceContract config key focus next) : FocusSound config next := by
  cases stepped with
  | idle => exact sound
  | tick later =>
    exact ⟨sound.ordered, sound.nonempty, sound.stored,
      fun session => (sound.views session).others (.tick later session focus.row focus.accepted)⟩
  | @act actor view row emitted did =>
    obtain ⟨own, effect⟩ := viewSound_local (sound.views actor) (shape actor) sound.stored did
    obtain ⟨now, read, advance⟩ := effect.moved
    have stored : ∀ range ∈ focus.accepted, Reserved row range := fun range member =>
      (sound.stored range member).advance advance
    have views : ∀ session, ViewSound (config session) session focus.clock row
        (focus.accepted ++ emitted) (Function.update focus.views actor view session) := by
      intro session
      by_cases same : session = actor
      · subst same
        rw [Function.update_self]
        exact own
      · rw [Function.update_of_ne same]
        exact (sound.views session).others (effect.others same)
    rcases effect.accepts with rfl | ⟨range, rfl, rfl, facts⟩
    · simp only [List.append_nil] at views ⊢
      exact ⟨sound.ordered, sound.nonempty, stored, views⟩
    · refine ⟨?_, ?_, ?_, views⟩
      · refine List.pairwise_append.mpr ⟨sound.ordered, List.pairwise_singleton _ _, ?_⟩
        intro earlier before later now
        rw [List.mem_singleton.mp now]
        exact facts.above earlier before
      · intro each member
        rcases List.mem_append.mp member with before | now
        · exact sound.nonempty each before
        · rw [List.mem_singleton.mp now]
          exact facts.nonempty
      · intro each member
        rcases List.mem_append.mp member with before | now
        · exact stored each before
        · rw [List.mem_singleton.mp now]
          exact facts.reserved

theorem focusSound_initial (config : String → BrokerConfig) (clock : Int) (key : PartitionKey) :
    FocusSound config (({ clock := clock } : World).focus key) :=
  ⟨List.Pairwise.nil, by simp [World.focus], by simp [World.focus],
    fun _ => viewSound_default _ _ _ _ _⟩

/-- In every run that meets `acceptanceContract`, batches of one partition are accepted in
increasing, disjoint ranges, across all brokers. -/
theorem accepted_in_order (config : String → BrokerConfig) (clock : Int) {world : World}
    (reached : Machine.Reachable (step config) acceptanceContract.allows { clock := clock } world)
    (key : PartitionKey) :
    ((world.focus key).accepted.Pairwise fun earlier later => earlier.end < later.start)
      ∧ ∀ range ∈ (world.focus key).accepted, range.start ≤ range.end := by
  have initial : (fun world : World => FocusSound config (world.focus key)) { clock := clock } :=
    focusSound_initial config clock key
  have sound := reached.invariant_under (fun _ earlier => reachable_shape earlier) initial
    fun before action after shape sound meets stepped =>
      focusSound_step (shape.views key) sound (step_focus shape.keyed meets stepped key)
  exact ⟨sound.ordered, sound.nonempty⟩

end Runs

/-! ### Runs outside the contract -/

/-- Sequence numbers do not run out; nothing else is asked of a run. -/
def boundedMarks : Contract where
  produce _ _ row _ := (highWater row).all (· < u64Max)

/-- `a` claims a renewal just before its lease expires and makes the store call only after `b` has
held the lease and lost it again. -/
def lateRenewal : List Action :=
  [.refreshAssignment "a" {orders}, .refreshAssignment "b" {orders}]
    ++ maintain "a" 0 ++ [.produce "a" (emptyRecords 1) 0, .tick 90,
      .claimMaintenance "a" orders 90, .tick 100]
    ++ maintain "b" 100 ++ [.produce "b" (emptyRecords 1) 100, .tick 200,
      .readClock "a" orders, .callStore "a" orders, .finish "a" orders,
      .produce "a" (emptyRecords 1) 200]

/-- The same brokers, with `b` taking over after `a` has lost its lease. -/
def handover : List Action :=
  [.refreshAssignment "a" {orders}, .refreshAssignment "b" {orders}]
    ++ maintain "a" 0 ++ [.produce "a" (emptyRecords 1) 0, .tick 100]
    ++ maintain "b" 100 ++ [.produce "b" (emptyRecords 1) 100]

/-- Without the contract the order breaks: the last batch of `lateRenewal` lies below the one `b`
accepted before it. -/
theorem accepted_out_of_order :
    ¬ ∀ (config : String → BrokerConfig) (clock : Int) (world : World),
      Machine.Reachable (step config) boundedMarks.allows { clock := clock } world →
      ∀ key, (world.focus key).accepted.Pairwise fun earlier later => earlier.end < later.start := by
  intro ordered
  have allowed : Machine.RunAllowed (step shortLeases) boundedMarks.allows { clock := 0 }
      lateRenewal := by decide
  have ranges : (Machine.run (step shortLeases) { clock := 0 } lateRenewal).map
      (fun world => (world.focus orders).accepted)
      = some [⟨0, 0⟩, ⟨10, 10⟩, ⟨1, 1⟩] := by decide
  obtain ⟨world, executed, accepted⟩ := Option.map_eq_some_iff.mp ranges
  have pairs := ordered shortLeases 0 world (Machine.reachable_of_run allowed executed) orders
  rw [accepted] at pairs
  exact absurd pairs (by decide)

/-- The hand-over run meets the contract; both batches are in order. -/
theorem accepted_in_order_handover :
    ∃ world, Machine.Reachable (step shortLeases) acceptanceContract.allows { clock := 0 } world
      ∧ (world.focus orders).accepted = [⟨0, 0⟩, ⟨10, 10⟩]
      ∧ (world.focus orders).accepted.Pairwise fun earlier later => earlier.end < later.start := by
  have allowed : Machine.RunAllowed (step shortLeases) acceptanceContract.allows { clock := 0 }
      handover := by decide
  have ranges : (Machine.run (step shortLeases) { clock := 0 } handover).map
      (fun world => (world.focus orders).accepted) = some [⟨0, 0⟩, ⟨10, 10⟩] := by decide
  obtain ⟨world, executed, accepted⟩ := Option.map_eq_some_iff.mp ranges
  have reached := Machine.reachable_of_run allowed executed
  exact ⟨world, reached, accepted, (accepted_in_order shortLeases 0 reached orders).1⟩

end BlobStream.Write.Cluster
