import BlobStream.Consumer.StickyRetention

/-!
# Optional repair of a placement

A complete sticky assignment may be improved by exchanging owners: a logical group is collected on the
domain that already holds most of it. A map is a partial function with the list `partitions` of its
keys; a lookup or `expect` that would panic is `none`. `Exchanged` says what exchanges preserve.
-/

namespace BlobStream.Consumer.Sticky

open Sorted

abbrev Domains := String → Option String

def movementBudget (partitions percent : Nat) : Nat :=
  if percent = 0 ∨ partitions = 0 then 0
  else min (max (partitions / 100 * percent + partitions % 100 * percent / 100) 2) partitions

def changedPartitions (partitions : List VirtualPartitionId) (assignment baseline : AssignmentMap) :
    Nat :=
  partitions.countP fun partition => baseline partition ≠ assignment partition

def domainOf (domains : Domains) (assignment : AssignmentMap) (partition : VirtualPartitionId) :
    Option String :=
  (assignment partition).bind domains

/-- The domains of the partitions of every logical group, with repetitions. -/
abbrev DomainCounts := List (Nat × List String)

def domainCounts (groups : LogicalGroups) (assignment : AssignmentMap) (domains : Domains) :
    Option DomainCounts :=
  groups.mapM fun group => (group.2.mapM (domainOf domains assignment)).map (group.1, ·)

def occupied (held : List String) : List String := sortedDistinct (· ≤ ·) held

/-- Split groups first, domains beyond the second of each group next. -/
def quality (counts : DomainCounts) : ℕ ×ₗ ℕ :=
  toLex (counts.countP fun entry => 1 < (occupied entry.2).length,
    (counts.map fun entry => (occupied entry.2).length - 2).sum)

section Groups

variable (partitions : List VirtualPartitionId) (assignment : AssignmentMap) (domains : Domains)
variable (logicalCount : Nat)

def repairGroups : LogicalGroups :=
  logicalGroups (partitions.filter fun partition => (domainOf domains assignment partition).isSome)
    logicalCount

def repairQuality : Option (ℕ ×ₗ ℕ) :=
  (domainCounts (repairGroups partitions assignment domains logicalCount) assignment domains).map
    quality

end Groups

/-! ### One proposal -/

section Proposal

variable (partitions : List VirtualPartitionId) (domains : Domains) (logicalCount : Nat)
  (counts : DomainCounts) (logical : Nat) (destination : String)

/-- Fragments before whole groups, then groups that occupy the source, then ids. -/
def returnKey (held : List String) (sourceDomain : String) (candidate : VirtualPartitionId) :
    Bool ×ₗ ℕᵒᵈ ×ₗ ℕ :=
  toLex (decide ((occupied held).length = 1),
    toLex (OrderDual.toDual (held.count sourceDomain), candidate))

/-- The partition given back for one that comes in, if the destination holds any. -/
def returnPartition (proposal : AssignmentMap) (sourceDomain : String) :
    Option (Option VirtualPartitionId) := do
  let candidates := partitions.filter fun candidate =>
    candidate % logicalCount ≠ logical && domainOf domains proposal candidate = some destination
  let keyed ← candidates.mapM fun candidate =>
    (counts.lookup (candidate % logicalCount)).map fun held =>
      (candidate, returnKey held sourceDomain candidate)
  return (keyed.argmin Prod.snd).map Prod.fst

/-- One partition comes in, and another one goes back to its worker. -/
def exchange (proposal : AssignmentMap) (partition : VirtualPartitionId) :
    Option (Option AssignmentMap) := do
  let sourceWorker ← proposal partition
  let sourceDomain ← domains sourceWorker
  match ← returnPartition partitions domains logicalCount counts logical destination proposal
      sourceDomain with
  | none => return none
  | some returned =>
    let destinationWorker ← proposal returned
    return some (Function.update (Function.update proposal partition (some destinationWorker))
      returned (some sourceWorker))

/-- All missing partitions come in, or the proposal is incomplete. -/
def buildProposal : List VirtualPartitionId → AssignmentMap → Option (Option AssignmentMap)
  | [], proposal => some (some proposal)
  | partition :: rest, proposal => do
    match ← exchange partitions domains logicalCount counts logical destination proposal partition with
    | none => return none
    | some next => buildProposal rest next

end Proposal

/-! ### The pass -/

structure RepairState where
  assignment : AssignmentMap
  counts : DomainCounts

/-- One group: build a proposal, and accept it if it is complete, within budget and better. -/
def attemptGroup (partitions : List VirtualPartitionId) (baseline : AssignmentMap)
    (domains : Domains) (logicalCount budget : Nat) (groups : LogicalGroups) (state : RepairState)
    (group : Nat × List VirtualPartitionId) : Option RepairState := do
  let held ← state.counts.lookup group.1
  if (occupied held).length ≤ 1 then return state
  let destination ← (occupied held).argmin fun domain =>
    (toLex (OrderDual.toDual (held.count domain), domain) : ℕᵒᵈ ×ₗ String)
  let located ← group.2.mapM fun partition =>
    (domainOf domains state.assignment partition).map (partition, ·)
  let missing := (located.filter fun entry => entry.2 ≠ destination).map Prod.fst
  match ← buildProposal partitions domains logicalCount state.counts group.1 destination missing
      state.assignment with
  | none => return state
  | some proposal =>
    if budget < changedPartitions partitions proposal baseline then return state
    let proposalCounts ← domainCounts groups proposal domains
    if quality proposalCounts < quality state.counts then return ⟨proposal, proposalCounts⟩
    return state

def consolidate (partitions : List VirtualPartitionId) (assignment baseline : AssignmentMap)
    (domains : Domains) (logicalCount budget : Nat) : Option AssignmentMap :=
  if budget = 0 then some assignment
  else if logicalCount = 0 then none
  else do
    let groups := repairGroups partitions assignment domains logicalCount
    let counts ← domainCounts groups assignment domains
    let repaired ← groups.foldlM
      (attemptGroup partitions baseline domains logicalCount budget groups) ⟨assignment, counts⟩
    return repaired.assignment

/-! ### Exchanges -/

variable {before after : AssignmentMap}

section Exchanges

variable {partitions : List VirtualPartitionId} {domains : Domains} {logicalCount : Nat}

/-- What exchanging owners inside the domains preserves. -/
structure Exchanged (partitions : List VirtualPartitionId) (domains : Domains)
    (before after : AssignmentMap) : Prop where
  loads : ∀ worker, ownerLoad partitions after worker = ownerLoad partitions before worker
  outside : ∀ partition, domainOf domains before partition = none →
    after partition = before partition
  participants : ∀ partition,
    (domainOf domains after partition).isSome = (domainOf domains before partition).isSome

theorem Exchanged.refl (assignment : AssignmentMap) :
    Exchanged partitions domains assignment assignment :=
  ⟨fun _ => rfl, fun _ _ => rfl, fun _ => rfl⟩

theorem Exchanged.trans {first second third : AssignmentMap}
    (early : Exchanged partitions domains first second)
    (late : Exchanged partitions domains second third) :
    Exchanged partitions domains first third := by
  refine ⟨?_, ?_, ?_⟩
  · intro worker
    exact (late.loads worker).trans (early.loads worker)
  · intro partition unknown
    have same := early.outside partition unknown
    have stillUnknown : domainOf domains second partition = none := by
      rw [domainOf, same]
      exact unknown
    exact (late.outside partition stillUnknown).trans same
  · intro partition
    exact (late.participants partition).trans (early.participants partition)

variable {first second : VirtualPartitionId}

theorem map_swap_perm (distinct : partitions.Nodup) (inFirst : first ∈ partitions)
    (inSecond : second ∈ partitions) :
    (partitions.map (Equiv.swap first second)).Perm partitions := by
  refine (List.perm_ext_iff_of_nodup (distinct.map (Equiv.injective _)) distinct).mpr ?_
  have closed : ∀ item ∈ partitions, Equiv.swap first second item ∈ partitions := by
    intro item member
    rw [Equiv.swap_apply_def]
    split
    · exact inSecond
    · split
      · exact inFirst
      · exact member
  intro item
  rw [List.mem_map]
  constructor
  · rintro ⟨source, member, rfl⟩
    exact closed source member
  · intro member
    exact ⟨_, closed item member, Equiv.swap_apply_self first second item⟩

variable {assignment : AssignmentMap}

/-- The elementary exchange: two partitions swap their workers. -/
theorem exchanged_swap (distinct : partitions.Nodup) (inFirst : first ∈ partitions)
    (inSecond : second ∈ partitions) {firstWorker secondWorker : String}
    (atFirst : assignment first = some firstWorker)
    (atSecond : assignment second = some secondWorker) (firstKnown : (domains firstWorker).isSome)
    (secondKnown : (domains secondWorker).isSome) :
    Exchanged partitions domains assignment
      (Function.update (Function.update assignment first (some secondWorker)) second
        (some firstWorker)) := by
  have swapped : ∀ partition, Function.update (Function.update assignment first
      (some secondWorker)) second (some firstWorker) partition
        = assignment (Equiv.swap first second partition) := by
    intro partition
    by_cases isSecond : partition = second
    · subst isSecond
      rw [Function.update_self, Equiv.swap_apply_right, atFirst]
    · rw [Function.update_of_ne isSecond]
      by_cases isFirst : partition = first
      · subst isFirst
        rw [Function.update_self, Equiv.swap_apply_left, atSecond]
      · rw [Function.update_of_ne isFirst, Equiv.swap_apply_of_ne_of_ne isFirst isSecond]
  have firstDomain : (domainOf domains assignment first).isSome := by
    rw [domainOf, atFirst]
    exact firstKnown
  have secondDomain : (domainOf domains assignment second).isSome := by
    rw [domainOf, atSecond]
    exact secondKnown
  refine ⟨?_, ?_, ?_⟩
  · intro worker
    have reordered := (map_swap_perm distinct inFirst inSecond).countP_eq
      (assignment · = some worker)
    rw [List.countP_map] at reordered
    simp only [ownerLoad, swapped]
    exact reordered
  · intro partition unknown
    rw [swapped, Equiv.swap_apply_of_ne_of_ne]
    · rintro rfl
      simp [unknown] at firstDomain
    · rintro rfl
      simp [unknown] at secondDomain
  · intro partition
    rw [domainOf, swapped]
    change (domainOf domains assignment (Equiv.swap first second partition)).isSome = _
    by_cases isFirst : partition = first
    · subst isFirst
      rw [Equiv.swap_apply_left, firstDomain, secondDomain]
    · by_cases isSecond : partition = second
      · subst isSecond
        rw [Equiv.swap_apply_right, firstDomain, secondDomain]
      · rw [Equiv.swap_apply_of_ne_of_ne isFirst isSecond]

/-! ### Proposals -/

variable {group : Nat × List VirtualPartitionId}

theorem mem_repairGroups (isGroup : group ∈ repairGroups partitions assignment domains logicalCount)
    {partition : VirtualPartitionId} (member : partition ∈ group.2) :
    partition ∈ partitions ∧ (domainOf domains assignment partition).isSome := by
  rw [repairGroups, (logicalGroups_perm _ _).mem_iff, List.mem_map] at isGroup
  obtain ⟨logical, -, rfl⟩ := isGroup
  exact List.mem_filter.mp (mem_logicalGroup.mp member).1

variable {groups : LogicalGroups}

/-- Occupancy is recorded for exactly the groups. -/
theorem lookup_of_domainCounts {counts : DomainCounts}
    (computed : domainCounts groups assignment domains = some counts) {logical : Nat}
    (known : logical ∈ groups.map Prod.fst) : ∃ held, counts.lookup logical = some held := by
  induction groups generalizing counts with
  | nil => simp at known
  | cons group rest ih =>
    rw [domainCounts, List.mapM_cons] at computed
    simp only [Option.bind_eq_bind, Option.bind_eq_some_iff, Option.map_eq_some_iff,
      Option.pure_def, Option.some.injEq] at computed
    obtain ⟨_, ⟨held, -, rfl⟩, later, restComputed, rfl⟩ := computed
    rw [List.lookup_cons]
    by_cases same : logical = group.1
    · subst same
      exact ⟨held, by simp⟩
    · have different : (logical == group.1) = false := beq_false_of_ne same
      rw [different]
      rw [List.map_cons, List.mem_cons] at known
      exact ih restComputed (known.resolve_left same)

/-- The occupancy of participants can always be counted. -/
theorem domainCounts_total (known : ∀ group ∈ groups, ∀ partition ∈ group.2,
      (domainOf domains assignment partition).isSome) :
    ∃ counts, domainCounts groups assignment domains = some counts := by
  refine ⟨groups.map fun group =>
    (group.1, group.2.map fun partition => (domainOf domains assignment partition).getD ""), ?_⟩
  apply Loop.mapM_total
  intro group isGroup
  have members : group.2.mapM (domainOf domains assignment)
      = some (group.2.map fun partition => (domainOf domains assignment partition).getD "") := by
    apply Loop.mapM_total
    intro partition member
    obtain ⟨domain, located⟩ := Option.isSome_iff_exists.mp (known group isGroup partition member)
    rw [located, Option.getD_some]
  rw [members, Option.map_some]

section Attempts

variable {assignment proposal : AssignmentMap} {counts : DomainCounts} (logical : Nat)
  (destination : String)
  (counted : ∀ partition ∈ partitions, (domainOf domains assignment partition).isSome →
    ∃ held, counts.lookup (partition % logicalCount) = some held)

include counted

/-- The lookups of the hints succeed, and a chosen partition sits on the destination. -/
theorem returnPartition_spec (exchanged : Exchanged partitions domains assignment proposal)
    (sourceDomain : String) :
    ∃ chosen, returnPartition partitions domains logicalCount counts logical destination proposal
        sourceDomain = some chosen
      ∧ ∀ returned, chosen = some returned → returned ∈ partitions
        ∧ domainOf domains proposal returned = some destination := by
  let candidates := partitions.filter fun candidate =>
    candidate % logicalCount ≠ logical && domainOf domains proposal candidate = some destination
  have facts : ∀ candidate ∈ candidates, candidate ∈ partitions
      ∧ domainOf domains proposal candidate = some destination := by
    intro candidate member
    obtain ⟨listed, accepted⟩ := List.mem_filter.mp member
    rw [Bool.and_eq_true, decide_eq_true_eq, decide_eq_true_eq] at accepted
    exact ⟨listed, accepted.2⟩
  have keyed : (candidates.mapM fun candidate =>
      (counts.lookup (candidate % logicalCount)).map fun held =>
        (candidate, returnKey held sourceDomain candidate))
      = some (candidates.map fun candidate => (candidate, returnKey
          ((counts.lookup (candidate % logicalCount)).getD []) sourceDomain candidate)) := by
    apply Loop.mapM_total
    intro candidate member
    obtain ⟨listed, placed⟩ := facts candidate member
    have takesPart : (domainOf domains assignment candidate).isSome := by
      rw [← exchanged.participants, placed]
      rfl
    obtain ⟨held, found⟩ := counted candidate listed takesPart
    rw [found]
    rfl
  refine ⟨_, by rw [returnPartition, keyed]; rfl, ?_⟩
  intro returned isChosen
  obtain ⟨entry, best, rfl⟩ := Option.map_eq_some_iff.mp isChosen
  obtain ⟨candidate, member, rfl⟩ := List.mem_map.mp (List.argmin_mem best)
  exact facts candidate member

/-- An exchange does not panic, and swaps the workers of two participants. -/
theorem exchange_spec (distinct : partitions.Nodup)
    (exchanged : Exchanged partitions domains assignment proposal) {partition : VirtualPartitionId}
    (listed : partition ∈ partitions) (takesPart : (domainOf domains assignment partition).isSome) :
    ∃ outcome, exchange partitions domains logicalCount counts logical destination proposal partition
        = some outcome
      ∧ ∀ next, outcome = some next → Exchanged partitions domains assignment next := by
  rw [← exchanged.participants] at takesPart
  obtain ⟨sourceDomain, located⟩ := Option.isSome_iff_exists.mp takesPart
  obtain ⟨sourceWorker, atSource, sourceKnown⟩ := Option.bind_eq_some_iff.mp located
  obtain ⟨chosen, computed, onDestination⟩ :=
    returnPartition_spec logical destination counted exchanged sourceDomain
  cases chosen with
  | none =>
    refine ⟨none, ?_, by simp⟩
    simp only [exchange, atSource, sourceKnown, computed, Option.bind_eq_bind, Option.bind_some]
    rfl
  | some returned =>
    obtain ⟨returnedListed, placed⟩ := onDestination returned rfl
    obtain ⟨destinationWorker, atReturned, destinationKnown⟩ := Option.bind_eq_some_iff.mp placed
    refine ⟨some (Function.update (Function.update proposal partition (some destinationWorker))
      returned (some sourceWorker)), ?_, ?_⟩
    · simp only [exchange, atSource, sourceKnown, computed, Option.bind_eq_bind, Option.bind_some,
        atReturned]
      rfl
    · rintro next ⟨⟩
      exact exchanged.trans (exchanged_swap distinct listed returnedListed atSource atReturned
        (by simp [sourceKnown]) (by simp [destinationKnown]))

theorem buildProposal_spec (distinct : partitions.Nodup) {missing : List VirtualPartitionId}
    (takePart : ∀ partition ∈ missing,
      partition ∈ partitions ∧ (domainOf domains assignment partition).isSome)
    (exchanged : Exchanged partitions domains assignment proposal) :
    ∃ outcome, buildProposal partitions domains logicalCount counts logical destination missing
        proposal = some outcome
      ∧ ∀ next, outcome = some next → Exchanged partitions domains assignment next := by
  induction missing generalizing proposal with
  | nil =>
    refine ⟨some proposal, rfl, ?_⟩
    rintro next ⟨⟩
    exact exchanged
  | cons partition rest ih =>
    obtain ⟨listed, known⟩ := takePart partition List.mem_cons_self
    obtain ⟨outcome, computed, kept⟩ :=
      exchange_spec logical destination counted distinct exchanged listed known
    cases outcome with
    | none =>
      refine ⟨none, ?_, by simp⟩
      rw [buildProposal, computed]
      rfl
    | some next =>
      obtain ⟨final, built, sound⟩ := ih
        (fun other member => takePart other (List.mem_cons_of_mem partition member)) (kept next rfl)
      refine ⟨final, ?_, sound⟩
      rw [buildProposal, computed]
      exact built

end Attempts

/-! ### The pass over the groups -/

structure RepairSound (partitions : List VirtualPartitionId) (baseline : AssignmentMap)
    (domains : Domains) (logicalCount budget : Nat) (start : AssignmentMap)
    (startCounts : DomainCounts) (state : RepairState) : Prop where
  exchanged : Exchanged partitions domains start state.assignment
  counted : domainCounts (repairGroups partitions start domains logicalCount) state.assignment domains
    = some state.counts
  better : quality state.counts ≤ quality startCounts
  budgeted : changedPartitions partitions start baseline ≤ budget →
    changedPartitions partitions state.assignment baseline ≤ budget

/-- The groups depend on the participants only. -/
theorem Exchanged.repairGroups_eq (exchanged : Exchanged partitions domains before after) :
    repairGroups partitions after domains logicalCount
      = repairGroups partitions before domains logicalCount := by
  rw [repairGroups, repairGroups]
  congr 1
  apply List.filter_congr
  intro partition _
  exact exchanged.participants partition

theorem Exchanged.counts (exchanged : Exchanged partitions domains before after) (count : Nat) :
    ∃ counts, domainCounts (repairGroups partitions before domains count) after domains
      = some counts := by
  apply domainCounts_total
  intro group isGroup partition member
  rw [exchanged.participants]
  exact (mem_repairGroups isGroup member).2

variable {baseline start : AssignmentMap} {budget : Nat} {startCounts : DomainCounts}
  {state : RepairState}

/-- One group: the pass goes on with a sound state, whatever becomes of the proposal. -/
theorem RepairSound.attemptGroup (distinct : partitions.Nodup)
    (sound : RepairSound partitions baseline domains logicalCount budget start startCounts state)
    (isGroup : group ∈ repairGroups partitions start domains logicalCount) :
    ∃ next, attemptGroup partitions baseline domains logicalCount budget
        (repairGroups partitions start domains logicalCount) state group = some next
      ∧ RepairSound partitions baseline domains logicalCount budget start startCounts next := by
  obtain ⟨held, found⟩ := lookup_of_domainCounts sound.counted (List.mem_map_of_mem isGroup)
  by_cases whole : (occupied held).length ≤ 1
  · refine ⟨state, ?_, sound⟩
    rw [Sticky.attemptGroup, found, Option.bind_eq_bind, Option.bind_some, if_pos whole]
    rfl
  -- A split group occupies some domain.
  obtain ⟨destination, chosen⟩ : ∃ destination, (occupied held).argmin (fun domain =>
      (toLex (OrderDual.toDual (held.count domain), domain) : ℕᵒᵈ ×ₗ String))
        = some destination := by
    apply Option.ne_none_iff_exists'.mp
    rw [Ne, List.argmin_eq_none]
    rintro empty
    simp [empty] at whole
  have members : ∀ partition ∈ group.2, partition ∈ partitions
      ∧ (domainOf domains start partition).isSome :=
    fun partition member => mem_repairGroups isGroup member
  obtain ⟨located, isLocated, fromGroup⟩ : ∃ located, (group.2.mapM fun partition =>
        (domainOf domains state.assignment partition).map (partition, ·)) = some located
      ∧ ∀ entry ∈ located, entry.1 ∈ group.2 := by
    refine ⟨group.2.map fun partition =>
      (partition, (domainOf domains state.assignment partition).getD ""), ?_, ?_⟩
    · apply Loop.mapM_total
      intro partition member
      have known := (members partition member).2
      rw [← sound.exchanged.participants] at known
      obtain ⟨domain, isDomain⟩ := Option.isSome_iff_exists.mp known
      rw [isDomain]
      rfl
    · intro entry inLocated
      obtain ⟨partition, member, rfl⟩ := List.mem_map.mp inLocated
      exact member
  have counted : ∀ partition ∈ partitions, (domainOf domains start partition).isSome →
      ∃ held, state.counts.lookup (partition % logicalCount) = some held := by
    intro partition listed known
    apply lookup_of_domainCounts sound.counted
    rw [repairGroups, ((logicalGroups_perm _ logicalCount).map Prod.fst).mem_iff, List.map_map]
    simpa [logicalGroup] using ⟨partition, ⟨listed, known⟩, rfl⟩
  have takePart : ∀ partition ∈ (located.filter fun entry => entry.2 ≠ destination).map Prod.fst,
      partition ∈ partitions ∧ (domainOf domains start partition).isSome := by
    intro partition inMissing
    obtain ⟨entry, inFilter, rfl⟩ := List.mem_map.mp inMissing
    exact members entry.1 (fromGroup entry (List.mem_filter.mp inFilter).1)
  obtain ⟨outcome, built, chain⟩ :=
    buildProposal_spec group.1 destination counted distinct takePart sound.exchanged
  cases outcome with
  | none =>
    refine ⟨state, ?_, sound⟩
    simp only [Sticky.attemptGroup, found, Option.bind_eq_bind, Option.bind_some, if_neg whole,
      chosen, isLocated, built]
    rfl
  | some proposal =>
    have exchanged := chain proposal rfl
    obtain ⟨proposalCounts, recounted⟩ := exchanged.counts logicalCount
    by_cases exceeds : budget < changedPartitions partitions proposal baseline
    · refine ⟨state, ?_, sound⟩
      simp only [Sticky.attemptGroup, found, Option.bind_eq_bind, Option.bind_some, if_neg whole,
        chosen, isLocated, built, if_pos exceeds]
      rfl
    · by_cases improves : quality proposalCounts < quality state.counts
      · refine ⟨⟨proposal, proposalCounts⟩, ?_, exchanged, recounted,
          improves.le.trans sound.better, fun _ => Nat.le_of_not_lt exceeds⟩
        simp only [Sticky.attemptGroup, found, Option.bind_eq_bind, Option.bind_some, if_neg whole,
          chosen, isLocated, built, if_neg exceeds, recounted, if_pos improves]
        rfl
      · refine ⟨state, ?_, sound⟩
        simp only [Sticky.attemptGroup, found, Option.bind_eq_bind, Option.bind_some, if_neg whole,
          chosen, isLocated, built, if_neg exceeds, recounted, if_neg improves]
        rfl

/-- The whole pass: it never panics and only exchanges owners. -/
theorem consolidate_spec (distinct : partitions.Nodup) (positive : 0 < logicalCount)
    (start baseline : AssignmentMap) (domains : Domains) (budget : Nat) :
    ∃ result, consolidate partitions start baseline domains logicalCount budget = some result
      ∧ ∃ startCounts counts,
        domainCounts (repairGroups partitions start domains logicalCount) start domains
          = some startCounts
        ∧ RepairSound partitions baseline domains logicalCount budget start startCounts
          ⟨result, counts⟩ := by
  have unchanged : Exchanged partitions domains start start := Exchanged.refl start
  obtain ⟨startCounts, counted⟩ := unchanged.counts logicalCount
  have begins : RepairSound partitions baseline domains logicalCount budget start startCounts
      ⟨start, startCounts⟩ := ⟨unchanged, counted, le_refl _, id⟩
  by_cases disabled : budget = 0
  · exact ⟨start, by rw [consolidate, if_pos disabled], startCounts, startCounts, counted, begins⟩
  · obtain ⟨repaired, computed, -, sound⟩ := Loop.foldlM_invariant
      (fun rest state =>
        (∀ group ∈ rest, group ∈ repairGroups partitions start domains logicalCount)
        ∧ RepairSound partitions baseline domains logicalCount budget start startCounts state)
      (fun group rest state ⟨listed, sound⟩ => by
        obtain ⟨next, stepped, kept⟩ := sound.attemptGroup distinct (listed group List.mem_cons_self)
        exact ⟨next, stepped, fun other member => listed other (List.mem_cons_of_mem group member),
          kept⟩)
      ⟨fun _ member => member, begins⟩
    refine ⟨repaired.assignment, ?_, startCounts, repaired.counts, counted, sound⟩
    rw [consolidate, if_neg disabled, if_neg positive.ne']
    simp only [counted, computed, Option.bind_eq_bind, Option.bind_some]
    rfl

theorem Exchanged.isSome_eq (exchanged : Exchanged partitions domains before after)
    (partition : VirtualPartitionId) : (after partition).isSome = (before partition).isSome := by
  cases known : domainOf domains before partition with
  | none => rw [exchanged.outside partition known]
  | some domain =>
    have stillKnown := exchanged.participants partition
    rw [known, Option.isSome_some] at stillKnown
    obtain ⟨worker, isBefore, -⟩ := Option.bind_eq_some_iff.mp known
    obtain ⟨_, isDomain⟩ := Option.isSome_iff_exists.mp stillKnown
    obtain ⟨_, isAfter, -⟩ := Option.bind_eq_some_iff.mp isDomain
    rw [isBefore, isAfter]
    rfl

/-- Exchanges among the workers of one pod leave every partition in its pod. -/
theorem Exchanged.pod_eq (exchanged : Exchanged partitions domains before after)
    {podOf : String → Option String} {pod : String}
    (onePod : ∀ worker, (domains worker).isSome → podOf worker = some pod)
    (partition : VirtualPartitionId) :
    (after partition).bind podOf = (before partition).bind podOf := by
  cases known : domainOf domains before partition with
  | none => rw [exchanged.outside partition known]
  | some domain =>
    have inPod : ∀ map : AssignmentMap, (domainOf domains map partition).isSome →
        (map partition).bind podOf = some pod := by
      intro map takesPart
      obtain ⟨_, located⟩ := Option.isSome_iff_exists.mp takesPart
      obtain ⟨worker, assigned, isDomain⟩ := Option.bind_eq_some_iff.mp located
      rw [assigned, Option.bind_some, onePod worker (by simp [isDomain])]
    have before_known : (domainOf domains before partition).isSome := by simp [known]
    rw [inPod before before_known, inPod after ((exchanged.participants partition).trans before_known)]

end Exchanges

/-- Repair is load-preserving, budgeted and never worse. -/
theorem consolidate_sound (partitions : List VirtualPartitionId) (assignment baseline : AssignmentMap)
    (domains : Domains) (logicalCount budget : Nat) (distinct : partitions.Nodup)
    (complete : ∀ partition, partition ∈ partitions ↔ (assignment partition).isSome)
    (positive : 0 < logicalCount) :
    ∃ result, consolidate partitions assignment baseline domains logicalCount budget = some result
      ∧ (∀ partition, partition ∈ partitions ↔ (result partition).isSome)
      ∧ (∀ worker, ownerLoad partitions result worker = ownerLoad partitions assignment worker)
      ∧ (∀ partition worker, assignment partition = some worker → domains worker = none →
          result partition = some worker)
      ∧ (∃ before after, repairQuality partitions assignment domains logicalCount = some before
          ∧ repairQuality partitions result domains logicalCount = some after ∧ after ≤ before)
      ∧ (changedPartitions partitions assignment baseline ≤ budget →
          changedPartitions partitions result baseline ≤ budget)
      ∧ ∀ (podOf : String → Option String) (pod : String),
          (∀ worker, (domains worker).isSome → podOf worker = some pod) →
          ∀ partition, (result partition).bind podOf = (assignment partition).bind podOf := by
  obtain ⟨result, computed, startCounts, counts, counted, sound⟩ :=
    consolidate_spec distinct positive assignment baseline domains budget
  refine ⟨result, computed, ?_, sound.exchanged.loads, ?_, ⟨_, _, ?_, ?_, sound.better⟩,
    sound.budgeted, ?_⟩
  · intro partition
    rw [sound.exchanged.isSome_eq]
    exact complete partition
  · intro partition worker assigned unknown
    rw [← assigned]
    apply sound.exchanged.outside
    rw [domainOf, assigned]
    exact unknown
  · rw [repairQuality, counted, Option.map_some]
  · rw [repairQuality, sound.exchanged.repairGroups_eq, sound.counted, Option.map_some]
  · intro podOf pod onePod partition
    exact sound.exchanged.pod_eq onePod partition

def crossed : AssignmentMap := fun partition =>
  if partition = 0 ∨ partition = 1 then some "a"
  else if partition = 2 ∨ partition = 3 then some "b"
  else none

/-- Repair collects both groups with two moves. -/
theorem consolidate_sound_crossed :
    let domains : Domains := fun worker => if worker ∈ ["a", "b"] then some worker else none
    [0, 1, 2, 3].Nodup
      ∧ (∀ partition, partition ∈ [0, 1, 2, 3] ↔ (crossed partition).isSome)
      ∧ (consolidate [0, 1, 2, 3] crossed crossed domains 2 2).map
          (fun result => [0, 1, 2, 3].map result)
        = some [some "a", some "b", some "a", some "b"]
      ∧ ∃ result, consolidate [0, 1, 2, 3] crossed crossed domains 2 2 = some result
        ∧ changedPartitions [0, 1, 2, 3] result crossed ≤ 2 := by
  intro domains
  have keys : ∀ partition, partition ∈ [0, 1, 2, 3] ↔ (crossed partition).isSome := by
    intro partition
    by_cases first : partition = 0 ∨ partition = 1
    · rcases first with rfl | rfl <;> decide
    · by_cases second : partition = 2 ∨ partition = 3
      · rcases second with rfl | rfl <;> decide
      · rw [crossed, if_neg first, if_neg second]
        simp only [List.mem_cons, List.not_mem_nil, or_false, Option.isSome_none,
          Bool.false_eq_true, iff_false]
        tauto
  obtain ⟨result, computed, -, -, -, -, budgeted, -⟩ :=
    consolidate_sound [0, 1, 2, 3] crossed crossed domains 2 2 (by decide) keys (by decide)
  exact ⟨by decide, keys, by decide +kernel, result, computed, budgeted (by decide)⟩

end BlobStream.Consumer.Sticky
