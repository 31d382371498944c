import BlobStream.Lib.Balance
import BlobStream.Lib.SortedDistinct
import BlobStream.Types

/-!
# Owners of virtual partitions

Brokers and producers compute the owner of every virtual partition for themselves, from the membership
they see. The loop gives each partition, in order, to the node with the highest score among those with
the least load.
-/

namespace BlobStream.Discovery

open Sorted Balance

structure BrokerNode where
  nodeId : String
  address : String
deriving DecidableEq, Repr

inductive BrokerMembership
  | pending
  | initialized (nodes : List BrokerNode)
deriving DecidableEq, Repr

/-- The nodes of a snapshot; none while discovery is pending. -/
def BrokerMembership.nodes : BrokerMembership → List BrokerNode
  | .pending => []
  | .initialized nodes => nodes

def nodeKey (node : BrokerNode) : String ×ₗ String := toLex (node.nodeId, node.address)

/-- Sorted, with the smallest address of every node id. -/
def canonicalNodes (membership : BrokerMembership) : List BrokerNode :=
  (membership.nodes.insertionSort (byKey nodeKey)).destutter fun left right =>
    left.nodeId ≠ right.nodeId

def partitionOrder (partition : PartitionKey) : String ×ₗ Nat :=
  toLex (partition.topic, partition.virtualPartitionId)

section Assignment

-- `rendezvous_score`, a hash of the partition and the node id: any function is allowed here.
variable (rendezvousScore : PartitionKey → String → UInt64)

/-- The order of `max_by`: scores first, and smaller node ids win between equal scores. -/
def ownerKey (partition : PartitionKey) (node : BrokerNode) : Nat ×ₗ Stringᵒᵈ :=
  toLex ((rendezvousScore partition node.nodeId).toNat, OrderDual.toDual node.nodeId)

/-- One turn of the loop. None stands for the panic of a selection without candidates. -/
def nextOwner (nodes : List BrokerNode) (loads : String → Nat) (partition : PartitionKey) :
    Option BrokerNode :=
  let minimumLoad := (nodes.map fun node => loads node.nodeId).min?.getD 0
  (nodes.filter fun node => loads node.nodeId = minimumLoad).argmax
    (ownerKey rendezvousScore partition)

def assignOwners (nodes : List BrokerNode) :
    List PartitionKey → (loads : String → Nat) → Option (List (PartitionKey × BrokerNode))
  | [], _ => some []
  | partition :: rest, loads => do
    let owner ← nextOwner rendezvousScore nodes loads partition
    let assignments ← assignOwners nodes rest
      (Function.update loads owner.nodeId (loads owner.nodeId + 1))
    return (partition, owner) :: assignments

def balancedAssignment (partitions : List PartitionKey) (membership : BrokerMembership) :
    Option (List (PartitionKey × BrokerNode)) :=
  let nodes := canonicalNodes membership
  if nodes.isEmpty then some []
  else assignOwners rendezvousScore nodes (sortedDistinct (byKey partitionOrder) partitions)
    fun _ => 0

end Assignment

/-! ### Canonical nodes -/

theorem nodeKey_injective : Function.Injective nodeKey := by
  rintro ⟨leftId, leftAddress⟩ ⟨rightId, rightAddress⟩ same
  obtain ⟨rfl, rfl⟩ := Prod.mk.inj (toLex.injective same)
  rfl

theorem partitionOrder_injective : Function.Injective partitionOrder := by
  rintro ⟨leftTopic, leftId⟩ ⟨rightTopic, rightId⟩ same
  obtain ⟨rfl, rfl⟩ := Prod.mk.inj (toLex.injective same)
  rfl

instance : Std.Antisymm (byKey nodeKey) := antisymm_byKey nodeKey_injective

instance : Std.Antisymm (byKey partitionOrder) := antisymm_byKey partitionOrder_injective

/-- The node has the smallest address among those with its id. -/
def IsCanonical (nodes : List BrokerNode) (node : BrokerNode) : Prop :=
  node ∈ nodes ∧ ∀ other ∈ nodes, other.nodeId = node.nodeId → node.address ≤ other.address

variable {left right : BrokerNode}

theorem nodeId_le_of_byKey (below : byKey nodeKey left right) : left.nodeId ≤ right.nodeId := by
  rcases (Prod.Lex.toLex_le_toLex).mp below with smaller | ⟨same, -⟩
  · exact le_of_lt smaller
  · exact le_of_eq same

theorem address_le_of_byKey (below : byKey nodeKey left right) (same : right.nodeId = left.nodeId) :
    left.address ≤ right.address := by
  rcases (Prod.Lex.toLex_le_toLex).mp below with smaller | ⟨-, address⟩
  · exact absurd same (ne_of_gt smaller)
  · exact address

/-- Removing repeated ids from a sorted list keeps the first node of every id. -/
theorem mem_destutter' {first node : BrokerNode} {rest : List BrokerNode}
    (sorted : (first :: rest).Pairwise (byKey nodeKey)) :
    node ∈ rest.destutter' (fun left right => left.nodeId ≠ right.nodeId) first
      ↔ IsCanonical (first :: rest) node := by
  induction rest generalizing first with
  | nil =>
    simp only [List.destutter'_nil, IsCanonical, List.mem_singleton]
    constructor
    · rintro rfl
      exact ⟨rfl, fun other isFirst _ => isFirst ▸ le_refl _⟩
    · exact And.left
  | cons second rest ih =>
    obtain ⟨least, tail⟩ := List.pairwise_cons.mp sorted
    by_cases differs : first.nodeId ≠ second.nodeId
    · -- A new id begins: the first node is the least of its id, and the later ones have other ids.
      rw [List.destutter'_cons, if_pos differs, List.mem_cons, ih tail]
      have others : ∀ other ∈ second :: rest, first.nodeId ≠ other.nodeId := by
        intro other member same
        have below : second.nodeId ≤ other.nodeId := by
          rcases List.mem_cons.mp member with rfl | later
          · exact le_refl _
          · exact nodeId_le_of_byKey ((List.pairwise_cons.mp tail).1 other later)
        have above := nodeId_le_of_byKey (least second List.mem_cons_self)
        exact differs (le_antisymm above (same ▸ below))
      unfold IsCanonical
      rw [List.mem_cons, List.forall_mem_cons]
      grind
    · -- The second node repeats the id of the first, and is dropped: it is the smallest of its id
      -- only if it equals the first.
      have repeats : second.nodeId = first.nodeId := (not_ne_iff.mp differs).symm
      have address := address_le_of_byKey (least second List.mem_cons_self) repeats
      rw [List.destutter'_cons, if_neg differs, ih (sorted.sublist (by simp))]
      have same : second.address ≤ first.address → second = first := by
        intro below
        cases second
        cases first
        simp only [BrokerNode.mk.injEq]
        exact ⟨repeats, le_antisymm below address⟩
      simp only [IsCanonical, List.mem_cons]
      grind

variable {membership : BrokerMembership} {node : BrokerNode}

/-- The canonical nodes are those with the smallest address of their id. -/
theorem mem_canonicalNodes :
    node ∈ canonicalNodes membership ↔ IsCanonical membership.nodes node := by
  have sorted := List.pairwise_insertionSort (byKey nodeKey) membership.nodes
  have perm := List.perm_insertionSort (byKey nodeKey) membership.nodes
  have same : IsCanonical (membership.nodes.insertionSort (byKey nodeKey)) node
      ↔ IsCanonical membership.nodes node := by
    simp only [IsCanonical, perm.mem_iff]
  rw [← same, canonicalNodes]
  cases list : membership.nodes.insertionSort (byKey nodeKey) with
  | nil => simp [IsCanonical]
  | cons first rest =>
    rw [list] at sorted
    exact mem_destutter' sorted

theorem pairwise_canonicalNodes (membership : BrokerMembership) :
    (canonicalNodes membership).Pairwise fun left right => left.nodeId < right.nodeId := by
  have sorted : (canonicalNodes membership).IsChain (byKey nodeKey) :=
    ((List.pairwise_insertionSort (byKey nodeKey) membership.nodes).sublist
      (List.destutter_sublist _ _)).isChain
  have distinct : (canonicalNodes membership).IsChain fun left right =>
      left.nodeId ≠ right.nodeId := List.isChain_destutter _ _
  have transitive : IsTrans BrokerNode fun left right => left.nodeId < right.nodeId :=
    ⟨fun _ _ _ => lt_trans⟩
  refine List.isChain_iff_pairwise.mp (List.isChain_iff_getElem.mpr ?_)
  intro index inside
  have below := List.isChain_iff_getElem.mp sorted index inside
  exact lt_of_le_of_ne (nodeId_le_of_byKey below)
    (List.isChain_iff_getElem.mp distinct index inside)

theorem nodup_nodeId_canonicalNodes (membership : BrokerMembership) :
    ((canonicalNodes membership).map BrokerNode.nodeId).Nodup :=
  List.pairwise_map.mpr ((pairwise_canonicalNodes membership).imp ne_of_lt)

theorem canonicalNodes_congr {left right : BrokerMembership}
    (same : ∀ node, IsCanonical left.nodes node ↔ IsCanonical right.nodes node) :
    canonicalNodes left = canonicalNodes right := by
  have sorted : ∀ membership, (canonicalNodes membership).Pairwise (byKey nodeKey) := fun membership =>
    (List.pairwise_insertionSort (byKey nodeKey) membership.nodes).sublist
      (List.destutter_sublist _ _)
  refine eq_of_sorted (sorted left) (sorted right) (nodup_nodeId_canonicalNodes left).of_map
    (nodup_nodeId_canonicalNodes right).of_map ?_
  intro node
  rw [mem_canonicalNodes, mem_canonicalNodes, same]

theorem exists_canonical (member : node ∈ membership.nodes) :
    ∃ canonical ∈ canonicalNodes membership, canonical.nodeId = node.nodeId := by
  let rivals := membership.nodes.filter fun other => other.nodeId = node.nodeId
  have inRivals : node ∈ rivals := List.mem_filter.mpr ⟨member, by simp⟩
  obtain ⟨least, isLeast⟩ : ∃ least, least ∈ rivals.argmin BrokerNode.address := by
    cases chosen : rivals.argmin BrokerNode.address with
    | none => exact absurd (List.argmin_eq_none.mp chosen) (List.ne_nil_of_mem inRivals)
    | some least => exact ⟨least, rfl⟩
  obtain ⟨inNodes, sameId⟩ := List.mem_filter.mp (List.argmin_mem isLeast)
  have sameId : least.nodeId = node.nodeId := of_decide_eq_true sameId
  refine ⟨least, mem_canonicalNodes.mpr ⟨inNodes, ?_⟩, sameId⟩
  intro other inOther same
  refine List.le_of_mem_argmin ?_ isLeast
  exact List.mem_filter.mpr ⟨inOther, decide_eq_true (same.trans sameId)⟩

theorem mem_nodeIds {nodeId : String} :
    nodeId ∈ (canonicalNodes membership).map BrokerNode.nodeId
      ↔ nodeId ∈ membership.nodes.map BrokerNode.nodeId := by
  simp only [List.mem_map]
  constructor
  · rintro ⟨node, canonical, rfl⟩
    exact ⟨node, (mem_canonicalNodes.mp canonical).1, rfl⟩
  · rintro ⟨node, member, rfl⟩
    exact exists_canonical member

theorem canonicalNodes_ne_nil (some_node : membership.nodes ≠ []) :
    canonicalNodes membership ≠ [] := by
  obtain ⟨node, member⟩ := List.exists_mem_of_ne_nil _ some_node
  obtain ⟨canonical, inCanonical, -⟩ := exists_canonical member
  exact List.ne_nil_of_mem inCanonical

/-! ### The loop -/

section Loop

variable (rendezvousScore : PartitionKey → String → UInt64) {nodes : List BrokerNode}

/-- A turn finds a candidate, and one with the least load. -/
theorem nextOwner_spec (some_node : nodes ≠ []) (loads : String → Nat) (partition : PartitionKey) :
    ∃ owner, nextOwner rendezvousScore nodes loads partition = some owner ∧ owner ∈ nodes
      ∧ ∀ other ∈ nodes, loads owner.nodeId ≤ loads other.nodeId := by
  obtain ⟨minimum, isMinimum⟩ : ∃ minimum,
      (nodes.map fun node => loads node.nodeId).min? = some minimum :=
    Option.ne_none_iff_exists'.mp (by simpa using some_node)
  obtain ⟨attained, lower⟩ := List.min?_eq_some_iff.mp isMinimum
  obtain ⟨lowest, inLowest, lowestLoad⟩ := List.mem_map.mp attained
  have candidate : lowest ∈ nodes.filter fun node => loads node.nodeId = minimum :=
    List.mem_filter.mpr ⟨inLowest, decide_eq_true lowestLoad⟩
  simp only [nextOwner, isMinimum, Option.getD_some]
  cases chosen : (nodes.filter fun node => loads node.nodeId = minimum).argmax
      (ownerKey rendezvousScore partition) with
  | none => exact absurd (List.argmax_eq_none.mp chosen) (List.ne_nil_of_mem candidate)
  | some owner =>
    obtain ⟨inNodes, hasMinimum⟩ := List.mem_filter.mp (List.argmax_mem chosen)
    refine ⟨owner, rfl, inNodes, ?_⟩
    intro other inOther
    rw [of_decide_eq_true hasMinimum]
    exact lower _ (List.mem_map_of_mem inOther)

/-- The ids of the owners, with one occurrence for every partition. -/
def ownerIds (assignments : List (PartitionKey × BrokerNode)) : List String :=
  assignments.map fun assignment => assignment.2.nodeId

/-- The loop never panics, assigns the partitions in order, and keeps balanced loads balanced. -/
theorem assignOwners_spec (some_node : nodes ≠ []) (partitions : List PartitionKey)
    {loads : String → Nat} (balanced : WithinOne (nodes.map BrokerNode.nodeId).toFinset loads) :
    ∃ assignments, assignOwners rendezvousScore nodes partitions loads = some assignments
      ∧ assignments.map Prod.fst = partitions
      ∧ (∀ assignment ∈ assignments, assignment.2 ∈ nodes)
      ∧ WithinOne (nodes.map BrokerNode.nodeId).toFinset fun nodeId =>
          loads nodeId + (ownerIds assignments).count nodeId := by
  induction partitions generalizing loads with
  | nil => exact ⟨[], rfl, rfl, by simp, by simpa [ownerIds] using balanced⟩
  | cons partition rest ih =>
    obtain ⟨owner, chosen, inNodes, least⟩ :=
      nextOwner_spec rendezvousScore some_node loads partition
    have leastId : ∀ other ∈ (nodes.map BrokerNode.nodeId).toFinset,
        loads owner.nodeId ≤ loads other := by
      intro other member
      obtain ⟨node, inNode, rfl⟩ := List.mem_map.mp (List.mem_toFinset.mp member)
      exact least node inNode
    obtain ⟨assignments, computed, order, members, kept⟩ := ih (balanced.increment leastId)
    refine ⟨(partition, owner) :: assignments, ?_, ?_, ?_, ?_⟩
    · simp only [assignOwners, chosen, computed, Option.bind_eq_bind, Option.bind_some]
      rfl
    · rw [List.map_cons, order]
    · intro assignment member
      rcases List.mem_cons.mp member with rfl | later
      · exact inNodes
      · exact members assignment later
    · refine kept.congr ?_
      intro nodeId _
      -- The incremented load is the old one and the first occurrence.
      simp only [ownerIds, List.map_cons, List.count_cons, beq_iff_eq, Function.update_apply]
      by_cases same : nodeId = owner.nodeId
      · subst same
        simp only [if_true]
        omega
      · simp only [if_neg same, if_neg (Ne.symm same)]
        omega

/-- Two views with the same partitions and the same canonical nodes compute the same owners. -/
theorem balancedAssignment_congr {left right : List PartitionKey}
    {leftMembership rightMembership : BrokerMembership}
    (samePartitions : ∀ partition, partition ∈ left ↔ partition ∈ right)
    (sameNodes : ∀ node, IsCanonical leftMembership.nodes node
      ↔ IsCanonical rightMembership.nodes node) :
    balancedAssignment rendezvousScore left leftMembership
      = balancedAssignment rendezvousScore right rightMembership := by
  rw [balancedAssignment, balancedAssignment, canonicalNodes_congr sameNodes,
    sortedDistinct_congr samePartitions]

end Loop

/-! ### The whole assignment -/

/-- Ownership is balanced and depends only on the set of partitions and the canonical nodes; without
nodes nothing is assigned. -/
theorem balancedAssignment_balanced (rendezvousScore : PartitionKey → String → UInt64)
    (partitions : List PartitionKey) (membership : BrokerMembership) :
    (membership.nodes = [] → balancedAssignment rendezvousScore partitions membership = some [])
      ∧ (membership.nodes ≠ [] → ∃ assignments,
        balancedAssignment rendezvousScore partitions membership = some assignments
        ∧ (∀ partition ∈ partitions, ∃! owner, (partition, owner) ∈ assignments)
        ∧ (∀ assignment ∈ assignments, assignment.1 ∈ partitions
            ∧ IsCanonical membership.nodes assignment.2)
        ∧ (∀ nodeId ∈ membership.nodes.map BrokerNode.nodeId,
            (ownerIds assignments).count nodeId
                = partitions.toFinset.card
                  / (membership.nodes.map BrokerNode.nodeId).toFinset.card
              ∨ (ownerIds assignments).count nodeId
                = ceilDiv partitions.toFinset.card
                  (membership.nodes.map BrokerNode.nodeId).toFinset.card)
        ∧ (∀ otherPartitions otherMembership,
            (∀ partition, partition ∈ partitions ↔ partition ∈ otherPartitions) →
            (∀ node, IsCanonical membership.nodes node
              ↔ IsCanonical (BrokerMembership.nodes otherMembership) node) →
            balancedAssignment rendezvousScore otherPartitions otherMembership = some assignments)
        ∧ ∀ otherPartitions otherMembership,
            (∀ partition, partition ∈ partitions ↔ partition ∈ otherPartitions) →
            (∀ node, node ∈ membership.nodes ↔ node ∈ BrokerMembership.nodes otherMembership) →
            balancedAssignment rendezvousScore otherPartitions otherMembership
              = some assignments) := by
  refine ⟨fun empty => by simp [balancedAssignment, canonicalNodes, empty], fun some_node => ?_⟩
  have nonempty := canonicalNodes_ne_nil some_node
  have distinct : (sortedDistinct (byKey partitionOrder) partitions).Nodup :=
    nodup_sortedDistinct partitions
  have start : WithinOne ((canonicalNodes membership).map BrokerNode.nodeId).toFinset
      fun _ => 0 := fun _ _ _ _ => Nat.zero_le _
  obtain ⟨assignments, computed, order, members, balanced⟩ :=
    assignOwners_spec rendezvousScore nonempty
      (sortedDistinct (byKey partitionOrder) partitions) start
  have result : balancedAssignment rendezvousScore partitions membership = some assignments := by
    rw [balancedAssignment, if_neg (by simpa using nonempty), computed]
  refine ⟨assignments, result, ?_, ?_, ?_, ?_, ?_⟩
  · intro partition member
    have inOrder : partition ∈ assignments.map Prod.fst := by
      rw [order]
      exact mem_sortedDistinct.mpr member
    obtain ⟨⟨_, owner⟩, assigned, rfl⟩ := List.mem_map.mp inOrder
    refine ⟨owner, assigned, ?_⟩
    intro other alsoAssigned
    have same := List.inj_on_of_nodup_map (order ▸ distinct) alsoAssigned assigned rfl
    exact congrArg Prod.snd same
  · intro assignment member
    refine ⟨?_, mem_canonicalNodes.mp (members assignment member)⟩
    have inOrder : assignment.1 ∈ assignments.map Prod.fst := List.mem_map_of_mem member
    rw [order] at inOrder
    exact mem_sortedDistinct.mp inOrder
  · intro nodeId known
    have sameIds : ((canonicalNodes membership).map BrokerNode.nodeId).toFinset
        = (membership.nodes.map BrokerNode.nodeId).toFinset := by
      ext other
      rw [List.mem_toFinset, List.mem_toFinset, mem_nodeIds]
    have total : partitions.toFinset.card = (ownerIds assignments).length := by
      rw [ownerIds, List.length_map, ← List.length_map (f := Prod.fst), order,
        ← List.toFinset_card_of_nodup distinct]
      congr 1
      ext partition
      rw [List.mem_toFinset, List.mem_toFinset, mem_sortedDistinct]
    have inside : ∀ owner ∈ ownerIds assignments,
        owner ∈ (membership.nodes.map BrokerNode.nodeId).toFinset := by
      intro owner member
      obtain ⟨assignment, assigned, rfl⟩ := List.mem_map.mp member
      rw [← sameIds, List.mem_toFinset]
      exact List.mem_map_of_mem (members assignment assigned)
    rw [sameIds] at balanced
    have loads : WithinOne (membership.nodes.map BrokerNode.nodeId).toFinset fun owner =>
        (ownerIds assignments).count owner := balanced.congr fun _ _ => (Nat.zero_add _).symm
    rw [total]
    exact loads.floor_or_ceil (List.mem_toFinset.mpr known) (sum_count inside)
  · intro otherPartitions otherMembership samePartitions sameNodes
    rw [← result]
    exact (balancedAssignment_congr rendezvousScore samePartitions sameNodes).symm
  · intro otherPartitions otherMembership samePartitions sameNodes
    rw [← result]
    refine (balancedAssignment_congr rendezvousScore samePartitions ?_).symm
    intro node
    simp only [IsCanonical, sameNodes]

/-- Three partitions, and two nodes of which one is listed with two addresses. -/
theorem balancedAssignment_balanced_two_nodes :
    let membership := BrokerMembership.initialized
      [⟨"b", "10.0.0.2"⟩, ⟨"a", "10.0.0.9"⟩, ⟨"a", "10.0.0.1"⟩]
    let partitions : List PartitionKey := [⟨"events", 2⟩, ⟨"events", 0⟩, ⟨"events", 1⟩]
    membership.nodes ≠ []
      ∧ ∃ assignments, balancedAssignment (fun _ _ => 0) partitions membership = some assignments
        ∧ ∀ partition ∈ partitions, ∃! owner, (partition, owner) ∈ assignments := by
  have some_node : (BrokerMembership.initialized
      [⟨"b", "10.0.0.2"⟩, ⟨"a", "10.0.0.9"⟩, ⟨"a", "10.0.0.1"⟩]).nodes ≠ [] := by decide
  obtain ⟨assignments, computed, owned, -⟩ := (balancedAssignment_balanced (fun _ _ => 0)
    [⟨"events", 2⟩, ⟨"events", 0⟩, ⟨"events", 1⟩] _).2 some_node
  exact ⟨some_node, assignments, computed, owned⟩

/-- Without nodes the map is empty, so that no partition has an owner. -/
theorem balancedAssignment_no_nodes :
    ¬ ∀ (rendezvousScore : PartitionKey → String → UInt64) (partitions : List PartitionKey)
        (membership : BrokerMembership), ∃ assignments,
          balancedAssignment rendezvousScore partitions membership = some assignments
          ∧ ∀ partition ∈ partitions, ∃! owner, (partition, owner) ∈ assignments := by
  intro always
  obtain ⟨assignments, computed, owned⟩ :=
    always (fun _ _ => 0) [⟨"events", 0⟩] (.initialized [])
  have empty : assignments = [] := (Option.some.inj computed).symm
  obtain ⟨owner, assigned, -⟩ := owned _ List.mem_cons_self
  rw [empty] at assigned
  exact List.not_mem_nil assigned

example : balancedAssignment (fun _ _ => 0) [⟨"events", 1⟩, ⟨"events", 0⟩]
    (.initialized [⟨"b", "10.0.0.2"⟩, ⟨"a", "10.0.0.9"⟩, ⟨"a", "10.0.0.1"⟩])
      = some [(⟨"events", 0⟩, ⟨"a", "10.0.0.1"⟩), (⟨"events", 1⟩, ⟨"b", "10.0.0.2"⟩)] := by
  decide +kernel

end BlobStream.Discovery
