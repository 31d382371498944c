import BlobStream.Consumer.SettledPlacement

/-!
# Replanning is a fixpoint

In a settled layer the owners with a ceiling come first in the order in which residual slots are
offered, so that the second run computes the same capacities. Everything then fits where it was. For
the order of the inputs, every list that is derived from them is canonical.
-/

namespace BlobStream.Consumer.Sticky

open GroupMembership Sorted Balance

/-! ### One layer -/

section Layer

variable {owners : List String} {inventory : List VirtualPartitionId} {previous : AssignmentMap}
  {preference : Option (String → Option Nat)}
variable {owner : String}

end Layer

/-! ### Flat placement -/

section Flat

variable {partitions : List VirtualPartitionId} {assignment : AssignmentMap} {count : Nat}

end Flat

/-! ### Pods and workers -/

section Topology

variable {members : List ConsumerGroupMember} {partitions : List VirtualPartitionId} {count : Nat}

end Topology

/-! ### The order of the inputs -/

section Order

variable {left right : List VirtualPartitionId}

section

variable (same : ∀ partition, partition ∈ left ↔ partition ∈ right)

include same

end

/-- Some pod has a record without cluster, or records of two clusters. -/
def ClusterConflict (members : List ConsumerGroupMember) : Prop :=
  ∃ first ∈ members, ∃ second ∈ members, first.podId = second.podId ∧ first.podId.isSome
    ∧ (first.clusterId = none ∨ first.clusterId ≠ second.clusterId)

/-- What the pass over the records of `done` has found. -/
structure ClustersSeen (done : List ConsumerGroupMember) (view : ClusterView) : Prop where
  recorded : ∀ podId clusterId, view.podClusters podId = some clusterId →
    ∃ member ∈ done, member.podId = some podId ∧ member.clusterId = some clusterId
  agree : view.complete = true → ∀ member ∈ done, ∀ podId, member.podId = some podId →
    member.clusterId.isSome ∧ view.podClusters podId = member.clusterId
  conflict : view.complete = false → ClusterConflict done

variable {done : List ConsumerGroupMember}

theorem ClustersSeen.add {view : ClusterView} (seen : ClustersSeen done view)
    (member : ConsumerGroupMember) : ClustersSeen (done ++ [member]) (view.add member) := by
  obtain ⟨recorded, agree, conflict⟩ := seen
  cases inPod : member.podId with
  | none =>
    have skipped : view.add member = view := by simp only [ClusterView.add, inPod]
    rw [skipped]
    constructor <;> grind [ClusterConflict]
  | some podId =>
    cases cluster : member.clusterId with
    | none =>
      have broken : view.add member = { view with complete := false } := by
        simp only [ClusterView.add, inPod, cluster]
      rw [broken]
      constructor <;> grind [ClusterConflict]
    | some clusterId =>
      cases existing : view.podClusters podId with
      | none =>
        -- An earlier record of this pod would have been entered.
        have added : view.add member = { view with
            podClusters := Function.update view.podClusters podId (some clusterId) } := by
          simp only [ClusterView.add, inPod, cluster, existing]
        rw [added]
        constructor <;> grind [ClusterConflict, Function.update_apply]
      | some known =>
        by_cases same : clusterId = known
        · have kept : view.add member = view := by
            simp only [ClusterView.add, inPod, cluster, existing, if_pos same]
          rw [kept]
          constructor <;> grind [ClusterConflict]
        · have broken : view.add member = { view with complete := false } := by
            simp only [ClusterView.add, inPod, cluster, existing, if_neg same]
          rw [broken]
          constructor <;> grind [ClusterConflict]

section Members

variable {leftMembers rightMembers : List ConsumerGroupMember}
  (sameMembers : ∀ member, member ∈ leftMembers ↔ member ∈ rightMembers)

include sameMembers

theorem OnePod.congr (onePod : OnePod leftMembers) : OnePod rightMembers := by
  intro first inFirst second inSecond
  exact onePod first ((sameMembers first).mpr inFirst) second ((sameMembers second).mpr inSecond)

variable {left right : List VirtualPartitionId}
  (same : ∀ partition, partition ∈ left ↔ partition ∈ right)

include same

end Members

end Order

/-! ### Replanning -/

end BlobStream.Consumer.Sticky
