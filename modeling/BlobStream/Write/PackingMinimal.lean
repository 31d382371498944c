import BlobStream.Write.Packing

/-!
# Packing uses as few objects as possible

A split cuts the sections into contiguous groups, each a single section or within the limit. The sweep
ends each object as late as the limit allows (`Maximal`), so the count of a suffix is at most the
length of any split of it; the loop in turn never makes more groups than the first count.
-/

namespace BlobStream.Write.Packing

open Word

variable {start : Nat}

theorem objectCount_past {sizes : List Nat} {maxSegmentBytes : Nat} (past : sizes.length ≤ start) :
    objectCount sizes maxSegmentBytes start = 0 :=
  suffixCounts_end (by rwa [nextObjectStarts_length])

/-! ### Splits -/

variable {α : Type*}

def totalBytes (part : List (Nat × α)) : Nat := (part.map Prod.fst).sum

/-- A section of its own, or sections that fit one object together. -/
def FitsObject (maxSegmentBytes : Nat) (part : List (Nat × α)) : Prop :=
  part.length = 1 ∨ totalBytes part ≤ maxSegmentBytes

/-- Contiguous groups of all sections, each of which fits an object. -/
structure IsSplit (partitions : List (Nat × α)) (maxSegmentBytes : Nat)
    (parts : List (List (Nat × α))) : Prop where
  all : parts.flatten = partitions
  fits : ∀ part ∈ parts, FitsObject maxSegmentBytes part

/-- A group of a split ends no later than the object that starts with it. -/
theorem split_ends_before {partitions part rest : List (Nat × α)} {maxSegmentBytes next : Nat}
    (here : partitions.drop start = part ++ rest)
    (spec : NextStart (partitions.map Prod.fst) maxSegmentBytes start next)
    (fits : FitsObject maxSegmentBytes part) : start + part.length ≤ next := by
  have later := spec.later
  rcases fits with single | small
  · omega
  by_contra beyond
  have length := congrArg List.length here
  rw [List.length_drop, List.length_append] at length
  have inside : next < (partitions.map Prod.fst).length := by
    rw [List.length_map]
    omega
  have above := spec.maximal inside
  have mono : prefixBytes (partitions.map Prod.fst) (next + 1) ≤
      prefixBytes (partitions.map Prod.fst) (start + part.length) := prefixBytes_mono (by omega)
  have total : prefixBytes (partitions.map Prod.fst) (start + part.length) =
      prefixBytes (partitions.map Prod.fst) start + totalBytes part := by
    unfold prefixBytes totalBytes
    rw [← List.map_take, ← List.map_take, List.take_add, here, List.take_left, List.map_append,
      List.sum_append]
  omega

variable {partitions : List (Nat × α)} {maxSegmentBytes : Nat} {parts : List (List (Nat × α))}

/-- No split of a suffix has fewer groups than its count. -/
theorem objectCount_le_length (bounded : ExactSums (partitions.map Prod.fst) maxSegmentBytes)
    (fits : ∀ part ∈ parts, FitsObject maxSegmentBytes part) :
    ∀ {start : Nat}, partitions.drop start = parts.flatten →
      objectCount (partitions.map Prod.fst) maxSegmentBytes start ≤ parts.length := by
  induction parts with
  | nil =>
    intro start here
    have past : (partitions.map Prod.fst).length ≤ start := by
      rw [List.length_map]
      exact List.drop_eq_nil_iff.mp here
    rw [objectCount_past past]
    exact Nat.zero_le _
  | cons part rest ih =>
    intro start here
    rw [List.flatten_cons] at here
    have tail : partitions.drop (start + part.length) = rest.flatten := by
      rw [← List.drop_drop, here, List.drop_left]
    have fewer := ih (fun other member => fits other (List.mem_cons_of_mem part member)) tail
    rcases Nat.lt_or_ge start (partitions.map Prod.fst).length with inside | past
    · obtain ⟨next, -, spec, count⟩ := objectCount_next bounded inside
      have ends := split_ends_before here spec (fits part List.mem_cons_self)
      have falling := objectCount_antitone bounded ends
      rw [List.length_cons]
      omega
    · rw [objectCount_past past]
      exact Nat.zero_le _

/-! ### The groups of the loop are a split -/

/-- What the loop keeps when nothing saturates: the closed groups and the current one are a split of
the sections before `index`, and groups and remaining objects add up to `objects`. -/
structure FillSplit (partitions : List (Nat × α)) (maxSegmentBytes objects index : Nat)
    (state : FillState α) (parts : List (List (Nat × α))) (current : List (Nat × α)) : Prop where
  covered : parts.flatten ++ current = partitions.take index
  closed : state.groups.map TargetFillGroup.items = parts.map (·.map Prod.snd)
  items : state.current.items = current.map Prod.snd
  bytes : state.currentBytes = totalBytes current
  fits : ∀ part ∈ parts, FitsObject maxSegmentBytes part
  currentFits : FitsObject maxSegmentBytes current
  objects : state.groups.length + state.remainingObjectCount = objects

theorem FillSplit.turn {maxSegmentBytes objects index size : Nat} {item : α}
    {state next : FillState α} {current : List (Nat × α)} {counts : List Nat}
    (small : totalBytes partitions ≤ u64Max) (positive : 0 < state.remainingObjectCount)
    (split : FillSplit partitions maxSegmentBytes objects index state parts current)
    (here : partitions[index]? = some (size, item))
    (turned : state.turn counts maxSegmentBytes index size item = some next) :
    ∃ parts current,
      FillSplit partitions maxSegmentBytes objects (index + 1) next parts current := by
  have covered : parts.flatten ++ current ++ [(size, item)] = partitions.take (index + 1) := by
    rw [split.covered, List.take_add_one, here, Option.toList_some]
  rcases FillState.turn_cases turned with ⟨rfl, -⟩ | ⟨rfl, within⟩
  · refine ⟨parts ++ [current], [(size, item)], ?_, ?_, rfl, ?_, ?_, Or.inl rfl, ?_⟩
    · rw [List.flatten_append, List.flatten_singleton]
      exact covered
    · simp [FillState.close, split.closed, split.items]
    · simp [FillState.close, totalBytes]
    · intro part member
      rcases List.mem_append.mp member with earlier | last
      · exact split.fits part earlier
      · rw [List.mem_singleton.mp last]
        exact split.currentFits
    · have := split.objects
      simp only [FillState.close, List.length_append, List.length_singleton]
      omega
  · have grown : totalBytes (current ++ [(size, item)]) = totalBytes current + size := by
      simp [totalBytes]
    have part : totalBytes (current ++ [(size, item)]) ≤ totalBytes partitions := by
      have sublist : (current ++ [(size, item)]).Sublist partitions := by
        refine List.Sublist.trans ?_ (List.take_sublist (index + 1) partitions)
        rw [← covered, List.append_assoc]
        exact List.sublist_append_right _ _
      exact (sublist.map Prod.fst).sum_le_sum (fun _ _ => Nat.zero_le _)
    have exact_ : saturatingAdd u64Max state.currentBytes size =
        totalBytes (current ++ [(size, item)]) := by
      rw [split.bytes, grown]
      exact saturatingAdd_of_le (by omega)
    refine ⟨parts, current ++ [(size, item)], ?_, split.closed, ?_, exact_, split.fits,
      Or.inr (exact_ ▸ within), split.objects⟩
    · rw [← List.append_assoc]
      exact covered
    · have items := split.items
      simp only [FillState.extend, TargetFillGroup.items, List.map_append] at items ⊢
      rw [← items]
      rfl

/-- What packing promises: its groups are those of a split, no more than `objects` of them. -/
def Packs (partitions : List (Nat × α)) (maxSegmentBytes objects : Nat)
    (groups : List (TargetFillGroup α)) : Prop :=
  ∃ parts, IsSplit partitions maxSegmentBytes parts
    ∧ groups.map TargetFillGroup.items = parts.map (·.map Prod.snd) ∧ groups.length ≤ objects

theorem fill_packs {maxSegmentBytes objects : Nat} (small : totalBytes partitions ≤ u64Max)
    {rest : List (Nat × α)} :
    ∀ {index start : Nat} {state : FillState α} {parts : List (List (Nat × α))}
      {current : List (Nat × α)} {groups : List (TargetFillGroup α)},
      partitions.drop index = rest →
      FillSound (partitions.map Prod.fst) maxSegmentBytes start index state →
      FillSplit partitions maxSegmentBytes objects index state parts current →
      FillState.fill (minimumSuffixObjectCounts (partitions.map Prod.fst) maxSegmentBytes)
        maxSegmentBytes index rest state = some groups →
      Packs partitions maxSegmentBytes objects groups := by
  induction rest with
  | nil =>
    intro index start state parts current groups remaining sound split filled
    cases filled
    have everything : partitions.take index = partitions :=
      List.take_of_length_le (List.drop_eq_nil_iff.mp remaining)
    refine ⟨parts ++ [current], ⟨?_, ?_⟩, ?_, ?_⟩
    · rw [List.flatten_append, List.flatten_singleton, split.covered, everything]
    · intro part member
      rcases List.mem_append.mp member with earlier | last
      · exact split.fits part earlier
      · rw [List.mem_singleton.mp last]
        exact split.currentFits
    · simp [split.closed, split.items]
    · have := split.objects
      have := sound.remaining_pos
      rw [List.length_append, List.length_singleton]
      omega
  | cons entry rest ih =>
    intro index start state parts current groups remaining sound split filled
    obtain ⟨size, item⟩ := entry
    have here : partitions[index]? = some (size, item) := by
      rw [← List.head?_drop, remaining, List.head?_cons]
    have sizeHere : (partitions.map Prod.fst)[index]? = some size := by
      rw [List.getElem?_map, here, Option.map_some]
    obtain ⟨next, turned, filled⟩ := Option.bind_eq_some_iff.mp filled
    obtain ⟨first, kept⟩ := sound.turn sizeHere turned
    obtain ⟨parts, current, split⟩ := split.turn small sound.remaining_pos here turned
    exact ih (by rw [← List.tail_drop, remaining, List.tail_cons]) kept split filled

/-- Packing groups the sections, and needs no more objects than the first count. -/
theorem targetFillObjectGroups_packs (small : totalBytes partitions ≤ u64Max)
    {groups : List (TargetFillGroup α)}
    (filled : targetFillObjectGroups partitions maxSegmentBytes = some groups) :
    Packs partitions maxSegmentBytes
      (objectCount (partitions.map Prod.fst) maxSegmentBytes 0) groups := by
  cases partitions with
  | nil =>
    cases filled
    exact ⟨[], ⟨rfl, by simp⟩, rfl, Nat.zero_le _⟩
  | cons entry rest =>
    obtain ⟨size, item⟩ := entry
    have split : ∀ remainingBytes, FillSplit ((size, item) :: rest) maxSegmentBytes
        (objectCount (((size, item) :: rest).map Prod.fst) maxSegmentBytes 0) 1
        { current := { first := item }
          currentBytes := size
          remainingBytes := remainingBytes
          remainingObjectCount := objectCount (((size, item) :: rest).map Prod.fst) maxSegmentBytes 0 }
        [] [(size, item)] := fun _ =>
      ⟨by simp, rfl, rfl, by simp [totalBytes], by simp, Or.inl rfl, by simp⟩
    exact fill_packs small rfl (fillSound_first size item rest _ _) (split _) filled

/-- The groups have the least number of objects: packing succeeds, its groups are those of a split, and
their number is the first count, which no split undercuts. -/
theorem targetFillObjectGroups_minimal (partitions : List (Nat × α)) (maxSegmentBytes : Nat)
    (small : totalBytes partitions < 2 ^ 64) :
    ∃ groups parts, targetFillObjectGroups partitions maxSegmentBytes = some groups
      ∧ groups.flatMap TargetFillGroup.items = partitions.map Prod.snd
      ∧ IsSplit partitions maxSegmentBytes parts
      ∧ groups.map TargetFillGroup.items = parts.map (·.map Prod.snd)
      ∧ (minimumSuffixObjectCounts (partitions.map Prod.fst) maxSegmentBytes)[0]?
        = some groups.length
      ∧ ∀ others, IsSplit partitions maxSegmentBytes others → groups.length ≤ others.length := by
  obtain ⟨groups, filled⟩ := Option.isSome_iff_exists.mp
    (targetFillObjectGroups_isSome partitions maxSegmentBytes)
  have sum : totalBytes partitions ≤ u64Max := Nat.le_sub_one_of_lt small
  obtain ⟨parts, split, made, most⟩ := targetFillObjectGroups_packs sum filled
  have least : ∀ others, IsSplit partitions maxSegmentBytes others →
      objectCount (partitions.map Prod.fst) maxSegmentBytes 0 ≤ others.length := fun others other =>
    objectCount_le_length (Or.inr sum) other.fits other.all.symm
  have same : groups.length = parts.length := by
    rw [← List.length_map, made, List.length_map]
  have count : objectCount (partitions.map Prod.fst) maxSegmentBytes 0 = groups.length :=
    Nat.le_antisymm (same ▸ least parts split) most
  refine ⟨groups, parts, filled, targetFillObjectGroups_items filled, split, made, ?_, ?_⟩
  · have present : 0 < (minimumSuffixObjectCounts (partitions.map Prod.fst) maxSegmentBytes).length := by
      rw [minimumSuffixObjectCounts, suffixCounts_length]
      exact Nat.succ_pos _
    rw [← count, objectCount, List.getD_eq_getElem?_getD, List.getElem?_eq_getElem present,
      Option.getD_some]
  · intro others other
    exact count ▸ least others other

/-- Sections of 3, 4 and 5 bytes need two objects of 8 bytes. -/
theorem targetFillObjectGroups_two_objects :
    totalBytes [(3, "a"), (4, "b"), (5, "c")] < 2 ^ 64
      ∧ ∃ groups, targetFillObjectGroups [(3, "a"), (4, "b"), (5, "c")] 8 = some groups
        ∧ groups.length = 2
        ∧ ∀ others, IsSplit [(3, "a"), (4, "b"), (5, "c")] 8 others → 2 ≤ others.length := by
  have small : totalBytes [(3, "a"), (4, "b"), (5, "c")] < 2 ^ 64 := by decide
  obtain ⟨groups, parts, filled, -, -, -, count, least⟩ :=
    targetFillObjectGroups_minimal [(3, "a"), (4, "b"), (5, "c")] 8 small
  have two : some 2 = some groups.length := count ▸ (by decide)
  have length : groups.length = 2 := (Option.some.inj two).symm
  exact ⟨small, groups, filled, length, fun others other => length ▸ least others other⟩

end BlobStream.Write.Packing
