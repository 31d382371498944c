import Mathlib

/-!
# Finite maps with retained and updated entries

Association lists without duplicate keys, with the bulk operations of a hash map: `retain` keeps the
entries whose key passes a test, `mapValues` replaces every value, `insertAll` gives many keys one
value, `orInsert` and `orInsertAll` fill in what is missing.
-/

namespace AList

variable {α : Type*} {β ε : α → Type*} [DecidableEq α]
variable {entries : List (Sigma β)}

omit [DecidableEq α] in
theorem nodupKeys_filter (keep : α → Bool) (distinct : entries.NodupKeys) :
    (entries.filter fun entry => keep entry.1).NodupKeys :=
  distinct.sublist List.filter_sublist

def retain (keep : α → Bool) (map : AList β) : AList β :=
  ⟨map.entries.filter fun entry => keep entry.1, nodupKeys_filter keep map.nodupKeys⟩

omit [DecidableEq α] in
theorem nodupKeys_mapValues (update : (key : α) → β key → ε key) (distinct : entries.NodupKeys) :
    (entries.map fun entry => (⟨entry.1, update entry.1 entry.2⟩ : Sigma ε)).NodupKeys := by
  unfold List.NodupKeys List.keys at distinct ⊢
  rw [List.map_map]
  exact distinct

def mapValues (update : (key : α) → β key → ε key) (map : AList β) : AList ε :=
  ⟨map.entries.map fun entry => ⟨entry.1, update entry.1 entry.2⟩,
    nodupKeys_mapValues update map.nodupKeys⟩

theorem lookup_retain (keep : α → Bool) (map : AList β) (key : α) :
    (map.retain keep).lookup key = if keep key then map.lookup key else none := by
  obtain ⟨entries, distinct⟩ := map
  show (entries.filter fun entry => keep entry.1).dlookup key
    = if keep key then entries.dlookup key else none
  clear distinct
  induction entries with
  | nil => simp
  | cons entry rest ih =>
    obtain ⟨first, value⟩ := entry
    by_cases same : key = first
    · subst same
      by_cases kept : keep key
      · simp [kept]
      · rw [List.filter_cons_of_neg (by simpa using kept), ih]
        simp [kept]
    · by_cases kept : keep first
      · rw [List.filter_cons_of_pos (by simpa using kept), List.dlookup_cons_ne _ _ same,
          List.dlookup_cons_ne _ _ same]
        exact ih
      · rw [List.filter_cons_of_neg (by simpa using kept), ih, List.dlookup_cons_ne rest _ same]

theorem lookup_mapValues (update : (key : α) → β key → ε key) (map : AList β) (key : α) :
    (map.mapValues update).lookup key = (map.lookup key).map (update key) := by
  obtain ⟨entries, distinct⟩ := map
  show (entries.map fun entry => (⟨entry.1, update entry.1 entry.2⟩ : Sigma ε)).dlookup key
    = (entries.dlookup key).map (update key)
  clear distinct
  induction entries with
  | nil => rfl
  | cons entry rest ih =>
    obtain ⟨first, value⟩ := entry
    by_cases same : key = first
    · subst same
      simp
    · rw [List.map_cons, List.dlookup_cons_ne _ _ same, ih, List.dlookup_cons_ne _ _ same]

@[simp] theorem lookup_singleton_self (key : α) (value : β key) :
    (singleton key value).lookup key = some value := by
  rw [← insert_empty, lookup_insert]

theorem lookup_singleton_of_ne {key other : α} (different : other ≠ key) (value : β key) :
    (singleton key value).lookup other = none := by
  rw [← insert_empty, lookup_insert_ne different, lookup_empty]

section Constant

variable {γ δ : Type*}

def filterMapEntries (update : γ → Option δ) (entries : List (Σ _ : α, γ)) : List (Σ _ : α, δ) :=
  entries.filterMap fun entry => (update entry.2).map fun value => ⟨entry.1, value⟩

omit [DecidableEq α] in
theorem keys_filterMapEntries_sublist (update : γ → Option δ) (entries : List (Σ _ : α, γ)) :
    (filterMapEntries update entries).keys.Sublist entries.keys := by
  induction entries with
  | nil => exact .slnil
  | cons entry rest ih =>
    unfold filterMapEntries at ih ⊢
    rw [List.filterMap_cons, List.keys_cons]
    cases update entry.2 with
    | none => exact ih.cons _
    | some value => exact ih.cons_cons _

def filterMapValues (update : γ → Option δ) (map : AList fun _ : α => γ) : AList fun _ : α => δ :=
  ⟨filterMapEntries update map.entries,
    (keys_filterMapEntries_sublist update map.entries).nodup map.nodupKeys⟩

theorem lookup_filterMapValues (update : γ → Option δ) (map : AList fun _ : α => γ) (key : α) :
    (map.filterMapValues update).lookup key = (map.lookup key).bind update := by
  obtain ⟨entries, distinct⟩ := map
  show (filterMapEntries update entries).dlookup key = (entries.dlookup key).bind update
  induction entries with
  | nil => rfl
  | cons entry rest ih =>
    obtain ⟨first, value⟩ := entry
    have later := ih (List.nodupKeys_cons.mp distinct).2
    have absent : first ∉ rest.keys := (List.nodupKeys_cons.mp distinct).1
    unfold filterMapEntries at later ⊢
    rw [List.filterMap_cons]
    by_cases same : key = first
    · subst same
      rw [List.dlookup_eq_none.mpr absent] at later
      cases kept : update value with
      | none => simpa [kept] using later
      | some found => simp [kept]
    · rw [List.dlookup_cons_ne _ _ same, ← later]
      cases kept : update value with
      | none => simp
      | some found => exact List.dlookup_cons_ne _ (⟨first, found⟩ : Σ _ : α, δ) same

def insertAll (keys : List α) (value : γ) (map : AList fun _ : α => γ) : AList fun _ : α => γ :=
  keys.foldl (fun map key => map.insert key value) map

def orInsert (key : α) (value : γ) (map : AList fun _ : α => γ) : AList fun _ : α => γ :=
  if key ∈ map then map else map.insert key value

def orInsertAll (keys : List α) (value : γ) (map : AList fun _ : α => γ) : AList fun _ : α => γ :=
  keys.foldl (fun map key => map.orInsert key value) map

theorem lookup_insertAll (keys : List α) (value : γ) (map : AList fun _ : α => γ) (key : α) :
    (map.insertAll keys value).lookup key = if key ∈ keys then some value else map.lookup key := by
  unfold insertAll
  induction keys generalizing map with
  | nil => simp
  | cons first rest ih =>
    rw [List.foldl_cons, ih]
    by_cases later : key ∈ rest
    · simp [later]
    · by_cases same : key = first
      · subst same
        simp [later]
      · simp [later, same, lookup_insert_ne same]

theorem lookup_orInsert (key other : α) (value : γ) (map : AList fun _ : α => γ) :
    (map.orInsert key value).lookup other =
      if other = key then some ((map.lookup key).getD value) else map.lookup other := by
  unfold orInsert
  split
  next present =>
    split
    next same =>
      subst same
      obtain ⟨found, known⟩ := Option.isSome_iff_exists.mp (lookup_isSome.mpr present)
      simp [known]
    next => rfl
  next absent =>
    split
    next same =>
      subst same
      simp [lookup_eq_none.mpr absent]
    next different => exact lookup_insert_ne different

theorem lookup_orInsertAll (keys : List α) (value : γ) (map : AList fun _ : α => γ) (key : α) :
    (map.orInsertAll keys value).lookup key =
      if key ∈ keys then some ((map.lookup key).getD value) else map.lookup key := by
  unfold orInsertAll
  induction keys generalizing map with
  | nil => simp
  | cons first rest ih =>
    rw [List.foldl_cons, ih, lookup_orInsert]
    by_cases same : key = first
    · subst same
      by_cases later : key ∈ rest <;> simp [later]
    · by_cases later : key ∈ rest <;> simp [later, same]

end Constant

end AList
