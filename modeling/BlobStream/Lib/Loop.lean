import Mathlib

/-!
# Loops that may panic

A loop over a list whose body may fail is a monadic fold in `Option`. An invariant that speaks of the
state and of the items that are left, and from which the body always succeeds, makes the whole loop
succeed.
-/

namespace Loop

variable {σ α : Type}
variable {items : List α} {state : σ}

/-- The loop rule: the invariant is kept by every turn, and no turn fails. -/
theorem foldlM_invariant {body : σ → α → Option σ} (Inv : List α → σ → Prop)
    (turn : ∀ item rest state, Inv (item :: rest) state →
      ∃ next, body state item = some next ∧ Inv rest next) (start : Inv items state) :
    ∃ result, items.foldlM body state = some result ∧ Inv [] result := by
  induction items generalizing state with
  | nil => exact ⟨state, rfl, start⟩
  | cons item rest ih =>
    obtain ⟨next, stepped, kept⟩ := turn item rest state start
    obtain ⟨result, computed, holds⟩ := ih kept
    refine ⟨result, ?_, holds⟩
    rw [List.foldlM_cons, stepped]
    exact computed

theorem foldl_invariant {body : σ → α → σ} (Inv : List α → σ → Prop)
    (turn : ∀ item rest state, Inv (item :: rest) state → Inv rest (body state item))
    (start : Inv items state) : Inv [] (items.foldl body state) := by
  induction items generalizing state with
  | nil => exact start
  | cons item rest ih => exact ih (turn item rest state start)

/-- A search whose test never fails finds a member that passes it, or nothing. -/
theorem findM?_total {test : α → Option Bool}
    (total : ∀ item ∈ items, ∃ answer, test item = some answer) :
    ∃ found, items.findM? test = some found
      ∧ ∀ item, found = some item → item ∈ items ∧ test item = some true := by
  induction items with
  | nil => exact ⟨none, rfl, fun _ absurdity => nomatch absurdity⟩
  | cons first rest ih =>
    obtain ⟨answer, answered⟩ := total first List.mem_cons_self
    cases answer with
    | true =>
      refine ⟨some first, ?_, ?_⟩
      · rw [List.findM?, answered]
        rfl
      · rintro item ⟨⟩
        exact ⟨List.mem_cons_self, answered⟩
    | false =>
      obtain ⟨found, computed, passes⟩ :=
        ih fun item member => total item (List.mem_cons_of_mem first member)
      refine ⟨found, ?_, ?_⟩
      · rw [List.findM?, answered]
        exact computed
      · intro item isFound
        obtain ⟨member, passed⟩ := passes item isFound
        exact ⟨List.mem_cons_of_mem first member, passed⟩

theorem mapM_total {β : Type*} {body : α → Option β} {value : α → β}
    (total : ∀ item ∈ items, body item = some (value item)) :
    items.mapM body = some (items.map value) := by
  induction items with
  | nil => rfl
  | cons first rest ih =>
    rw [List.mapM_cons, total first List.mem_cons_self,
      ih fun item member => total item (List.mem_cons_of_mem first member)]
    rfl

end Loop
