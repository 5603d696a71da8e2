import Mathlib.Order.Bounds.Image
import Mathlib.Data.Option.Basic

/-!
# The first element of a set

The specification of a search: it finds something exactly when there is something to find, and
what it finds comes first.
-/

namespace DbGovernor

variable {α β : Type*}

/-- The result of a search for an element of `s`. -/
structure FirstOf [Preorder α] (s : Set α) (result : Option α) : Prop where
  found : result.isSome ↔ s.Nonempty
  least : ∀ a ∈ result, IsLeast s a

theorem firstOf_none_iff [Preorder α] {s : Set α} : FirstOf s none ↔ s = ∅ := by
  constructor
  · intro h
    rw [← Set.not_nonempty_iff_eq_empty, ← h.found]
    simp
  · rintro rfl
    exact ⟨by simp, by simp⟩

theorem firstOf_some_iff [Preorder α] {s : Set α} {a : α} : FirstOf s (some a) ↔ IsLeast s a := by
  constructor
  · intro h
    exact h.least a rfl
  · intro h
    refine ⟨iff_of_true rfl h.nonempty, ?_⟩
    rintro b hb
    rwa [← Option.mem_some_iff.mp hb]

theorem firstOf_empty [Preorder α] : FirstOf (∅ : Set α) none := firstOf_none_iff.mpr rfl

/-- Two searches for the same set find the same. -/
theorem FirstOf.unique [PartialOrder α] {s : Set α} {result result' : Option α}
    (h : FirstOf s result) (h' : FirstOf s result') : result = result' := by
  cases result with
  | none =>
      cases result' with
      | none => rfl
      | some a =>
          rw [firstOf_none_iff.mp h] at h'
          exact absurd (h'.least a rfl).1 (Set.notMem_empty a)
  | some a =>
      cases result' with
      | none =>
          rw [firstOf_none_iff.mp h'] at h
          exact absurd (h.least a rfl).1 (Set.notMem_empty a)
      | some b => rw [(h.least a rfl).unique (h'.least b rfl)]

theorem FirstOf.map [Preorder α] [Preorder β] {s : Set α} {result : Option α} {f : α → β}
    (h : FirstOf s result) (hf : Monotone f) : FirstOf (Set.image f s) (result.map f) := by
  cases result with
  | none =>
      rw [firstOf_none_iff.mp h, Set.image_empty]
      exact firstOf_empty
  | some a => exact firstOf_some_iff.mpr (hf.map_isLeast (h.least a rfl))

/-- The search goes on where what comes first has nothing. -/
theorem FirstOf.or [Preorder α] {s t : Set α} {result result' : Option α} (h : FirstOf s result)
    (h' : FirstOf t result') (hle : ∀ a ∈ s, ∀ b ∈ t, a ≤ b) :
    FirstOf (s ∪ t) (result.or result') := by
  cases result with
  | none =>
      rw [firstOf_none_iff.mp h, Set.empty_union]
      exact h'
  | some a =>
      obtain ⟨hmem, hlower⟩ := h.least a rfl
      refine firstOf_some_iff.mpr ⟨.inl hmem, ?_⟩
      rintro b (hb | hb)
      · exact hlower hb
      · exact hle a hmem b hb

/-- A search that also accepts elements outside of `s` is right for `s` exactly when none of those
comes before all of `s`. -/
theorem FirstOf.of_subset_iff [PartialOrder α] {s t : Set α} {result : Option α}
    (h : FirstOf t result) (hsub : s ⊆ t) :
    FirstOf s result ↔ ∀ b ∈ t \ s, ∃ a ∈ s, a < b := by
  cases result with
  | none =>
      have hempty := firstOf_none_iff.mp h
      refine iff_of_true (firstOf_none_iff.mpr ?_) ?_
      · exact Set.subset_empty_iff.mp (hempty ▸ hsub)
      · intro b hb
        exact absurd hb.1 (by simp [hempty])
  | some a =>
      obtain ⟨hmem, hlower⟩ := h.least a rfl
      rw [firstOf_some_iff]
      constructor
      · rintro ⟨ha, -⟩ b ⟨hb, hnot⟩
        exact ⟨a, ha, lt_of_le_of_ne (hlower hb) fun heq => hnot (heq ▸ ha)⟩
      · intro hbefore
        refine ⟨?_, fun b hb => hlower (hsub hb)⟩
        by_contra hnot
        obtain ⟨c, hc, hlt⟩ := hbefore a ⟨hmem, hnot⟩
        exact (hlower (hsub hc)).not_gt hlt

end DbGovernor
