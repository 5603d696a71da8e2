import Mathlib.Data.List.Sort

/-!
What a stable sort does to elements that are equal in its order, and when its result does not
depend on the order of its input.
-/

namespace StableSort

variable {α : Type*} {le : α → α → Bool} {l l' : List α}

/-- Elements that are in order as they come stay so. -/
theorem filter_mergeSort (htrans : ∀ a b c, le a b → le b c → le a c)
    (htotal : ∀ a b, le a b || le b a) {p : α → Bool} (h : (l.filter p).Pairwise fun a b => le a b) :
    (l.mergeSort le).filter p = l.filter p := by
  have hsub : (l.filter p).Sublist (l.mergeSort le) :=
    List.sublist_mergeSort htrans htotal h List.filter_sublist
  have hfiltered : (l.filter p).Sublist ((l.mergeSort le).filter p) := by
    simpa using hsub.filter p
  have hlength : ((l.mergeSort le).filter p).length = (l.filter p).length :=
    ((List.mergeSort_perm l le).filter p).length_eq
  exact (hfiltered.eq_of_length hlength.symm).symm

/-- A sorted rearrangement of elements that the order tells apart is the sorted list. -/
theorem mergeSort_eq_iff (htrans : ∀ a b c, le a b → le b c → le a c)
    (htotal : ∀ a b, le a b || le b a)
    (hanti : ∀ a ∈ l, ∀ b ∈ l, le a b → le b a → a = b) :
    l.mergeSort le = l' ↔ l'.Perm l ∧ l'.Pairwise fun a b => le a b := by
  constructor
  · rintro rfl
    exact ⟨List.mergeSort_perm l le, List.pairwise_mergeSort htrans htotal l⟩
  · rintro ⟨hperm, hsorted⟩
    have hboth : (l.mergeSort le).Perm l' := (List.mergeSort_perm l le).trans hperm.symm
    refine hboth.eq_of_pairwise ?_ (List.pairwise_mergeSort htrans htotal l) hsorted
    intro a b ha hb
    exact hanti a (List.mem_mergeSort.mp ha) b (hperm.subset hb)

theorem isLE_total {κ : Type*} [Ord κ] [Std.OrientedOrd κ] (a b : κ) :
    (compare a b).isLE ∨ (compare b a).isLE := by
  by_cases hle : (compare a b).isLE
  · exact .inl hle
  · have hlt : compare b a = .lt := Std.OrientedCmp.lt_of_not_isLE hle
    exact .inr (by rw [hlt]; rfl)

/-- A sort by a key that differs from element to element is strict. -/
theorem pairwise_lt_mergeSort {κ : Type*} [Ord κ] [Std.TransOrd κ] [Std.LawfulEqOrd κ]
    {key : α → κ} (hnodup : (l.map key).Nodup) :
    (l.mergeSort fun a b => (compare (key a) (key b)).isLE).Pairwise
      fun a b => compare (key a) (key b) = .lt := by
  have htrans : ∀ a b c, (compare (key a) (key b)).isLE → (compare (key b) (key c)).isLE →
      (compare (key a) (key c)).isLE :=
    fun a b c => Std.TransOrd.isLE_trans
  have htotal : ∀ a b, (compare (key a) (key b)).isLE || (compare (key b) (key a)).isLE :=
    fun a b => (Bool.or_eq_true _ _).mpr (isLE_total (key a) (key b))
  have hsorted := List.pairwise_mergeSort htrans htotal l
  have hdiffer : (l.mergeSort fun a b => (compare (key a) (key b)).isLE).Pairwise
      fun a b => key a ≠ key b := by
    rw [← List.pairwise_map (R := (· ≠ ·))]
    exact ((List.mergeSort_perm l _).map key).nodup_iff.mpr hnodup
  refine (hsorted.and hdiffer).imp ?_
  rintro a b ⟨hle, hne⟩
  cases hcompare : compare (key a) (key b) with
  | lt => rfl
  | eq => exact absurd (Std.LawfulEqOrd.eq_of_compare hcompare) hne
  | gt => simp [hcompare] at hle

end StableSort
