import Mathlib.Algebra.BigOperators.Group.List.Basic
import Mathlib.Algebra.Order.BigOperators.Group.List

/-!
Windows over several sequences of samples, each a list with the newest sample in front and zero
beyond its end. What the sequences have in a window is what they have at its places, summed in
either order.
-/

namespace Windows

variable {α M : Type*} [AddCommMonoid M]

/-- What the sources have together at a place. -/
def total (samples : α → List M) (sources : List α) (i : ℕ) : M :=
  (sources.map fun u => (samples u).getD i 0).sum

theorem sum_take_eq (l : List M) (n : ℕ) :
    (l.take n).sum = ((List.range n).map fun i => l.getD i 0).sum := by
  induction n generalizing l with
  | zero => rfl
  | succ n ih =>
      rw [List.range_succ_eq_map, List.map_cons, List.sum_cons, List.map_map]
      cases l with
      | nil => simp [Function.comp_def]
      | cons x l =>
          rw [List.take_succ_cons, List.sum_cons, ih]
          rfl

/-- The windows of all sources sum up to the totals at their places. -/
theorem sum_windows (samples : α → List M) (sources : List α) (n : ℕ) :
    (sources.map fun u => ((samples u).take n).sum).sum =
      ((List.range n).map (total samples sources)).sum := by
  induction sources with
  | nil =>
      have hzero : total samples [] = fun _ => 0 := rfl
      simp [hzero]
  | cons u sources ih =>
      have hcons : total samples (u :: sources) =
          fun i => (samples u).getD i 0 + total samples sources i := rfl
      rw [List.map_cons, List.sum_cons, ih, sum_take_eq, ← List.sum_map_add, hcons]

section Bounds

variable [PartialOrder M] {samples : α → List M} {sources : List α} {n : ℕ} {bound : M}

theorem sum_windows_le [IsOrderedAddMonoid M] (h : ∀ i < n, total samples sources i ≤ bound) :
    (sources.map fun u => ((samples u).take n).sum).sum ≤ n • bound := by
  have hle := List.sum_le_card_nsmul ((List.range n).map (total samples sources)) bound
  rw [List.length_map, List.length_range] at hle
  rw [sum_windows]
  refine hle fun x hx => ?_
  obtain ⟨i, hi, rfl⟩ := List.mem_map.mp hx
  exact h i (List.mem_range.mp hi)

theorem lt_sum_windows [IsOrderedCancelAddMonoid M] (hn : n ≠ 0)
    (h : ∀ i < n, bound < total samples sources i) :
    n • bound < (sources.map fun u => ((samples u).take n).sum).sum := by
  have hne : List.range n ≠ [] := fun hnil => hn (List.range_eq_nil.mp hnil)
  have hlt := List.sum_lt_sum_of_ne_nil hne (fun _ => bound) (total samples sources)
    fun i hi => h i (List.mem_range.mp hi)
  rw [List.map_const', List.sum_replicate, List.length_range] at hlt
  rwa [sum_windows]

end Bounds

end Windows
