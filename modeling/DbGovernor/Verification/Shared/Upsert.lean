import Mathlib.Data.List.Basic

/-!
A list in which the first element of a kind is replaced, or a new one appended when there is none.
-/

namespace Upsert

variable {α : Type*} {p : α → Bool} {x y : α} {l : List α}

/-- Put `x` in the place of the first element of the kind `p`, or behind the others. -/
def upsert (p : α → Bool) (x : α) : List α → List α
  | [] => [x]
  | y :: l => if p y then x :: l else y :: upsert p x l

theorem upsert_of_findIdx? {i : ℕ} (h : l.findIdx? p = some i) : upsert p x l = l.set i x := by
  induction l generalizing i with
  | nil => simp at h
  | cons y l ih =>
      rw [upsert]
      by_cases hy : p y = true
      · rw [List.findIdx?_cons, if_pos hy] at h
        cases h
        rw [if_pos hy, List.set_cons_zero]
      · rw [List.findIdx?_cons, if_neg hy] at h
        obtain ⟨j, hj, rfl⟩ := Option.map_eq_some_iff.mp h
        rw [if_neg hy, ih hj, List.set_cons_succ]

theorem upsert_of_find?_none (h : l.find? p = none) : upsert p x l = l ++ [x] := by
  induction l with
  | nil => rfl
  | cons y l ih =>
      rw [List.find?_eq_none] at h
      obtain ⟨hy, hrest⟩ := List.forall_mem_cons.mp h
      rw [upsert, if_neg hy, ih (List.find?_eq_none.mpr hrest), List.cons_append]

/-- The element that is put is the first of its kind. -/
theorem find?_upsert (hx : p x = true) (l : List α) : (upsert p x l).find? p = some x := by
  induction l with
  | nil => simp [upsert, hx]
  | cons y l ih =>
      rw [upsert]
      by_cases hy : p y = true
      · simp [hy, hx]
      · simp [hy, ih]

/-- The second of two elements that are put stays. -/
theorem upsert_upsert (hx : p x = true) (y : α) (l : List α) :
    upsert p y (upsert p x l) = upsert p y l := by
  induction l with
  | nil => simp [upsert, hx]
  | cons z l ih =>
      by_cases hz : p z = true
      · simp [upsert, hz, hx]
      · simp [upsert, hz, ih]

/-- An element that was appended is taken out again. -/
theorem eraseP_upsert (hx : p x = true) (h : l.find? p = none) : (upsert p x l).eraseP p = l := by
  rw [List.find?_eq_none] at h
  rw [upsert_of_find?_none (List.find?_eq_none.mpr h), List.eraseP_append_right _ h]
  simp [hx]

/-- All other elements stay where they are. -/
theorem upsert_split (p : α → Bool) (x : α) (l : List α) :
    ∃ before after, l = before ++ (l.find? p).toList ++ after ∧
      upsert p x l = before ++ x :: after := by
  induction l with
  | nil => exact ⟨[], [], rfl, rfl⟩
  | cons y l ih =>
      by_cases hy : p y = true
      · exact ⟨[], l, by simp [hy], by simp [upsert, hy]⟩
      · obtain ⟨before, after, hl, hput⟩ := ih
        refine ⟨y :: before, after, ?_, ?_⟩
        · rw [List.find?_cons_of_neg hy, List.cons_append, List.cons_append, ← hl]
        · rw [upsert, if_neg hy, hput, List.cons_append]

end Upsert
