import Mathlib.Data.List.Basic

/-!
A ring buffer of fixed size in which a push moves the start back by one slot. Read from
the start it is a list with the newest element in front, and a push is a push onto that
list which drops the oldest element.
-/

namespace RingBuffer

variable {α : Type*} (d : α)

/-- The slot at distance `i` from the start. -/
def slot (n first i : ℕ) : ℕ := if first + i ≥ n then first + i - n else first + i

/-- The start after a push. -/
def prev (n first : ℕ) : ℕ := if first = 0 then n - 1 else first - 1

/-- The contents, newest first. -/
def window (n first : ℕ) (ar : List α) : List α :=
  (List.range n).map fun i => ar.getD (slot n first i) d

variable {n first : ℕ} {ar : List α}

@[simp] theorem length_window : (window d n first ar).length = n := by
  simp [window]

theorem prev_lt (h : first < n) : prev n first < n := by
  rw [prev]
  split <;> omega

theorem slot_zero (h : first < n) : slot n first 0 = first := by
  rw [slot]
  split <;> omega

/-- After a push every element is one further from the start. -/
theorem slot_prev_succ (h : first < n) {i : ℕ} (hi : i + 1 < n) :
    slot n (prev n first) (i + 1) = slot n first i := by
  unfold slot prev
  split_ifs <;> omega

theorem slot_prev_succ_ne {i : ℕ} (hi : i + 1 < n) :
    slot n (prev n first) (i + 1) ≠ prev n first := by
  rw [slot, prev]
  split_ifs <;> omega

theorem slot_succ_ne {i : ℕ} (hi : i + 1 < n) : slot n first (i + 1) ≠ first := by
  rw [slot]
  split_ifs <;> omega

theorem getElem_window {i : ℕ} (hi : i < (window d n first ar).length) :
    (window d n first ar)[i] = ar.getD (slot n first i) d := by
  simp [window]

theorem getD_set_self {i : ℕ} (hi : i < ar.length) (x : α) : (ar.set i x).getD i d = x := by
  simp [List.getD_eq_getElem?_getD, hi]

theorem getD_set_ne {i j : ℕ} (hne : j ≠ i) (x : α) : (ar.set i x).getD j d = ar.getD j d := by
  simp [List.getD_eq_getElem?_getD, List.getElem?_set_ne hne.symm]

/-- A push puts the new element in front and drops the oldest. -/
theorem window_push (hlen : ar.length = n) (h : first < n) (x : α) :
    window d n (prev n first) (ar.set (prev n first) x) = (x :: window d n first ar).take n := by
  refine List.ext_getElem (by simp) ?_
  intro i hi hi'
  rw [length_window] at hi
  rw [getElem_window, List.getElem_take]
  cases i with
  | zero =>
      have hp := prev_lt h
      rw [slot_zero hp, getD_set_self d (by omega)]
      simp
  | succ i =>
      rw [getD_set_ne d (slot_prev_succ_ne hi), slot_prev_succ h hi, List.getElem_cons_succ,
        getElem_window]

/-- Writing the slot at the start replaces the newest element. -/
theorem window_set_first (hlen : ar.length = n) (h : first < n) (x : α) :
    window d n first (ar.set first x) = (window d n first ar).set 0 x := by
  refine List.ext_getElem (by simp) ?_
  intro i hi hi'
  rw [length_window] at hi
  rw [getElem_window, List.getElem_set]
  cases i with
  | zero =>
      rw [slot_zero h, getD_set_self d (by omega)]
      simp
  | succ i =>
      rw [getD_set_ne d (slot_succ_ne hi), if_neg (by omega), getElem_window]

theorem window_replicate (n first : ℕ) : window d n first (List.replicate n d) =
    List.replicate n d := by
  refine List.eq_replicate_iff.mpr ⟨length_window d, ?_⟩
  intro x hx
  obtain ⟨i, -, rfl⟩ := List.mem_map.mp hx
  rw [List.getD_eq_getElem?_getD, List.getElem?_replicate]
  split <;> rfl

end RingBuffer
