import Mathlib.Data.List.Nodup
import Mathlib.Data.List.Range

/-!
A table kept in the first slots of an array. The slots below a counter are its entries;
an entry is found by a linear search for its key, added in the slot at the counter, and
removed by moving the later slots down.
-/

namespace SlotTable

variable {ε κ : Type*}

/-- The entries in the first `n` slots. -/
def entries (n : ℕ) (slots : ℕ → ε) : List ε := (List.range n).map slots

@[simp] theorem length_entries (n : ℕ) (slots : ℕ → ε) : (entries n slots).length = n := by
  simp [entries]

theorem entries_congr {n : ℕ} {slots slots' : ℕ → ε} (h : ∀ i < n, slots i = slots' i) :
    entries n slots = entries n slots' :=
  List.map_congr_left fun i hi => h i (List.mem_range.mp hi)

/-- The search loop over the slots finds the first entry that satisfies `p`. -/
theorem find?_range_eq (n : ℕ) (slots : ℕ → ε) (p : ε → Bool) :
    ((List.range n).find? fun i => p (slots i)) = (entries n slots).findIdx? p := by
  cases h : (entries n slots).findIdx? p with
  | none =>
      rw [List.findIdx?_eq_none_iff] at h
      rw [List.find?_range_eq_none]
      intro i hi
      simp [h (slots i) (List.mem_map.mpr ⟨i, List.mem_range.mpr hi, rfl⟩)]
  | some i =>
      obtain ⟨hi, hp, hbefore⟩ := List.findIdx?_eq_some_iff_getElem.mp h
      rw [List.find?_range_eq_some]
      simp only [entries, List.getElem_map, List.getElem_range] at hp hbefore
      rw [length_entries] at hi
      refine ⟨hp, List.mem_range.mpr hi, ?_⟩
      intro j hj
      simpa using hbefore j hj

/-- Writing the slot at the counter and raising the counter adds an entry at the end. -/
theorem entries_succ_update (n : ℕ) (slots : ℕ → ε) (e : ε) :
    entries (n + 1) (Function.update slots n e) = entries n slots ++ [e] := by
  have hkeep : entries n (Function.update slots n e) = entries n slots := by
    refine entries_congr ?_
    intro i hi
    exact Function.update_of_ne hi.ne e slots
  simp only [entries] at hkeep ⊢
  rw [List.range_succ, List.map_append, hkeep]
  simp

/-- Moving the slots above `i` down by one removes the entry at `i`. -/
theorem entries_shift {n i : ℕ} (hi : i < n) (slots slots' : ℕ → ε)
    (hlow : ∀ j < i, slots' j = slots j) (hhigh : ∀ j, i ≤ j → j < n - 1 → slots' j = slots (j + 1)) :
    entries (n - 1) slots' = (entries n slots).eraseIdx i := by
  refine List.ext_getElem ?_ ?_
  · simp [List.length_eraseIdx, hi]
  · intro j hj hj'
    simp only [entries, List.getElem_map, List.getElem_range, List.getElem_eraseIdx]
    rw [length_entries] at hj
    split
    · exact hlow j ‹_›
    · exact hhigh j (by omega) hj

/-! ### Keys -/

variable [DecidableEq κ] (key : ε → κ)

/-- The first entry with the key `k`. -/
def get (k : κ) (l : List ε) : Option ε := l.find? fun e => key e = k

@[simp] theorem get_nil (k : κ) : get key k [] = none := rfl

variable {key}

/-- The slot that the search loop finds holds the entry with that key. -/
theorem get_entries (n : ℕ) (slots : ℕ → ε) (k : κ) :
    get key k (entries n slots) =
      ((List.range n).find? fun i => key (slots i) = k).map slots := by
  rw [get, entries, List.find?_map]
  rfl

theorem get_eq_none_iff {k : κ} {l : List ε} : get key k l = none ↔ k ∉ l.map key := by
  simp [get, List.find?_eq_none]

/-- A new entry is found under its key, and the others as before. -/
theorem get_append_singleton {k : κ} {l : List ε} {e : ε} (h : get key (key e) l = none) :
    get key k (l ++ [e]) = if k = key e then some e else get key k l := by
  by_cases hk : k = key e
  · subst hk
    rw [get] at h ⊢
    rw [List.find?_append, h]
    simp
  · simp [get, List.find?_append, hk, Ne.symm hk]

theorem nodup_append_singleton {l : List ε} {e : ε} (hnd : (l.map key).Nodup)
    (h : get key (key e) l = none) : ((l ++ [e]).map key).Nodup := by
  rw [List.map_append, List.map_singleton, ← List.concat_eq_append]
  exact hnd.concat (get_eq_none_iff.mp h)

/-- Removing the entry with a key makes that key unknown and leaves the others alone. -/
theorem get_eraseP {k j : κ} {l : List ε} (hnd : (l.map key).Nodup) :
    get key j (l.eraseP fun e => key e = k) = if j = k then none else get key j l := by
  induction l with
  | nil => simp
  | cons e l ih =>
      simp only [List.map_cons, List.nodup_cons] at hnd
      by_cases he : key e = k
      · rw [List.eraseP_cons_of_pos (by simpa using he)]
        by_cases hj : j = k
        · rw [if_pos hj, get_eq_none_iff, hj, ← he]
          exact hnd.1
        · rw [if_neg hj]
          simp [get, he, Ne.symm hj]
      · rw [List.eraseP_cons_of_neg (by simpa using he)]
        by_cases hej : key e = j
        · simp [get, hej, show j ≠ k from hej ▸ he]
        · simpa [get, hej] using ih hnd.2

end SlotTable
