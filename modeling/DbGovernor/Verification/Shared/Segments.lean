import Mathlib.Data.List.Basic

/-!
The front of a list, read up to an element of another kind or up to a terminator.
-/

namespace Segments

variable {α : Type*}

section Kind

variable {p : α → Bool} {run rest : List α}

theorem takeWhile_append_of_head (hrun : ∀ x ∈ run, p x = true)
    (hrest : ∀ x ∈ rest.head?, p x = false) : (run ++ rest).takeWhile p = run := by
  rw [List.takeWhile_append_of_pos hrun]
  cases rest with
  | nil => rw [List.takeWhile_nil, List.append_nil]
  | cons x rest => rw [List.takeWhile_cons_of_neg (by simpa using hrest x rfl), List.append_nil]

theorem dropWhile_append_of_head (hrun : ∀ x ∈ run, p x = true)
    (hrest : ∀ x ∈ rest.head?, p x = false) : (run ++ rest).dropWhile p = rest := by
  rw [List.dropWhile_append_of_pos hrun]
  cases rest with
  | nil => rfl
  | cons x rest => rw [List.dropWhile_cons_of_neg (by simpa using hrest x rfl)]

end Kind

section Terminator

variable [DecidableEq α] {a : α} {xs : List α}

theorem takeWhile_ne_append (h : a ∉ xs) (ys : List α) :
    (xs ++ ys).takeWhile (· ≠ a) = xs ++ ys.takeWhile (· ≠ a) := by
  apply List.takeWhile_append_of_pos
  intro x hx
  exact decide_eq_true (ne_of_mem_of_not_mem hx h)

/-- A list without the terminator is read whole. -/
theorem takeWhile_ne (h : a ∉ xs) : xs.takeWhile (· ≠ a) = xs := by
  have happend := takeWhile_ne_append h []
  rwa [List.append_nil, List.takeWhile_nil, List.append_nil] at happend

/-- The terminator ends the front. -/
theorem takeWhile_ne_cons (h : a ∉ xs) (ys : List α) : (xs ++ a :: ys).takeWhile (· ≠ a) = xs := by
  rw [takeWhile_ne_append h, List.takeWhile_cons_of_neg (by simp), List.append_nil]

end Terminator

end Segments
