import Mathlib.Algebra.BigOperators.Group.List.Basic

/-!
A stream that is cut into pieces, and the frames of one length that were written to it.
-/

namespace Frames

variable {α : Type*} {n : ℕ} {chunks frames : List (List α)}

theorem length_flatten_of_length (h : ∀ c ∈ chunks, c.length = n) :
    chunks.flatten.length = chunks.length * n := by
  induction chunks with
  | nil => simp
  | cons c chunks ih =>
      have hc := h c (by simp)
      have hrest := ih fun d hd => h d (by simp [hd])
      rw [List.flatten_cons, List.length_append, hrest, hc, List.length_cons, Nat.add_mul,
        Nat.one_mul, Nat.add_comm]

theorem length_flatten_le (h : ∀ c ∈ chunks, c.length ≤ n) :
    chunks.flatten.length ≤ chunks.length * n := by
  induction chunks with
  | nil => simp
  | cons c chunks ih =>
      have hc := h c (by simp)
      have hrest := ih fun d hd => h d (by simp [hd])
      rw [List.flatten_cons, List.length_append, List.length_cons, Nat.add_mul, Nat.one_mul]
      omega

/-- Pieces of at most one frame that are as many as the frames are frames long each. -/
theorem length_eq_of_total (h : ∀ c ∈ chunks, c.length ≤ n)
    (htotal : chunks.flatten.length = chunks.length * n) : ∀ c ∈ chunks, c.length = n := by
  induction chunks with
  | nil => simp
  | cons c chunks ih =>
      have hc := h c (by simp)
      have htail : ∀ d ∈ chunks, d.length ≤ n := fun d hd => h d (by simp [hd])
      have hrest := length_flatten_le htail
      rw [List.flatten_cons, List.length_append, List.length_cons, Nat.add_mul,
        Nat.one_mul] at htotal
      have hsplit : c.length = n ∧ chunks.flatten.length = chunks.length * n := by omega
      intro d hd
      rcases List.mem_cons.mp hd with rfl | hmem
      · exact hsplit.1
      · exact ih htail hsplit.2 d hmem

/-- Pieces of the length of a frame are the frames. -/
theorem eq_of_flatten_eq (hn : 0 < n) (hc : ∀ c ∈ chunks, c.length = n)
    (hf : ∀ f ∈ frames, f.length = n) (h : chunks.flatten = frames.flatten) :
    chunks = frames := by
  have hcount : chunks.length = frames.length := by
    have hlength := congrArg List.length h
    rw [length_flatten_of_length hc, length_flatten_of_length hf] at hlength
    exact Nat.eq_of_mul_eq_mul_right hn hlength
  have hlengths : ∀ {l : List (List α)}, (∀ c ∈ l, c.length = n) →
      l.map List.length = List.replicate l.length n := by
    intro l hl
    refine List.eq_replicate_iff.mpr ⟨by simp, ?_⟩
    intro m hm
    obtain ⟨c, hmem, rfl⟩ := List.mem_map.mp hm
    exact hl c hmem
  refine List.eq_iff_flatten_eq.mpr ⟨h, ?_⟩
  rw [hlengths hc, hlengths hf, hcount]

end Frames
