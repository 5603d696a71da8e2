import Mathlib.Data.List.Infix

/-!
A reader that takes a stream in frames. In each of its states it wants a number of elements, and
gets them one by one; a state that wants none reads no further. Whatever part of a stream of whole
frames has come, the reader has taken the frames that are complete.
-/

namespace FrameReader

variable {σ α : Type*} (need : σ → ℕ) (take : σ → List α → σ)

/-- The next element of the stream, with the elements of the frame that came before it. -/
def feed (s : σ × List α) (x : α) : σ × List α :=
  if need s.1 = 0 then s
  else if (s.2 ++ [x]).length = need s.1 then (take s.1 (s.2 ++ [x]), [])
  else (s.1, s.2 ++ [x])

/-- Each frame has the length that the reader wants when it gets to it. -/
def Fits : σ → List (List α) → Prop
  | _, [] => True
  | s, frame :: frames => frame ≠ [] ∧ frame.length = need s ∧ Fits (take s frame) frames

variable {need take} {s : σ} {frames more : List (List α)}

theorem fits_append :
    Fits need take s (frames ++ more) ↔
      Fits need take s frames ∧ Fits need take (frames.foldl take s) more := by
  induction frames generalizing s with
  | nil => simp [Fits]
  | cons frame frames ih =>
      simp only [List.cons_append, Fits, List.foldl_cons, ih, and_assoc]

/-- A part of a frame is kept. -/
theorem foldl_feed_part {part rest : List α} (hrest : rest ≠ [])
    (h : (part ++ rest).length = need s) : part.foldl (feed need take) (s, []) = (s, part) := by
  induction part using List.reverseRecOn generalizing rest with
  | nil => rfl
  | append_singleton part x ih =>
      have hlast : (part ++ x :: rest).length = need s := by simpa using h
      have hpos : 0 < rest.length := List.length_pos_of_ne_nil hrest
      have hshort : (part ++ [x]).length ≠ need s := by
        rw [List.length_append] at h ⊢
        rw [List.length_append] at h
        omega
      have hneed : need s ≠ 0 := by
        rw [← hlast]
        simp
      rw [List.foldl_append, ih (List.cons_ne_nil x rest) hlast, List.foldl_cons, List.foldl_nil,
        feed, if_neg hneed, if_neg hshort]

theorem foldl_feed_frame {frame : List α} (hne : frame ≠ []) (h : frame.length = need s) :
    frame.foldl (feed need take) (s, []) = (take s frame, []) := by
  obtain ⟨part, x, rfl⟩ : ∃ part x, frame = part ++ [x] :=
    ⟨_, _, (List.dropLast_append_getLast hne).symm⟩
  have hneed : need s ≠ 0 := by
    rw [← h]
    simp
  rw [List.foldl_append, foldl_feed_part (List.cons_ne_nil x []) h, List.foldl_cons,
    List.foldl_nil, feed, if_neg hneed, if_pos h]

theorem foldl_feed_flatten (h : Fits need take s frames) :
    frames.flatten.foldl (feed need take) (s, []) = (frames.foldl take s, []) := by
  induction frames generalizing s with
  | nil => rfl
  | cons frame frames ih =>
      rw [List.flatten_cons, List.foldl_append, foldl_feed_frame h.1 h.2.1, ih h.2.2,
        List.foldl_cons]

/-- After a part of the stream the reader has taken the frames that lie in it, and keeps what came
of the next one. -/
theorem foldl_feed_prefix (h : Fits need take s frames) {part : List α}
    (hpart : part <+: frames.flatten) :
    ∃ done begun, done <+: frames ∧ part = done.flatten ++ begun ∧
      part.foldl (feed need take) (s, []) = (done.foldl take s, begun) := by
  induction frames generalizing s part with
  | nil =>
      obtain rfl : part = [] := by simpa using hpart
      exact ⟨[], [], List.prefix_rfl, rfl, rfl⟩
  | cons frame frames ih =>
      obtain ⟨hne, hlength, hrest⟩ := h
      rw [List.flatten_cons] at hpart
      rcases List.prefix_or_prefix_of_prefix hpart (List.prefix_append frame _) with hin | hover
      · by_cases hwhole : part = frame
        · subst hwhole
          exact ⟨[part], [], by simp, by simp, by simpa using foldl_feed_frame hne hlength⟩
        · obtain ⟨rest, rfl⟩ := hin
          have hrestne : rest ≠ [] := by
            rintro rfl
            simp at hwhole
          exact ⟨[], part, List.nil_prefix, rfl, foldl_feed_part hrestne hlength⟩
      · obtain ⟨tail, rfl⟩ := hover
        obtain ⟨done, begun, hdone, rfl, hfeed⟩ :=
          ih hrest ((List.prefix_append_right_inj frame).mp hpart)
        refine ⟨frame :: done, begun, List.cons_prefix_cons.mpr ⟨rfl, hdone⟩, by simp, ?_⟩
        rw [List.foldl_append, foldl_feed_frame hne hlength, hfeed, List.foldl_cons]

/-- A state that wants nothing is left as it is. -/
theorem foldl_feed_of_need_eq_zero (h : need s = 0) (part begun : List α) :
    part.foldl (feed need take) (s, begun) = (s, begun) := by
  induction part with
  | nil => rfl
  | cons x part ih => rw [List.foldl_cons, feed, if_pos h, ih]

/-! ### Frames in groups -/

/-- A beginning of a stream of groups is some whole groups, and the frames of the next one that
have come. -/
theorem exists_of_prefix_flatMap {β : Type*} {group : β → List α} {l : List β} {done : List α}
    (h : done <+: l.flatMap group) :
    ∃ whole part, whole <+: l ∧ done = whole.flatMap group ++ part ∧
      (part = [] ∨ ∃ x, whole ++ [x] <+: l ∧ part <+: group x ∧ part ≠ group x) := by
  induction l generalizing done with
  | nil =>
      obtain rfl : done = [] := by simpa using h
      exact ⟨[], [], List.prefix_rfl, rfl, .inl rfl⟩
  | cons x l ih =>
      rw [List.flatMap_cons] at h
      rcases List.prefix_or_prefix_of_prefix h (List.prefix_append (group x) _) with hin | hover
      · by_cases hwhole : done = group x
        · exact ⟨[x], [], by simp, by simp [hwhole], .inl rfl⟩
        · exact ⟨[], done, List.nil_prefix, rfl, .inr ⟨x, by simp, hin, hwhole⟩⟩
      · obtain ⟨tail, rfl⟩ := hover
        obtain ⟨whole, part, hl, rfl, hpart⟩ := ih ((List.prefix_append_right_inj _).mp h)
        refine ⟨x :: whole, part, List.cons_prefix_cons.mpr ⟨rfl, hl⟩, by simp, ?_⟩
        refine hpart.imp_right ?_
        rintro ⟨y, hy, hparty⟩
        exact ⟨y, List.cons_prefix_cons.mpr ⟨rfl, hy⟩, hparty⟩

end FrameReader
