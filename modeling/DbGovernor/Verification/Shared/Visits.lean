import Mathlib.Data.List.Nodup

/-!
A pass over distinct keys. Its invariant speaks of the keys that were visited already, and a
step may use that its key was not. Two passes over the same keys in different orders end in
equivalent states when two steps may change places.
-/

namespace Visits

variable {σ κ : Type*} {step : σ → κ → σ}

theorem foldl_of_append {inv : List κ → σ → Prop} {done keys : List κ} {s : σ}
    (hnd : (done ++ keys).Nodup) (h : inv done s)
    (hstep : ∀ done key s, key ∈ keys → key ∉ done → inv done s →
      inv (done ++ [key]) (step s key)) :
    inv (done ++ keys) (keys.foldl step s) := by
  induction keys generalizing done s with
  | nil => simpa using h
  | cons key keys ih =>
      have hkey : key ∉ done := by
        intro hmem
        exact (List.nodup_append.mp hnd).2.2 key hmem key (by simp) rfl
      rw [List.append_cons] at hnd ⊢
      refine ih hnd (hstep done key s (by simp) hkey h) ?_
      intro done' key' s' hmem
      exact hstep done' key' s' (by simp [hmem])

/-- The invariant for all keys at the end of a pass. -/
theorem foldl_visited {inv : List κ → σ → Prop} {keys : List κ} {s : σ} (hnd : keys.Nodup)
    (h : inv [] s)
    (hstep : ∀ done key s, key ∈ keys → key ∉ done → inv done s →
      inv (done ++ [key]) (step s key)) :
    inv keys (keys.foldl step s) :=
  foldl_of_append (by simpa using hnd) h hstep

/-! ### The order of a pass -/

section Order

variable {R : σ → σ → Prop} {inv : σ → Prop} {keys keys' : List κ} {s s' : σ}

theorem foldl_congr (hinv : ∀ s key, inv s → inv (step s key))
    (hcongr : ∀ s s' key, inv s → inv s' → R s s' → R (step s key) (step s' key))
    (keys : List κ) (hs : inv s) (hs' : inv s') (h : R s s') :
    R (keys.foldl step s) (keys.foldl step s') := by
  induction keys generalizing s s' with
  | nil => exact h
  | cons key keys ih =>
      exact ih (hinv s key hs) (hinv s' key hs') (hcongr s s' key hs hs' h)

/-- Passes in two orders from equivalent states end in equivalent states. -/
theorem foldl_perm (hR : Equivalence R) (hinv : ∀ s key, inv s → inv (step s key))
    (hcongr : ∀ s s' key, inv s → inv s' → R s s' → R (step s key) (step s' key))
    (hcomm : ∀ s a b, inv s → R (step (step s a) b) (step (step s b) a))
    (hkeys : keys.Perm keys') (hs : inv s) (hs' : inv s') (h : R s s') :
    R (keys.foldl step s) (keys'.foldl step s') := by
  induction hkeys generalizing s s' with
  | nil => exact h
  | cons key _ ih => exact ih (hinv s key hs) (hinv s' key hs') (hcongr s s' key hs hs' h)
  | swap a b keys =>
      have hb : R (step s b) (step s' b) := hcongr s s' b hs hs' h
      have hba : R (step (step s b) a) (step (step s' b) a) :=
        hcongr _ _ a (hinv s b hs) (hinv s' b hs') hb
      exact foldl_congr hinv hcongr keys (hinv _ a (hinv s b hs)) (hinv _ b (hinv s' a hs'))
        (hR.trans hba (hcomm s' b a hs'))
  | trans _ _ ih ih' => exact hR.trans (ih hs hs (hR.refl s)) (ih' hs hs' h)

end Order

end Visits
