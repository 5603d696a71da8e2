import Mathlib.Order.Basic

/-!
# Runs that settle

A system settles if each of its steps takes it closer to its aim, or keeps it there.
-/

namespace Settling

variable {σ : Type*}

/-- Among the states of an invariant, every step leaves less to do until the system has settled,
and it stays settled. -/
structure Settles (step : σ → σ → Prop) (inv settled : σ → Prop) (left : σ → ℕ) : Prop where
  keeps : ∀ {s s'}, inv s → step s s' → inv s'
  stays : ∀ {s s'}, inv s → step s s' → settled s → settled s'
  nears : ∀ {s s'}, inv s → step s s' → settled s ∨ left s' < left s
  ends : ∀ {s}, inv s → left s = 0 → settled s

variable {step : σ → σ → Prop} {inv settled : σ → Prop} {left : σ → ℕ} {run : ℕ → σ} {n : ℕ}

theorem Settles.inv_run (h : Settles step inv settled left) (hinv : inv (run 0))
    (hrun : ∀ i < n, step (run i) (run (i + 1))) : inv (run n) := by
  induction n with
  | zero => exact hinv
  | succ n ih => exact h.keeps (ih fun i hi => hrun i (by omega)) (hrun n (by omega))

theorem Settles.settled_or (h : Settles step inv settled left) (hinv : inv (run 0))
    (hrun : ∀ i < n, step (run i) (run (i + 1))) :
    settled (run n) ∨ n + left (run n) ≤ left (run 0) := by
  induction n with
  | zero => exact .inr (by omega)
  | succ n ih =>
      have hbefore : ∀ i < n, step (run i) (run (i + 1)) := fun i hi => hrun i (by omega)
      have hn := h.inv_run hinv hbefore
      have hstep := hrun n (by omega)
      rcases ih hbefore with hsettled | hle
      · exact .inl (h.stays hn hstep hsettled)
      · rcases h.nears hn hstep with hsettled | hlt
        · exact .inl (h.stays hn hstep hsettled)
        · exact .inr (by omega)

/-- A run has settled when it has taken as many steps as were left at its start. -/
theorem Settles.settled_run (h : Settles step inv settled left) (hinv : inv (run 0))
    (hrun : ∀ i < n, step (run i) (run (i + 1))) (hn : left (run 0) ≤ n) : settled (run n) := by
  rcases h.settled_or hinv hrun with hsettled | hle
  · exact hsettled
  · exact h.ends (h.inv_run hinv hrun) (by omega)

end Settling
