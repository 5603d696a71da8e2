import Mathlib.Data.List.Forall2
import Mathlib.Data.List.Induction
import Mathlib.Data.Option.Basic

/-! The newest entry of each key in a log that grows at its end. -/

namespace KeyedLog

variable {ε κ : Type*} [DecidableEq κ] (key : ε → κ)

/-- The newest entry of `log` with the key `k`. -/
def last (k : κ) (log : List ε) : Option ε :=
  log.reverse.find? fun e => key e = k

@[simp] theorem last_nil (k : κ) : last key k [] = none := rfl

@[simp] theorem last_append_singleton (k : κ) (log : List ε) (e : ε) :
    last key k (log ++ [e]) = if key e = k then some e else last key k log := by
  by_cases h : key e = k <;> simp [last, h]

/-- Entries of other keys do not change the newest entry of `k`. -/
theorem last_append_of_ne (k : κ) (log entries : List ε) (h : ∀ e ∈ entries, key e ≠ k) :
    last key k (log ++ entries) = last key k log := by
  have hnone : entries.reverse.find? (fun e => key e = k) = none := by
    rw [List.find?_eq_none]
    intro e he
    simpa using h e (List.mem_reverse.mp he)
  simp [last, List.find?_append, hnone]

/-- A broadcast writes one entry for each of its keys and leaves the others alone. -/
theorem last_append_map (k : κ) (log : List ε) (keys : List κ) (f : κ → ε)
    (hf : ∀ j, key (f j) = j) :
    last key k (log ++ keys.map f) = if k ∈ keys then some (f k) else last key k log := by
  induction keys using List.reverseRecOn with
  | nil => simp
  | append_singleton keys j ih =>
      rw [List.map_append, List.map_singleton, ← List.append_assoc, last_append_singleton, hf, ih]
      by_cases hj : j = k
      · simp [hj]
      · simp [hj, Ne.symm hj]

/-- Two logs that correspond entry by entry have newest entries that correspond. -/
theorem last_forall₂ {ε' κ' : Type*} [DecidableEq κ'] (key' : ε' → κ') {R : ε → ε' → Prop} {k : κ}
    {k' : κ'} {log : List ε} {log' : List ε'} (h : List.Forall₂ R log log')
    (hkey : ∀ e e', R e e' → (key e = k ↔ key' e' = k')) :
    Option.Rel R (last key k log) (last key' k' log') := by
  have hreverse := List.rel_reverse h
  rw [last, last]
  generalize log.reverse = newest, log'.reverse = newest' at hreverse ⊢
  induction hreverse with
  | nil => exact .none
  | @cons e e' rest rest' he _ ih =>
      by_cases hk : key e = k
      · have hk' := (hkey e e' he).mp hk
        rw [List.find?_cons_of_pos (by simpa using hk), List.find?_cons_of_pos (by simpa using hk')]
        exact .some he
      · have hk' := mt (hkey e e' he).mpr hk
        rw [List.find?_cons_of_neg (by simpa using hk), List.find?_cons_of_neg (by simpa using hk')]
        exact ih

end KeyedLog
