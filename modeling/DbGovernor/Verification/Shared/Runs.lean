import Mathlib.Data.List.Basic

/-!
Runs of a deterministic machine that reads a list of inputs. `Meets` states a condition on
every step of a run, with the state in which the step is taken.
-/

namespace Runs

variable {σ ι : Type*} (step : σ → ι → σ)

/-- Every step of the run from `s` on `inputs` satisfies `ok`. -/
def Meets (ok : σ → ι → Prop) : σ → List ι → Prop
  | _, [] => True
  | s, i :: inputs => ok s i ∧ Meets ok (step s i) inputs

instance decidableMeets (ok : σ → ι → Prop) [∀ s i, Decidable (ok s i)] :
    ∀ s inputs, Decidable (Meets step ok s inputs)
  | _, [] => .isTrue trivial
  | s, i :: inputs =>
      have := decidableMeets ok (step s i) inputs
      inferInstanceAs (Decidable (_ ∧ _))

variable {step}

/-- A condition that the inputs meet in every state holds along a run. -/
theorem meets_of_forall {ok : σ → ι → Prop} (s : σ) (inputs : List ι)
    (h : ∀ i ∈ inputs, ∀ s, ok s i) : Meets step ok s inputs := by
  induction inputs generalizing s with
  | nil => trivial
  | cons i inputs ih =>
      exact ⟨h i (by simp) s, ih (step s i) fun j hj => h j (by simp [hj])⟩

/-- A condition on the inputs alone. -/
theorem meets_iff_forall_mem {ok : ι → Prop} {s : σ} {inputs : List ι} :
    Meets step (fun _ i => ok i) s inputs ↔ ∀ i ∈ inputs, ok i := by
  induction inputs generalizing s with
  | nil => simp [Meets]
  | cons i inputs ih => simp only [Meets, ih, List.forall_mem_cons]

theorem meets_append {ok : σ → ι → Prop} {s : σ} {inputs more : List ι} :
    Meets step ok s (inputs ++ more) ↔
      Meets step ok s inputs ∧ Meets step ok (inputs.foldl step s) more := by
  induction inputs generalizing s with
  | nil => simp [Meets]
  | cons i inputs ih => simp only [List.cons_append, Meets, List.foldl_cons, ih, and_assoc]

theorem meets_and {ok ok' : σ → ι → Prop} {s : σ} {inputs : List ι} :
    Meets step (fun s i => ok s i ∧ ok' s i) s inputs ↔
      Meets step ok s inputs ∧ Meets step ok' s inputs := by
  induction inputs generalizing s with
  | nil => simp [Meets]
  | cons i inputs ih =>
      simp only [Meets, ih]
      exact and_and_and_comm

/-- The conditions of a run, step by step. -/
theorem meets_iff_forall_concat {ok : σ → ι → Prop} {s : σ} {inputs : List ι} :
    Meets step ok s inputs ↔
      ∀ part i, part ++ [i] <+: inputs → ok (part.foldl step s) i := by
  induction inputs generalizing s with
  | nil => simp [Meets]
  | cons i inputs ih =>
      constructor
      · rintro ⟨hi, hrest⟩ part j hpart
        cases part with
        | nil =>
            obtain ⟨rfl, -⟩ := List.cons_prefix_cons.mp hpart
            exact hi
        | cons k part =>
            obtain ⟨rfl, htail⟩ := List.cons_prefix_cons.mp hpart
            exact ih.mp hrest part j htail
      · intro h
        refine ⟨h [] i (by simp), ih.mpr ?_⟩
        intro part j hpart
        exact h (i :: part) j (List.cons_prefix_cons.mpr ⟨rfl, hpart⟩)

/-- The first step of a run that does not meet a condition. -/
theorem exists_first_not_meets {ok good : σ → ι → Prop} {inv : σ → Prop}
    (hstep : ∀ s i, inv s → ok s i → good s i → inv (step s i)) {s : σ} {inputs : List ι}
    (h : Meets step ok s inputs) (hs : inv s) (hnot : ¬ Meets step good s inputs) :
    ∃ part i, part ++ [i] <+: inputs ∧ inv (part.foldl step s) ∧ ok (part.foldl step s) i ∧
      ¬ good (part.foldl step s) i := by
  induction inputs generalizing s with
  | nil => exact (hnot trivial).elim
  | cons i inputs ih =>
      by_cases hi : good s i
      · have hrest : ¬ Meets step good (step s i) inputs := fun hmeets => hnot ⟨hi, hmeets⟩
        obtain ⟨part, j, hpart, hfirst⟩ := ih h.2 (hstep s i hs h.1 hi) hrest
        exact ⟨i :: part, j, List.cons_prefix_cons.mpr ⟨rfl, hpart⟩, hfirst⟩
      · exact ⟨[], i, by simp, hs, h.1, hi⟩

/-- An invariant of the steps that meet `ok` holds at the end of a run that meets it. -/
theorem Meets.invariant {ok : σ → ι → Prop} {inv : σ → Prop}
    (hstep : ∀ s i, inv s → ok s i → inv (step s i)) {s : σ} {inputs : List ι}
    (h : Meets step ok s inputs) (hs : inv s) : inv (inputs.foldl step s) := by
  induction inputs generalizing s with
  | nil => exact hs
  | cons i inputs ih => exact ih h.2 (hstep s i hs h.1)

theorem Meets.invariant_of_isPrefix {ok : σ → ι → Prop} {inv : σ → Prop}
    (hstep : ∀ s i, inv s → ok s i → inv (step s i)) {s : σ} {inputs part : List ι}
    (h : Meets step ok s inputs) (hs : inv s) (hpart : part <+: inputs) :
    inv (part.foldl step s) := by
  obtain ⟨rest, rfl⟩ := hpart
  exact (meets_append.mp h).1.invariant hstep hs

/-- A property of the states holds after every step exactly if it holds at the end of every
beginning of the run. -/
theorem meets_iff_forall_isPrefix {inv : σ → Prop} {s : σ} {inputs : List ι} (hs : inv s) :
    Meets step (fun s i => inv (step s i)) s inputs ↔
      ∀ part, part <+: inputs → inv (part.foldl step s) := by
  induction inputs generalizing s with
  | nil => simpa [Meets] using hs
  | cons i inputs ih =>
      constructor
      · rintro ⟨hi, hrest⟩ part hpart
        cases part with
        | nil => exact hs
        | cons j part =>
            obtain ⟨rfl, htail⟩ := List.cons_prefix_cons.mp hpart
            exact (ih hi).mp hrest part htail
      · intro h
        have hi : inv (step s i) := h [i] (by simp)
        refine ⟨hi, (ih hi).mpr ?_⟩
        intro part hpart
        exact h (i :: part) (List.cons_prefix_cons.mpr ⟨rfl, hpart⟩)

/-- Two step conditions that agree in the states a good run goes through agree along whole
runs: the invariant only has to survive the good steps. -/
theorem meets_congr {ok good good' : σ → ι → Prop} {inv : σ → Prop}
    (hiff : ∀ s i, inv s → ok s i → (good s i ↔ good' s i))
    (hstep : ∀ s i, inv s → ok s i → good s i → inv (step s i)) {s : σ} {inputs : List ι}
    (h : Meets step ok s inputs) (hs : inv s) :
    Meets step good s inputs ↔ Meets step good' s inputs := by
  induction inputs generalizing s with
  | nil => exact Iff.rfl
  | cons i inputs ih =>
      have hi := hiff s i hs h.1
      constructor
      · rintro ⟨hg, hrest⟩
        exact ⟨hi.mp hg, (ih h.2 (hstep s i hs h.1 hg)).mp hrest⟩
      · rintro ⟨hg, hrest⟩
        exact ⟨hi.mpr hg, (ih h.2 (hstep s i hs h.1 (hi.mpr hg))).mpr hrest⟩

end Runs
