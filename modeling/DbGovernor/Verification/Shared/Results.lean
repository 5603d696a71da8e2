import Mathlib.Data.List.Forall2

/-!
# Computations that may fail

What the success of a sequence, a traversal or a fold in `Except` says of its steps.
-/

namespace Results

variable {ε α β : Type}

/-- A computation that ends with a value. -/
def Succeeds (x : Except ε α) : Prop := ∃ a, x = .ok a

@[simp] theorem succeeds_ok {a : α} : Succeeds (.ok a : Except ε α) := ⟨a, rfl⟩

@[simp] theorem not_succeeds_error {e : ε} : ¬ Succeeds (.error e : Except ε α) := by
  rintro ⟨a, h⟩
  cases h

theorem eq_ok_of_toOption {x : Except ε α} {a : α} (h : x.toOption = some a) : x = .ok a := by
  cases x with
  | error e => cases h
  | ok b => exact congrArg Except.ok (Option.some.inj h)

theorem pure_eq_ok {a b : α} : (pure a : Except ε α) = .ok b ↔ a = b := by
  simp [pure, Except.pure]

theorem bind_eq_ok {x : Except ε α} {f : α → Except ε β} {b : β} :
    (x >>= f) = .ok b ↔ ∃ a, x = .ok a ∧ f a = .ok b := by
  cases x <;> simp [bind, Except.bind]

theorem succeeds_bind {x : Except ε α} {f : α → Except ε β} :
    Succeeds (x >>= f) ↔ ∃ a, x = .ok a ∧ Succeeds (f a) := by
  cases x <;> simp [bind, Except.bind, Succeeds]

/-- A sequence whose second part may succeed whatever the first part gives. -/
theorem succeeds_bind_of_forall {x : Except ε α} {f : α → Except ε β} {P : Prop}
    (h : ∀ a, Succeeds (f a) ↔ P) : Succeeds (x >>= f) ↔ Succeeds x ∧ P := by
  rw [succeeds_bind]
  constructor
  · rintro ⟨a, hx, hf⟩
    exact ⟨⟨a, hx⟩, (h a).mp hf⟩
  · rintro ⟨⟨a, hx⟩, hp⟩
    exact ⟨a, hx, (h a).mpr hp⟩

theorem succeeds_bind_pure {x : Except ε α} {f : α → β} :
    Succeeds (x >>= fun a => pure (f a)) ↔ Succeeds x := by
  refine (succeeds_bind_of_forall fun a => ?_).trans (iff_of_eq (and_true _))
  exact iff_of_true succeeds_ok trivial

theorem mapM_eq_ok_iff {f : α → Except ε β} {xs : List α} {ys : List β} :
    xs.mapM f = .ok ys ↔ List.Forall₂ (fun x y => f x = .ok y) xs ys := by
  induction xs generalizing ys with
  | nil => cases ys <;> simp [pure, Except.pure]
  | cons x xs ih =>
      rw [List.mapM_cons, bind_eq_ok]
      constructor
      · rintro ⟨y, hy, htail⟩
        obtain ⟨tail, hys, hcons⟩ := bind_eq_ok.mp htail
        rw [← pure_eq_ok.mp hcons]
        exact .cons hy (ih.mp hys)
      · rintro (_ | ⟨hy, htail⟩)
        exact ⟨_, hy, bind_eq_ok.mpr ⟨_, ih.mpr htail, rfl⟩⟩

theorem succeeds_mapM {f : α → Except ε β} {xs : List α} :
    Succeeds (xs.mapM f) ↔ ∀ x ∈ xs, Succeeds (f x) := by
  induction xs with
  | nil => simp [pure, Except.pure]
  | cons x xs ih =>
      rw [List.mapM_cons, List.forall_mem_cons, ← ih]
      refine succeeds_bind_of_forall fun y => ?_
      rw [succeeds_bind]
      constructor
      · rintro ⟨ys, hys, -⟩
        exact ⟨ys, hys⟩
      · rintro ⟨ys, hys⟩
        exact ⟨ys, hys, succeeds_ok⟩

/-- A fold whose steps succeed or fail by their element alone. -/
theorem succeeds_foldlM {f : β → α → Except ε β} {P : α → Prop}
    (h : ∀ b a, Succeeds (f b a) ↔ P a) (xs : List α) (b : β) :
    Succeeds (xs.foldlM f b) ↔ ∀ x ∈ xs, P x := by
  induction xs generalizing b with
  | nil => simp [pure, Except.pure]
  | cons x xs ih =>
      rw [List.foldlM_cons, List.forall_mem_cons, ← h b x]
      exact succeeds_bind_of_forall fun b' => ih b'

/-! ### Errors -/

/-- A computation that can only fail with an error of some kind. -/
def FailsWith (P : ε → Prop) (x : Except ε α) : Prop := ∀ e, x = .error e → P e

theorem failsWith_ok {P : ε → Prop} (a : α) : FailsWith P (.ok a : Except ε α) := by
  intro e h
  cases h

theorem failsWith_error {P : ε → Prop} {e : ε} (h : P e) :
    FailsWith P (.error e : Except ε α) := by
  intro e' he
  cases he
  exact h

theorem FailsWith.bind {P : ε → Prop} {x : Except ε α} {f : α → Except ε β}
    (hx : FailsWith P x) (hf : ∀ a, FailsWith P (f a)) : FailsWith P (x >>= f) := by
  cases x with
  | error e => exact failsWith_error (hx e rfl)
  | ok a => exact hf a

theorem FailsWith.mapM {P : ε → Prop} {f : α → Except ε β} {xs : List α}
    (h : ∀ x ∈ xs, FailsWith P (f x)) : FailsWith P (xs.mapM f) := by
  induction xs with
  | nil => exact failsWith_ok []
  | cons x xs ih =>
      obtain ⟨hx, hrest⟩ := List.forall_mem_cons.mp h
      rw [List.mapM_cons]
      exact hx.bind fun _ => (ih hrest).bind fun _ => failsWith_ok _

theorem FailsWith.foldlM {P : ε → Prop} {f : β → α → Except ε β} {xs : List α}
    (h : ∀ x ∈ xs, ∀ b, FailsWith P (f b x)) (b : β) : FailsWith P (xs.foldlM f b) := by
  induction xs generalizing b with
  | nil => exact failsWith_ok b
  | cons x xs ih =>
      obtain ⟨hx, hrest⟩ := List.forall_mem_cons.mp h
      rw [List.foldlM_cons]
      exact (hx b).bind fun b' => ih hrest b'

/-! ### Traversals with optional results -/

/-- A traversal whose steps all give a value. -/
theorem mapM_of_forall_some {f : α → Option β} {g : α → β} {xs : List α}
    (h : ∀ x ∈ xs, f x = some (g x)) : xs.mapM f = some (xs.map g) := by
  induction xs with
  | nil => rfl
  | cons x xs ih =>
      obtain ⟨hx, hrest⟩ := List.forall_mem_cons.mp h
      rw [List.mapM_cons, hx, ih hrest]
      rfl

/-- A traversal that can only give one value for each element. -/
theorem mapM_eq_some_map {f : α → Option β} {g : α → β} (h : ∀ x y, f x = some y → y = g x)
    {xs : List α} {ys : List β} (hys : xs.mapM f = some ys) : ys = xs.map g := by
  induction xs generalizing ys with
  | nil =>
      cases hys
      rfl
  | cons x xs ih =>
      rw [List.mapM_cons, Option.bind_eq_bind, Option.bind_eq_some_iff] at hys
      obtain ⟨y, hy, htail⟩ := hys
      rw [Option.bind_eq_bind, Option.bind_eq_some_iff] at htail
      obtain ⟨tail, htail, hcons⟩ := htail
      cases hcons
      rw [List.map_cons, h x y hy, ih htail]

end Results
