import Mathlib.Data.Set.Basic
import Mathlib.Logic.Function.Basic
import Mathlib.Order.WellFounded
import Mathlib.Logic.Relation

/-!
Threads seen at their locks. A program is what a function does with locks and shared data, its
branches left open. A condition on the requests and accesses of a program is checked on its text
and holds at every point of every run. Two conditions of that kind rule out a deadlock and a data
race.
-/

namespace Locking

/-- What a function does: `locked r p` is granted the request `r`, runs `p` and gives the lock
back, `loop p` runs `p` any number of times. -/
inductive Prog (ρ α : Type*) where
  | skip
  | access (a : α)
  | seq (p q : Prog ρ α)
  | choice (p q : Prog ρ α)
  | loop (p : Prog ρ α)
  | locked (r : ρ) (p : Prog ρ α)

/-- Programs one after the other. -/
def Prog.block {ρ α : Type*} : List (Prog ρ α) → Prog ρ α
  | [] => .skip
  | p :: ps => .seq p (block ps)

/-- A program that may be left out. -/
def Prog.maybe {ρ α : Type*} (p : Prog ρ α) : Prog ρ α := .choice p .skip

/-- What a thread still has to do. -/
inductive Item (ρ α : Type*) where
  | run (p : Prog ρ α)
  | release (r : ρ)

section Threads

variable {ρ α : Type*}

/-- The requests that were granted and are not given back, the last one first. -/
def held : List (Item ρ α) → List ρ
  | [] => []
  | .run _ :: k => held k
  | .release r :: k => r :: held k

/-- The request at which the thread stands. -/
def requested : List (Item ρ α) → Option ρ
  | .run (.locked r _) :: _ => some r
  | _ => none

/-- The access at which the thread stands. -/
def accessed : List (Item ρ α) → Option α
  | .run (.access a) :: _ => some a
  | _ => none

/-- The next step of a thread, where `b` decides a branch. -/
def next (b : Bool) : List (Item ρ α) → List (Item ρ α)
  | [] => []
  | .run .skip :: k => k
  | .run (.access _) :: k => k
  | .run (.seq p q) :: k => .run p :: .run q :: k
  | .run (.choice p q) :: k => .run (if b then p else q) :: k
  | .run (.loop p) :: k => if b then .run p :: .run (.loop p) :: k else k
  | .run (.locked r p) :: k => .run p :: .release r :: k
  | .release _ :: k => k

/-! ### Conditions on the text -/

/-- A condition on every request and every access, with the locks that are held there. -/
structure Check (ρ α : Type*) where
  request : List ρ → ρ → Prop
  access : List ρ → α → Prop

/-- The condition holds in a program that begins with the locks `hs`. -/
def Prog.Meets (c : Check ρ α) (hs : List ρ) : Prog ρ α → Prop
  | .skip => True
  | .access a => c.access hs a
  | .seq p q => p.Meets c hs ∧ q.Meets c hs
  | .choice p q => p.Meets c hs ∧ q.Meets c hs
  | .loop p => p.Meets c hs
  | .locked r p => c.request hs r ∧ p.Meets c (r :: hs)

instance decidableMeets (c : Check ρ α) [∀ hs r, Decidable (c.request hs r)]
    [∀ hs a, Decidable (c.access hs a)] : ∀ hs (p : Prog ρ α), Decidable (p.Meets c hs)
  | _, .skip => .isTrue trivial
  | hs, .access a => inferInstanceAs (Decidable (c.access hs a))
  | hs, .seq p q | hs, .choice p q =>
      have := decidableMeets c hs p
      have := decidableMeets c hs q
      inferInstanceAs (Decidable (p.Meets c hs ∧ q.Meets c hs))
  | hs, .loop p => decidableMeets c hs p
  | hs, .locked r p =>
      have := decidableMeets c (r :: hs) p
      inferInstanceAs (Decidable (c.request hs r ∧ p.Meets c (r :: hs)))

/-- The condition holds in all that a thread still has to do. -/
def StackMeets (c : Check ρ α) : List (Item ρ α) → Prop
  | [] => True
  | .run p :: k => p.Meets c (held k) ∧ StackMeets c k
  | .release _ :: k => StackMeets c k

variable {c : Check ρ α}

theorem StackMeets.next {k : List (Item ρ α)} (h : StackMeets c k) (b : Bool) :
    StackMeets c (next b k) := by
  cases k with
  | nil => trivial
  | cons item k =>
      cases item with
      | release r => exact h
      | run p =>
          obtain ⟨hp, hk⟩ := h
          cases p with
          | skip => exact hk
          | access a => exact hk
          | seq p q => exact ⟨hp.1, hp.2, hk⟩
          | choice p q =>
              cases b with
              | true => exact ⟨hp.1, hk⟩
              | false => exact ⟨hp.2, hk⟩
          | loop p =>
              cases b with
              | true => exact ⟨hp, hp, hk⟩
              | false => exact hk
          | locked r p => exact ⟨hp.2, hk⟩

theorem StackMeets.request {k : List (Item ρ α)} (h : StackMeets c k) {r : ρ}
    (hr : r ∈ requested k) : c.request (held k) r := by
  unfold requested at hr
  split at hr
  · obtain rfl := Option.some.inj hr
    exact h.1.1
  · cases hr

theorem StackMeets.access {k : List (Item ρ α)} (h : StackMeets c k) {a : α}
    (ha : a ∈ accessed k) : c.access (held k) a := by
  unfold accessed at ha
  split at ha
  · obtain rfl := Option.some.inj ha
    exact h.1
  · cases ha

/-- A step takes the requested lock, or gives the last one back, or keeps the locks. -/
theorem mem_held_next {b : Bool} {k : List (Item ρ α)} {h : ρ} (hh : h ∈ held (next b k)) :
    h ∈ requested k ∨ h ∈ held k := by
  cases k with
  | nil => cases hh
  | cons item k =>
      cases item with
      | release r => exact .inr (List.mem_cons_of_mem r hh)
      | run p =>
          cases p with
          | skip => exact .inr hh
          | access a => exact .inr hh
          | seq p q => exact .inr hh
          | choice p q => exact .inr hh
          | loop p => cases b <;> exact .inr hh
          | locked r p =>
              rcases List.mem_cons.mp hh with rfl | hh
              · exact .inl rfl
              · exact .inr hh

end Threads

/-- Which held lock keeps a request waiting, and which waiting request goes before another. -/
structure Discipline (ρ : Type*) where
  conflicts : ρ → ρ → Prop
  yields : ρ → ρ → Prop

section Alone

variable {ρ α : Type*}

/-- The requests on the way of a thread that runs alone. -/
def requests : List Bool → List (Item ρ α) → List ρ
  | [], _ => []
  | b :: bs, k => (requested k).toList ++ requests bs (next b k)

/-- The locks that a thread holds do not keep its own requests waiting on its way. -/
def OwnClear (d : Discipline ρ) : List Bool → List (Item ρ α) → Prop
  | [], _ => True
  | b :: bs, k =>
      (∀ r ∈ requested k, ∀ h ∈ held k, ¬ d.conflicts r h) ∧ OwnClear d bs (next b k)

instance decidableOwnClear (d : Discipline ρ) [DecidableRel d.conflicts] :
    ∀ bs (k : List (Item ρ α)), Decidable (OwnClear d bs k)
  | [], _ => .isTrue trivial
  | b :: bs, k =>
      have := decidableOwnClear d bs (next b k)
      inferInstanceAs (Decidable (_ ∧ _))

end Alone

section System

variable {ρ α τ : Type*} (d : Discipline ρ)

/-- The thread `t` waits, and one reason is `t'`. -/
def BlockedBy (s : τ → List (Item ρ α)) (t t' : τ) : Prop :=
  ∃ r ∈ requested (s t), (∃ h ∈ held (s t'), d.conflicts r h) ∨
    t' ≠ t ∧ ∃ r' ∈ requested (s t'), d.yields r r'

/-- The states that threads reach which start with the programs `start`. -/
inductive Reachable [DecidableEq τ] (start : τ → Prog ρ α) : (τ → List (Item ρ α)) → Prop where
  | start : Reachable start fun t => [.run (start t)]
  | step {s} (t : τ) (b : Bool) : Reachable start s → (∀ t', ¬ BlockedBy d s t t') →
      Reachable start (Function.update s t (next b (s t)))

/-- Some threads wait for one another, each for one of them. -/
def Deadlocked (s : τ → List (Item ρ α)) : Prop :=
  ∃ D : Set τ, D.Nonempty ∧ ∀ t ∈ D, ∃ t' ∈ D, BlockedBy d s t t'

/-- Two threads are about to make accesses that clash. -/
def Racing (clash : α → α → Prop) (s : τ → List (Item ρ α)) : Prop :=
  ∃ t t', t ≠ t' ∧ ∃ a ∈ accessed (s t), ∃ a' ∈ accessed (s t'), clash a a'

variable {d} [DecidableEq τ] {start : τ → Prog ρ α} {s : τ → List (Item ρ α)}

/-- A condition on the programs holds in every state. -/
theorem Reachable.stackMeets {c : Check ρ α} (hs : Reachable d start s)
    (hc : ∀ t, (start t).Meets c []) (t : τ) : StackMeets c (s t) := by
  induction hs generalizing t with
  | start => exact ⟨hc t, trivial⟩
  | step t' b _ _ ih =>
      by_cases h : t = t'
      · subst h
        rw [Function.update_self]
        exact (ih t).next b
      · rw [Function.update_of_ne h]
        exact ih t

/-! ### Deadlocks -/

section Ranks

variable {ι : Type*} [Preorder ι]

/-- What is requested has a higher rank than any request that a held lock keeps waiting. -/
def ranked (conflicts : ρ → ρ → Prop) (rank : ρ → ι) : Check ρ α where
  request hs r := ∀ h ∈ hs, ∀ r', conflicts r' h → rank r' < rank r
  access _ _ := True

/-- Requests whose ranks rise along every reason to wait never lead to a deadlock. -/
theorem Reachable.not_deadlocked [WellFoundedGT ι] (rank : ρ → ι)
    (hyields : ∀ r r', d.yields r r' → rank r < rank r')
    (hstart : ∀ t, (start t).Meets (ranked d.conflicts rank) []) (hs : Reachable d start s) :
    ¬ Deadlocked d s := by
  rintro ⟨D, ⟨t₀, ht₀⟩, hD⟩
  have hmeets := hs.stackMeets hstart
  let waiting : Set ι := {i | ∃ t ∈ D, ∃ r ∈ requested (s t), rank r = i}
  obtain ⟨-, -, r₀, hr₀, -⟩ := hD t₀ ht₀
  obtain ⟨top, ⟨t, ht, r, hr, rfl⟩, htop⟩ :=
    wellFounded_gt.has_min waiting ⟨rank r₀, t₀, ht₀, r₀, hr₀, rfl⟩
  obtain ⟨t', ht', r₁, hr₁, hwhy⟩ := hD t ht
  obtain rfl : r = r₁ := Option.mem_unique hr hr₁
  rcases hwhy with ⟨h, hh, hconf⟩ | ⟨-, r', hr', hyield⟩
  · obtain ⟨-, -, r', hr', -⟩ := hD t' ht'
    exact htop (rank r') ⟨t', ht', r', hr', rfl⟩ ((hmeets t').request hr' h hh r hconf)
  · exact htop (rank r') ⟨t', ht', r', hr', rfl⟩ (hyields r r' hyield)

end Ranks

/-! ### Data races -/

/-- Locks that conflict are never held by two threads. -/
theorem Reachable.exclusive (hsymm : ∀ r r', d.conflicts r r' → d.conflicts r' r)
    (hs : Reachable d start s) {t t' : τ} (hne : t ≠ t') {h h' : ρ} (hh : h ∈ held (s t))
    (hh' : h' ∈ held (s t')) : ¬ d.conflicts h h' := by
  induction hs generalizing t t' h h' with
  | start => cases hh
  | @step s u b _ hfree ih =>
      have hgranted : ∀ {v : τ} {r x : ρ}, r ∈ requested (s u) → x ∈ held (s v) →
          ¬ d.conflicts r x :=
        fun {v} {r} {x} hr hx hconf => hfree v ⟨r, hr, .inl ⟨x, hx, hconf⟩⟩
      by_cases ht : t = u
      · subst ht
        rw [Function.update_self] at hh
        rw [Function.update_of_ne hne.symm] at hh'
        rcases mem_held_next hh with hreq | hold
        · exact hgranted hreq hh'
        · exact ih hne hold hh'
      · rw [Function.update_of_ne ht] at hh
        by_cases ht' : t' = u
        · subst ht'
          rw [Function.update_self] at hh'
          rcases mem_held_next hh' with hreq | hold
          · exact fun hconf => hgranted hreq hh (hsymm _ _ hconf)
          · exact ih hne hh hold
        · rw [Function.update_of_ne ht'] at hh'
          exact ih hne hh hh'

/-- Every access of concern is made under a lock that guards it. -/
def guarded (concerned : α → Prop) (guards : α → ρ → Prop) : Check ρ α where
  request _ _ := True
  access hs a := concerned a → ∃ r ∈ hs, guards a r

/-- Where the locks that guard clashing accesses conflict, no two threads race. -/
theorem Reachable.not_racing {concerned : α → Prop} {guards : α → ρ → Prop}
    {clash : α → α → Prop} (hsymm : ∀ r r', d.conflicts r r' → d.conflicts r' r)
    (hconcerned : ∀ a a', clash a a' → concerned a ∧ concerned a')
    (hclash : ∀ a a' r r', clash a a' → guards a r → guards a' r' → d.conflicts r r')
    (hstart : ∀ t, (start t).Meets (guarded concerned guards) []) (hs : Reachable d start s) :
    ¬ Racing clash s := by
  rintro ⟨t, t', hne, a, ha, a', ha', haa'⟩
  obtain ⟨hc, hc'⟩ := hconcerned a a' haa'
  obtain ⟨r, hr, hguard⟩ := (hs.stackMeets hstart t).access ha hc
  obtain ⟨r', hr', hguard'⟩ := (hs.stackMeets hstart t').access ha' hc'
  exact hs.exclusive hsymm hne hr hr' (hclash a a' r r' haa' hguard hguard')

/-! ### One thread at a time -/

/-- The work that is left to a thread that ran alone. -/
def alone (bs : List Bool) (p : Prog ρ α) : List (Item ρ α) :=
  bs.foldl (fun k b => next b k) [.run p]

/-- A thread runs alone as far as the others let its requests through. -/
theorem Reachable.runs (t : τ) (bs : List Bool) (hs : Reachable d start s)
    (hown : OwnClear d bs (s t))
    (hheld : ∀ t' ≠ t, ∀ r ∈ requests bs (s t), ∀ h ∈ held (s t'), ¬ d.conflicts r h)
    (hyield : ∀ t' ≠ t, ∀ r ∈ requests bs (s t), ∀ r' ∈ requested (s t'), ¬ d.yields r r') :
    Reachable d start (Function.update s t (bs.foldl (fun k b => next b k) (s t))) := by
  induction bs generalizing s with
  | nil => simpa using hs
  | cons b bs ih =>
      have hfree : ∀ t', ¬ BlockedBy d s t t' := by
        rintro t' ⟨r, hr, hwhy⟩
        have hmem : r ∈ requests (b :: bs) (s t) :=
          List.mem_append_left _ (Option.mem_toList.mpr hr)
        rcases hwhy with ⟨h, hh, hconf⟩ | ⟨hne, r', hr', hy⟩
        · by_cases heq : t' = t
          · subst heq
            exact hown.1 r hr h hh hconf
          · exact hheld t' heq r hmem h hh hconf
        · exact hyield t' hne r hmem r' hr' hy
      have hnext := ih (Reachable.step t b hs hfree)
        (by rw [Function.update_self]; exact hown.2)
        (by
          intro t' hne r hr
          rw [Function.update_self] at hr
          rw [Function.update_of_ne hne]
          exact hheld t' hne r (List.mem_append_right _ hr))
        (by
          intro t' hne r hr
          rw [Function.update_self] at hr
          rw [Function.update_of_ne hne]
          exact hyield t' hne r (List.mem_append_right _ hr))
      rwa [Function.update_self, Function.update_idem] at hnext

/-- One thread runs alone, then another. The requests of the second do not wait for the first. -/
theorem exists_reachable_pair (hstart : ∀ t, requested [Item.run (start t)] = none) {t t' : τ}
    (hne : t ≠ t') {bs bs' : List Bool} (hown : OwnClear d bs [.run (start t)])
    (hown' : OwnClear d bs' [.run (start t')])
    (hheld : ∀ r ∈ requests bs' [.run (start t')], ∀ h ∈ held (alone bs (start t)),
      ¬ d.conflicts r h)
    (hyield : ∀ r ∈ requests bs' [.run (start t')], ∀ r' ∈ requested (alone bs (start t)),
      ¬ d.yields r r') :
    ∃ s, Reachable d start s ∧ s t = alone bs (start t) ∧ s t' = alone bs' (start t') := by
  have hfirst := (.start : Reachable d start _).runs t bs hown
    (fun u _ r _ h hh => by cases hh)
    (fun u _ r _ r' hr' => by rw [hstart u] at hr'; cases hr')
  have hold : Function.update (fun u => [Item.run (start u)]) t (alone bs (start t)) t' =
      [.run (start t')] := Function.update_of_ne hne.symm _ _
  have hsecond := hfirst.runs t' bs' (by rw [← alone, hold]; exact hown')
    (by
      intro u hu r hr h hh
      rw [← alone, hold] at hr
      by_cases hut : u = t
      · subst hut
        rw [Function.update_self] at hh
        exact hheld r hr h hh
      · rw [Function.update_of_ne hut] at hh
        cases hh)
    (by
      intro u hu r hr r' hr'
      rw [← alone, hold] at hr
      by_cases hut : u = t
      · subst hut
        rw [Function.update_self] at hr'
        exact hyield r hr r' hr'
      · rw [Function.update_of_ne hut, hstart u] at hr'
        cases hr')
  refine ⟨_, hsecond, ?_, ?_⟩
  · rw [Function.update_of_ne hne, Function.update_self]
    rfl
  · rw [Function.update_self, ← alone, hold]
    rfl

end System

end Locking
