import Mathlib.Algebra.BigOperators.Group.Finset.Basic
import Mathlib.Algebra.BigOperators.Group.Finset.Piecewise
import Mathlib.Algebra.BigOperators.Group.List.Basic
import Mathlib.Algebra.Order.Monoid.Defs
import Mathlib.Data.List.AList

/-!
Two tables, where each entry of the first lists keys of the second. When every key is listed
once, sums over the lists of all entries are sums over the second table.
-/

namespace KeyedPartition

theorem sum_map_flatMap {α ι M : Type*} [AddCommMonoid M] (entries : List α) (list : α → List ι)
    (f : ι → M) :
    ((entries.flatMap list).map f).sum = (entries.map fun e => ((list e).map f).sum).sum := by
  induction entries with
  | nil => rfl
  | cons e entries ih =>
      rw [List.flatMap_cons, List.map_append, List.sum_append, ih, List.map_cons, List.sum_cons]

variable {κ ι : Type*} [DecidableEq κ] [DecidableEq ι] {ν μ M : Type*}

/-- Every key of `members` is listed by one entry of `owners`, once, and no other key is. -/
structure Covers (owners : AList fun _ : κ => ν) (list : ν → List ι)
    (members : AList fun _ : ι => μ) : Prop where
  nodup : ∀ a o, owners.lookup a = some o → (list o).Nodup
  disjoint : ∀ a b o p, owners.lookup a = some o → owners.lookup b = some p → a ≠ b →
    (list o).Disjoint (list p)
  mem_iff : ∀ i, (members.lookup i).isSome ↔ ∃ a o, owners.lookup a = some o ∧ i ∈ list o

section

variable {owners : AList fun _ : κ => ν} {list : ν → List ι} {members : AList fun _ : ι => μ}

theorem lookup_of_mem_entries {t : AList fun _ : κ => ν} {e : Sigma fun _ : κ => ν}
    (he : e ∈ t.entries) : t.lookup e.1 = some e.2 :=
  AList.mem_lookup_iff.mpr he

theorem Covers.nodup_flatMap (h : Covers owners list members) :
    (owners.entries.flatMap fun e => list e.2).Nodup := by
  refine List.nodup_flatMap.mpr ⟨?_, ?_⟩
  · intro e he
    exact h.nodup e.1 e.2 (lookup_of_mem_entries he)
  · have hkeys : owners.entries.Pairwise fun e f => e.1 ≠ f.1 :=
      List.pairwise_map.mp owners.keys_nodup
    refine hkeys.imp_of_mem ?_
    intro e f he hf hne
    exact h.disjoint e.1 f.1 e.2 f.2 (lookup_of_mem_entries he) (lookup_of_mem_entries hf) hne

/-- The lists of all entries together are the keys of the second table. -/
theorem Covers.perm (h : Covers owners list members) :
    (owners.entries.flatMap fun e => list e.2).Perm members.keys := by
  rw [List.perm_ext_iff_of_nodup h.nodup_flatMap members.keys_nodup]
  intro i
  rw [← AList.mem_keys, ← AList.lookup_isSome, h.mem_iff, List.mem_flatMap]
  constructor
  · rintro ⟨e, he, hi⟩
    exact ⟨e.1, e.2, lookup_of_mem_entries he, hi⟩
  · rintro ⟨a, o, ha, hi⟩
    exact ⟨⟨a, o⟩, AList.mem_lookup_iff.mp ha, hi⟩

/-- Nothing is lost and nothing is counted twice. -/
theorem Covers.sum_eq [AddCommMonoid M] (h : Covers owners list members) (f : ι → M) :
    (owners.entries.map fun e => ((list e.2).map f).sum).sum = (members.keys.map f).sum := by
  rw [← sum_map_flatMap owners.entries (fun e => list e.2) f]
  exact (h.perm.map f).sum_eq

end

/-! ### A list by the keys of its elements -/

section Fibres

variable {κ α M : Type*} [DecidableEq κ] (key : α → κ) (val : α → M)

theorem sum_cons_fibre [AddCommMonoid M] (x : α) (l : List α) (k : κ) :
    (((x :: l).filter fun y => key y = k).map val).sum =
      (if key x = k then val x else 0) + ((l.filter fun y => key y = k).map val).sum := by
  by_cases h : key x = k <;> simp [h]

/-- The sums over the keys add up to the whole sum. -/
theorem sum_fibres [AddCommMonoid M] {l : List α} {keys : Finset κ}
    (hkeys : ∀ x ∈ l, key x ∈ keys) :
    ∑ k ∈ keys, ((l.filter fun x => key x = k).map val).sum = (l.map val).sum := by
  induction l with
  | nil => simp
  | cons x l ih =>
      have hrest := ih fun y hy => hkeys y (List.mem_cons_of_mem x hy)
      simp only [sum_cons_fibre, Finset.sum_add_distrib, hrest, List.map_cons, List.sum_cons,
        Finset.sum_ite_eq, if_pos (hkeys x List.mem_cons_self)]

/-- The sums over some of the keys add up to at most the whole sum. -/
theorem sum_fibres_le [AddCommMonoid M] [PartialOrder M] [IsOrderedAddMonoid M] {l : List α}
    (hval : ∀ x ∈ l, 0 ≤ val x) (keys : Finset κ) :
    ∑ k ∈ keys, ((l.filter fun x => key x = k).map val).sum ≤ (l.map val).sum := by
  induction l with
  | nil => simp
  | cons x l ih =>
      have hrest := ih fun y hy => hval y (List.mem_cons_of_mem x hy)
      simp only [sum_cons_fibre, Finset.sum_add_distrib, List.map_cons, List.sum_cons,
        Finset.sum_ite_eq]
      refine add_le_add ?_ hrest
      split
      · exact le_rfl
      · exact hval x List.mem_cons_self

end Fibres

end KeyedPartition
