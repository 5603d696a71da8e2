import DbGovernor.Model.DbtopServer
import DbGovernor.Verification.Shared.StableSort

/-!
# The order of the list

The keys `c`, `r`, `w` and `u` of `dbtop` order the accounts in one way only, whatever order they
came in or were in before; `l` and `t` leave accounts of the same figure as they were.
-/

namespace DbGovernor

/-! ### The comparisons -/

section Comparisons

variable {κ : Type} [LinearOrder κ] {x : DbtopExch → κ} {a b c : DbtopExch}

theorem compareId_trans (hab : (compareId a b).isLE) (hbc : (compareId b c).isLE) :
    (compareId a c).isLE := Std.TransOrd.isLE_trans hab hbc

theorem compareId_total (a b : DbtopExch) : (compareId a b).isLE ∨ (compareId b a).isLE :=
  StableSort.isLE_total a.id.bytes b.id.bytes

theorem compareId_antisymm (hab : (compareId a b).isLE) (hba : (compareId b a).isLE) :
    a.id = b.id :=
  Username.ext (Std.LawfulEqOrd.eq_of_compare (Std.OrientedCmp.isLE_antisymm hab hba))

/-- The larger figure first, and of one figure the names in their order. -/
theorem gintCompareBy_isLE :
    (gintCompareBy x a b).isLE ↔ x b < x a ∨ x a = x b ∧ (compareId a b).isLE := by
  rw [gintCompareBy]
  split
  case isTrue h => simp [h]
  case isFalse h =>
    split
    case isTrue heq => simp [heq]
    case isFalse hne => simp [h, hne]

theorem gintCompareByFigure_isLE {x : DbtopExch → ℤ} :
    (gintCompareByFigure x a b).isLE ↔ x b < x a ∨ x a = x b := by
  rw [gintCompareByFigure]
  split
  case isTrue h => simp [h]
  case isFalse h =>
    split
    case isTrue heq => simp [heq]
    case isFalse hne => simp [h, hne]

end Comparisons

/-! ### The sort types -/

section SortTypes

variable (value : ℤ → ℚ) (now : ℤ)

/-- The figure that a sort type goes by, but for the names. -/
def SortType.figure : SortType → DbtopExch → ℚ
  | .cpu, ac => value ac.current.cpu
  | .read, ac => ac.current.read
  | .write, ac => ac.current.write
  | .username, _ => 0
  | .restrict, ac => ac.timeout
  | .tte, ac => getTimeToEnd now ac.toExchFigures

/-- Accounts of the same figure are left as they were. -/
def SortType.Stable : SortType → Prop
  | .restrict | .tte => True
  | _ => False

/-- `a` may stand before `b`. -/
def SortType.Ordered (sortType : SortType) (a b : DbtopExch) : Prop :=
  sortType.figure value now b < sortType.figure value now a ∨
    sortType.figure value now a = sortType.figure value now b ∧
      (sortType.Stable ∨ (compareId a b).isLE)

theorem SortType.compare_isLE (sortType : SortType) (a b : DbtopExch) :
    (sortType.compare value now a b).isLE ↔ sortType.Ordered value now a b := by
  cases sortType with
  | cpu => simp [SortType.compare, SortType.Ordered, SortType.figure, SortType.Stable,
      gintCompareBy_isLE]
  | read => simp [SortType.compare, SortType.Ordered, SortType.figure, SortType.Stable,
      gintCompareBy_isLE]
  | write => simp [SortType.compare, SortType.Ordered, SortType.figure, SortType.Stable,
      gintCompareBy_isLE]
  | username => simp [SortType.compare, SortType.Ordered, SortType.figure, SortType.Stable]
  | restrict => simp [SortType.compare, SortType.Ordered, SortType.figure, SortType.Stable,
      gintCompareByFigure_isLE]
  | tte => simp [SortType.compare, SortType.Ordered, SortType.figure, SortType.Stable,
      gintCompareByFigure_isLE]

variable {value now} {sortType : SortType} {a b c : DbtopExch}

theorem SortType.Ordered.trans (hab : sortType.Ordered value now a b)
    (hbc : sortType.Ordered value now b c) : sortType.Ordered value now a c := by
  rcases hab with hlt | ⟨heq, htie⟩
  · rcases hbc with hlt' | ⟨heq', -⟩
    · exact .inl (hlt'.trans hlt)
    · exact .inl (heq' ▸ hlt)
  · rcases hbc with hlt' | ⟨heq', htie'⟩
    · exact .inl (heq ▸ hlt')
    · refine .inr ⟨heq.trans heq', ?_⟩
      rcases htie with hstable | hle
      · exact .inl hstable
      · exact htie'.imp_right (compareId_trans hle)

theorem SortType.ordered_total (sortType : SortType) (a b : DbtopExch) :
    sortType.Ordered value now a b ∨ sortType.Ordered value now b a := by
  rcases lt_trichotomy (sortType.figure value now a) (sortType.figure value now b) with h | h | h
  · exact .inr (.inl h)
  · rcases compareId_total a b with hle | hle
    · exact .inl (.inr ⟨h, .inr hle⟩)
    · exact .inr (.inr ⟨h.symm, .inr hle⟩)
  · exact .inl (.inl h)

/-- Without ties the order tells the names apart. -/
theorem SortType.Ordered.antisymm (hsort : ¬ sortType.Stable)
    (hab : sortType.Ordered value now a b) (hba : sortType.Ordered value now b a) :
    a.id = b.id := by
  rcases hab with hlt | ⟨heq, htie⟩
  · rcases hba with hlt' | ⟨heq', -⟩
    · exact absurd hlt' (lt_asymm hlt)
    · exact absurd hlt (heq' ▸ lt_irrefl _)
  · rcases hba with hlt' | ⟨-, htie'⟩
    · exact absurd hlt' (heq ▸ lt_irrefl _)
    · exact compareId_antisymm (htie.resolve_left hsort) (htie'.resolve_left hsort)

end SortTypes

/-! ### The screen -/

section Screen

variable {value : ℤ → ℚ} {now : ℤ} {sortType : SortType} {accounts accounts' : List DbtopExch}

theorem sortAccounts_perm : (sortAccounts value now sortType accounts).Perm accounts :=
  List.mergeSort_perm _ _

section Compare

variable (value now sortType)

theorem compare_trans (a b c : DbtopExch) (hab : (sortType.compare value now a b).isLE)
    (hbc : (sortType.compare value now b c).isLE) : (sortType.compare value now a c).isLE := by
  rw [SortType.compare_isLE] at hab hbc ⊢
  exact hab.trans hbc

theorem compare_total (a b : DbtopExch) : (sortType.compare value now a b).isLE ||
    (sortType.compare value now b a).isLE := by
  rw [Bool.or_eq_true, SortType.compare_isLE, SortType.compare_isLE]
  exact sortType.ordered_total a b

end Compare

theorem sortAccounts_ordered :
    (sortAccounts value now sortType accounts).Pairwise (sortType.Ordered value now) := by
  refine List.Pairwise.imp ?_ (List.pairwise_mergeSort (compare_trans value now sortType)
    (compare_total value now sortType) accounts)
  intro a b hab
  exact (sortType.compare_isLE value now a b).mp hab

/-- Accounts of different names have one order. -/
theorem sortAccounts_eq_iff (hsort : ¬ sortType.Stable)
    (hnames : (accounts.map fun ac => ac.id).Nodup) :
    sortAccounts value now sortType accounts = accounts' ↔
      accounts'.Perm accounts ∧ accounts'.Pairwise (sortType.Ordered value now) := by
  rw [sortAccounts, StableSort.mergeSort_eq_iff (compare_trans value now sortType)
    (compare_total value now sortType)]
  · simp only [SortType.compare_isLE]
  · simp only [SortType.compare_isLE]
    intro a ha b hb hab hba
    exact List.inj_on_of_nodup_map hnames ha hb (hab.antisymm hsort hba)

/-- Ties are left as they were. -/
theorem sortAccounts_filter (hsort : sortType.Stable) (k : ℚ) :
    (sortAccounts value now sortType accounts).filter (sortType.figure value now · = k) =
      accounts.filter (sortType.figure value now · = k) := by
  refine StableSort.filter_mergeSort (compare_trans value now sortType)
    (compare_total value now sortType) ?_
  refine List.pairwise_of_forall_mem_list ?_
  intro a ha b hb
  have hfa : sortType.figure value now a = k := by simpa using (List.mem_filter.mp ha).2
  have hfb : sortType.figure value now b = k := by simpa using (List.mem_filter.mp hb).2
  rw [SortType.compare_isLE]
  exact .inr ⟨hfa.trans hfb.symm, .inl hsort⟩

/-- A key that is pressed at some time. -/
def pressKey (value : ℤ → ℚ) (accounts : List DbtopExch) (key : ℤ × SortType) : List DbtopExch :=
  sortAccounts value key.1 key.2 accounts

theorem foldl_pressKey_perm (keys : List (ℤ × SortType)) :
    (keys.foldl (pressKey value) accounts).Perm accounts := by
  induction keys generalizing accounts with
  | nil => rfl
  | cons key keys ih => exact ih.trans sortAccounts_perm

/-- An account of which only the read rate is known. -/
def readingAccount (name : List UInt8) (read : ℤ) : DbtopExch where
  id := strlcpy name
  current := ⟨0, 0, read⟩
  shortAverage := ⟨0, 0, 0⟩
  midAverage := ⟨0, 0, 0⟩
  longAverage := ⟨0, 0, 0⟩
  restricted := 0
  timeout := 0
  fieldRestrict := 0
  fieldLevelRestrict := 0
  startCount := 0

end Screen

end DbGovernor
