import Mathlib.Algebra.BigOperators.Group.List.Basic
import Mathlib.Algebra.Order.Round
import Mathlib.Algebra.Ring.Int.Parity
import Mathlib.Data.Int.Log
import Mathlib.Data.Rat.Floor
import Mathlib.Tactic.FieldSimp
import Mathlib.Tactic.Linarith

/-!
Floating-point arithmetic on rationals. An operation gives the rounded value of its exact result,
and a program that rounds through a parameter has its exact meaning and its floating-point meaning
in one definition.
-/

namespace Rounding

/-! ### The nearest integer -/

/-- The integer next to a number, the even one if there are two. -/
def halfEven (x : ℚ) : ℤ :=
  if Int.fract x < 1 / 2 ∨ Int.fract x = 1 / 2 ∧ Even ⌊x⌋ then ⌊x⌋ else ⌊x⌋ + 1

@[simp] theorem halfEven_intCast (n : ℤ) : halfEven n = n := by
  simp [halfEven]

@[simp] theorem halfEven_zero : halfEven 0 = 0 := by
  simpa using halfEven_intCast 0

theorem floor_le_halfEven (x : ℚ) : ⌊x⌋ ≤ halfEven x := by
  rw [halfEven]
  split <;> omega

theorem halfEven_le_floor_add_one (x : ℚ) : halfEven x ≤ ⌊x⌋ + 1 := by
  rw [halfEven]
  split <;> omega

theorem halfEven_mono {x y : ℚ} (hxy : x ≤ y) : halfEven x ≤ halfEven y := by
  rcases (Int.floor_le_floor hxy).lt_or_eq with hlt | heq
  · exact (halfEven_le_floor_add_one x).trans (hlt.trans_le (floor_le_halfEven y))
  · have hfract : Int.fract x ≤ Int.fract y := by
      rw [Int.fract, Int.fract, heq]
      linarith
    rw [halfEven, halfEven, heq]
    split
    · split <;> omega
    · rename_i hx
      rw [if_neg]
      rintro (hy | ⟨hy, heven⟩)
      · exact hx (.inl (hfract.trans_lt hy))
      · rcases hfract.lt_or_eq with hlt | hsame
        · exact hx (.inl (hlt.trans_eq hy))
        · exact hx (.inr ⟨hsame.trans hy, heven⟩)

theorem abs_halfEven_sub_le (x : ℚ) : |halfEven x - x| ≤ 1 / 2 := by
  have hx := Int.floor_add_fract x
  have hnonneg := Int.fract_nonneg x
  have hlt := Int.fract_lt_one x
  rw [halfEven, abs_le]
  split
  · rename_i hlow
    have hle : Int.fract x ≤ 1 / 2 := hlow.elim le_of_lt fun h => h.1.le
    constructor <;> linarith
  · rename_i hhigh
    have hge : 1 / 2 ≤ Int.fract x := not_lt.mp fun h => hhigh (.inl h)
    push_cast
    constructor <;> linarith

/-- The integer within half a unit. -/
theorem halfEven_eq_of_abs_lt {x : ℚ} {n : ℤ} (h : |n - x| < 1 / 2) : halfEven x = n := by
  have hx := abs_halfEven_sub_le x
  have hclose : |(halfEven x - n : ℚ)| < 1 := by
    rw [abs_lt] at h ⊢
    rw [abs_le] at hx
    constructor <;> linarith
  have hcast : |halfEven x - n| < 1 := by exact_mod_cast hclose
  exact sub_eq_zero.mp (Int.abs_lt_one_iff.mp hcast)

/-- Between two integers the even one is taken. -/
theorem halfEven_of_half {n : ℤ} (x : ℚ) (hx : x = n + 1 / 2) :
    halfEven x = if Even n then n else n + 1 := by
  subst hx
  have hfloor : ⌊(n : ℚ) + 1 / 2⌋ = n := by
    rw [Int.floor_intCast_add]
    norm_num
  have hfract : Int.fract ((n : ℚ) + 1 / 2) = 1 / 2 := by
    rw [Int.fract_intCast_add]
    norm_num [Int.fract]
  rw [halfEven, hfloor, hfract]
  simp

theorem halfEven_neg (x : ℚ) : halfEven (-x) = -halfEven x := by
  have hx := Int.floor_add_fract x
  rcases lt_trichotomy (Int.fract x) (1 / 2) with hlt | heq | hgt
  · have hval : halfEven x = ⌊x⌋ := if_pos (.inl hlt)
    rw [hval]
    apply halfEven_eq_of_abs_lt
    have hnonneg := Int.fract_nonneg x
    push_cast
    rw [abs_lt]
    constructor <;> linarith
  · rw [halfEven_of_half x (n := ⌊x⌋) (by linarith),
      halfEven_of_half (-x) (n := -⌊x⌋ - 1) (by push_cast; linarith)]
    simp only [Int.even_sub_one, even_neg, Int.not_even_iff_odd]
    by_cases heven : Even ⌊x⌋
    · rw [if_neg (Int.not_odd_iff_even.mpr heven), if_pos heven]
      ring
    · rw [if_pos (Int.not_even_iff_odd.mp heven), if_neg heven]
      ring
  · have hval : halfEven x = ⌊x⌋ + 1 := by
      rw [halfEven, if_neg]
      rintro (h | ⟨h, -⟩) <;> linarith
    rw [hval]
    apply halfEven_eq_of_abs_lt
    have hone := Int.fract_lt_one x
    push_cast
    rw [abs_lt]
    constructor <;> linarith

/-! ### The nearest number of a precision -/

/-- The distance of neighbours of precision `p` at a number. -/
def spacing (p : ℕ) (x : ℚ) : ℚ := 2 ^ (Int.log 2 |x| + 1 - p)

/-- The nearest number with `p` binary digits, ties to even, with no bound on the exponent.
The test for zero makes evaluation start at the innermost of nested roundings. -/
def nearest (p : ℕ) (x : ℚ) : ℚ :=
  if x = 0 then 0 else halfEven (x / spacing p x) * spacing p x

section Nearest

variable {p : ℕ} {x y : ℚ}

theorem nearest_eq (p : ℕ) (x : ℚ) : nearest p x = halfEven (x / spacing p x) * spacing p x := by
  rw [nearest]
  split
  · simp [*]
  · rfl

theorem spacing_pos (p : ℕ) (x : ℚ) : 0 < spacing p x :=
  zpow_pos two_pos _

@[simp] theorem spacing_neg (p : ℕ) (x : ℚ) : spacing p (-x) = spacing p x := by
  rw [spacing, spacing, abs_neg]

@[simp] theorem nearest_zero (p : ℕ) : nearest p 0 = 0 := by
  simp [nearest]

@[simp] theorem nearest_neg (p : ℕ) (x : ℚ) : nearest p (-x) = -nearest p x := by
  rw [nearest_eq, nearest_eq, spacing_neg, neg_div, halfEven_neg]
  push_cast
  ring

/-- A multiple of the spacing at it stays. -/
theorem nearest_of_eq_mul {k : ℤ} (h : x = k * spacing p x) : nearest p x = x := by
  have hdiv : x / spacing p x = k := (eq_div_iff (spacing_pos p x).ne').mpr h.symm |>.symm
  rw [nearest_eq, hdiv, halfEven_intCast, ← h]

/-- In units of the spacing a number has `p` binary digits before the point. -/
theorem div_spacing_lt (p : ℕ) (x : ℚ) : |x| / spacing p x < 2 ^ p := by
  have hlog := Int.lt_zpow_succ_log_self (b := 2) one_lt_two |x|
  have hexp : (p : ℤ) + (Int.log 2 |x| + 1 - p) = Int.log 2 |x| + 1 := by ring
  rw [div_lt_iff₀ (spacing_pos p x), spacing, ← zpow_natCast, ← zpow_add₀ two_ne_zero, hexp]
  exact hlog

/-- A number with less than `p` binary digits and an exponent stays. -/
theorem nearest_of_lt {m e : ℤ} (hm : |m| < 2 ^ p) : nearest p (m * 2 ^ e) = m * 2 ^ e := by
  rcases eq_or_ne m 0 with rfl | hm0
  · simp
  have hpow : (0 : ℚ) < 2 ^ e := zpow_pos two_pos e
  have hm' : (0 : ℚ) < |(m : ℚ)| := abs_pos.mpr (Int.cast_ne_zero.mpr hm0)
  have habs : |(m : ℚ) * 2 ^ e| = |(m : ℚ)| * 2 ^ e := by
    rw [abs_mul, abs_of_pos hpow]
  have hlt : |(m : ℚ) * 2 ^ e| < (2 : ℕ) ^ ((p : ℤ) + e) := by
    have hcast : |(m : ℚ)| < 2 ^ p := by exact_mod_cast hm
    rw [habs, Nat.cast_ofNat, zpow_add₀ two_ne_zero, zpow_natCast]
    exact mul_lt_mul_of_pos_right hcast hpow
  have hpos : 0 < |(m : ℚ) * 2 ^ e| := habs ▸ mul_pos hm' hpow
  have hlog := (Int.lt_zpow_iff_log_lt one_lt_two hpos).mp hlt
  apply nearest_of_eq_mul (k := m * 2 ^ (e - (Int.log 2 |(m : ℚ) * 2 ^ e| + 1 - p)).toNat)
  have hexp : e = ((e - (Int.log 2 |(m : ℚ) * 2 ^ e| + 1 - p)).toNat : ℤ) +
      (Int.log 2 |(m : ℚ) * 2 ^ e| + 1 - p) := by
    omega
  rw [spacing]
  push_cast
  rw [mul_assoc, ← zpow_natCast, ← zpow_add₀ two_ne_zero, ← hexp]

theorem nearest_of_le (hp : 0 < p) {m e : ℤ} (hm : |m| ≤ 2 ^ p) :
    nearest p (m * 2 ^ e) = m * 2 ^ e := by
  rcases hm.lt_or_eq with hlt | heq
  · exact nearest_of_lt hlt
  obtain ⟨k, rfl⟩ : ∃ k, p = k + 1 := ⟨p - 1, by omega⟩
  have hhalf : ∃ n : ℤ, |n| < 2 ^ (k + 1) ∧ m = 2 * n := by
    rcases abs_eq (by positivity) |>.mp heq with rfl | rfl
    · refine ⟨2 ^ k, ?_, pow_succ' 2 k⟩
      rw [abs_of_pos (by positivity)]
      exact pow_lt_pow_right₀ one_lt_two k.lt_succ_self
    · refine ⟨-2 ^ k, ?_, by rw [pow_succ']; ring⟩
      rw [abs_neg, abs_of_pos (by positivity)]
      exact pow_lt_pow_right₀ one_lt_two k.lt_succ_self
  obtain ⟨n, hn, rfl⟩ := hhalf
  have hshift : ((2 * n : ℤ) : ℚ) * 2 ^ e = n * 2 ^ (e + 1) := by
    rw [zpow_add_one₀ two_ne_zero]
    push_cast
    ring
  rw [hshift, nearest_of_lt hn]

theorem abs_halfEven_div_spacing_le (p : ℕ) (x : ℚ) : |halfEven (x / spacing p x)| ≤ 2 ^ p := by
  have hlt := (div_spacing_lt p x).le
  have hcast : ((2 ^ p : ℤ) : ℚ) = 2 ^ p := by push_cast; rfl
  have hpos := spacing_pos p x
  rw [abs_le]
  constructor
  · have hle : (((-2 ^ p : ℤ)) : ℚ) ≤ x / spacing p x := by
      rw [Int.cast_neg, hcast, neg_le, ← neg_div]
      exact (div_le_div_of_nonneg_right (neg_le_abs x) hpos.le).trans hlt
    simpa only [halfEven_intCast] using halfEven_mono hle
  · have hle : x / spacing p x ≤ ((2 ^ p : ℤ) : ℚ) := by
      rw [hcast]
      exact (div_le_div_of_nonneg_right (le_abs_self x) hpos.le).trans hlt
    simpa only [halfEven_intCast] using halfEven_mono hle

theorem nearest_nearest (hp : 0 < p) (x : ℚ) : nearest p (nearest p x) = nearest p x := by
  rw [nearest_eq p x]
  exact nearest_of_le hp (abs_halfEven_div_spacing_le p x)

theorem nearest_intCast (hp : 0 < p) {n : ℤ} (hn : |n| ≤ 2 ^ p) : nearest p n = n := by
  simpa using nearest_of_le hp (e := 0) hn

/-- The error is at most half a unit in the last place. -/
theorem abs_nearest_sub_le (p : ℕ) (x : ℚ) : |nearest p x - x| ≤ (2⁻¹) ^ p * |x| := by
  rcases eq_or_ne x 0 with rfl | hx
  · simp
  have hpos := spacing_pos p x
  have hsplit : nearest p x - x = (halfEven (x / spacing p x) - x / spacing p x) * spacing p x := by
    rw [nearest_eq, sub_mul, div_mul_cancel₀ _ hpos.ne']
  have hspacing : spacing p x ≤ 2 * 2⁻¹ ^ p * |x| := by
    have hlog := Int.zpow_log_le_self (b := 2) one_lt_two (abs_pos.mpr hx)
    rw [spacing, zpow_sub₀ two_ne_zero, zpow_add_one₀ two_ne_zero, zpow_natCast, div_eq_mul_inv,
      ← inv_pow, Nat.cast_ofNat] at *
    have hp : (0 : ℚ) < 2⁻¹ ^ p := by positivity
    nlinarith
  calc |nearest p x - x|
      = |halfEven (x / spacing p x) - x / spacing p x| * spacing p x := by
        rw [hsplit, abs_mul, abs_of_pos hpos]
    _ ≤ 1 / 2 * (2 * 2⁻¹ ^ p * |x|) :=
        mul_le_mul (abs_halfEven_sub_le _) hspacing hpos.le (by norm_num)
    _ = 2⁻¹ ^ p * |x| := by ring

theorem nearest_two_zpow (hp : 0 < p) (e : ℤ) : nearest p (2 ^ e) = 2 ^ e := by
  have hone : |(1 : ℤ)| < 2 ^ p := by
    rw [abs_one]
    exact one_lt_pow₀ one_lt_two hp.ne'
  simpa using nearest_of_lt (e := e) hone

theorem spacing_of_pos (hx : 0 < x) : spacing p x = 2 ^ (Int.log 2 x + 1 - p) := by
  rw [spacing, abs_of_pos hx]

/-- Rounding up goes no further than the next power of two. -/
theorem nearest_le_two_zpow (p : ℕ) (hx : 0 < x) : nearest p x ≤ 2 ^ (Int.log 2 x + 1) := by
  have hle : ((halfEven (x / spacing p x) : ℤ) : ℚ) ≤ 2 ^ p := by
    exact_mod_cast (abs_le.mp (abs_halfEven_div_spacing_le p x)).2
  have hexp : Int.log 2 x + 1 = (p : ℤ) + (Int.log 2 x + 1 - p) := by ring
  rw [hexp, zpow_add₀ two_ne_zero, zpow_natCast, ← spacing_of_pos hx, nearest_eq]
  exact mul_le_mul_of_nonneg_right hle (spacing_pos p x).le

theorem two_zpow_le_nearest (hp : 0 < p) (hx : 0 < x) : 2 ^ Int.log 2 x ≤ nearest p x := by
  obtain ⟨k, rfl⟩ : ∃ k, p = k + 1 := ⟨p - 1, by omega⟩
  have hlog := Int.zpow_log_le_self (b := 2) one_lt_two hx
  have hexp : Int.log 2 x = (k : ℤ) + (Int.log 2 x + 1 - (k + 1 : ℕ)) := by push_cast; ring
  have hsplit : (2 : ℚ) ^ Int.log 2 x = (2 ^ k : ℤ) * spacing (k + 1) x := by
    rw [spacing_of_pos hx, Int.cast_pow, Int.cast_ofNat, ← zpow_natCast, ← zpow_add₀ two_ne_zero,
      ← hexp]
  have hle : ((2 ^ k : ℤ) : ℚ) ≤ x / spacing (k + 1) x := by
    rw [le_div_iff₀ (spacing_pos _ _), ← hsplit]
    exact hlog
  rw [hsplit, nearest_eq]
  refine mul_le_mul_of_nonneg_right ?_ (spacing_pos _ _).le
  have hmono := halfEven_mono hle
  rw [halfEven_intCast] at hmono
  exact_mod_cast hmono

theorem nearest_le_nearest_of_pos (hp : 0 < p) (hx : 0 < x) (hxy : x ≤ y) :
    nearest p x ≤ nearest p y := by
  have hy := hx.trans_le hxy
  rcases (Int.log_mono_right (b := 2) hx hxy).lt_or_eq with hlt | heq
  · -- a power of two lies between them
    calc nearest p x ≤ 2 ^ (Int.log 2 x + 1) := nearest_le_two_zpow p hx
      _ ≤ 2 ^ Int.log 2 y := zpow_le_zpow_right₀ one_le_two hlt
      _ ≤ nearest p y := two_zpow_le_nearest hp hy
  · have hsame : spacing p x = spacing p y := by
      rw [spacing_of_pos hx, spacing_of_pos hy, heq]
    rw [nearest_eq, nearest_eq, hsame]
    refine mul_le_mul_of_nonneg_right ?_ (spacing_pos p y).le
    exact_mod_cast halfEven_mono (div_le_div_of_nonneg_right hxy (spacing_pos p y).le)

theorem nearest_nonneg (hp : 0 < p) (hx : 0 ≤ x) : 0 ≤ nearest p x := by
  rcases hx.eq_or_lt with rfl | hpos
  · rw [nearest_zero]
  · exact (zpow_pos two_pos _).le.trans (two_zpow_le_nearest hp hpos)

theorem nearest_mono (hp : 0 < p) : Monotone (nearest p) := by
  intro x y hxy
  rcases lt_or_ge 0 x with hx | hx
  · exact nearest_le_nearest_of_pos hp hx hxy
  have hx' : 0 ≤ nearest p (-x) := nearest_nonneg hp (neg_nonneg.mpr hx)
  rw [nearest_neg] at hx'
  rcases le_or_gt 0 y with hy | hy
  · exact (neg_nonneg.mp hx').trans (nearest_nonneg hp hy)
  · have hneg := nearest_le_nearest_of_pos hp (neg_pos.mpr hy) (neg_le_neg hxy)
    rw [nearest_neg, nearest_neg] at hneg
    exact neg_le_neg_iff.mp hneg

theorem log_mul_two_zpow (hx : 0 < x) (e : ℤ) : Int.log 2 (x * 2 ^ e) = Int.log 2 x + e := by
  have hpow : (0 : ℚ) < 2 ^ e := zpow_pos two_pos e
  have hlow := Int.zpow_log_le_self (b := 2) one_lt_two hx
  have hhigh := Int.lt_zpow_succ_log_self (b := 2) one_lt_two x
  apply le_antisymm
  · rw [← Int.lt_add_one_iff, ← Int.lt_zpow_iff_log_lt one_lt_two (mul_pos hx hpow), add_right_comm,
      Nat.cast_ofNat, zpow_add₀ two_ne_zero]
    exact mul_lt_mul_of_pos_right hhigh hpow
  · rw [← Int.zpow_le_iff_le_log one_lt_two (mul_pos hx hpow), Nat.cast_ofNat,
      zpow_add₀ two_ne_zero]
    exact mul_le_mul_of_nonneg_right hlow hpow.le

/-- A power of two moves the exponent. -/
theorem nearest_mul_two_zpow (p : ℕ) (x : ℚ) (e : ℤ) :
    nearest p (x * 2 ^ e) = nearest p x * 2 ^ e := by
  rcases eq_or_ne x 0 with rfl | hx
  · simp
  have hpow : (0 : ℚ) < 2 ^ e := zpow_pos two_pos e
  have hspacing : spacing p (x * 2 ^ e) = spacing p x * 2 ^ e := by
    rw [spacing, spacing, abs_mul, abs_of_pos hpow,
      log_mul_two_zpow (abs_pos.mpr hx), ← zpow_add₀ two_ne_zero]
    congr 1
    ring
  rw [nearest_eq, nearest_eq, hspacing, mul_div_mul_right _ _ hpow.ne', mul_assoc]

end Nearest

/-! ### Where rounding reaches an integer -/

/-- Half of the distance from a positive integer to its neighbour below. -/
def slack (p m : ℕ) : ℚ := 2 ^ ((Nat.clog 2 m : ℤ) - 1 - p)

section Slack

variable {p m : ℕ} {x : ℚ}

theorem slack_pos (p m : ℕ) : 0 < slack p m := zpow_pos two_pos _

/-- From the power of two below a positive integer it is at least half a gap. -/
theorem two_zpow_le_sub_slack (hm : 0 < m) (hp : Nat.clog 2 m < p) :
    (2 : ℚ) ^ ((Nat.clog 2 m : ℤ) - 1) ≤ m - slack p m := by
  rcases (show 1 ≤ m from hm).eq_or_lt with rfl | hlt
  · have hslack : slack p 1 ≤ 2 ^ (-1 : ℤ) := by
      rw [slack, Nat.clog_one_right]
      exact zpow_le_zpow_right₀ one_le_two (by push_cast; omega)
    rw [Nat.clog_one_right, Nat.cast_one]
    norm_num at hslack ⊢
    linarith
  · have hclog := Nat.clog_pos one_lt_two hlt
    have hpred := Nat.pow_pred_clog_lt_self one_lt_two hlt
    have hexp : (Nat.clog 2 m : ℤ) - 1 = ((Nat.clog 2 m - 1 : ℕ) : ℤ) := by omega
    have hslack : slack p m ≤ 1 := zpow_le_one_of_nonpos₀ one_le_two (by omega)
    have hcast : (2 : ℚ) ^ (Nat.clog 2 m - 1) + 1 ≤ m := by exact_mod_cast hpred
    rw [hexp, zpow_natCast]
    linarith

/-- In the binade that ends with a positive integer the integer is an even number of units. -/
theorem spacing_below (hp : Nat.clog 2 m < p)
    (hlow : (2 : ℚ) ^ ((Nat.clog 2 m : ℤ) - 1) ≤ x) (hhigh : x < m) :
    spacing p x = 2 * slack p m ∧
      ∃ n : ℤ, Even n ∧ (m : ℚ) = n * spacing p x := by
  have hx : 0 < x := (zpow_pos two_pos _).trans_le hlow
  have hlog : Int.log 2 x = Nat.clog 2 m - 1 := by
    have hge := (Int.zpow_le_iff_le_log one_lt_two hx).mp hlow
    have hlt : x < ((2 : ℕ) : ℚ) ^ (Nat.clog 2 m : ℤ) := by
      have hle : (m : ℚ) ≤ (2 : ℕ) ^ Nat.clog 2 m := by exact_mod_cast Nat.le_pow_clog one_lt_two m
      rw [zpow_natCast]
      exact hhigh.trans_le hle
    have hlt' := (Int.lt_zpow_iff_log_lt one_lt_two hx).mp hlt
    omega
  obtain ⟨k, hk⟩ : ∃ k, p = Nat.clog 2 m + (k + 1) := ⟨p - Nat.clog 2 m - 1, by omega⟩
  have hexp : (Nat.clog 2 m : ℤ) - 1 + 1 - p = -((k + 1 : ℕ) : ℤ) := by omega
  constructor
  · rw [spacing_of_pos hx, hlog, slack, ← zpow_one_add₀ two_ne_zero]
    congr 1
    ring
  · refine ⟨m * 2 ^ (k + 1), ?_, ?_⟩
    · exact Even.mul_left ⟨2 ^ k, by ring⟩ _
    · rw [spacing_of_pos hx, hlog, hexp, zpow_neg, zpow_natCast]
      push_cast
      rw [mul_assoc, mul_inv_cancel₀ (by positivity), mul_one]

/-- A number further below a positive integer than half of the last gap is not rounded to it. -/
theorem nearest_lt_natCast (hm : 0 < m) (hp : Nat.clog 2 m < p) (h : x < m - slack p m) :
    nearest p x < m := by
  have hp0 : 0 < p := by omega
  have hslack := slack_pos p m
  rcases lt_or_ge x (2 ^ ((Nat.clog 2 m : ℤ) - 1)) with hlow | hlow
  · calc nearest p x ≤ nearest p (2 ^ ((Nat.clog 2 m : ℤ) - 1)) := nearest_mono hp0 hlow.le
      _ = 2 ^ ((Nat.clog 2 m : ℤ) - 1) := nearest_two_zpow hp0 _
      _ ≤ m - slack p m := two_zpow_le_sub_slack hm hp
      _ < m := by linarith
  · obtain ⟨hspacing, n, -, hn⟩ := spacing_below hp hlow (by linarith)
    have hpos := spacing_pos p x
    have hdiv : x / spacing p x < (n - 1 : ℤ) + 1 / 2 := by
      rw [div_lt_iff₀ hpos]
      push_cast
      linarith
    have hle : halfEven (x / spacing p x) ≤ n - 1 := by
      have hclose := abs_le.mp (abs_halfEven_sub_le (x / spacing p x))
      have hcast : ((halfEven (x / spacing p x) : ℤ) : ℚ) < (n - 1 : ℤ) + 1 := by linarith
      exact Int.lt_add_one_iff.mp (by exact_mod_cast hcast)
    have hcast : ((halfEven (x / spacing p x) : ℤ) : ℚ) ≤ n - 1 := by exact_mod_cast hle
    calc nearest p x = halfEven (x / spacing p x) * spacing p x := nearest_eq p x
      _ ≤ (n - 1) * spacing p x := mul_le_mul_of_nonneg_right hcast hpos.le
      _ < n * spacing p x := by linarith
      _ = m := hn.symm

/-- Half of the last gap below a positive integer is a tie, which goes to the integer. -/
theorem nearest_sub_slack (hm : 0 < m) (hp : Nat.clog 2 m < p) :
    nearest p (m - slack p m) = m := by
  have hslack := slack_pos p m
  obtain ⟨hspacing, n, heven, hn⟩ := spacing_below hp (two_zpow_le_sub_slack hm hp) (by linarith)
  have hpos := spacing_pos p ((m : ℚ) - slack p m)
  have hdiv : ((m : ℚ) - slack p m) / spacing p (m - slack p m) = (n - 1 : ℤ) + 1 / 2 := by
    rw [div_eq_iff hpos.ne']
    push_cast
    linarith
  have hodd : ¬ Even (n - 1) := Int.even_sub_one.not.mpr (not_not.mpr heven)
  rw [nearest_eq, halfEven_of_half _ hdiv, if_neg hodd, sub_add_cancel, ← hn]

/-- A number is rounded to a positive integer or beyond exactly from half of the last gap on. -/
theorem natCast_le_nearest_iff (hm : 0 < m) (hp : Nat.clog 2 m < p) :
    (m : ℚ) ≤ nearest p x ↔ m - slack p m ≤ x := by
  constructor
  · intro h
    by_contra hlt
    exact absurd h (not_le.mpr (nearest_lt_natCast hm hp (not_le.mp hlt)))
  · intro h
    calc (m : ℚ) = nearest p (m - slack p m) := (nearest_sub_slack hm hp).symm
      _ ≤ nearest p x := nearest_mono (by omega) h

/-- The same for a power of two beyond the precision. -/
theorem two_zpow_le_nearest_iff (hp : 0 < p) (e : ℤ) :
    2 ^ e ≤ nearest p x ↔ 2 ^ e - 2 ^ (e - 1 - p) ≤ x := by
  have hpow : (0 : ℚ) < 2 ^ e := zpow_pos two_pos e
  have hone := natCast_le_nearest_iff (x := x * 2 ^ (-e)) one_pos
    (show Nat.clog 2 1 < p by rwa [Nat.clog_one_right])
  have hscale : x * 2 ^ (-e) * 2 ^ e = x := by
    rw [zpow_neg, mul_assoc, inv_mul_cancel₀ hpow.ne', mul_one]
  have hslack : slack p 1 * 2 ^ e = 2 ^ (e - 1 - p) := by
    rw [slack, Nat.clog_one_right, ← zpow_add₀ two_ne_zero]
    congr 1
    push_cast
    ring
  rw [Nat.cast_one] at hone
  calc 2 ^ e ≤ nearest p x
      ↔ 1 * 2 ^ e ≤ nearest p (x * 2 ^ (-e)) * 2 ^ e := by
        rw [one_mul, ← nearest_mul_two_zpow, hscale]
    _ ↔ 1 - slack p 1 ≤ x * 2 ^ (-e) := by rw [mul_le_mul_iff_left₀ hpow, hone]
    _ ↔ (1 - slack p 1) * 2 ^ e ≤ x * 2 ^ (-e) * 2 ^ e := (mul_le_mul_iff_left₀ hpow).symm
    _ ↔ 2 ^ e - 2 ^ (e - 1 - p) ≤ x := by rw [sub_mul, one_mul, hslack, hscale]

end Slack

end Rounding

/-! ### Arithmetic that rounds -/

/-- What the operations of a floating-point type make of their exact results. -/
class Rounding where
  fl : ℚ → ℚ
  fl_mono : Monotone fl
  fl_fl : ∀ x, fl (fl x) = fl x
  fl_zero : fl 0 = 0
  /-- A bound of the relative error. -/
  unit : ℚ
  unit_nonneg : 0 ≤ unit
  unit_lt_one : unit < 1
  abs_fl_sub_le : ∀ x, |fl x - x| ≤ unit * |x|

namespace Rounding

/-- Arithmetic that does not round. -/
@[reducible] def exact : Rounding where
  fl := id
  fl_mono := monotone_id
  fl_fl _ := rfl
  fl_zero := rfl
  unit := 0
  unit_nonneg := le_refl 0
  unit_lt_one := zero_lt_one
  abs_fl_sub_le x := by simp

/-- The arithmetic of a `double`. -/
instance double : Rounding where
  fl := nearest 53
  fl_mono := nearest_mono (by decide)
  fl_fl := nearest_nearest (by decide)
  fl_zero := nearest_zero 53
  unit := 2⁻¹ ^ 53
  unit_nonneg := by positivity
  unit_lt_one := pow_lt_one₀ (by norm_num) (by norm_num) (by norm_num)
  abs_fl_sub_le := abs_nearest_sub_le 53

attribute [simp] fl_zero fl_fl

section Laws

variable [Rounding] {x : ℚ}

theorem fl_nonneg (h : 0 ≤ x) : 0 ≤ fl x := by
  rw [← fl_zero]
  exact fl_mono h

/-- Adding something positive to a rounded number does not make it smaller. -/
theorem le_fl_add {a : ℚ} (ha : fl a = a) (hx : 0 ≤ x) : a ≤ fl (a + x) := by
  calc a = fl a := ha.symm
    _ ≤ fl (a + x) := fl_mono (le_add_of_nonneg_right hx)

end Laws

/-! ### Errors of sums -/

/-- A number that `n` roundings in a row may make of a number that is not negative. -/
structure Near [Rounding] (n : ℕ) (x y : ℚ) : Prop where
  low : (1 - unit) ^ n * x ≤ y
  high : y ≤ (1 + unit) ^ n * x

section Near

variable [Rounding] {n : ℕ} {x y : ℚ}

theorem one_sub_unit_pos : 0 < 1 - unit := sub_pos.mpr unit_lt_one

theorem near_self (x : ℚ) : Near 0 x x := ⟨by simp, by simp⟩

theorem Near.nonneg (h : Near n x y) (hx : 0 ≤ x) : 0 ≤ y :=
  (mul_nonneg (pow_nonneg one_sub_unit_pos.le n) hx).trans h.low

theorem Near.mono (h : Near n x y) (hx : 0 ≤ x) {m : ℕ} (hm : n ≤ m) : Near m x y := by
  have hunit := unit_nonneg
  have hlow : (1 - unit) ^ m ≤ (1 - unit) ^ n :=
    pow_le_pow_of_le_one one_sub_unit_pos.le (by linarith) hm
  have hhigh : (1 + unit) ^ n ≤ (1 + unit) ^ m := pow_le_pow_right₀ (by linarith) hm
  exact ⟨(mul_le_mul_of_nonneg_right hlow hx).trans h.low,
    h.high.trans (mul_le_mul_of_nonneg_right hhigh hx)⟩

/-- One more rounding. -/
theorem Near.fl (h : Near n x y) (hx : 0 ≤ x) : Near (n + 1) x (fl y) := by
  have hy := h.nonneg hx
  have herror := abs_le.mp (abs_fl_sub_le y)
  rw [abs_of_nonneg hy] at herror
  have hlow : (1 - unit) * y ≤ Rounding.fl y := by linarith [herror.1]
  have hhigh : Rounding.fl y ≤ (1 + unit) * y := by linarith [herror.2]
  constructor
  · calc (1 - unit) ^ (n + 1) * x = (1 - unit) * ((1 - unit) ^ n * x) := by ring
      _ ≤ (1 - unit) * y := mul_le_mul_of_nonneg_left h.low one_sub_unit_pos.le
      _ ≤ Rounding.fl y := hlow
  · calc Rounding.fl y ≤ (1 + unit) * y := hhigh
      _ ≤ (1 + unit) * ((1 + unit) ^ n * x) :=
        mul_le_mul_of_nonneg_left h.high (add_nonneg zero_le_one unit_nonneg)
      _ = (1 + unit) ^ (n + 1) * x := by ring

theorem Near.add (h : Near n x y) {x' y' : ℚ} (h' : Near n x' y') : Near n (x + x') (y + y') :=
  ⟨by linarith [h.low, h'.low], by linarith [h.high, h'.high]⟩

theorem Near.div (h : Near n x y) {c : ℚ} (hc : 0 ≤ c) : Near n (x / c) (y / c) := by
  constructor
  · rw [← mul_div_assoc]
    exact div_le_div_of_nonneg_right h.low hc
  · rw [← mul_div_assoc]
    exact div_le_div_of_nonneg_right h.high hc

/-- A sum that rounds after each addition, of terms that were rounded themselves. -/
theorem Near.foldl {α : Type*} {f g : α → ℚ} {l : List α} (h : ∀ i ∈ l, Near n (f i) (g i))
    (hf : ∀ i ∈ l, 0 ≤ f i) (hxy : Near n x y) (hx : 0 ≤ x) :
    Near (n + l.length) (x + (l.map f).sum)
      (l.foldl (fun sum i => Rounding.fl (sum + g i)) y) := by
  induction l generalizing n x y with
  | nil => simpa using hxy
  | cons i l ih =>
      have hi := hf i (by simp)
      have hstep := (hxy.add (h i (by simp))).fl (add_nonneg hx hi)
      have hrest := ih (fun j hj => (h j (by simp [hj])).mono (hf j (by simp [hj])) (Nat.le_succ n))
        (fun j hj => hf j (by simp [hj])) hstep (add_nonneg hx hi)
      have hlength : n + (i :: l).length = n + 1 + l.length := by
        rw [List.length_cons]
        omega
      rw [hlength, List.map_cons, List.sum_cons, ← add_assoc]
      exact hrest

end Near

end Rounding
