import DbGovernor.Model.CStrings
import Mathlib.Data.List.Induction
import Mathlib.Tactic.IntervalCases

/-!
# The integers of the configuration

The functions that read a number agree on the text of an integer, and a number that is printed
is read back.
-/

namespace DbGovernor

/-! ## Decimal digits -/

theorem decimal_append_singleton (ds : CString) (c : UInt8) :
    decimal (ds ++ [c]) = 10 * decimal ds + (c.toNat - 48) := by
  rw [decimal, decimal, List.foldl_append, List.foldl_cons, List.foldl_nil]

/-- Digits at the end do not make a number smaller. -/
theorem decimal_le_append (ds rest : CString) : decimal ds ≤ decimal (ds ++ rest) := by
  induction rest using List.reverseRecOn with
  | nil => rw [List.append_nil]
  | append_singleton rest c ih =>
      rw [← List.append_assoc, decimal_append_singleton]
      omega

theorem decimal_take_le (ds : CString) (k : ℕ) : decimal (ds.take k) ≤ decimal ds := by
  simpa using decimal_le_append (ds.take k) (ds.drop k)

theorem digits_eq_self {ds : CString} (h : ∀ c ∈ ds, isDigit c) : digits ds = ds :=
  List.takeWhile_eq_self_iff.mpr h

/-! ## Printing -/

/-- The bytes that a number without a sign is printed as. -/
def decimalText (n : ℕ) : CString := (Nat.toDigits 10 n).map fun c => UInt8.ofNat c.toNat

theorem decimalText_eq (n : ℕ) :
    decimalText n = (if n < 10 then [] else decimalText (n / 10)) ++ [UInt8.ofNat (48 + n % 10)] := by
  rw [decimalText, Nat.toDigits_eq_if (by decide)]
  split
  · rename_i hn
    rw [List.map_singleton, Nat.toNat_digitChar_of_lt_ten hn, Nat.mod_eq_of_lt hn, List.nil_append]
  · rw [List.map_append, List.map_singleton,
      Nat.toNat_digitChar_of_lt_ten (Nat.mod_lt _ (by decide)), decimalText]

theorem toNat_digit {d : ℕ} (h : d < 10) : (UInt8.ofNat (48 + d)).toNat = 48 + d := by
  rw [UInt8.toNat_ofNat', Nat.mod_eq_of_lt]
  omega

theorem isDigit_digit {d : ℕ} (h : d < 10) : isDigit (UInt8.ofNat (48 + d)) = true := by
  interval_cases d <;> rfl

theorem isDigit_of_mem_decimalText {n : ℕ} {c : UInt8} (h : c ∈ decimalText n) :
    isDigit c = true := by
  induction n using Nat.strong_induction_on with
  | _ n ih =>
      rw [decimalText_eq, List.mem_append, List.mem_singleton] at h
      rcases h with h | rfl
      · split at h
        · cases h
        · exact ih (n / 10) (by omega) h
      · exact isDigit_digit (Nat.mod_lt _ (by decide))

/-- A number that is printed is read back. -/
theorem decimal_decimalText (n : ℕ) : decimal (decimalText n) = n := by
  induction n using Nat.strong_induction_on with
  | _ n ih =>
      rw [decimalText_eq, decimal_append_singleton, toNat_digit (Nat.mod_lt _ (by decide))]
      split
      · rw [decimal, List.foldl_nil]
        omega
      · rw [ih (n / 10) (by omega)]
        omega

theorem decimalText_ne_nil (n : ℕ) : decimalText n ≠ [] := by
  rw [decimalText_eq]
  simp

/-- A printed number starts with a digit. -/
theorem exists_decimalText_cons (n : ℕ) :
    ∃ c rest, decimalText n = c :: rest ∧ isDigit c = true := by
  obtain ⟨c, rest, hc⟩ := List.exists_cons_of_ne_nil (decimalText_ne_nil n)
  exact ⟨c, rest, hc, isDigit_of_mem_decimalText (hc ▸ List.mem_cons_self)⟩

theorem length_decimalText_le {n k : ℕ} (hk : 0 < k) (h : n < 10 ^ k) :
    (decimalText n).length ≤ k := by
  rw [decimalText, List.length_map]
  exact (Nat.length_toDigits_le_iff (by decide) hk).mpr h

/-! ## Texts of integers -/

/-- An optional sign and at least one digit. -/
def IntegerText (s : CString) : Prop :=
  (splitSign s).2 ≠ [] ∧ ∀ c ∈ (splitSign s).2, isDigit c = true

instance (s : CString) : Decidable (IntegerText s) :=
  inferInstanceAs (Decidable (_ ∧ ∀ c ∈ (splitSign s).2, isDigit c = true))

/-- The number that a sign and digits stand for. -/
def signedValue (r : Bool × CString) : ℤ := if r.1 then -decimal r.2 else decimal r.2

theorem not_isSpace_of_isDigit {c : UInt8} (h : isDigit c = true) : isSpace c = false := by
  simp only [isDigit, isSpace, Bool.and_eq_true, decide_eq_true_eq] at h ⊢
  grind

theorem splitSign_of_isDigit {c : UInt8} {s : CString} (h : isDigit c = true) :
    splitSign (c :: s) = (false, c :: s) := by
  rw [splitSign]
  · rintro _ ⟨⟩
    cases h
  · rintro _ ⟨⟩
    cases h

/-- A printed number has no sign. -/
theorem splitSign_decimalText (n : ℕ) (rest : CString) :
    splitSign (decimalText n ++ rest) = (false, decimalText n ++ rest) := by
  obtain ⟨c, tail, hc, hdigit⟩ := exists_decimalText_cons n
  rw [hc, List.cons_append, splitSign_of_isDigit hdigit]

/-- The three forms of the text of an integer. -/
theorem IntegerText.cases {s : CString} (h : IntegerText s) :
    ∃ ds, ds ≠ [] ∧ (∀ c ∈ ds, isDigit c = true) ∧
      (s = 43 :: ds ∨ s = 45 :: ds ∨ s = ds) ∧ (splitSign s).2 = ds := by
  refine ⟨(splitSign s).2, h.1, h.2, ?_, rfl⟩
  unfold splitSign
  split
  · exact .inl rfl
  · exact .inr (.inl rfl)
  · exact .inr (.inr rfl)

theorem IntegerText.dropWhile_isSpace {s : CString} (h : IntegerText s) :
    s.dropWhile isSpace = s := by
  obtain ⟨ds, hne, hdigits, hs, -⟩ := h.cases
  rcases hs with rfl | rfl | rfl
  · rfl
  · rfl
  · obtain ⟨c, rest, rfl⟩ := List.exists_cons_of_ne_nil hne
    rw [List.dropWhile_cons, not_isSpace_of_isDigit (hdigits c List.mem_cons_self)]
    rfl

theorem leadingInt_of_isDigit {c : UInt8} {s : CString} (hc : isDigit c = true) :
    leadingInt (c :: s) = decimal (digits (c :: s)) := by
  have hspace : (c :: s).dropWhile isSpace = c :: s := by
    rw [List.dropWhile_cons, not_isSpace_of_isDigit hc]
    rfl
  rw [leadingInt, hspace]
  split
  · rename_i heq
    cases heq
    cases hc
  · rename_i heq
    cases heq
    cases hc
  · rfl

theorem leadingInt_of_integerText {s : CString} (h : IntegerText s) :
    leadingInt s = signedValue (splitSign s) := by
  have hspace := h.dropWhile_isSpace
  obtain ⟨ds, hne, hdigits, hs, -⟩ := h.cases
  have hds := digits_eq_self hdigits
  rcases hs with rfl | rfl | rfl
  · rw [leadingInt, hspace]
    simp only [hds, splitSign, signedValue, Bool.false_eq_true, if_false]
  · rw [leadingInt, hspace]
    simp only [hds, splitSign, signedValue, if_true]
  · obtain ⟨c, rest, rfl⟩ := List.exists_cons_of_ne_nil hne
    have hc := hdigits c List.mem_cons_self
    rw [leadingInt_of_isDigit hc, splitSign_of_isDigit hc, hds]
    rfl

/-! ## Printing a `long long` -/

theorem lldText_eq (n : ℤ) :
    lldText n = if n < 0 then 45 :: decimalText n.natAbs else decimalText n.natAbs := rfl

theorem splitSign_lldText (n : ℤ) :
    splitSign (lldText n) = (decide (n < 0), decimalText n.natAbs) := by
  rw [lldText_eq]
  split
  · rename_i hn
    rw [decide_eq_true hn]
    rfl
  · rename_i hn
    have hplain := splitSign_decimalText n.natAbs []
    rwa [List.append_nil, ← decide_eq_false hn] at hplain

theorem integerText_lldText (n : ℤ) : IntegerText (lldText n) := by
  rw [IntegerText, splitSign_lldText]
  exact ⟨decimalText_ne_nil _, fun c => isDigit_of_mem_decimalText⟩

theorem leadingInt_lldText (n : ℤ) : leadingInt (lldText n) = n := by
  rw [leadingInt_of_integerText (integerText_lldText n), splitSign_lldText, signedValue]
  dsimp only
  rw [decimal_decimalText]
  by_cases hn : n < 0
  · rw [decide_eq_true hn, if_pos rfl]
    omega
  · rw [decide_eq_false hn, if_neg Bool.false_ne_true]
    omega

/-- What `"%lld"` prints is read back. -/
theorem atoll_lldText {n : ℤ} (hlow : -2 ^ 63 ≤ n) (hhigh : n < 2 ^ 63) : atoll (lldText n) = n := by
  rw [atoll, leadingInt_lldText, saturate]
  omega

/-! ## Small integers -/

theorem atoll_bounds (s : CString) : -2 ^ 63 ≤ atoll s ∧ atoll s < 2 ^ 63 := by
  rw [atoll, saturate]
  omega

/-- `atoi` keeps the low 32 bits of what `atoll` reads. -/
theorem atoi_eq (s : CString) : atoi s = (atoll s + 2 ^ 31) % 2 ^ 32 - 2 ^ 31 := by
  have hspace : (fun b : UInt8 => decide (b = 32) || (9 ≤ b && b ≤ 13)) = isSpace := rfl
  rw [atoi, atoll, leadingInt, hspace]
  generalize s.dropWhile isSpace = rest
  congr 3
  congr 1
  split
  · rfl
  · rfl
  · simp_all

theorem atoll_of_small {s : CString} (h : (leadingInt s).natAbs < 2 ^ 31) :
    atoll s = leadingInt s := by
  rw [atoll, saturate]
  omega

theorem atoi_of_small {s : CString} (h : (leadingInt s).natAbs < 2 ^ 31) : atoi s = atoll s := by
  rw [atoi_eq, atoll_of_small h]
  omega

/-- The text of an integer of magnitude below `2 ^ 31`. -/
structure SmallInteger (s : CString) : Prop where
  text : IntegerText s
  small : (leadingInt s).natAbs < 2 ^ 31

instance (s : CString) : Decidable (SmallInteger s) :=
  decidable_of_iff (IntegerText s ∧ (leadingInt s).natAbs < 2 ^ 31)
    ⟨fun h => ⟨h.1, h.2⟩, fun h => ⟨h.text, h.small⟩⟩

theorem decimalBody_of_digits {ds : CString} (h : ∀ c ∈ ds, isDigit c = true) :
    decimalBody ds = decimal ds := by
  have htake : ds.takeWhile isDigit = ds := List.takeWhile_eq_self_iff.mpr h
  have hdrop : ds.dropWhile isDigit = [] := List.dropWhile_eq_nil_iff.mpr h
  simp only [decimalBody, floatBody, htake, hdrop, List.append_nil, List.length_nil, zpow_zero,
    pow_zero, mul_one, div_one]

theorem unsignedFloat_of_digits {ds : CString} (h : ∀ c ∈ ds, isDigit c = true) (hne : ds ≠ []) :
    unsignedFloat ds = some (decimal ds : ℚ) := by
  have hletter : ∀ {c x : UInt8}, isDigit c = true → 97 ≤ x → toLower c ≠ x := by
    intro c x hc hx
    simp only [isDigit, toLower, Bool.and_eq_true, decide_eq_true_eq] at hc ⊢
    grind
  rw [← decimalBody_of_digits h]
  unfold unsignedFloat
  split
  · rename_i x t
    rw [if_neg]
    rintro ⟨hx, -⟩
    exact hletter (h x (by simp)) (by decide) hx
  · obtain ⟨c, rest, rfl⟩ := List.exists_cons_of_ne_nil hne
    have hc := h c List.mem_cons_self
    rw [if_neg]
    intro hword
    simp only [strcaseEq, beq_iff_eq, List.take_succ_cons, List.map_cons] at hword
    rcases hword with hinf | hnan
    · exact hletter hc (by decide) (List.cons.inj hinf).1
    · exact hletter hc (by decide) (List.cons.inj hnan).1

theorem strtodNumber_of_integerText {s : CString} (h : IntegerText s) :
    strtodNumber s = some (leadingInt s : ℚ) := by
  rw [strtodNumber, h.dropWhile_isSpace, leadingInt_of_integerText h]
  rw [unsignedFloat_of_digits h.2 h.1, Option.map_some, signedValue]
  split <;> simp

/-- `atof` reads the text of a small integer exactly. -/
theorem atof_of_small {s : CString} (h : SmallInteger s) : atof s = some (leadingInt s : ℚ) := by
  have hsmall := h.small
  have hbound : |leadingInt s| ≤ 2 ^ 53 := by
    rw [Int.abs_eq_natAbs]
    omega
  rw [atof, strtodNumber_of_integerText h.text, Option.map_some,
    Rounding.nearest_intCast (by decide) hbound]

theorem longOfDouble_of_small {s : CString} (h : SmallInteger s) :
    longOfDouble (atof s) = leadingInt s := by
  have := h.small
  rw [atof_of_small h, longOfDouble]
  simp only [Rat.num_intCast, Rat.den_intCast, Nat.cast_one, Int.tdiv_one]
  rw [if_pos]
  omega

/-! ## Texts of other numbers -/

/-- The text stands for a number that becomes `n` as a `double` without its fraction. From half of
the last gap below an integer on a number is rounded up to it. -/
def ReadsAs (n : ℕ) (text : CString) : Prop :=
  ∃ q ∈ strtodNumber text, (if n = 0 then -(1 - Rounding.slack 53 1) < q else
    n - Rounding.slack 53 n ≤ q) ∧ q < (n + 1 : ℕ) - Rounding.slack 53 (n + 1)

/-- The text stands for an infinity, for no number, for -1 or less or for more than a `long` holds. -/
def ReadsNegative (text : CString) : Prop :=
  ∀ q ∈ strtodNumber text, q ≤ -(1 - Rounding.slack 53 1) ∨ 2 ^ 63 - 2 ^ 9 ≤ q

/-- A conversion to an integer drops the fraction. -/
theorem num_tdiv_den (q : ℚ) : q.num.tdiv q.den = if q < 0 then ⌈q⌉ else ⌊q⌋ := by
  split
  · rename_i hq
    have hnum : 0 ≤ (-q).num := Rat.num_nonneg.mpr (by linarith)
    rw [← neg_neg ⌈q⌉, ← Int.floor_neg, Rat.floor_def', ← Int.tdiv_eq_ediv_of_nonneg hnum,
      Rat.num_neg_eq_neg_num, Rat.den_neg_eq_den, Int.neg_tdiv, neg_neg]
  · rename_i hq
    rw [Rat.floor_def', Int.tdiv_eq_ediv_of_nonneg (Rat.num_nonneg.mpr (not_lt.mp hq))]

theorem num_tdiv_den_eq_iff {q : ℚ} {n : ℕ} :
    q.num.tdiv q.den = n ↔ (if n = 0 then -1 < q else (n : ℚ) ≤ q) ∧ q < (n + 1 : ℕ) := by
  have hn := n.cast_nonneg (α := ℚ)
  rw [num_tdiv_den]
  split
  · rename_i hq
    have hlt : q < (n + 1 : ℕ) := by
      push_cast
      linarith
    rw [Int.ceil_eq_iff, and_iff_left hlt]
    split
    · rename_i hzero
      subst hzero
      simp [hq.le]
    · rename_i hzero
      have hone : (1 : ℚ) ≤ n := by exact_mod_cast Nat.one_le_iff_ne_zero.mpr hzero
      constructor
      · rintro ⟨h, -⟩
        push_cast at h
        linarith
      · intro h
        linarith
  · rename_i hq
    have hlow : -1 < q := by linarith
    rw [Int.floor_eq_iff]
    split
    · rename_i hzero
      subst hzero
      simp [hlow, not_lt.mp hq]
    · push_cast
      rfl

theorem num_tdiv_den_neg_iff {q : ℚ} : q.num.tdiv q.den < 0 ↔ q ≤ -1 := by
  rw [num_tdiv_den]
  split
  · have hceil : ⌈q⌉ < 0 ↔ ⌈q⌉ ≤ -1 := by omega
    rw [hceil, Int.ceil_le]
    norm_num
  · rename_i hq
    have hfloor : 0 ≤ ⌊q⌋ := Int.floor_nonneg.mpr (not_lt.mp hq)
    constructor
    · intro h
      omega
    · intro h
      linarith

theorem natCast_le_num_tdiv_den_iff {q : ℚ} {n : ℕ} (hn : 0 < n) :
    (n : ℤ) ≤ q.num.tdiv q.den ↔ (n : ℚ) ≤ q := by
  have hn' : (0 : ℚ) < n := Nat.cast_pos.mpr hn
  rw [num_tdiv_den]
  split
  · rename_i hq
    have hceil : ⌈q⌉ ≤ 0 := Int.ceil_le.mpr (by simpa using hq.le)
    constructor
    · intro h
      omega
    · intro h
      linarith
  · rw [Int.le_floor, Int.cast_natCast]

theorem nearest_le_neg_one_iff {q : ℚ} :
    Rounding.nearest 53 q ≤ -1 ↔ q ≤ -(1 - Rounding.slack 53 1) := by
  have hone := Rounding.natCast_le_nearest_iff (p := 53) (x := -q) one_pos (by decide)
  rw [Rounding.nearest_neg, Nat.cast_one] at hone
  rw [le_neg, hone, le_neg]

/-- A small number is in force exactly for the texts that read as it. -/
theorem longOfDouble_atof_eq_iff {text : CString} {n : ℕ} (hn : n < 2 ^ 52) :
    longOfDouble (atof text) = n ↔ ReadsAs n text := by
  have hclog : ∀ m ≤ 2 ^ 52, Nat.clog 2 m < 53 := fun m hm =>
    Nat.lt_succ_of_le (Nat.clog_le_of_le_pow hm)
  rw [ReadsAs, atof]
  cases strtodNumber text with
  | none =>
      rw [Option.map_none, longOfDouble]
      simp
  | some q =>
      have hdrop : longOfDouble (some (Rounding.nearest 53 q)) = n ↔
          (Rounding.nearest 53 q).num.tdiv (Rounding.nearest 53 q).den = n := by
        rw [longOfDouble]
        split <;> omega
      have hnext : Rounding.nearest 53 q < (n + 1 : ℕ) ↔
          q < (n + 1 : ℕ) - Rounding.slack 53 (n + 1) := by
        rw [← not_le, Rounding.natCast_le_nearest_iff n.succ_pos (hclog _ (by omega)), not_le]
      have hfrom : (if n = 0 then -1 < Rounding.nearest 53 q else (n : ℚ) ≤ Rounding.nearest 53 q) ↔
          if n = 0 then -(1 - Rounding.slack 53 1) < q else n - Rounding.slack 53 n ≤ q := by
        split
        · rw [← not_le, nearest_le_neg_one_iff, not_le]
        · rename_i hzero
          exact Rounding.natCast_le_nearest_iff (Nat.pos_of_ne_zero hzero) (hclog _ (by omega))
      rw [Option.map_some, hdrop, num_tdiv_den_eq_iff, hnext, hfrom]
      simp

example : longOfDouble (atof (ascii "399.99999999999999999")) = 400 := by decide +kernel

/-- A limit is negative exactly for the texts that read as no bound. -/
theorem longOfDouble_atof_neg_iff {text : CString} :
    longOfDouble (atof text) < 0 ↔ ReadsNegative text := by
  rw [ReadsNegative, atof]
  cases strtodNumber text with
  | none => simp [longOfDouble]
  | some q =>
      have hlarge := Rounding.two_zpow_le_nearest_iff (p := 53) (x := q) (by decide) 63
      have hdrop : longOfDouble (some (Rounding.nearest 53 q)) < 0 ↔
          Rounding.nearest 53 q ≤ -1 ∨ 2 ^ (63 : ℤ) ≤ Rounding.nearest 53 q := by
        have hneg := num_tdiv_den_neg_iff (q := Rounding.nearest 53 q)
        have hover := natCast_le_num_tdiv_den_iff (q := Rounding.nearest 53 q) (n := 2 ^ 63)
          (by decide)
        have hpow : (2 : ℚ) ^ (63 : ℤ) = (2 ^ 63 : ℕ) := by norm_num
        rw [← hneg, hpow, ← hover, longOfDouble]
        split <;> omega
      rw [Option.map_some, hdrop, nearest_le_neg_one_iff, hlarge]
      norm_num

/-- The text of a small integer that is not negative reads as the integer. -/
theorem SmallInteger.readsAs {s : CString} (h : SmallInteger s) {n : ℕ} (hn : leadingInt s = n) :
    ReadsAs n s := by
  have hsmall := h.small
  rw [← longOfDouble_atof_eq_iff (by omega), longOfDouble_of_small h, hn]

/-- The conversion of an `int` to `unsigned`. -/
theorem toNat_ofInt (n : ℤ) : ((UInt32.ofInt n).toNat : ℤ) = n % 2 ^ 32 := by
  rw [UInt32.ofInt, UInt32.toNat_ofNat']
  omega

/-- An `int` that was kept in an `unsigned`. -/
theorem intOfUnsigned_ofInt {n : ℤ} (hlow : -2 ^ 31 ≤ n) (hhigh : n < 2 ^ 31) :
    intOfUnsigned (UInt32.ofInt n) = n := by
  have hn := toNat_ofInt n
  rw [intOfUnsigned]
  split <;> omega

theorem atoi_bounds (s : CString) : -2 ^ 31 ≤ atoi s ∧ atoi s < 2 ^ 31 := by
  rw [atoi_eq]
  omega

/-! ## Copies of a text -/

theorem splitSign_take {s : CString} (h : IntegerText s) :
    ∃ k, 0 < k ∧ (splitSign (s.take 255)).2 = (splitSign s).2.take k := by
  obtain ⟨ds, hne, hdigits, hs, -⟩ := h.cases
  rcases hs with rfl | rfl | rfl
  · exact ⟨254, by decide, rfl⟩
  · exact ⟨254, by decide, rfl⟩
  · obtain ⟨c, rest, rfl⟩ := List.exists_cons_of_ne_nil hne
    have hc := hdigits c List.mem_cons_self
    refine ⟨255, by decide, ?_⟩
    rw [List.take_succ_cons, splitSign_of_isDigit hc, splitSign_of_isDigit hc, List.take_succ_cons]

theorem natAbs_leadingInt {s : CString} (h : IntegerText s) :
    (leadingInt s).natAbs = decimal (splitSign s).2 := by
  rw [leadingInt_of_integerText h, signedValue]
  split <;> simp

/-- A copy that is cut after 255 bytes is the text of a small integer still. -/
theorem SmallInteger.take {s : CString} (h : SmallInteger s) : SmallInteger (s.take 255) := by
  obtain ⟨k, hk, hsplit⟩ := splitSign_take h.text
  have htext : IntegerText (s.take 255) := by
    rw [IntegerText, hsplit]
    refine ⟨?_, fun c hc => h.text.2 c (List.mem_of_mem_take hc)⟩
    simpa [List.take_eq_nil_iff, hk.ne'] using h.text.1
  refine ⟨htext, ?_⟩
  have hsmall := h.small
  have hle := decimal_take_le (splitSign s).2 k
  rw [natAbs_leadingInt h.text] at hsmall
  rw [natAbs_leadingInt htext, hsplit]
  omega

end DbGovernor
