import DbGovernor.Verification.Config.Numbers
import DbGovernor.Verification.Config.Splitting

/-!
# Units in the buffer of a field

`get_bb`, `get_kb` and `get_mb` print the bytes of a limit over the number they were read from. A
product that wraps has nineteen digits at most, and the number was long enough for them.
-/

namespace DbGovernor

/-! ## Lengths of numbers -/

/-- A number of `k` digits is below the power of ten. -/
theorem decimal_lt {ds : CString} (h : ∀ c ∈ ds, isDigit c = true) :
    decimal ds < 10 ^ ds.length := by
  induction ds using List.reverseRecOn with
  | nil => decide
  | append_singleton ds c ih =>
      have hds := ih fun c hc => h c (List.mem_append_left _ hc)
      have hc : isDigit c = true := h c (by simp)
      have hvalue : c.toNat - 48 ≤ 9 := by
        simp only [isDigit, Bool.and_eq_true, decide_eq_true_eq] at hc
        have hle : c.toNat ≤ 57 := UInt8.le_iff_toNat_le.mp hc.2
        omega
      rw [decimal_append_singleton, List.length_append, List.length_singleton, Nat.pow_succ]
      omega

theorem decimal_digits_lt (s : CString) : decimal (digits s) < 10 ^ s.length := by
  have hdigits : ∀ c ∈ digits s, isDigit c = true := fun c hc =>
    List.mem_takeWhile_imp (p := isDigit) hc
  exact (decimal_lt hdigits).trans_le
    (Nat.pow_le_pow_right (by decide) (List.takeWhile_prefix _).length_le)

/-- A text of `k` bytes stands for a number of `k` digits at most. -/
theorem natAbs_leadingInt_lt (s : CString) : (leadingInt s).natAbs < 10 ^ s.length := by
  have hspace : (s.dropWhile isSpace).length ≤ s.length := (List.dropWhile_suffix _).length_le
  have hgrow : ∀ rest : CString, rest.length ≤ s.length → decimal (digits rest) < 10 ^ s.length :=
    fun rest hrest => (decimal_digits_lt rest).trans_le (Nat.pow_le_pow_right (by decide) hrest)
  rw [leadingInt]
  split
  · rename_i rest heq
    rw [heq, List.length_cons] at hspace
    have hrest := hgrow rest (by omega)
    omega
  · rename_i rest heq
    rw [heq, List.length_cons] at hspace
    have hrest := hgrow rest (by omega)
    omega
  · have hrest := hgrow _ hspace
    omega

/-! ## The printed product -/

/-- The product of a short number with a unit does not wrap. -/
theorem natAbs_product_lt {s : CString} {unit : ℤ} (hs : s.length ≤ 11) (hlow : 0 ≤ unit)
    (hhigh : unit ≤ 2 ^ 20) :
    ((atoll s * unit).bmod (2 ^ 64)).natAbs < 10 ^ (s.length + 7) := by
  have hint := natAbs_leadingInt_lt s
  have hpower : 10 ^ s.length ≤ 10 ^ 11 := Nat.pow_le_pow_right (by decide) hs
  have hatoll : atoll s = leadingInt s := by
    rw [atoll, saturate]
    omega
  have hproduct : (atoll s * unit).natAbs ≤ (leadingInt s).natAbs * 2 ^ 20 := by
    rw [hatoll, Int.natAbs_mul]
    exact Nat.mul_le_mul_left _ (by omega)
  have hsmall : (atoll s * unit).bmod (2 ^ 64) = atoll s * unit :=
    Int.bmod_eq_of_le (by omega) (by omega)
  rw [hsmall, Nat.pow_add]
  omega

/-- A product with a unit has at most seven digits more than the text of the number. -/
theorem length_getUnits_le {s : CString} {unit : ℤ} (hs : s ≠ []) (hlow : 0 ≤ unit)
    (hhigh : unit ≤ 2 ^ 20) : (getUnits unit s).length ≤ s.length + 7 := by
  have hlength : 0 < s.length := List.length_pos_iff.mpr hs
  have hbound : (atoll s * unit).bmod (2 ^ 64) < 2 ^ 63 := Int.bmod_lt (by decide)
  rw [getUnits]
  split
  · have hminus : (lldText (-1)).length = 2 := by decide
    omega
  · rename_i hpos
    rw [lldText_eq, if_neg hpos]
    apply length_decimalText_le (by omega)
    by_cases hlong : 12 ≤ s.length
    · have hpower : 10 ^ 19 ≤ 10 ^ (s.length + 7) := Nat.pow_le_pow_right (by decide) (by omega)
      omega
    · exact natAbs_product_lt (by omega) hlow hhigh

theorem ne_nil_of_startsPrintable {s : CString} (h : startsPrintable s = true) : s ≠ [] := by
  rintro rfl
  cases h

/-- A conversion prints the product of a part of the field with one of the units. -/
theorem exists_of_mem_printedUnits {str text : CString} (h : text ∈ printedUnits str) :
    ∃ rest unit, rest ≠ [] ∧ rest.length ≤ str.length ∧ 0 ≤ unit ∧ unit ≤ 2 ^ 20 ∧
      text = getUnits unit rest := by
  have htake : (str.take ((str.take 100).length - 1)).length ≤ str.length :=
    (List.take_prefix _ _).length_le
  rw [printedUnits, Option.mem_def] at h
  split at h
  · cases h
  · dsimp only at h
    split_ifs at h with _ hrest _ hrest _ hrest hstr
    · exact ⟨_, 1, ne_nil_of_startsPrintable hrest, htake, by decide, by decide,
        (Option.some.inj h).symm⟩
    · exact ⟨_, 1024, ne_nil_of_startsPrintable hrest, htake, by decide, by decide,
        (Option.some.inj h).symm⟩
    · exact ⟨_, 1024 * 1024, ne_nil_of_startsPrintable hrest, htake, by decide, by decide,
        (Option.some.inj h).symm⟩
    · exact ⟨_, 1024 * 1024, ne_nil_of_startsPrintable hstr, Nat.le_refl _, by decide, by decide,
        (Option.some.inj h).symm⟩

/-- What is printed is the string of the field afterwards. -/
theorem unitsField_of_mem_printedUnits {str text : CString} (h : text ∈ printedUnits str) :
    unitsField str = text := by
  rw [printedUnits, Option.mem_def] at h
  rw [unitsField]
  cases hlast : (str.take 100).getLast? with
  | none =>
      rw [hlast] at h
      cases h
  | some units =>
      rw [hlast] at h
      dsimp only at h ⊢
      split_ifs at h ⊢ <;> exact Option.some.inj h

/-- With four fields the number that is printed into one of them, and its NUL, have room in the
buffer that `split` allocated. -/
theorem printed_units_fit (s : CString) (hs : s.count 44 = 3) :
    ∃ fields, splitInto s 44 = some (4, fields) ∧ fields.length = 4 ∧
      ∀ field ∈ fields, ∀ text ∈ printedUnits field.str, text.length + 1 ≤ field.size := by
  refine ⟨_, by rw [splitInto_comma, if_neg (by omega), if_pos hs], ?_, ?_⟩
  · rw [List.length_map, length_splitOn, hs]
  · intro field hfield text htext
    obtain ⟨part, -, rfl⟩ := List.mem_map.mp hfield
    obtain ⟨rest, unit, hne, hlength, hlow, hhigh, rfl⟩ := exists_of_mem_printedUnits htext
    have hprinted := length_getUnits_le hne hlow hhigh
    simp only at hlength ⊢
    omega

/-- Products that grow, saturate and wrap. -/
theorem printed_units_fit_sample :
    ∃ fields, splitInto (ascii "9,9223372036854775807,-8796093022209,1k") 44 = some (4, fields) ∧
      fields.length = 4 ∧
      ∀ field ∈ fields, ∀ text ∈ printedUnits field.str, text.length + 1 ≤ field.size :=
  printed_units_fit _ (by decide +kernel)

end DbGovernor
