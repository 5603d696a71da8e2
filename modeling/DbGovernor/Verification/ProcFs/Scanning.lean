import DbGovernor.Model.ProcFs
import DbGovernor.Verification.Config.Numbers
import DbGovernor.Verification.Shared.Segments

/-!
# Scanning the files of the kernel

A decimal number of the kernel is read whole, and the scan stops behind it.
-/

namespace DbGovernor

variable {s rest : CString} {n : ℕ}

/-- Nothing follows, or a space. -/
def StartsBlank (rest : CString) : Prop := ∀ c ∈ rest.head?, isSpace c = true

theorem startsBlank_nil : StartsBlank [] := by
  intro c hc
  cases hc

theorem startsBlank_cons {c : UInt8} (h : isSpace c = true) (rest : CString) :
    StartsBlank (c :: rest) := by
  intro d hd
  cases hd
  exact h

theorem not_isDigit_of_isSpace {c : UInt8} (h : isSpace c = true) : isDigit c = false := by
  by_contra hdigit
  rw [Bool.not_eq_false] at hdigit
  rw [not_isSpace_of_isDigit hdigit] at h
  cases h

theorem StartsBlank.not_digit (h : StartsBlank rest) : ∀ c ∈ rest.head?, isDigit c = false :=
  fun c hc => not_isDigit_of_isSpace (h c hc)

/-- A printed number starts with a zero only if it is one. -/
theorem decimalText_cases (n : ℕ) :
    n = 0 ∧ decimalText n = [48] ∨
      ∃ c tail, decimalText n = c :: tail ∧ c ≠ 48 ∧ isDigit c = true := by
  induction n using Nat.strong_induction_on with
  | _ n ih =>
      rw [decimalText_eq]
      by_cases hn : n < 10
      · rw [if_pos hn, List.nil_append]
        by_cases hzero : n = 0
        · exact .inl ⟨hzero, by rw [hzero]; rfl⟩
        · have hpos : 0 < n := Nat.pos_of_ne_zero hzero
          refine .inr ⟨_, [], rfl, ?_, isDigit_digit (Nat.mod_lt _ (by decide))⟩
          interval_cases n <;> decide
      · rw [if_neg hn]
        rcases ih (n / 10) (by omega) with ⟨hzero, -⟩ | ⟨c, tail, htext, hne, hdigit⟩
        · omega
        · exact .inr ⟨c, tail ++ [_], by rw [htext, List.cons_append], hne, hdigit⟩

/-- A single zero has no base in front of it. -/
theorem unsignedNumber_zero (hrest : StartsBlank rest) :
    unsignedNumber (48 :: rest) = some (0, rest) := by
  cases rest with
  | nil => decide
  | cons x t =>
      have hspace := hrest x rfl
      have hnotHex : toLower x ≠ 120 := by
        rintro heq
        revert hspace heq
        simp only [isSpace, toLower]
        grind
      have hnotOctal : isOctalDigit x = false := by
        revert hspace
        simp only [isSpace, isOctalDigit]
        grind
      rw [unsignedNumber, if_neg fun h => hnotHex h.1,
        List.takeWhile_cons_of_neg (by simp [hnotOctal]),
        List.dropWhile_cons_of_neg (by simp [hnotOctal])]
      rfl

theorem unsignedNumber_decimalText (n : ℕ) (hrest : StartsBlank rest) :
    unsignedNumber (decimalText n ++ rest) = some (n, rest) := by
  rcases decimalText_cases n with ⟨rfl, htext⟩ | ⟨c, tail, htext, hne, -⟩
  · rw [htext, List.cons_append, List.nil_append, unsignedNumber_zero hrest]
  · have hdigits : ∀ c ∈ decimalText n, isDigit c = true := fun c hc =>
      isDigit_of_mem_decimalText hc
    have htake := Segments.takeWhile_append_of_head hdigits hrest.not_digit
    have hdrop := Segments.dropWhile_append_of_head hdigits hrest.not_digit
    have hnonempty := decimalText_ne_nil n
    have hdecimal := decimal_decimalText n
    rw [htext] at htake hdrop hnonempty hdecimal ⊢
    rw [List.cons_append, unsignedNumber]
    · rw [← List.cons_append, htake, hdrop]
      simp [hnonempty, hdecimal]
    · rintro x t heq
      exact hne (List.cons.inj heq).1

/-- A number is read behind blanks. -/
theorem strtoull_decimalText {value : UInt64} (hs : nextToken s = decimalText value.toNat ++ rest)
    (hrest : StartsBlank rest) : strtoull s = (value, rest) := by
  rw [nextToken] at hs
  rw [strtoull, hs, splitSign_decimalText]
  simp only [unsignedNumber_decimalText _ hrest]
  rw [if_neg (by simpa using value.toNat_lt)]
  simp

end DbGovernor
