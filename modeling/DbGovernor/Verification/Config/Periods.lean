import DbGovernor.Model.ConfigInit
import DbGovernor.Verification.Config.Numbers

/-!
# Periods

The text of a period is a sequence of numbers, each followed by the letter of its unit.
-/

namespace DbGovernor

inductive PeriodUnit where
  | seconds | minutes | hours | days
deriving DecidableEq

def PeriodUnit.length : PeriodUnit → ℕ
  | .seconds => 1
  | .minutes => 60
  | .hours => 60 * 60
  | .days => 60 * 60 * 24

/-- The letter of a unit, in lower or in upper case. -/
def PeriodUnit.letter : PeriodUnit → Bool → UInt8
  | .seconds, false => 115
  | .seconds, true => 83
  | .minutes, false => 109
  | .minutes, true => 77
  | .hours, false => 104
  | .hours, true => 72
  | .days, false => 100
  | .days, true => 68

/-- A number of one to ten digits and its unit. -/
structure PeriodGroup where
  digits : CString
  unit : PeriodUnit
  upper : Bool
  nonempty : digits ≠ []
  fits : digits.length ≤ maxValLen
  isDigit_of_mem : ∀ c ∈ digits, isDigit c = true

def PeriodGroup.text (group : PeriodGroup) : CString :=
  group.digits ++ [group.unit.letter group.upper]

def PeriodGroup.seconds (group : PeriodGroup) : ℕ := decimal group.digits * group.unit.length

/-! ### The loop -/

theorem parsePeriodLoop_digits (value : CString) {ds : CString} (hds : ∀ c ∈ ds, isDigit c = true)
    (hfits : value.length + ds.length ≤ maxValLen) (rest : CString) (result : UInt32) :
    parsePeriodLoop (ds ++ rest) value result = parsePeriodLoop rest (value ++ ds) result := by
  induction ds generalizing value with
  | nil => rw [List.nil_append, List.append_nil]
  | cons c ds ih =>
      rw [List.length_cons] at hfits
      have hc : isDigit c = true := hds c (by simp)
      have hroom : ¬ value.length ≥ maxValLen := by omega
      have hstep : parsePeriodLoop (c :: ds ++ rest) value result =
          parsePeriodLoop (ds ++ rest) (value ++ [c]) result := by
        rw [List.cons_append, parsePeriodLoop, if_pos hc, if_neg hroom]
      have hvalue : (value ++ [c]).length + ds.length ≤ maxValLen := by
        rw [List.length_append, List.length_singleton]
        omega
      rw [hstep, ih (value ++ [c]) (fun d hd => hds d (by simp [hd])) hvalue, List.append_assoc]
      rfl

theorem isDigit_letter (unit : PeriodUnit) (upper : Bool) : isDigit (unit.letter upper) = false := by
  cases unit <;> cases upper <;> rfl

theorem getSeconds_letter {ds : CString} (hne : ds ≠ []) (unit : PeriodUnit) (upper : Bool) :
    getSeconds ds (unit.letter upper) = .ok (UInt32.ofNat (decimal ds * unit.length)) := by
  cases unit with
  | seconds => cases upper <;> simp [getSeconds, hne, PeriodUnit.letter, PeriodUnit.length, toLower]
  | minutes => cases upper <;> simp [getSeconds, hne, PeriodUnit.letter, PeriodUnit.length, toLower]
  | hours =>
      cases upper <;>
        simp [getSeconds, hne, PeriodUnit.letter, PeriodUnit.length, toLower, UInt32.mul_assoc]
  | days =>
      cases upper <;>
        simp [getSeconds, hne, PeriodUnit.letter, PeriodUnit.length, toLower, UInt32.mul_assoc]

theorem parsePeriodLoop_group (group : PeriodGroup) (rest : CString) (result : UInt32) :
    parsePeriodLoop (group.text ++ rest) [] result =
      parsePeriodLoop rest [] (result + UInt32.ofNat group.seconds) := by
  have hdigits := parsePeriodLoop_digits [] group.isDigit_of_mem
    (by simpa using group.fits) ([group.unit.letter group.upper] ++ rest) result
  rw [PeriodGroup.text, List.append_assoc, hdigits, List.nil_append, List.singleton_append,
    parsePeriodLoop, if_neg (by simp [isDigit_letter]), getSeconds_letter group.nonempty]
  rfl

theorem parsePeriodLoop_groups (groups : List PeriodGroup) (result : UInt32) :
    parsePeriodLoop (groups.flatMap PeriodGroup.text) [] result =
      .ok (result + UInt32.ofNat (groups.map PeriodGroup.seconds).sum) := by
  induction groups generalizing result with
  | nil => simp [parsePeriodLoop]
  | cons group groups ih =>
      rw [List.flatMap_cons, parsePeriodLoop_group, ih, List.map_cons, List.sum_cons,
        UInt32.ofNat_add, UInt32.add_assoc]

/-! ### The text read as one number -/

/-- `atoi` reads the digits at the front of a text. -/
theorem atoi_digits_append {ds : CString} (rest : CString) (hne : ds ≠ [])
    (hds : ∀ c ∈ ds, isDigit c = true) (hrest : digits rest = []) (hsmall : decimal ds < 2 ^ 31) :
    atoi (ds ++ rest) = decimal ds := by
  have hdigits : digits (ds ++ rest) = ds := by
    have happend : digits (ds ++ rest) = ds ++ digits rest := List.takeWhile_append_of_pos hds
    rw [happend, hrest, List.append_nil]
  have hint : leadingInt (ds ++ rest) = decimal ds := by
    obtain ⟨c, tail, rfl⟩ := List.exists_cons_of_ne_nil hne
    have hc : isDigit c = true := hds c (by simp)
    rw [List.cons_append, leadingInt_of_isDigit hc, ← List.cons_append, hdigits]
  have habs : (leadingInt (ds ++ rest)).natAbs < 2 ^ 31 := by
    rw [hint]
    omega
  rw [atoi_of_small habs, atoll_of_small habs, hint]

/-- The first number of a period without any second is zero. -/
theorem atoi_groups_of_zero {groups : List PeriodGroup} (hne : groups ≠ [])
    (hzero : (groups.map PeriodGroup.seconds).sum = 0) :
    atoi (groups.flatMap PeriodGroup.text) = 0 := by
  obtain ⟨group, rest, rfl⟩ := List.exists_cons_of_ne_nil hne
  have hseconds : group.seconds = 0 := by
    rw [List.map_cons, List.sum_cons] at hzero
    omega
  have hdecimal : decimal group.digits = 0 := by
    rcases Nat.mul_eq_zero.mp hseconds with hdec | hlen
    · exact hdec
    · cases hunit : group.unit <;> simp [hunit, PeriodUnit.length] at hlen
  have hunit : digits ([group.unit.letter group.upper] ++ rest.flatMap PeriodGroup.text) = [] := by
    have hletter := isDigit_letter group.unit group.upper
    rw [isDigit] at hletter
    simp [digits, hletter]
  have hatoi := atoi_digits_append _ group.nonempty group.isDigit_of_mem hunit (by omega)
  rw [List.flatMap_cons, PeriodGroup.text, List.append_assoc, hatoi, hdecimal]
  rfl

theorem parsePeriod_of_loop {period : CString} {result : UInt32}
    (hloop : parsePeriodLoop period [] 0 = .ok result) :
    parsePeriod period = .ok (if result = 0 then UInt32.ofInt (atoi period) else result) := by
  rw [parsePeriod, hloop]
  rfl

/-- A period is the sum of its groups, and a number without a unit is itself. -/
theorem parsePeriod_total :
    (∀ groups : List PeriodGroup, groups ≠ [] → (groups.map PeriodGroup.seconds).sum < 2 ^ 32 →
      ∃ result, parsePeriod (groups.flatMap PeriodGroup.text) = .ok result ∧
        result.toNat = (groups.map PeriodGroup.seconds).sum) ∧
    ∀ number : CString, number ≠ [] → number.length ≤ 10 → (∀ c ∈ number, isDigit c = true) →
      decimal number < 2 ^ 31 →
      ∃ result, parsePeriod number = .ok result ∧ result.toNat = decimal number := by
  constructor
  · intro groups hne htotal
    have hloop := parsePeriodLoop_groups groups 0
    rw [UInt32.zero_add] at hloop
    refine ⟨_, parsePeriod_of_loop hloop, ?_⟩
    have hval := UInt32.toNat_ofNat_of_lt' (n := (groups.map PeriodGroup.seconds).sum) htotal
    split
    · rename_i hres
      have hzero : (groups.map PeriodGroup.seconds).sum = 0 := by
        rw [hres] at hval
        exact hval.symm
      rw [atoi_groups_of_zero hne hzero, hzero]
      rfl
    · exact hval
  · intro number hne hlen hdigits hsmall
    have hloop : parsePeriodLoop number [] 0 = .ok 0 := by
      have hstep := parsePeriodLoop_digits [] hdigits (by simpa [maxValLen] using hlen) [] 0
      rw [List.append_nil] at hstep
      rw [hstep, parsePeriodLoop]
    have hatoi := atoi_digits_append [] hne hdigits rfl hsmall
    rw [List.append_nil] at hatoi
    refine ⟨_, parsePeriod_of_loop hloop, ?_⟩
    have hint := toNat_ofInt (decimal number)
    rw [if_pos rfl, hatoi]
    omega

/-- The texts `2d10H000s` and `0000000900`. -/
theorem parsePeriod_total_sample :
    (∃ result, parsePeriod [50, 100, 49, 48, 72, 48, 48, 48, 115] = .ok result ∧
      result.toNat = 208800) ∧
    ∃ result, parsePeriod [48, 48, 48, 48, 48, 48, 48, 57, 48, 48] = .ok result ∧
      result.toNat = 900 := by
  constructor
  · have htotal := parsePeriod_total.1
      [⟨[50], .days, false, by decide, by decide, by decide +kernel⟩,
        ⟨[49, 48], .hours, true, by decide, by decide, by decide +kernel⟩,
        ⟨[48, 48, 48], .seconds, false, by decide, by decide, by decide +kernel⟩]
      (by simp) (by decide)
    exact htotal
  · have hbare := parsePeriod_total.2 [48, 48, 48, 48, 48, 48, 48, 57, 48, 48] (by decide)
      (by decide) (by decide +kernel) (by decide)
    exact hbare

end DbGovernor
