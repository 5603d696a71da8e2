import DbGovernor.Verification.Restrict.Decision
import Mathlib.Data.List.ProdSigma

/-!
# The order of the limits

The checks of an account look for the first pair of a period and a field that is over its
limit. Both copies of the check find the same pair.
-/

namespace DbGovernor

variable [Rounding]

/-- The statistic of a field is over its limit, where `x` is the period of the limit. -/
def Stats.Exceeds (st : Stats) (limit : StatsCfg) (x : TLong → ℤ) : GovernorsFieldName → Prop
  | .cpuParam => percentage (x limit.cpu) < st.cpu ∧ 0 ≤ x limit.cpu
  | .readParam => x limit.read < st.read ∧ 0 ≤ x limit.read
  | .writeParam => x limit.write < st.write ∧ 0 ≤ x limit.write
  | .norestrictParam2 => False
  | .norestrictParam => False

instance (st : Stats) (limit : StatsCfg) (x : TLong → ℤ) (field : GovernorsFieldName) :
    Decidable (st.Exceeds limit x field) :=
  match field with
  | .cpuParam => inferInstanceAs (Decidable (_ ∧ _))
  | .readParam => inferInstanceAs (Decidable (_ ∧ _))
  | .writeParam => inferInstanceAs (Decidable (_ ∧ _))
  | .norestrictParam2 => inferInstanceAs (Decidable False)
  | .norestrictParam => inferInstanceAs (Decidable False)

/-- An account is over the limit of a field in a period. -/
def OverLimitAt (sl : StatsCfg) (ac : Account) (field : GovernorsFieldName) :
    GovernorsPeriodName → Prop
  | .noPeriod => False
  | .currentPeriod => ac.current.Exceeds sl TLong.current field
  | .shortPeriod => ac.shortAverage.Exceeds sl TLong.short field
  | .midPeriod => ac.midAverage.Exceeds sl TLong.mid field
  | .longPeriod => ac.longAverage.Exceeds sl TLong.long field

instance (sl : StatsCfg) (ac : Account) (field : GovernorsFieldName)
    (period : GovernorsPeriodName) : Decidable (OverLimitAt sl ac field period) :=
  match period with
  | .noPeriod => inferInstanceAs (Decidable False)
  | .currentPeriod => inferInstanceAs (Decidable (Stats.Exceeds _ _ _ _))
  | .shortPeriod => inferInstanceAs (Decidable (Stats.Exceeds _ _ _ _))
  | .midPeriod => inferInstanceAs (Decidable (Stats.Exceeds _ _ _ _))
  | .longPeriod => inferInstanceAs (Decidable (Stats.Exceeds _ _ _ _))

def checkedPeriods : List GovernorsPeriodName :=
  [.currentPeriod, .shortPeriod, .midPeriod, .longPeriod]

def checkedFields : List GovernorsFieldName := [.cpuParam, .readParam, .writeParam]

/-- The pairs of a period and a field in the order in which they are compared. -/
def checkedPairs : List (GovernorsPeriodName × GovernorsFieldName) :=
  checkedPeriods ×ˢ checkedFields

def firstOverLimit (sl : StatsCfg) (ac : Account) :
    Option (GovernorsPeriodName × GovernorsFieldName) :=
  checkedPairs.find? fun pair => OverLimitAt sl ac pair.2 pair.1

/-! ### The cascade is a search -/

/-- The first field over its limit, and `NORESTRICT_PARAM2` if there is none. -/
theorem isStatOverlimit_eq (x : TLong → ℤ) (st : Stats) (sl : StatsCfg) :
    isStatOverlimit x st sl =
      (checkedFields.find? fun field => st.Exceeds sl x field).getD .norestrictParam2 := by
  simp only [checkedFields, List.find?_cons, List.find?_nil, Stats.Exceeds]
  by_cases hcpu : percentage (x sl.cpu) < st.cpu ∧ 0 ≤ x sl.cpu
  · simp [isStatOverlimit, hcpu]
  · by_cases hread : x sl.read < st.read ∧ 0 ≤ x sl.read
    · simp [isStatOverlimit, hcpu, hread]
    · by_cases hwrite : x sl.write < st.write ∧ 0 ≤ x sl.write
      · simp [isStatOverlimit, hcpu, hread, hwrite]
      · simp [isStatOverlimit, hcpu, hread, hwrite]

theorem firstOverLimit_eq (sl : StatsCfg) (ac : Account) :
    firstOverLimit sl ac =
      ((checkedFields.find? fun field => ac.current.Exceeds sl TLong.current field).map
        fun field => (.currentPeriod, field)).or
      (((checkedFields.find? fun field => ac.shortAverage.Exceeds sl TLong.short field).map
        fun field => (.shortPeriod, field)).or
      (((checkedFields.find? fun field => ac.midAverage.Exceeds sl TLong.mid field).map
        fun field => (.midPeriod, field)).or
      ((checkedFields.find? fun field => ac.longAverage.Exceeds sl TLong.long field).map
        fun field => (.longPeriod, field)))) := by
  simp only [firstOverLimit, checkedPairs, checkedPeriods, List.product_cons, List.find?_append,
    List.find?_map, List.nil_product, List.find?_nil, Option.or_none]
  rfl

omit [Rounding] in
/-- A search among the fields never ends at `NORESTRICT_PARAM2`. -/
theorem find?_checkedFields_ne {p : GovernorsFieldName → Bool} {field : GovernorsFieldName}
    (h : checkedFields.find? p = some field) : field ≠ .norestrictParam2 := by
  have hmem := List.mem_of_find?_eq_some h
  rintro rfl
  simp [checkedFields] at hmem

/-- Both checks take the branch of the first pair that is over its limit. -/
theorem checkPeriods_eq (sl : StatsCfg)
    (branch : GovernorsFieldName → GovernorsPeriodName → GovernorsFieldName → Account →
      Globals → Account × Globals) (ac : Account) (g : Globals) :
    checkPeriods sl branch ac g =
      match firstOverLimit sl ac with
      | some (period, field) =>
          (true, branch (isStatOverlimitCurrent ac.current sl) period field ac g)
      | none => (false, ac, g) := by
  rw [firstOverLimit_eq]
  simp only [checkPeriods, isStatOverlimitCurrent, isStatOverlimitShort, isStatOverlimitMid,
    isStatOverlimitLong, isStatOverlimit_eq]
  cases hcur : checkedFields.find? fun field => ac.current.Exceeds sl TLong.current field with
  | some field => simp [find?_checkedFields_ne hcur]
  | none =>
      cases hshort : checkedFields.find? fun field => ac.shortAverage.Exceeds sl TLong.short field with
      | some field => simp [find?_checkedFields_ne hshort]
      | none =>
          cases hmid : checkedFields.find? fun field => ac.midAverage.Exceeds sl TLong.mid field with
          | some field => simp [find?_checkedFields_ne hmid]
          | none =>
              cases hlong : checkedFields.find? fun field =>
                  ac.longAverage.Exceeds sl TLong.long field with
              | some field => simp [find?_checkedFields_ne hlong]
              | none => simp

/-! ### One specification for both checks -/

/-- What a check that restricts leaves in the account, the level and the timeout apart. -/
structure RestrictedAt (now : ℤ) (pair : GovernorsPeriodName × GovernorsFieldName)
    (ac ac' : Account) : Prop where
  info : ac'.info = ⟨pair.1, pair.2⟩
  startCount : ac'.startCount = now
  current : ac'.current = ac.current
  shortAverage : ac'.shortAverage = ac.shortAverage
  midAverage : ac'.midAverage = ac.midAverage
  longAverage : ac'.longAverage = ac.longAverage
  id : ac'.id = ac.id
  users : ac'.users = ac.users

/-- The contract of `check_restrict` and `check_restrict_limit`. -/
structure CheckSpec (sl : StatsCfg) (now : ℤ) (ac : Account) (g : Globals)
    (out : Bool × Account × Globals) : Prop where
  returns_iff : out.1 = true ↔
    ∃ period ∈ checkedPeriods, ∃ field ∈ checkedFields, OverLimitAt sl ac field period
  restricts : out.1 = true →
    ∃ pair, firstOverLimit sl ac = some pair ∧ RestrictedAt now pair ac out.2.1
  keeps : out.1 = false → out.2 = (ac, g)

section

variable {sl : StatsCfg} {now : ℤ} {ac : Account} {g : Globals}

theorem firstOverLimit_isSome (sl : StatsCfg) (ac : Account) : (firstOverLimit sl ac).isSome = true ↔
    ∃ period ∈ checkedPeriods, ∃ field ∈ checkedFields, OverLimitAt sl ac field period := by
  rw [firstOverLimit, List.find?_isSome]
  constructor
  · rintro ⟨⟨period, field⟩, hmem, hover⟩
    obtain ⟨hperiod, hfield⟩ := List.pair_mem_product.mp hmem
    exact ⟨period, hperiod, field, hfield, of_decide_eq_true hover⟩
  · rintro ⟨period, hperiod, field, hfield, hover⟩
    exact ⟨(period, field), List.pair_mem_product.mpr ⟨hperiod, hfield⟩, decide_eq_true hover⟩

theorem checkPeriods_spec {branch : GovernorsFieldName → GovernorsPeriodName →
      GovernorsFieldName → Account → Globals → Account × Globals}
    (hbranch : ∀ cur period field, RestrictedAt now (period, field) ac
      (branch cur period field ac g).1) :
    CheckSpec sl now ac g (checkPeriods sl branch ac g) := by
  have heq := checkPeriods_eq sl branch ac g
  have hsome := firstOverLimit_isSome sl ac
  cases hfirst : firstOverLimit sl ac with
  | none =>
      rw [hfirst] at heq hsome
      rw [heq]
      exact ⟨by simpa using hsome, fun h => by simp at h, fun _ => rfl⟩
  | some pair =>
      rw [hfirst] at heq hsome
      rw [heq]
      exact ⟨by simpa using hsome, fun _ => ⟨pair, hfirst, hbranch _ _ _⟩, fun h => by simp at h⟩

end

/-- Both checks meet the contract, return the same and leave the same statics; the accounts
that they leave differ in the level and in the timeout only. -/
theorem check_restrict_spec (cfg : GovernorConfig) (now : ℤ) (ac : Account) (g : Globals) :
    let period := checkRestrict cfg now ac g
    let limit := checkRestrictLimit cfg now ac g
    CheckSpec (configGetAccountLimit cfg ac.id) now ac g period ∧
      CheckSpec (configGetAccountLimit cfg ac.id) now ac g limit ∧
      limit.1 = period.1 ∧
      { limit.2.1 with
        restricted := period.2.1.restricted
        timeout := period.2.1.timeout } = period.2.1 ∧
      limit.2.2 = period.2.2 := by
  intro period limit
  refine ⟨checkPeriods_spec fun _ _ _ => ⟨rfl, rfl, rfl, rfl, rfl, rfl, rfl, rfl⟩,
    checkPeriods_spec fun _ _ _ => ⟨rfl, rfl, rfl, rfl, rfl, rfl, rfl, rfl⟩, ?_⟩
  have hperiod : period = _ := checkPeriods_eq _ _ ac g
  have hlimit : limit = _ := checkPeriods_eq _ _ ac g
  rw [hperiod, hlimit]
  cases firstOverLimit (configGetAccountLimit cfg ac.id) ac with
  | none => exact ⟨rfl, rfl, rfl⟩
  | some pair => exact ⟨rfl, rfl, rfl⟩

end DbGovernor
