import DbGovernor.Model.CalcStats
import DbGovernor.Verification.Commands.Equations

/-!
# What one decision can do

`check_restrict` and `check_restrict_limit` either leave everything alone or take one
branch; the tick functions then have four and five outcomes. Every invariant of an account
is proved from these lists of outcomes.
-/

namespace DbGovernor

variable [Rounding]

/-- Some period reports a field over its limit. -/
def OverLimit (sl : StatsCfg) (ac : Account) : Prop :=
  isStatOverlimitCurrent ac.current sl ≠ .norestrictParam2 ∨
  isStatOverlimitShort ac.shortAverage sl ≠ .norestrictParam2 ∨
  isStatOverlimitMid ac.midAverage sl ≠ .norestrictParam2 ∨
  isStatOverlimitLong ac.longAverage sl ≠ .norestrictParam2

instance (sl : StatsCfg) (ac : Account) : Decidable (OverLimit sl ac) :=
  inferInstanceAs (Decidable (_ ∨ _))

/-- The effective limits of an account are not in `IGNORE_MODE`. -/
def Watched (cfg : GovernorConfig) (ac : Account) : Prop :=
  (configGetAccountLimit cfg ac.id).mode ≠ .ignoreMode

/-- The account is over one of its effective limits. -/
def Exceeds (cfg : GovernorConfig) (ac : Account) : Prop :=
  OverLimit (configGetAccountLimit cfg ac.id) ac

instance (cfg : GovernorConfig) (ac : Account) : Decidable (Watched cfg ac) :=
  inferInstanceAs (Decidable (_ ≠ _))

instance (cfg : GovernorConfig) (ac : Account) : Decidable (Exceeds cfg ac) :=
  inferInstanceAs (Decidable (OverLimit _ _))

/-! ### The cascade -/

section Cascade

variable {branch : GovernorsFieldName → GovernorsPeriodName → GovernorsFieldName → Account →
  Globals → Account × Globals} {sl : StatsCfg} {ac : Account} {g : Globals}

theorem checkPeriods_of_not_overLimit (h : ¬ OverLimit sl ac) :
    checkPeriods sl branch ac g = (false, ac, g) := by
  simp only [OverLimit, not_or, not_not] at h
  obtain ⟨hcur, hshort, hmid, hlong⟩ := h
  simp [checkPeriods, hcur, hshort, hmid, hlong]

/-- The branch taken does not depend on the users, the statics or the branches. -/
theorem checkPeriods_takes (h : OverLimit sl ac) :
    ∃ cur period field, period ≠ .noPeriod ∧
      ∀ (branch : GovernorsFieldName → GovernorsPeriodName → GovernorsFieldName → Account →
        Globals → Account × Globals) users g,
        checkPeriods sl branch { ac with users := users } g =
          (true, branch cur period field { ac with users := users } g) := by
  by_cases hcur : isStatOverlimitCurrent ac.current sl = .norestrictParam2
  · by_cases hshort : isStatOverlimitShort ac.shortAverage sl = .norestrictParam2
    · by_cases hmid : isStatOverlimitMid ac.midAverage sl = .norestrictParam2
      · have hlong : isStatOverlimitLong ac.longAverage sl ≠ .norestrictParam2 := by
          simpa [OverLimit, hcur, hshort, hmid] using h
        refine ⟨.norestrictParam2, .longPeriod, isStatOverlimitLong ac.longAverage sl, by simp, ?_⟩
        intro branch users g
        simp only [checkPeriods, hcur, hshort, hmid, ne_eq, hlong, not_true_eq_false,
          not_false_eq_true, if_false, if_true]
      · refine ⟨.norestrictParam2, .midPeriod, isStatOverlimitMid ac.midAverage sl, by simp, ?_⟩
        intro branch users g
        simp only [checkPeriods, hcur, hshort, hmid, ne_eq, not_true_eq_false, not_false_eq_true,
          if_false, if_true]
    · refine ⟨.norestrictParam2, .shortPeriod, isStatOverlimitShort ac.shortAverage sl, by simp, ?_⟩
      intro branch users g
      simp only [checkPeriods, hcur, hshort, ne_eq, not_true_eq_false, not_false_eq_true, if_false,
        if_true]
  · refine ⟨isStatOverlimitCurrent ac.current sl, .currentPeriod,
      isStatOverlimitCurrent ac.current sl, by simp, ?_⟩
    intro branch users g
    simp only [checkPeriods, ne_eq, hcur, not_false_eq_true, if_true]

theorem checkPeriods_of_overLimit (h : OverLimit sl ac) :
    ∃ cur period field, period ≠ .noPeriod ∧
      checkPeriods sl branch ac g = (true, branch cur period field ac g) := by
  obtain ⟨cur, period, field, hp, htakes⟩ := checkPeriods_takes h
  exact ⟨cur, period, field, hp, htakes branch ac.users g⟩

end Cascade

variable {cfg : GovernorConfig} {now : ℤ} {ac : Account} {g : Globals}

theorem checkRestrict_of_not_exceeds (h : ¬ Exceeds cfg ac) (now : ℤ) (g : Globals) :
    checkRestrict cfg now ac g = (false, ac, g) :=
  checkPeriods_of_not_overLimit h

theorem checkRestrict_of_exceeds (h : Exceeds cfg ac) (now : ℤ) (g : Globals) :
    ∃ cur period field, period ≠ .noPeriod ∧
      checkRestrict cfg now ac g = (true, restrictPeriod cfg now cur period field ac g) :=
  checkPeriods_of_overLimit h

theorem checkRestrict_fst (now : ℤ) (g : Globals) :
    (checkRestrict cfg now ac g).1 = true ↔ Exceeds cfg ac := by
  by_cases h : Exceeds cfg ac
  · obtain ⟨cur, period, field, -, hc⟩ := checkRestrict_of_exceeds h now g
    simp [hc, h]
  · simp [checkRestrict_of_not_exceeds h, h]

theorem checkRestrictLimit_of_not_exceeds (h : ¬ Exceeds cfg ac) (now : ℤ) (g : Globals) :
    checkRestrictLimit cfg now ac g = (false, ac, g) :=
  checkPeriods_of_not_overLimit h

theorem checkRestrictLimit_of_exceeds (h : Exceeds cfg ac) (now : ℤ) (g : Globals) :
    ∃ cur period field, period ≠ .noPeriod ∧
      checkRestrictLimit cfg now ac g = (true, restrictPeriodLimit cfg now cur period field ac g) :=
  checkPeriods_of_overLimit h

theorem percentage_nonneg {limit : ℤ} (h : 0 ≤ limit) : 0 ≤ percentage limit := by
  have hfl : 0 ≤ Rounding.fl (limit : ℚ) := Rounding.fl_nonneg (by exact_mod_cast h)
  exact Rounding.fl_nonneg (by positivity)

/-- Statistics that are all zero are over no limit, because a negative limit is not checked. -/
theorem isStatOverlimit_resetStats (x : TLong → ℤ) (sl : StatsCfg) :
    isStatOverlimit x resetStats sl = .norestrictParam2 := by
  have hcpu : ¬ (resetStats.cpu > percentage (x sl.cpu) ∧ x sl.cpu ≥ 0) := by
    rintro ⟨hlt, hge⟩
    exact absurd hlt (not_lt.mpr (percentage_nonneg hge))
  have hread : ¬ (resetStats.read > x sl.read ∧ x sl.read ≥ 0) := by
    rintro ⟨hlt, hge⟩
    exact absurd hlt (not_lt.mpr hge)
  have hwrite : ¬ (resetStats.write > x sl.write ∧ x sl.write ≥ 0) := by
    rintro ⟨hlt, hge⟩
    exact absurd hlt (not_lt.mpr hge)
  rw [isStatOverlimit, if_neg hcpu, if_neg hread, if_neg hwrite]

theorem clearAccount_not_exceeds (cfg : GovernorConfig) (ac : Account) :
    ¬ Exceeds cfg (clearAccount ac) := by
  simp [Exceeds, OverLimit, clearAccount, isStatOverlimitCurrent, isStatOverlimitShort,
    isStatOverlimitMid, isStatOverlimitLong, isStatOverlimit_resetStats]

/-! ### Equations in limit mode -/

section LimitEquations

theorem accountAnalyzeLimit_off (h : (cfg.allLve || !cfg.useLve) = true) (now : ℤ) (ac : Account)
    (g : Globals) : accountAnalyzeLimit cfg now ac g = (ac, g) := by
  simp [accountAnalyzeLimit, h]

theorem accountAnalyzeLimit_ignored (h : ¬ Watched cfg ac) (now : ℤ) (g : Globals) :
    accountAnalyzeLimit cfg now ac g = (ac, g) := by
  have hmode : (configGetAccountLimit cfg ac.id).mode = .ignoreMode := not_not.mp h
  simp [accountAnalyzeLimit, hmode]

variable {cur field : GovernorsFieldName} {period : GovernorsPeriodName}
  (hu : cfg.useLve = true) (ha : cfg.allLve = false) (hw : Watched cfg ac)

include hu ha hw

theorem accountAnalyzeLimit_restricts (hopen : ac.timeout = 0 ∨ 0 < ac.startCount)
    (hc : checkRestrictLimit cfg now ac g =
      (true, restrictPeriodLimit cfg now cur period field ac g)) :
    accountAnalyzeLimit cfg now ac g = restrictPeriodLimit cfg now cur period field ac g := by
  have hmode : (configGetAccountLimit cfg ac.id).mode ≠ .ignoreMode := hw
  by_cases ht : ac.timeout = 0
  · simp [accountAnalyzeLimit, hu, ha, hmode, ht, hc]
  · have hs : 0 < ac.startCount := hopen.resolve_left ht
    simp [accountAnalyzeLimit, hu, ha, hmode, ht, hs, hc, restrictPeriodLimit]

theorem accountAnalyzeLimit_releases (he : ¬ Exceeds cfg ac) (ht : ac.timeout ≠ 0)
    (hs : 0 < ac.startCount) (hx : ac.startCount + ac.timeout ≤ now) :
    accountAnalyzeLimit cfg now ac g = unrestrictLimit cfg ac g := by
  have hmode : (configGetAccountLimit cfg ac.id).mode ≠ .ignoreMode := hw
  have hc := checkRestrictLimit_of_not_exceeds he now g
  simp [accountAnalyzeLimit, hu, ha, hmode, ht, hs, hc, hx, Ne.symm ht]

theorem accountAnalyzeLimit_stuck (ht : ac.timeout ≠ 0) (hs : ¬ 0 < ac.startCount) :
    accountAnalyzeLimit cfg now ac g = (ac, g) := by
  have hmode : (configGetAccountLimit cfg ac.id).mode ≠ .ignoreMode := hw
  simp [accountAnalyzeLimit, hu, ha, hmode, ht, hs]

theorem accountAnalyzeLimit_keeps_on (he : ¬ Exceeds cfg ac)
    (hx : ac.timeout = 0 ∨ now < ac.startCount + ac.timeout) :
    accountAnalyzeLimit cfg now ac g = (ac, g) := by
  have hmode : (configGetAccountLimit cfg ac.id).mode ≠ .ignoreMode := hw
  have hc := checkRestrictLimit_of_not_exceeds he now g
  by_cases ht : ac.timeout = 0
  · simp [accountAnalyzeLimit, hu, ha, hmode, ht, hc]
  · have hlate : ¬ ac.startCount + ac.timeout ≤ now := not_le.mpr (hx.resolve_left ht)
    simp [accountAnalyzeLimit, hu, ha, hmode, ht, hc, hlate]

end LimitEquations

/-! ### Outcomes of a tick in limit mode -/

/-- What `account_analyze_limit` does to an account. -/
inductive LimitOutcome (cfg : GovernorConfig) (now : ℤ) (ac : Account) (g : Globals) :
    Account × Globals → Prop where
  | ignored : ¬ Watched cfg ac → LimitOutcome cfg now ac g (ac, g)
  | stuck : ac.timeout ≠ 0 → ac.startCount ≤ 0 → LimitOutcome cfg now ac g (ac, g)
  | kept : Watched cfg ac → ¬ Exceeds cfg ac →
      (ac.timeout = 0 ∨ now < ac.startCount + ac.timeout) → LimitOutcome cfg now ac g (ac, g)
  | restricted (cur period field) : Watched cfg ac → Exceeds cfg ac → period ≠ .noPeriod →
      LimitOutcome cfg now ac g (restrictPeriodLimit cfg now cur period field ac g)
  | released : Watched cfg ac → ¬ Exceeds cfg ac → ac.timeout ≠ 0 →
      ac.startCount + ac.timeout ≤ now → LimitOutcome cfg now ac g (unrestrictLimit cfg ac g)

theorem accountAnalyzeLimit_outcome (hu : cfg.useLve = true) (ha : cfg.allLve = false)
    (now : ℤ) (ac : Account) (g : Globals) :
    LimitOutcome cfg now ac g (accountAnalyzeLimit cfg now ac g) := by
  by_cases hw : Watched cfg ac
  · by_cases hopen : ac.timeout = 0 ∨ 0 < ac.startCount
    · by_cases he : Exceeds cfg ac
      · obtain ⟨cur, period, field, hp, hc⟩ := checkRestrictLimit_of_exceeds he now g
        rw [accountAnalyzeLimit_restricts hu ha hw hopen hc]
        exact .restricted cur period field hw he hp
      · by_cases hx : ac.timeout = 0 ∨ now < ac.startCount + ac.timeout
        · rw [accountAnalyzeLimit_keeps_on hu ha hw he hx]
          exact .kept hw he hx
        · obtain ⟨ht, hlate⟩ := not_or.mp hx
          rw [accountAnalyzeLimit_releases hu ha hw he ht (hopen.resolve_left ht) (not_lt.mp hlate)]
          exact .released hw he ht (not_lt.mp hlate)
    · obtain ⟨ht, hs⟩ := not_or.mp hopen
      rw [accountAnalyzeLimit_stuck hu ha hw ht hs]
      exact .stuck ht (not_lt.mp hs)
  · rw [accountAnalyzeLimit_ignored hw]
    exact .ignored hw

/-! ### Equations in period mode -/

/-- The account as `account_analyze` leaves it when a restriction has run out. -/
def expired (now : ℤ) (ac : Account) : Account :=
  { ac with timeout := 0, startCount := now, info := ⟨.noPeriod, .norestrictParam⟩ }

theorem expireRestrict_eq (cfg : GovernorConfig) (now : ℤ) (ac : Account) (g : Globals) :
    expireRestrict cfg now ac g =
      if (checkRestrict cfg now (expired now ac) g).1 then
        (checkRestrict cfg now (expired now ac) g).2
      else
        ((checkRestrict cfg now (expired now ac) g).2.1,
          accountUnrestrict cfg (checkRestrict cfg now (expired now ac) g).2.1
            (checkRestrict cfg now (expired now ac) g).2.2) := rfl

theorem expireRestrict_releases (he : ¬ Exceeds cfg ac) (now : ℤ) (g : Globals) :
    expireRestrict cfg now ac g = (expired now ac, accountUnrestrict cfg (expired now ac) g) := by
  have he' : ¬ Exceeds cfg (expired now ac) := he
  simp [expireRestrict_eq, checkRestrict_of_not_exceeds he' now g]

section PeriodEquations

variable {cur field : GovernorsFieldName} {period : GovernorsPeriodName}

theorem expireRestrict_restricts
    (hc : checkRestrict cfg now (expired now ac) g =
      (true, restrictPeriod cfg now cur period field (expired now ac) g)) :
    expireRestrict cfg now ac g = restrictPeriod cfg now cur period field (expired now ac) g := by
  simp [expireRestrict_eq, hc]

theorem accountAnalyze_off (h : (cfg.allLve || !cfg.useLve) = true) (now : ℤ) (ac : Account)
    (g : Globals) : accountAnalyze cfg now ac g = (ac, g) := by
  simp [accountAnalyze, h]

theorem accountAnalyze_ignored (h : ¬ Watched cfg ac) (now : ℤ) (g : Globals) :
    accountAnalyze cfg now ac g = (ac, g) := by
  have hmode : (configGetAccountLimit cfg ac.id).mode = .ignoreMode := not_not.mp h
  simp [accountAnalyze, hmode]

variable (hu : cfg.useLve = true) (ha : cfg.allLve = false) (hw : Watched cfg ac)

include hu ha hw

theorem accountAnalyze_restricts (ht : ac.timeout = 0)
    (hc : checkRestrict cfg now ac g = (true, restrictPeriod cfg now cur period field ac g)) :
    accountAnalyze cfg now ac g = restrictPeriod cfg now cur period field ac g := by
  have hmode : (configGetAccountLimit cfg ac.id).mode ≠ .ignoreMode := hw
  simp [accountAnalyze, hu, ha, hmode, ht, hc]

theorem accountAnalyze_forgives (ht : ac.timeout = 0) (he : ¬ Exceeds cfg ac)
    (hs : 0 < ac.startCount) (hx : ac.startCount + cfg.timeout.toNat ≤ now) :
    accountAnalyze cfg now ac g = (endPenalty ac, g) := by
  have hmode : (configGetAccountLimit cfg ac.id).mode ≠ .ignoreMode := hw
  have hc := checkRestrict_of_not_exceeds he now g
  simp [accountAnalyze, hu, ha, hmode, ht, hc, hs, hx]

theorem accountAnalyze_quiet (ht : ac.timeout = 0) (he : ¬ Exceeds cfg ac)
    (hs : ¬ (0 < ac.startCount ∧ ac.startCount + cfg.timeout.toNat ≤ now)) :
    accountAnalyze cfg now ac g = (ac, g) := by
  have hmode : (configGetAccountLimit cfg ac.id).mode ≠ .ignoreMode := hw
  have hc := checkRestrict_of_not_exceeds he now g
  by_cases hpos : 0 < ac.startCount
  · have hearly : ¬ ac.startCount + cfg.timeout.toNat ≤ now := fun hx => hs ⟨hpos, hx⟩
    simp [accountAnalyze, hu, ha, hmode, ht, hc, hearly]
  · simp [accountAnalyze, hu, ha, hmode, ht, hc, hpos]

theorem accountAnalyze_expires (ht : ac.timeout ≠ 0) (hs : 0 < ac.startCount)
    (hx : ac.startCount + ac.timeout ≤ now) :
    accountAnalyze cfg now ac g = expireRestrict cfg now ac g := by
  have hmode : (configGetAccountLimit cfg ac.id).mode ≠ .ignoreMode := hw
  simp [accountAnalyze, hu, ha, hmode, ht, hs, hx, Ne.symm ht]

theorem accountAnalyze_runs_on (ht : ac.timeout ≠ 0)
    (hs : ¬ (0 < ac.startCount ∧ ac.startCount + ac.timeout ≤ now)) :
    accountAnalyze cfg now ac g = (ac, g) := by
  have hmode : (configGetAccountLimit cfg ac.id).mode ≠ .ignoreMode := hw
  by_cases hpos : 0 < ac.startCount
  · have hearly : ¬ ac.startCount + ac.timeout ≤ now := fun hx => hs ⟨hpos, hx⟩
    simp [accountAnalyze, hu, ha, hmode, ht, hearly]
  · simp [accountAnalyze, hu, ha, hmode, ht, hpos]

end PeriodEquations

/-! ### Outcomes of a tick in period mode -/

/-- What `account_analyze` does to an account. -/
inductive PeriodOutcome (cfg : GovernorConfig) (now : ℤ) (ac : Account) (g : Globals) :
    Account × Globals → Prop where
  | ignored : ¬ Watched cfg ac → PeriodOutcome cfg now ac g (ac, g)
  | stuck : ac.timeout ≠ 0 → ac.startCount ≤ 0 → PeriodOutcome cfg now ac g (ac, g)
  | running : ac.timeout ≠ 0 → now < ac.startCount + ac.timeout →
      PeriodOutcome cfg now ac g (ac, g)
  | quiet : ac.timeout = 0 → ¬ Exceeds cfg ac → PeriodOutcome cfg now ac g (ac, g)
  | restricted (cur period field) : ac.timeout = 0 → Exceeds cfg ac → period ≠ .noPeriod →
      PeriodOutcome cfg now ac g (restrictPeriod cfg now cur period field ac g)
  | renewed (cur period field) : ac.timeout ≠ 0 → ac.startCount + ac.timeout ≤ now →
      Exceeds cfg ac → period ≠ .noPeriod →
      PeriodOutcome cfg now ac g
        (restrictPeriod cfg now cur period field (expired now ac) g)
  | released : ac.timeout ≠ 0 → ac.startCount + ac.timeout ≤ now → ¬ Exceeds cfg ac →
      PeriodOutcome cfg now ac g
        (expired now ac, accountUnrestrict cfg (expired now ac) g)
  | forgiven : ac.timeout = 0 → ¬ Exceeds cfg ac →
      ac.startCount + cfg.timeout.toNat ≤ now → PeriodOutcome cfg now ac g (endPenalty ac, g)

theorem expireRestrict_outcome (ht : ac.timeout ≠ 0) (hx : ac.startCount + ac.timeout ≤ now) :
    PeriodOutcome cfg now ac g (expireRestrict cfg now ac g) := by
  by_cases he : Exceeds cfg ac
  · have he' : Exceeds cfg (expired now ac) := he
    obtain ⟨cur, period, field, hp, hc⟩ := checkRestrict_of_exceeds he' now g
    rw [expireRestrict_restricts hc]
    exact .renewed cur period field ht hx he hp
  · rw [expireRestrict_releases he]
    exact .released ht hx he

theorem accountAnalyze_outcome (hu : cfg.useLve = true) (ha : cfg.allLve = false)
    (now : ℤ) (ac : Account) (g : Globals) :
    PeriodOutcome cfg now ac g (accountAnalyze cfg now ac g) := by
  by_cases hw : Watched cfg ac
  · by_cases ht : ac.timeout = 0
    · by_cases he : Exceeds cfg ac
      · obtain ⟨cur, period, field, hp, hc⟩ := checkRestrict_of_exceeds he now g
        rw [accountAnalyze_restricts hu ha hw ht hc]
        exact .restricted cur period field ht he hp
      · by_cases hs : 0 < ac.startCount ∧ ac.startCount + cfg.timeout.toNat ≤ now
        · rw [accountAnalyze_forgives hu ha hw ht he hs.1 hs.2]
          exact .forgiven ht he hs.2
        · rw [accountAnalyze_quiet hu ha hw ht he hs]
          exact .quiet ht he
    · by_cases hs : 0 < ac.startCount
      · by_cases hx : ac.startCount + ac.timeout ≤ now
        · rw [accountAnalyze_expires hu ha hw ht hs hx]
          exact expireRestrict_outcome ht hx
        · rw [accountAnalyze_runs_on hu ha hw ht fun hboth => hx hboth.2]
          exact .running ht (not_le.mp hx)
      · rw [accountAnalyze_runs_on hu ha hw ht fun hboth => hs hboth.1]
        exact .stuck ht (not_lt.mp hs)
  · rw [accountAnalyze_ignored hw]
    exact .ignored hw

end DbGovernor
