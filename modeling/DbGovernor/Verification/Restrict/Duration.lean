import DbGovernor.Verification.Config.Periods
import DbGovernor.Verification.Restrict.Penalty
import DbGovernor.Verification.Shared.Results

/-!
# How long a restriction lasts

The text of a period stands for the sum of its groups and of a number without a unit at the end.
The code reads this number only if there is no group, and keeps the seconds in an `int`.
-/

namespace DbGovernor

open Results

/-! ### The meaning of a text -/

/-- The seconds of a unit; other letters count as seconds. -/
def unitSeconds (unit : UInt8) : ℕ :=
  if toLower unit = 109 then 60
  else if toLower unit = 104 then 60 * 60
  else if toLower unit = 100 then 60 * 60 * 24
  else 1

/-- The exact sum of the groups and the digits at the end, with the digits collected since the last
unit. -/
def periodParts : CString → CString → ℕ × CString
  | [], value => (0, value)
  | c :: rest, value =>
      if isDigit c then periodParts rest (value ++ [c])
      else
        let parts := periodParts rest []
        (decimal value * unitSeconds c + parts.1, parts.2)

/-- The sum of the groups of a text. -/
def groupSeconds (text : CString) : ℕ := (periodParts text []).1

/-- The number behind the last unit. -/
def trailingNumber (text : CString) : ℕ := decimal (periodParts text []).2

/-- The seconds that a text stands for. -/
def exactSeconds (text : CString) : ℕ := groupSeconds text + trailingNumber text

section Meaning

variable {text value ds rest : CString} {result period : UInt32} {c : UInt8}

theorem unitSeconds_pos (unit : UInt8) : 0 < unitSeconds unit := by
  rw [unitSeconds]
  split_ifs <;> decide

theorem getSeconds_eq (hne : value ≠ []) (unit : UInt8) :
    getSeconds value unit = .ok (UInt32.ofNat (decimal value * unitSeconds unit)) := by
  rw [getSeconds, if_neg hne, unitSeconds]
  split_ifs <;> simp [UInt32.mul_assoc]

theorem periodParts_digits (hds : ∀ c ∈ ds, isDigit c = true) (value rest : CString) :
    periodParts (ds ++ rest) value = periodParts rest (value ++ ds) := by
  induction ds generalizing value with
  | nil => rw [List.nil_append, List.append_nil]
  | cons c ds ih =>
      obtain ⟨hc, hds⟩ := List.forall_mem_cons.mp hds
      rw [List.cons_append, periodParts, if_pos hc, ih hds, List.append_assoc]
      rfl

/-- The loop of `parse_period` sums up the groups. -/
theorem parsePeriodLoop_eq (h : parsePeriodLoop text value result = .ok period) :
    period = result + UInt32.ofNat (periodParts text value).1 := by
  induction text generalizing value result with
  | nil =>
      rw [parsePeriodLoop] at h
      cases h
      simp [periodParts]
  | cons c rest ih =>
      rw [parsePeriodLoop] at h
      rw [periodParts]
      by_cases hc : isDigit c = true
      · rw [if_pos hc] at h ⊢
        split at h
        · cases h
        · exact ih h
      · rw [if_neg hc] at h ⊢
        by_cases hempty : value = []
        · rw [getSeconds, if_pos hempty] at h
          cases h
        · rw [getSeconds_eq hempty] at h
          rw [ih h, UInt32.ofNat_add, UInt32.add_assoc]

/-- A text with a unit has a number in front of its first unit. -/
theorem exists_first_group (hloop : parsePeriodLoop text [] 0 = .ok period)
    (hunit : ¬ ∀ c ∈ text, isDigit c = true) :
    ∃ ds c rest, text = ds ++ c :: rest ∧ ds ≠ [] ∧ (∀ d ∈ ds, isDigit d = true) ∧
      isDigit c = false := by
  have hsplit := List.takeWhile_append_dropWhile (p := isDigit) (l := text)
  have hds : ∀ d ∈ text.takeWhile isDigit, isDigit d = true := fun d hd =>
    List.mem_takeWhile_imp hd
  cases hrest : text.dropWhile isDigit with
  | nil => exact absurd (List.dropWhile_eq_nil_iff.mp hrest) hunit
  | cons c rest =>
      have hc : isDigit c = false := by
        have hhead := List.head_dropWhile_not isDigit (l := text) (by simp [hrest])
        simpa [hrest] using hhead
      rw [hrest] at hsplit
      refine ⟨text.takeWhile isDigit, c, rest, hsplit.symm, ?_, hds, hc⟩
      intro hempty
      rw [hempty, List.nil_append] at hsplit
      rw [← hsplit, parsePeriodLoop, if_neg (by simp [hc]), getSeconds, if_pos rfl] at hloop
      cases hloop

theorem parsePeriod_cases (h : parsePeriod text = .ok period) :
    parsePeriodLoop text [] 0 = .ok (UInt32.ofNat (groupSeconds text)) ∧
      period = if UInt32.ofNat (groupSeconds text) = 0 then UInt32.ofInt (atoi text)
        else UInt32.ofNat (groupSeconds text) := by
  obtain ⟨result, hloop, hresult⟩ := bind_eq_ok.mp h
  have hsum := parsePeriodLoop_eq hloop
  rw [UInt32.zero_add] at hsum
  subst hsum
  exact ⟨hloop, (pure_eq_ok.mp hresult).symm⟩

theorem intOfUnsigned_lt (u : UInt32) : intOfUnsigned u < 2 ^ 31 := by
  have hlt := u.toNat_lt
  rw [intOfUnsigned]
  split <;> omega

/-- A text without a unit is read as one number. -/
theorem atoi_of_digits (hdigits : ∀ c ∈ text, isDigit c = true) (hpos : 0 < exactSeconds text)
    (hsmall : exactSeconds text < 2 ^ 31) :
    groupSeconds text = 0 ∧ intOfUnsigned (UInt32.ofInt (atoi text)) = exactSeconds text := by
  have hparts := periodParts_digits hdigits [] []
  rw [List.append_nil, List.nil_append, periodParts] at hparts
  have hgroups : groupSeconds text = 0 := by rw [groupSeconds, hparts]
  have hexact : exactSeconds text = decimal text := by
    rw [exactSeconds, trailingNumber, hgroups, hparts, Nat.zero_add]
  have hne : text ≠ [] := by
    rintro rfl
    rw [hexact] at hpos
    cases hpos
  have hatoi := atoi_digits_append [] hne hdigits rfl (by omega)
  rw [List.append_nil] at hatoi
  refine ⟨hgroups, ?_⟩
  rw [hatoi, intOfUnsigned_ofInt (by omega) (by omega), hexact]

/-- The first number of a text whose groups have no second is zero. -/
theorem atoi_of_unit (hloop : parsePeriodLoop text [] 0 = .ok period)
    (hunit : ¬ ∀ c ∈ text, isDigit c = true) (hzero : groupSeconds text = 0) : atoi text = 0 := by
  obtain ⟨ds, c, rest, rfl, hne, hds, hc⟩ := exists_first_group hloop hunit
  rw [groupSeconds, periodParts_digits hds, List.nil_append, periodParts, if_neg (by simp [hc])]
    at hzero
  have hdecimal : decimal ds = 0 := by
    have hproduct : decimal ds * unitSeconds c = 0 := by
      dsimp only at hzero
      omega
    exact (Nat.mul_eq_zero.mp hproduct).resolve_right (unitSeconds_pos c).ne'
  have hstop : digits (c :: rest) = [] := by
    rw [isDigit] at hc
    simp [digits, hc]
  rw [atoi_digits_append _ hne hds hstop (by omega), hdecimal]
  rfl

/-- Groups that are below `2 ^ 31` seconds and not zero are the whole period. -/
theorem period_of_groups (h : parsePeriod text = .ok period) (hne : groupSeconds text ≠ 0)
    (hsmall : groupSeconds text < 2 ^ 31) : intOfUnsigned period = groupSeconds text := by
  have hval : (UInt32.ofNat (groupSeconds text)).toNat = groupSeconds text :=
    UInt32.toNat_ofNat_of_lt' (by rw [UInt32.size]; omega)
  have hnonzero : UInt32.ofNat (groupSeconds text) ≠ 0 := by
    intro hzero
    rw [hzero] at hval
    exact hne hval.symm
  rw [(parsePeriod_cases h).2, if_neg hnonzero, intOfUnsigned_of_lt (by omega), hval]

/-- Without a second in the groups the text is read as one number. -/
theorem period_of_no_groups (h : parsePeriod text = .ok period) (hzero : groupSeconds text = 0) :
    period = UInt32.ofInt (atoi text) := by
  rw [(parsePeriod_cases h).2, hzero]
  exact if_pos rfl

/-- A number behind a unit is lost. -/
theorem period_lt_of_trailing (h : parsePeriod text = .ok period)
    (hunit : ¬ ∀ c ∈ text, isDigit c = true) (htrailing : trailingNumber text ≠ 0)
    (hsmall : exactSeconds text < 2 ^ 31) : intOfUnsigned period < exactSeconds text := by
  rw [exactSeconds] at hsmall ⊢
  by_cases hzero : groupSeconds text = 0
  · rw [period_of_no_groups h hzero, atoi_of_unit (parsePeriod_cases h).1 hunit hzero]
    have hint : intOfUnsigned (UInt32.ofInt 0) = 0 := rfl
    omega
  · rw [period_of_groups h hzero (by omega)]
    omega

/-- The `int` of a period reaches the seconds of its text only where nothing is lost. -/
theorem exactSeconds_le_iff (h : parsePeriod text = .ok period) (hpos : 0 < exactSeconds text) :
    (exactSeconds text : ℤ) ≤ intOfUnsigned period ↔ exactSeconds text < 2 ^ 31 ∧
      ((∀ c ∈ text, isDigit c = true) ∨ trailingNumber text = 0) := by
  constructor
  · intro hle
    have hbound := intOfUnsigned_lt period
    have hsmall : exactSeconds text < 2 ^ 31 := by omega
    refine ⟨hsmall, ?_⟩
    by_contra hlost
    obtain ⟨hunit, htrailing⟩ := not_or.mp hlost
    exact absurd hle (not_le.mpr (period_lt_of_trailing h hunit htrailing hsmall))
  · rintro ⟨hsmall, hdigits | htrailing⟩
    · obtain ⟨hzero, hatoi⟩ := atoi_of_digits hdigits hpos hsmall
      rw [period_of_no_groups h hzero, hatoi]
    · have hexact : exactSeconds text = groupSeconds text := by
        rw [exactSeconds, htrailing, Nat.add_zero]
      rw [hexact] at hpos hsmall ⊢
      rw [period_of_groups h hpos.ne' hsmall]

end Meaning

/-! ### The restriction -/

/-- The configured seconds of the level with index `level`. -/
def levelSeconds (cfg : GovernorConfig) (level : ℤ) : UInt32 :=
  if level = 0 then cfg.level1
  else if level = 1 then cfg.level2
  else if level = 2 then cfg.level3
  else cfg.level4

/-- One call of `account_analyze` under the configuration in force at that time. -/
def analyzeTick (s : Account × Globals) (tick : GovernorConfig × PeriodTick) : Account × Globals :=
  tick.2.apply tick.1 s

/-- An account that `check_restrict` puts at a level whose period is read from the text is not
released by any tick before the seconds are over. -/
def Lasts (text : CString) (seconds : ℕ) : Prop :=
  ∀ (cfg : GovernorConfig) (now : ℤ) (ac : Account) (g : Globals), cfg.restrictMode = false →
    (checkRestrict cfg now ac g).1 = true →
    parsePeriod text = .ok (levelSeconds cfg (checkRestrict cfg now ac g).2.1.restricted) →
    ∀ ticks : List (GovernorConfig × PeriodTick), (∀ tick ∈ ticks, tick.2.now < now + seconds) →
      Runs.Meets analyzeTick (fun s tick => (analyzeTick s tick).1.timeout ≠ 0)
        (checkRestrict cfg now ac g).2 ticks

section Restriction

variable {cfg : GovernorConfig} {now : ℤ} {ac : Account} {g : Globals} {text : CString}
  {period : UInt32} {s : Account × Globals}

theorem checkRestrict_timeout (h : (checkRestrict cfg now ac g).1 = true) :
    (checkRestrict cfg now ac g).2.1.startCount = now ∧
      (checkRestrict cfg now ac g).2.1.timeout =
        intOfUnsigned (levelSeconds cfg (checkRestrict cfg now ac g).2.1.restricted) := by
  obtain ⟨cur, period, field, -, heq⟩ :=
    checkRestrict_of_exceeds ((checkRestrict_fst now g).mp h) now g
  rw [heq, restrictPeriod_account]
  exact ⟨rfl, rfl⟩

/-- A tick before the end of a restriction leaves the account as it is. -/
theorem accountAnalyze_before_end (ht : ac.timeout ≠ 0) (hnow : now < ac.startCount + ac.timeout) :
    accountAnalyze cfg now ac g = (ac, g) := by
  by_cases hoff : (cfg.allLve || !cfg.useLve) = true
  · exact accountAnalyze_off hoff now ac g
  · by_cases hw : Watched cfg ac
    · simp only [Bool.or_eq_true, Bool.not_eq_true', not_or, Bool.not_eq_true,
        Bool.not_eq_false] at hoff
      exact accountAnalyze_runs_on hoff.2 hoff.1 hw ht fun hboth => not_le.mpr hnow hboth.2
    · exact accountAnalyze_ignored hw now g

/-- A restriction with a positive timeout runs until its end. -/
theorem meets_of_running {start timeout : ℤ} (hpos : 0 < timeout)
    {ticks : List (GovernorConfig × PeriodTick)}
    (hticks : ∀ tick ∈ ticks, tick.2.now < start + timeout)
    (hstart : s.1.startCount = start) (htimeout : s.1.timeout = timeout) :
    Runs.Meets analyzeTick (fun s tick => (analyzeTick s tick).1.timeout ≠ 0) s ticks := by
  induction ticks generalizing s with
  | nil => trivial
  | cons tick ticks ih =>
      obtain ⟨htick, hticks⟩ := List.forall_mem_cons.mp hticks
      have hkeeps : analyzeTick s tick = (s.1.withUsage tick.2.usage, s.2) := by
        rw [analyzeTick, PeriodTick.apply]
        refine accountAnalyze_before_end ?_ ?_
        · exact ne_of_eq_of_ne htimeout hpos.ne'
        · exact htick.trans_eq (by rw [← hstart, ← htimeout]; rfl)
      refine ⟨?_, ?_⟩
      · change (analyzeTick s tick).1.timeout ≠ 0
        rw [hkeeps]
        exact ne_of_eq_of_ne htimeout hpos.ne'
      · rw [hkeeps]
        exact ih hticks hstart htimeout

/-- A tick at the end of a restriction, or a tick on an account with no time left, releases an
account that is under its limits. -/
theorem accountAnalyze_at_end (hu : cfg.useLve = true) (ha : cfg.allLve = false)
    (hw : Watched cfg ac) (hs : 0 < ac.startCount) (he : ¬ Exceeds cfg ac)
    (hnow : ac.startCount + ac.timeout ≤ now) :
    (accountAnalyze cfg now ac g).1.timeout = 0 := by
  have houtcome := accountAnalyze_outcome hu ha now ac g
  generalize accountAnalyze cfg now ac g = r at houtcome ⊢
  cases houtcome with
  | ignored hnot => exact absurd hw hnot
  | stuck _ hstuck => exact absurd hs (not_lt.mpr hstuck)
  | running _ hearly => exact absurd hnow (not_le.mpr hearly)
  | quiet ht _ => exact ht
  | restricted _ _ _ _ hx _ => exact absurd hx he
  | renewed _ _ _ _ _ hx _ => exact absurd hx he
  | released _ _ _ => rfl
  | forgiven _ _ _ => rfl

end Restriction

/-- The shipped limits with one period for all levels. -/
def uniformConfig (period : UInt32) : GovernorConfig :=
  { shippedConfig false with
    level1 := period, level2 := period, level3 := period, level4 := period }

theorem levelSeconds_uniformConfig (period : UInt32) (level : ℤ) :
    levelSeconds (uniformConfig period) level = period := by
  rw [levelSeconds]
  split_ifs <;> rfl

theorem watched_uniformConfig (period : UInt32) (ac : Account) :
    Watched (uniformConfig period) ac := by
  simp [Watched, configGetAccountLimit, uniformConfig, shippedConfig]

/-- An account over the limit for the CPU. -/
def overAccount : Account := sampleAccount.withUsage (cpuUsage 5)

/-- Under a period that is too short the account is released at the end of the period, or by the
first tick. -/
theorem not_lasts_of_short {text : CString} {period : UInt32} {seconds : ℕ}
    (h : parsePeriod text = .ok period) (hpos : 0 < seconds)
    (hshort : intOfUnsigned period < seconds) : ¬ Lasts text seconds := by
  intro hlasts
  have hexceeds : Exceeds (uniformConfig period) overAccount :=
    (show Exceeds (shippedConfig false) overAccount by decide +kernel)
  have hrestricted : (checkRestrict (uniformConfig period) 1 overAccount .init).1 = true :=
    (checkRestrict_fst 1 .init).mpr hexceeds
  obtain ⟨hstart, htimeout⟩ := checkRestrict_timeout hrestricted
  rw [levelSeconds_uniformConfig] at htimeout
  have hrun := hlasts (uniformConfig period) 1 overAccount .init rfl hrestricted
    (h.trans (by rw [levelSeconds_uniformConfig]))
    [(uniformConfig period, ⟨.zero, 1 + max 0 (intOfUnsigned period)⟩)] (by
      intro tick htick
      rw [List.mem_singleton.mp htick]
      dsimp only
      omega)
  refine hrun.1 (accountAnalyze_at_end rfl rfl (watched_uniformConfig period _) ?_ ?_ ?_)
  · exact zero_lt_one.trans_eq hstart.symm
  · exact clearAccount_not_exceeds _ _
  · change (checkRestrict (uniformConfig period) 1 overAccount .init).2.1.startCount +
      (checkRestrict (uniformConfig period) 1 overAccount .init).2.1.timeout ≤
        1 + max 0 (intOfUnsigned period)
    rw [hstart, htimeout]
    omega

theorem lasts_of_le {text : CString} {period : UInt32} {seconds : ℕ}
    (h : parsePeriod text = .ok period) (hpos : 0 < seconds)
    (hle : (seconds : ℤ) ≤ intOfUnsigned period) : Lasts text seconds := by
  intro cfg now ac g _ hrestricted hread ticks hticks
  obtain ⟨hstart, htimeout⟩ := checkRestrict_timeout hrestricted
  rw [← Except.ok.inj (h.symm.trans hread)] at htimeout
  refine meets_of_running (by omega) (fun tick htick => ?_) hstart htimeout
  have hnow := hticks tick htick
  omega

theorem lasts_iff_le {text : CString} {period : UInt32} {seconds : ℕ}
    (h : parsePeriod text = .ok period) (hpos : 0 < seconds) :
    Lasts text seconds ↔ (seconds : ℤ) ≤ intOfUnsigned period :=
  ⟨fun hlasts => not_lt.mp fun hshort => not_lasts_of_short h hpos hshort hlasts,
    lasts_of_le h hpos⟩

/-- A restriction lasts for the seconds of its text exactly when they fit in an `int` and no number
stands behind the last unit. -/
theorem restriction_lasts_iff (text : CString) (haccepted : Succeeds (parsePeriod text))
    (hpos : 0 < exactSeconds text) :
    Lasts text (exactSeconds text) ↔ exactSeconds text < 2 ^ 31 ∧
      ((∀ c ∈ text, isDigit c = true) ∨ trailingNumber text = 0) := by
  obtain ⟨period, hperiod⟩ := haccepted
  rw [lasts_iff_le hperiod hpos, exactSeconds_le_iff hperiod hpos]

theorem restriction_lasts_iff_day :
    Lasts (ascii "1d") (exactSeconds (ascii "1d")) ↔ exactSeconds (ascii "1d") < 2 ^ 31 ∧
      ((∀ c ∈ ascii "1d", isDigit c = true) ∨ trailingNumber (ascii "1d") = 0) :=
  restriction_lasts_iff (ascii "1d") ⟨86400, eq_ok_of_toOption (by decide +kernel)⟩
    (by decide +kernel)

/-- The half hour behind an hour is lost. -/
theorem trailing_number_lost :
    Succeeds (parsePeriod (ascii "1h1800")) ∧ exactSeconds (ascii "1h1800") = 5400 ∧
      ¬ Lasts (ascii "1h1800") 5400 := by
  have hread : parsePeriod (ascii "1h1800") = .ok 3600 := eq_ok_of_toOption (by decide +kernel)
  refine ⟨⟨_, hread⟩, by decide +kernel, ?_⟩
  exact not_lasts_of_short hread (by decide) (by decide)

end DbGovernor
