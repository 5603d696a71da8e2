import DbGovernor.Model.Commands

/-!
# Decisions about one account

The functions of `calc_stats.c` that restrict and release an account. They read the
clock several times; one `now` stands for all reads of a call. Log lines are left out.
-/

namespace DbGovernor

variable [Rounding]

/-- `(double) limit / 100.0`. -/
def percentage (limit : ℤ) : ℚ := Rounding.fl (Rounding.fl limit / 100)

/-- The macro `is_stat_overlimit (x)`, with `x` the period of the limits. -/
def isStatOverlimit (x : TLong → ℤ) (st : Stats) (limit : StatsCfg) : GovernorsFieldName :=
  if st.cpu > percentage (x limit.cpu) ∧ x limit.cpu ≥ 0 then .cpuParam
  else if st.read > x limit.read ∧ x limit.read ≥ 0 then .readParam
  else if st.write > x limit.write ∧ x limit.write ≥ 0 then .writeParam
  else .norestrictParam2

def isStatOverlimitCurrent := isStatOverlimit TLong.current
def isStatOverlimitShort := isStatOverlimit TLong.short
def isStatOverlimitMid := isStatOverlimit TLong.mid
def isStatOverlimitLong := isStatOverlimit TLong.long

/-- `get_timeout`: the new level, and its period as an `int`. -/
def getTimeout (cfg : GovernorConfig) (restrictLevel penalty : ℤ) : ℤ × ℤ :=
  let level := restrictLevel + penalty
  let level := if level > 3 then 3 else level
  let level := if level < 0 then 0 else level
  (level, intOfUnsigned
    (if level = 0 then cfg.level1
    else if level = 1 then cfg.level2
    else if level = 2 then cfg.level3
    else cfg.level4))

/-- `IncNumberOfRestricts`. -/
def incNumberOfRestricts (username : Username) (cause : ℕ) (g : Globals) : Globals :=
  let t := g.dbGovNumberOfRestricts.getD ∅
  { g with dbGovNumberOfRestricts := some (match t.lookup username with
    | some r => t.insert username ⟨r.numberOfRestricts + 1, r.causeOfRestricts ||| cause⟩
    | none => t.insert username ⟨1, cause⟩) }

def restrictByCpu : ℕ := 1
def restrictByRead : ℕ := 2
def restrictByWrite : ℕ := 4

/-- `get_cause_of_restrict`. -/
def getCauseOfRestrict : GovernorsFieldName → ℕ
  | .cpuParam => restrictByCpu
  | .readParam => restrictByRead
  | .writeParam => restrictByWrite
  | _ => 0

/-- The counting step of every branch that restricts. -/
def countRestrict (cfg : GovernorConfig) (id : Username) (cause : ℕ) (g : Globals) : Globals :=
  if cfg.statisticMode then incNumberOfRestricts id cause g else g

/-- The branch of `check_restrict` for one period. `cur` is the field over its current
limit, from which all four branches take the cause they count. -/
def restrictPeriod (cfg : GovernorConfig) (now : ℤ) (cur : GovernorsFieldName)
    (period : GovernorsPeriodName) (field : GovernorsFieldName) (ac : Account) (g : Globals) :
    Account × Globals :=
  let oldRestricted := ac.restricted
  let r := if ac.startCount + cfg.timeout.toNat > now then getTimeout cfg ac.restricted 1
    else getTimeout cfg ac.restricted 0
  let g := countRestrict cfg ac.id (getCauseOfRestrict cur) g
  let ac := { ac with
    restricted := r.1
    timeout := r.2
    startCount := now
    info := ⟨period, field⟩ }
  (ac, if oldRestricted = 0 then accountRestrict cfg ac g else g)

/-- The branch of `check_restrict_limit` for one period. -/
def restrictPeriodLimit (cfg : GovernorConfig) (now : ℤ) (cur : GovernorsFieldName)
    (period : GovernorsPeriodName) (field : GovernorsFieldName) (ac : Account) (g : Globals) :
    Account × Globals :=
  let g := countRestrict cfg ac.id (getCauseOfRestrict cur) g
  let oldRestricted := ac.restricted
  let ac := { ac with
    restricted := 1000
    timeout := intOfUnsigned cfg.lUnlimit
    startCount := now
    info := ⟨period, field⟩ }
  (ac, if oldRestricted = 0 then accountRestrict cfg ac g else g)

/-- The cascade over the periods that `check_restrict` and `check_restrict_limit` share,
with the branch they take as a parameter. -/
def checkPeriods (sl : StatsCfg)
    (branch : GovernorsFieldName → GovernorsPeriodName → GovernorsFieldName → Account →
      Globals → Account × Globals)
    (ac : Account) (g : Globals) : Bool × Account × Globals :=
  let cur := isStatOverlimitCurrent ac.current sl
  if cur ≠ .norestrictParam2 then (true, branch cur .currentPeriod cur ac g)
  else
    let short := isStatOverlimitShort ac.shortAverage sl
    if short ≠ .norestrictParam2 then (true, branch cur .shortPeriod short ac g)
    else
      let mid := isStatOverlimitMid ac.midAverage sl
      if mid ≠ .norestrictParam2 then (true, branch cur .midPeriod mid ac g)
      else
        let long := isStatOverlimitLong ac.longAverage sl
        if long ≠ .norestrictParam2 then (true, branch cur .longPeriod long ac g)
        else (false, ac, g)

/-- `check_restrict`. -/
def checkRestrict (cfg : GovernorConfig) (now : ℤ) (ac : Account) (g : Globals) :
    Bool × Account × Globals :=
  checkPeriods (configGetAccountLimit cfg ac.id) (restrictPeriod cfg now) ac g

/-- `check_restrict_limit`. -/
def checkRestrictLimit (cfg : GovernorConfig) (now : ℤ) (ac : Account) (g : Globals) :
    Bool × Account × Globals :=
  checkPeriods (configGetAccountLimit cfg ac.id) (restrictPeriodLimit cfg now) ac g

/-- The end of a restriction in `account_analyze_limit`. -/
def unrestrictLimit (cfg : GovernorConfig) (ac : Account) (g : Globals) : Account × Globals :=
  let ac := { ac with
    startCount := 0
    restricted := 0
    info := ⟨.noPeriod, .norestrictParam2⟩
    timeout := 0 }
  (ac, accountUnrestrict cfg ac g)

/-- `account_analyze_limit`. -/
def accountAnalyzeLimit (cfg : GovernorConfig) (now : ℤ) (ac : Account) (g : Globals) :
    Account × Globals :=
  let sl := configGetAccountLimit cfg ac.id
  if cfg.allLve || !cfg.useLve then (ac, g)
  else if sl.mode ≠ .ignoreMode then
    let first := if ac.timeout = 0 then checkRestrictLimit cfg now ac g else (false, ac, g)
    if first.1 then first.2
    else
      let ac := first.2.1
      let g := first.2.2
      if ac.startCount > 0 then
        let again := checkRestrictLimit cfg now ac g
        let ac := again.2.1
        let g := again.2.2
        if again.1 then ({ ac with startCount := now }, g)
        else if 0 ≠ ac.timeout ∧ ac.startCount + ac.timeout ≤ now then unrestrictLimit cfg ac g
        else (ac, g)
      else (ac, g)
  else (ac, g)

/-- The end of a restriction in `account_analyze`: the account is checked again at once. -/
def expireRestrict (cfg : GovernorConfig) (now : ℤ) (ac : Account) (g : Globals) :
    Account × Globals :=
  let ac := { ac with timeout := 0, startCount := now, info := ⟨.noPeriod, .norestrictParam⟩ }
  let again := checkRestrict cfg now ac g
  if again.1 then again.2 else (again.2.1, accountUnrestrict cfg again.2.1 again.2.2)

/-- The end of the penalty period in `account_analyze`. -/
def endPenalty (ac : Account) : Account :=
  { ac with
    startCount := 0
    restricted := 0
    info := ⟨.noPeriod, .norestrictParam2⟩
    timeout := 0 }

/-- `account_analyze`. -/
def accountAnalyze (cfg : GovernorConfig) (now : ℤ) (ac : Account) (g : Globals) :
    Account × Globals :=
  let sl := configGetAccountLimit cfg ac.id
  if cfg.allLve || !cfg.useLve then (ac, g)
  else if sl.mode ≠ .ignoreMode then
    let first := if ac.timeout = 0 then checkRestrict cfg now ac g else (false, ac, g)
    if first.1 then first.2
    else
      let ac := first.2.1
      let g := first.2.2
      if ac.startCount > 0 then
        if 0 ≠ ac.timeout ∧ ac.startCount + ac.timeout ≤ now then expireRestrict cfg now ac g
        else if ac.startCount + cfg.timeout.toNat ≤ now ∧ ac.timeout = 0 then (endPenalty ac, g)
        else (ac, g)
      else (ac, g)
  else (ac, g)

/-- The body of `dbctl_restrict_set` for an account that the command names. -/
def dbctlRestrictAccount (cfg : GovernorConfig) (now : ℤ) (command : DbCtlCommand)
    (ac : Account) (g : Globals) : Account × Globals :=
  let sl := configGetAccountLimit cfg ac.id
  let cur := isStatOverlimitCurrent ac.current sl
  let timeoutCoeff := if command.level = -1 then -1 else 0
  let level := if command.level = -1 then ac.restricted
    else if command.level - 1 < 0 then 0 else command.level - 1
  let r := getTimeout cfg level timeoutCoeff
  let level := if cfg.restrictMode then level else r.1
  let ac := if cfg.restrictMode then
      { ac with timeout := intOfUnsigned cfg.lUnlimit, restricted := 1000 }
    else { ac with timeout := r.2, restricted := r.1 }
  let g := if level ≥ 0 then
      countRestrict cfg ac.id (restrictByCpu ||| restrictByRead ||| restrictByWrite) g
    else g
  let ac := { ac with startCount := now, info := ⟨.currentPeriod, cur⟩ }
  (ac, accountRestrict cfg ac g)

/-- What both unrestrict commands clear. `info` is set to 0, the first name of each
enumeration. -/
def clearAccount (ac : Account) : Account :=
  { ac with
    timeout := 0
    startCount := 0
    restricted := 0
    current := resetStats
    longAverage := resetStats
    midAverage := resetStats
    shortAverage := resetStats
    info := ⟨.noPeriod, .norestrictParam2⟩ }

/-- `dbctl_unrestrict_set`. -/
def dbctlUnrestrictSet (cfg : GovernorConfig) (now : ℤ) (command : DbCtlCommand)
    (ac : Account) (g : Globals) : Account × Globals :=
  if ac.id = command.username then
    let again := checkRestrict cfg now (clearAccount ac) g
    if again.1 then again.2 else (again.2.1, accountUnrestrict cfg again.2.1 again.2.2)
  else (ac, g)

/-- `dbctl_unrestrict_all_set`. -/
def dbctlUnrestrictAllSet (cfg : GovernorConfig) (ac : Account) (g : Globals) :
    Account × Globals :=
  let g := if ac.timeout ≠ 0 then accountUnrestrict cfg ac g else g
  (clearAccount ac, g)

end DbGovernor
