import DbGovernor.Verification.Daemon.TickDecision
import DbGovernor.Verification.Restrict.OverLimit
import DbGovernor.Verification.Restrict.Verdict

/-!
# Causes of restricts

The checks that a tick makes, in their order, and what they leave in the table of the numbers
of restricts.
-/

namespace DbGovernor

/-! ### The checks of a tick -/

/-- A call of `check_restrict` or `check_restrict_limit`: the limits and the account before it,
and the `info` that it stored if it returned 1. -/
structure CheckCall where
  limit : StatsCfg
  before : Account
  stored : Option RestrictInfo

def checkCall (cfg : GovernorConfig) (ac : Account) (r : Bool × Account × Globals) : CheckCall :=
  ⟨configGetAccountLimit cfg ac.id, ac, if r.1 then some r.2.1.info else none⟩

/-- The check of an account that is not restricted, which opens both decisions. -/
def firstCheck (check : Account → Globals → Bool × Account × Globals) (cfg : GovernorConfig)
    (ac : Account) (g : Globals) : (Bool × Account × Globals) × List CheckCall :=
  if ac.timeout = 0 then (check ac g, [checkCall cfg ac (check ac g)]) else ((false, ac, g), [])

/-- `account_analyze_limit` with its checks. -/
def accountAnalyzeLimitTraced (cfg : GovernorConfig) (now : ℤ) (ac : Account) (g : Globals) :
    (Account × Globals) × List CheckCall :=
  let sl := configGetAccountLimit cfg ac.id
  if cfg.allLve || !cfg.useLve then ((ac, g), [])
  else if sl.mode ≠ .ignoreMode then
    let opened := firstCheck (checkRestrictLimit cfg now) cfg ac g
    let first := opened.1
    let calls := opened.2
    if first.1 then (first.2, calls)
    else
      let ac := first.2.1
      let g := first.2.2
      if ac.startCount > 0 then
        let again := checkRestrictLimit cfg now ac g
        let calls := calls ++ [checkCall cfg ac again]
        let ac := again.2.1
        let g := again.2.2
        if again.1 then (({ ac with startCount := now }, g), calls)
        else if 0 ≠ ac.timeout ∧ ac.startCount + ac.timeout ≤ now then
          (unrestrictLimit cfg ac g, calls)
        else ((ac, g), calls)
      else ((ac, g), calls)
  else ((ac, g), [])

/-- The end of a restriction in `account_analyze` with its check. -/
def expireRestrictTraced (cfg : GovernorConfig) (now : ℤ) (ac : Account) (g : Globals) :
    (Account × Globals) × List CheckCall :=
  let ac := { ac with timeout := 0, startCount := now, info := ⟨.noPeriod, .norestrictParam⟩ }
  let again := checkRestrict cfg now ac g
  (if again.1 then again.2 else (again.2.1, accountUnrestrict cfg again.2.1 again.2.2),
    [checkCall cfg ac again])

/-- `account_analyze` with its checks. -/
def accountAnalyzeTraced (cfg : GovernorConfig) (now : ℤ) (ac : Account) (g : Globals) :
    (Account × Globals) × List CheckCall :=
  let sl := configGetAccountLimit cfg ac.id
  if cfg.allLve || !cfg.useLve then ((ac, g), [])
  else if sl.mode ≠ .ignoreMode then
    let opened := firstCheck (checkRestrict cfg now) cfg ac g
    let first := opened.1
    let calls := opened.2
    if first.1 then (first.2, calls)
    else
      let ac := first.2.1
      let g := first.2.2
      if ac.startCount > 0 then
        if 0 ≠ ac.timeout ∧ ac.startCount + ac.timeout ≤ now then
          let expired := expireRestrictTraced cfg now ac g
          (expired.1, calls ++ expired.2)
        else if ac.startCount + cfg.timeout.toNat ≤ now ∧ ac.timeout = 0 then
          ((endPenalty ac, g), calls)
        else ((ac, g), calls)
      else ((ac, g), calls)
  else ((ac, g), [])

/-- The decision of a mode with its checks. -/
def decisionTraced (restrictMode : Bool) (now : ℤ) (cfg : GovernorConfig) (ac : Account)
    (g : Globals) : (Account × Globals) × List CheckCall :=
  if restrictMode then accountAnalyzeLimitTraced cfg now ac g else accountAnalyzeTraced cfg now ac g

/-- A visit of an account that writes down its checks. -/
def World.onAccountTraced
    (f : GovernorConfig → Account → Globals → (Account × Globals) × List CheckCall)
    (r : World × List CheckCall) (a : Username) : World × List CheckCall :=
  match r.1.accounts.lookup a with
  | none => r
  | some ac =>
      let decided := f r.1.cfg ac r.1.globals
      (r.1.setAccount a decided.1, r.2 ++ decided.2)

/-- The decision pass of `proceed_accounts` with its checks. -/
def analyzeAccountsTraced (t : TickInput) (w : World) : World × List CheckCall :=
  (t.ordAnalyze.order w.accounts.keys).foldl
    (World.onAccountTraced (decisionTraced w.cfg.restrictMode t.now)) (w, [])

/-- The checks of a tick: the other passes make none. -/
def checkCalls (t : TickInput) (w : World) : List CheckCall :=
  (analyzeAccountsTraced t (gatherStats t w)).2

theorem firstCheck_fst (check : Account → Globals → Bool × Account × Globals)
    (cfg : GovernorConfig) (ac : Account) (g : Globals) :
    (firstCheck check cfg ac g).1 = if ac.timeout = 0 then check ac g else (false, ac, g) := by
  rw [firstCheck]
  split <;> rfl

theorem accountAnalyzeLimitTraced_fst (cfg : GovernorConfig) (now : ℤ) (ac : Account) (g : Globals) :
    (accountAnalyzeLimitTraced cfg now ac g).1 = accountAnalyzeLimit cfg now ac g := by
  have hfirst := firstCheck_fst (checkRestrictLimit cfg now) cfg ac g
  simp only [accountAnalyzeLimitTraced, accountAnalyzeLimit, ← hfirst]
  split_ifs <;> rfl

theorem accountAnalyzeTraced_fst (cfg : GovernorConfig) (now : ℤ) (ac : Account) (g : Globals) :
    (accountAnalyzeTraced cfg now ac g).1 = accountAnalyze cfg now ac g := by
  have hfirst := firstCheck_fst (checkRestrict cfg now) cfg ac g
  simp only [accountAnalyzeTraced, accountAnalyze, ← hfirst]
  split_ifs <;> rfl

theorem analyzeAccountsTraced_fst (t : TickInput) (w : World) :
    (analyzeAccountsTraced t w).1 = analyzeAccounts t w := by
  have hfold : ∀ (keys : List Username) (r : World × List CheckCall) (mode : Bool),
      (keys.foldl (World.onAccountTraced (decisionTraced mode t.now)) r).1 =
        keys.foldl (World.onAccount fun cfg =>
          if mode then accountAnalyzeLimit cfg t.now else accountAnalyze cfg t.now) r.1 := by
    intro keys
    induction keys with
    | nil => exact fun _ _ => rfl
    | cons key keys ih =>
        intro r mode
        rw [List.foldl_cons, List.foldl_cons, ih]
        congr 1
        rw [World.onAccountTraced, World.onAccount]
        cases r.1.accounts.lookup key with
        | none => rfl
        | some ac =>
            cases mode with
            | false => exact congrArg (r.1.setAccount key) (accountAnalyzeTraced_fst ..)
            | true => exact congrArg (r.1.setAccount key) (accountAnalyzeLimitTraced_fst ..)
  exact hfold _ _ _

/-! ### What a check counts -/

/-- The `cause_of_restricts` of an account; no entry has no cause. -/
def causeMask (g : Globals) (a : Username) : ℕ :=
  ((g.restrictsOf a).map StatisticsRestrictInfo.causeOfRestricts).getD 0

/-- The bit of the field that a check stored. -/
def CheckCall.storedCause (call : CheckCall) : ℕ :=
  (call.stored.map fun info => getCauseOfRestrict info.fieldLevelRestrict).getD 0

/-- The bit of a field over its current limit, and no bit for the other periods. -/
def CheckCall.currentCause (call : CheckCall) : ℕ :=
  match firstOverLimit call.limit call.before with
  | some (.currentPeriod, field) => getCauseOfRestrict field
  | _ => 0

/-- The union of a cause over the checks of an account. -/
def causesOf (cause : CheckCall → ℕ) (a : Username) (calls : List CheckCall) : ℕ :=
  ((calls.filter (·.before.id = a)).map cause).foldr (· ||| ·) 0

/-- A check stores the first pair that is over its limit. -/
def CheckCall.Faithful (call : CheckCall) : Prop :=
  call.stored = (firstOverLimit call.limit call.before).map fun pair => ⟨pair.1, pair.2⟩

theorem causesOf_append (cause : CheckCall → ℕ) (a : Username) (calls more : List CheckCall) :
    causesOf cause a (calls ++ more) = causesOf cause a calls ||| causesOf cause a more := by
  induction calls with
  | nil => simp [causesOf]
  | cons call calls ih =>
      by_cases hid : call.before.id = a
      · simpa [causesOf, hid, Nat.or_assoc] using congrArg (cause call ||| ·) ih
      · simpa [causesOf, hid] using ih

theorem isStatOverlimitCurrent_eq (sl : StatsCfg) (ac : Account) :
    getCauseOfRestrict (isStatOverlimitCurrent ac.current sl) =
      match firstOverLimit sl ac with
      | some (.currentPeriod, field) => getCauseOfRestrict field
      | _ => 0 := by
  rw [firstOverLimit_eq, isStatOverlimitCurrent, isStatOverlimit_eq]
  cases checkedFields.find? fun field => ac.current.Exceeds sl TLong.current field with
  | some field => rfl
  | none =>
      cases checkedFields.find? fun field => ac.shortAverage.Exceeds sl TLong.short field with
      | some field => rfl
      | none =>
          cases checkedFields.find? fun field => ac.midAverage.Exceeds sl TLong.mid field with
          | some field => rfl
          | none =>
              cases checkedFields.find? fun field => ac.longAverage.Exceeds sl TLong.long field with
              | some field => rfl
              | none => rfl

section

variable {cfg : GovernorConfig} {now : ℤ} {ac : Account} {g : Globals}

theorem causeMask_congr {g' : Globals}
    (h : g'.dbGovNumberOfRestricts = g.dbGovNumberOfRestricts) (a : Username) :
    causeMask g' a = causeMask g a := by
  rw [causeMask, Globals.restrictsOf, h]
  rfl

theorem causeMask_countRestrict (hs : cfg.statisticMode = true) (id : Username) (cause : ℕ)
    (g : Globals) (a : Username) :
    causeMask (countRestrict cfg id cause g) a =
      causeMask g a ||| if id = a then cause else 0 := by
  have htally := Effect.run_restrictsOf ⟨some cause, none⟩ id [] g a
  rw [countRestrict, if_pos hs, causeMask, causeMask]
  change ((Effect.run ⟨some cause, none⟩ id [] g).restrictsOf a |>.map _).getD 0 = _
  rw [htally]
  by_cases ha : id = a
  · subst ha
    cases hold : g.restrictsOf id <;> simp [Effect.tally]
  · simp [ha, Ne.symm ha]

theorem accountRestrict_restricts (cfg : GovernorConfig) (ac : Account) (g : Globals) :
    (accountRestrict cfg ac g).dbGovNumberOfRestricts = g.dbGovNumberOfRestricts := by
  rw [accountRestrict]
  split_ifs
  · rfl
  · rfl
  · exact enqueueUsers_restricts _ _ g

theorem accountUnrestrict_restricts (cfg : GovernorConfig) (ac : Account) (g : Globals) :
    (accountUnrestrict cfg ac g).dbGovNumberOfRestricts = g.dbGovNumberOfRestricts := by
  rw [accountUnrestrict]
  split_ifs
  · rfl
  · rfl
  · rfl
  · exact enqueueUsers_restricts _ _ g

/-- A decision keeps the name of its account, its checks are of this account, and each of them
adds the cause of the current period to the mask. -/
structure CountsCurrent (ac : Account) (g : Globals)
    (r : (Account × Globals) × List CheckCall) : Prop where
  id_eq : r.1.1.id = ac.id
  calls : ∀ call ∈ r.2, call.before.id = ac.id ∧ call.Faithful
  mask : ∀ a, causeMask r.1.2 a = causeMask g a ||| causesOf CheckCall.currentCause a r.2

theorem CountsCurrent.unchanged {ac' : Account} {g' : Globals} (hid : ac'.id = ac.id)
    (hg : g'.dbGovNumberOfRestricts = g.dbGovNumberOfRestricts) :
    CountsCurrent ac g ((ac', g'), []) :=
  ⟨hid, by simp, fun a => by simp [causeMask_congr hg, causesOf]⟩

theorem CountsCurrent.append {r r' : (Account × Globals) × List CheckCall}
    (h : CountsCurrent ac g r) (h' : CountsCurrent r.1.1 r.1.2 r') :
    CountsCurrent ac g (r'.1, r.2 ++ r'.2) := by
  refine ⟨h'.id_eq.trans h.id_eq, ?_, ?_⟩
  · intro call hmem
    rcases List.mem_append.mp hmem with hmem | hmem
    · exact h.calls call hmem
    · exact ⟨(h'.calls call hmem).1.trans h.id_eq, (h'.calls call hmem).2⟩
  · intro a
    rw [h'.mask, h.mask, causesOf_append, Nat.or_assoc]

/-- Steps after the last check that touch neither the name nor the numbers of restricts. -/
theorem CountsCurrent.followed {r : (Account × Globals) × List CheckCall} {ac' : Account}
    {g' : Globals} (h : CountsCurrent ac g r) (hid : ac'.id = r.1.1.id)
    (hg : g'.dbGovNumberOfRestricts = r.1.2.dbGovNumberOfRestricts) :
    CountsCurrent ac g ((ac', g'), r.2) := by
  simpa using h.append (CountsCurrent.unchanged hid hg)

/-- A check whose branches store their pair and count the field over the current limit. -/
theorem checkPeriods_countsCurrent {branch : GovernorsFieldName → GovernorsPeriodName →
      GovernorsFieldName → Account → Globals → Account × Globals}
    (hid : ∀ cur period field, (branch cur period field ac g).1.id = ac.id)
    (hinfo : ∀ cur period field, (branch cur period field ac g).1.info = ⟨period, field⟩)
    (hmask : ∀ cur period field a, causeMask (branch cur period field ac g).2 a =
      causeMask g a ||| if ac.id = a then getCauseOfRestrict cur else 0) :
    let r := checkPeriods (configGetAccountLimit cfg ac.id) branch ac g
    CountsCurrent ac g (r.2, [checkCall cfg ac r]) := by
  intro r
  have hr : r = _ := checkPeriods_eq _ _ ac g
  have hcur := isStatOverlimitCurrent_eq (configGetAccountLimit cfg ac.id) ac
  have hcauses : ∀ call : CheckCall, call.before = ac → ∀ a,
      causesOf CheckCall.currentCause a [call] = if ac.id = a then call.currentCause else 0 := by
    rintro call rfl a
    by_cases ha : call.before.id = a <;> simp [causesOf, ha]
  cases hfirst : firstOverLimit (configGetAccountLimit cfg ac.id) ac with
  | none =>
      rw [hfirst] at hr
      rw [hr]
      refine ⟨rfl, ?_, ?_⟩
      · intro call hmem
        rw [List.mem_singleton.mp hmem]
        exact ⟨rfl, by simp [CheckCall.Faithful, checkCall, hfirst]⟩
      · intro a
        rw [hcauses _ rfl]
        simp [CheckCall.currentCause, checkCall, hfirst]
  | some pair =>
      rw [hfirst] at hr hcur
      rw [hr]
      refine ⟨hid _ _ _, ?_, ?_⟩
      · intro call hmem
        rw [List.mem_singleton.mp hmem]
        exact ⟨rfl, by simp [CheckCall.Faithful, checkCall, hfirst, hinfo]⟩
      · intro a
        rw [hcauses _ rfl, hmask, hcur, CheckCall.currentCause, checkCall, hfirst]

theorem checkRestrict_countsCurrent (hs : cfg.statisticMode = true) (now : ℤ) (ac : Account)
    (g : Globals) :
    CountsCurrent ac g
      ((checkRestrict cfg now ac g).2, [checkCall cfg ac (checkRestrict cfg now ac g)]) := by
  refine checkPeriods_countsCurrent (fun _ _ _ => rfl) (fun _ _ _ => rfl) ?_
  intro cur period field a
  rw [← causeMask_countRestrict hs]
  apply causeMask_congr
  simp only [restrictPeriod]
  split
  · exact accountRestrict_restricts _ _ _
  · rfl

theorem checkRestrictLimit_countsCurrent (hs : cfg.statisticMode = true) (now : ℤ) (ac : Account)
    (g : Globals) :
    CountsCurrent ac g
      ((checkRestrictLimit cfg now ac g).2,
        [checkCall cfg ac (checkRestrictLimit cfg now ac g)]) := by
  refine checkPeriods_countsCurrent (fun _ _ _ => rfl) (fun _ _ _ => rfl) ?_
  intro cur period field a
  rw [← causeMask_countRestrict hs]
  apply causeMask_congr
  simp only [restrictPeriodLimit]
  split
  · exact accountRestrict_restricts _ _ _
  · rfl

theorem firstCheck_countsCurrent {check : Account → Globals → Bool × Account × Globals}
    (hcheck : CountsCurrent ac g ((check ac g).2, [checkCall cfg ac (check ac g)])) :
    CountsCurrent ac g ((firstCheck check cfg ac g).1.2, (firstCheck check cfg ac g).2) := by
  rw [firstCheck]
  split
  · exact hcheck
  · exact .unchanged rfl rfl

/-! ### The decisions -/

theorem accountAnalyzeLimitTraced_countsCurrent (hs : cfg.statisticMode = true) (now : ℤ)
    (ac : Account) (g : Globals) :
    CountsCurrent ac g (accountAnalyzeLimitTraced cfg now ac g) := by
  have hfirst := firstCheck_countsCurrent (checkRestrictLimit_countsCurrent hs now ac g)
  simp only [accountAnalyzeLimitTraced]
  generalize firstCheck (checkRestrictLimit cfg now) cfg ac g = opened at hfirst ⊢
  have hagain := hfirst.append
    (checkRestrictLimit_countsCurrent hs now opened.1.2.1 opened.1.2.2)
  split_ifs
  · exact .unchanged rfl rfl
  · exact hfirst
  · exact hagain.followed rfl rfl
  · exact hagain.followed rfl (accountUnrestrict_restricts _ _ _)
  · exact hagain
  · exact hfirst
  · exact .unchanged rfl rfl

/-- The account as `account_analyze` checks it when its restriction has run out. -/
theorem expireRestrictTraced_countsCurrent (hs : cfg.statisticMode = true) (now : ℤ)
    (ac : Account) (g : Globals) : CountsCurrent ac g (expireRestrictTraced cfg now ac g) := by
  let expired := { ac with timeout := 0, startCount := now, info := ⟨.noPeriod, .norestrictParam⟩ }
  have hstart : CountsCurrent ac g ((expired, g), []) := .unchanged rfl rfl
  have hchecked := hstart.append (checkRestrict_countsCurrent hs now expired g)
  simp only [expireRestrictTraced]
  split
  · exact hchecked
  · exact hchecked.followed rfl (accountUnrestrict_restricts _ _ _)

theorem accountAnalyzeTraced_countsCurrent (hs : cfg.statisticMode = true) (now : ℤ)
    (ac : Account) (g : Globals) :
    CountsCurrent ac g (accountAnalyzeTraced cfg now ac g) := by
  have hfirst := firstCheck_countsCurrent (checkRestrict_countsCurrent hs now ac g)
  simp only [accountAnalyzeTraced]
  generalize firstCheck (checkRestrict cfg now) cfg ac g = opened at hfirst ⊢
  split_ifs
  · exact .unchanged rfl rfl
  · exact hfirst
  · exact hfirst.append (expireRestrictTraced_countsCurrent hs now opened.1.2.1 opened.1.2.2)
  · exact hfirst.followed rfl rfl
  · exact hfirst
  · exact hfirst
  · exact .unchanged rfl rfl

theorem decisionTraced_countsCurrent (hs : cfg.statisticMode = true) (mode : Bool) (now : ℤ)
    (ac : Account) (g : Globals) : CountsCurrent ac g (decisionTraced mode now cfg ac g) := by
  cases mode with
  | false => exact accountAnalyzeTraced_countsCurrent hs now ac g
  | true => exact accountAnalyzeLimitTraced_countsCurrent hs now ac g

end

/-! ### A tick -/

/-- The checks of a part of a run are faithful, and the masks grow by their causes. -/
structure Counted (g g' : Globals) (calls : List CheckCall) : Prop where
  faithful : ∀ call ∈ calls, call.Faithful
  mask : ∀ a, causeMask g' a = causeMask g a ||| causesOf CheckCall.currentCause a calls

theorem Counted.unchanged {g g' : Globals}
    (hg : g'.dbGovNumberOfRestricts = g.dbGovNumberOfRestricts) : Counted g g' [] :=
  ⟨by simp, fun a => by simp [causeMask_congr hg, causesOf]⟩

theorem Counted.append {g g' g'' : Globals} {calls more : List CheckCall} (h : Counted g g' calls)
    (h' : Counted g' g'' more) : Counted g g'' (calls ++ more) := by
  refine ⟨?_, ?_⟩
  · intro call hmem
    rcases List.mem_append.mp hmem with hmem | hmem
    · exact h.faithful call hmem
    · exact h'.faithful call hmem
  · intro a
    rw [h'.mask, h.mask, causesOf_append, Nat.or_assoc]

theorem foldl_onAccountTraced_counted
    {f : GovernorConfig → Account → Globals → (Account × Globals) × List CheckCall}
    (hf : ∀ cfg ac g, cfg.statisticMode = true → CountsCurrent ac g (f cfg ac g))
    (keys : List Username) {w : World} (hs : w.cfg.statisticMode = true) {r : World × List CheckCall}
    (hcfg : r.1.cfg = w.cfg) (h : Counted w.globals r.1.globals r.2) :
    Counted w.globals (keys.foldl (World.onAccountTraced f) r).1.globals
      (keys.foldl (World.onAccountTraced f) r).2 := by
  induction keys generalizing r with
  | nil => exact h
  | cons key keys ih =>
      rw [List.foldl_cons]
      cases hac : r.1.accounts.lookup key with
      | none =>
          have hstep : World.onAccountTraced f r key = r := by
            rw [World.onAccountTraced, hac]
          rw [hstep]
          exact ih hcfg h
      | some ac =>
          have hdecided := hf r.1.cfg ac r.1.globals (hcfg ▸ hs)
          have hstep : World.onAccountTraced f r key =
              (r.1.setAccount key (f r.1.cfg ac r.1.globals).1,
                r.2 ++ (f r.1.cfg ac r.1.globals).2) := by
            rw [World.onAccountTraced, hac]
          rw [hstep]
          exact ih hcfg (h.append ⟨fun call hmem => (hdecided.calls call hmem).2, hdecided.mask⟩)

/-- The configuration and the statics are the same. -/
def SameStatics (w w' : World) : Prop := w'.cfg = w.cfg ∧ w'.globals = w.globals

theorem SameStatics.trans {w w' w'' : World} (h : SameStatics w w') (h' : SameStatics w' w'') :
    SameStatics w w'' :=
  ⟨h'.1.trans h.1, h'.2.trans h.2⟩

theorem foldl_sameStatics {step : World → Username → World}
    (hstep : ∀ w key, SameStatics w (step w key)) (keys : List Username) (w : World) :
    SameStatics w (keys.foldl step w) :=
  List.foldlRecOn (motive := SameStatics w) keys step ⟨rfl, rfl⟩ fun _ h key _ => h.trans (hstep _ key)

theorem addNewStats_sameStatics (u : Username) (st : Stats) (tickId : ℕ) (w : World) :
    SameStatics w (addNewStats u st tickId w) := by
  have hadd : SameStatics w (addEmptyStatsForUid u w) := by
    rw [addEmptyStatsForUid]
    split
    · exact ⟨rfl, rfl⟩
    · obtain ⟨table, ac, -, heq⟩ := addUserStats_spec u w
      rw [heq]
      exact ⟨rfl, rfl⟩
  rw [addNewStats]
  generalize addEmptyStatsForUid u w = w' at hadd ⊢
  cases hus : w'.users.lookup u with
  | none => simpa [hus] using hadd
  | some us => exact hadd.trans ⟨rfl, rfl⟩

theorem resetCounters_sameStatics (u : Username) (newTm : ℚ) (w : World) :
    SameStatics w (resetCounters u newTm w) := by
  rw [resetCounters]
  split <;> exact ⟨rfl, rfl⟩

theorem addUserStatsFromCounter_sameStatics (t : TickInput) (w : World) (key : Username) :
    SameStatics w (addUserStatsFromCounter t w key) := by
  rw [addUserStatsFromCounter]
  split
  · exact ⟨rfl, rfl⟩
  · exact (addNewStats_sameStatics _ _ _ w).trans (resetCounters_sameStatics _ _ _)

theorem tickEmptyUsers_sameStatics (w : World) (key : Username) :
    SameStatics w (tickEmptyUsers w key) := by
  rw [tickEmptyUsers]
  split
  · exact ⟨rfl, rfl⟩
  · split <;> exact ⟨rfl, rfl⟩

/-- Up to the decisions a tick leaves the configuration and the statics alone. -/
theorem gatherStats_sameStatics (t : TickInput) (w : World) : SameStatics w (gatherStats t w) := by
  have hticked : SameStatics w { w with tickId := w.tickId + 1 } := ⟨rfl, rfl⟩
  have hsampled : SameStatics w (sampleUsers t w) := by
    rw [sampleUsers]
    exact hticked.trans ((foldl_sameStatics (addUserStatsFromCounter_sameStatics t) _ _).trans
      (foldl_sameStatics tickEmptyUsers_sameStatics _ _))
  rw [gatherStats_eq]
  exact hsampled.trans
    ⟨(foldl_onAccount_base _ _ _).cfg, foldl_onAccount_globals (fun _ _ _ => rfl) _ _⟩

theorem proceedAccounts_counted (t : TickInput) {w : World} (hs : w.cfg.statisticMode = true)
    (hwritten : t.statsWritten = false) :
    Counted w.globals (proceedAccounts t w).globals (checkCalls t w) := by
  obtain ⟨hcfg, hglobals⟩ := gatherStats_sameStatics t w
  have hstat : (gatherStats t w).cfg.statisticMode = true := by rw [hcfg, hs]
  have hpass := foldl_onAccountTraced_counted
    (fun cfg ac g hs' => decisionTraced_countsCurrent hs' (gatherStats t w).cfg.restrictMode t.now ac g)
    (t.ordAnalyze.order (gatherStats t w).accounts.keys) hstat
    (r := (gatherStats t w, [])) rfl (.unchanged rfl)
  have hdecided : Counted w.globals (analyzeAccounts t (gatherStats t w)).globals (checkCalls t w) := by
    rw [← analyzeAccountsTraced_fst, ← hglobals]
    exact hpass
  have hlast : (proceedAccounts t w).globals = (analyzeAccounts t (gatherStats t w)).globals := by
    simp only [proceedAccounts, addDbGovStatitrics, hwritten]
    split <;> rfl
  rw [hlast]
  exact hdecided

/-! ### Between two clears -/

/-- A tick that does not clear the numbers of restricts, or any change that is not a check. -/
inductive WindowStep : World → World → List CheckCall → Prop where
  | tick (t w) : w.cfg.statisticMode = true → t.statsWritten = false →
      WindowStep w (proceedAccounts t w) (checkCalls t w)
  | other {w w'} : w'.globals.dbGovNumberOfRestricts = w.globals.dbGovNumberOfRestricts →
      WindowStep w w' []

/-- A sequence of steps with their checks. -/
inductive Window : World → World → List CheckCall → Prop where
  | start (w) : Window w w []
  | step {w w' w'' calls more} : Window w w' calls → WindowStep w' w'' more →
      Window w w'' (calls ++ more)

theorem WindowStep.counted {w w' : World} {calls : List CheckCall} (h : WindowStep w w' calls) :
    Counted w.globals w'.globals calls := by
  cases h with
  | tick t _ hs hwritten => exact proceedAccounts_counted t hs hwritten
  | other hg => exact .unchanged hg

theorem Window.counted {w w' : World} {calls : List CheckCall} (h : Window w w' calls) :
    Counted w.globals w'.globals calls := by
  induction h with
  | start => exact .unchanged rfl
  | step _ hstep ih => exact ih.append hstep.counted

/-- Every field that a check of the account finds over the limit of a longer period is also
the first one over its current limit in some check of the account. -/
def SeenCurrent (a : Username) (calls : List CheckCall) : Prop :=
  ∀ call ∈ calls, call.before.id = a → ∀ period field,
    firstOverLimit call.limit call.before = some (period, field) →
      ∃ current ∈ calls, current.before.id = a ∧
        firstOverLimit current.limit current.before = some (.currentPeriod, field)

theorem testBit_causesOf (cause : CheckCall → ℕ) (a : Username) (calls : List CheckCall) (i : ℕ) :
    (causesOf cause a calls).testBit i = true ↔
      ∃ call ∈ calls, call.before.id = a ∧ (cause call).testBit i = true := by
  induction calls with
  | nil => simp [causesOf]
  | cons call calls ih =>
      have hcons : causesOf cause a (call :: calls) =
          causesOf cause a [call] ||| causesOf cause a calls :=
        causesOf_append cause a [call] calls
      have hone : causesOf cause a [call] = if call.before.id = a then cause call else 0 := by
        by_cases ha : call.before.id = a <;> simp [causesOf, ha]
      rw [hcons, Nat.testBit_or, Bool.or_eq_true, ih, hone, List.exists_mem_cons_iff]
      by_cases ha : call.before.id = a <;> simp [ha]

/-- Each field has a bit of its own. -/
theorem testBit_getCauseOfRestrict (field : GovernorsFieldName) (i : ℕ) :
    (getCauseOfRestrict field).testBit i = true ↔
      (field = .cpuParam ∧ i = 0) ∨ (field = .readParam ∧ i = 1) ∨ (field = .writeParam ∧ i = 2) := by
  have hbit : ∀ n, (2 ^ n : ℕ).testBit i = true ↔ i = n := by
    intro n
    rw [Nat.testBit_two_pow, decide_eq_true_eq, eq_comm]
  cases field with
  | cpuParam => exact (hbit 0).trans (by simp)
  | readParam => exact (hbit 1).trans (by simp)
  | writeParam => exact (hbit 2).trans (by simp)
  | norestrictParam2 => simp [getCauseOfRestrict]
  | norestrictParam => simp [getCauseOfRestrict]

theorem CheckCall.Faithful.testBit_storedCause {call : CheckCall} (h : call.Faithful) (i : ℕ) :
    call.storedCause.testBit i = true ↔ ∃ period field,
      firstOverLimit call.limit call.before = some (period, field) ∧
        (getCauseOfRestrict field).testBit i = true := by
  rw [CheckCall.storedCause, h]
  cases firstOverLimit call.limit call.before with
  | none => simp
  | some pair => simp [Prod.ext_iff]

theorem CheckCall.testBit_currentCause (call : CheckCall) (i : ℕ) :
    call.currentCause.testBit i = true ↔ ∃ field,
      firstOverLimit call.limit call.before = some (.currentPeriod, field) ∧
        (getCauseOfRestrict field).testBit i = true := by
  rw [CheckCall.currentCause]
  rcases firstOverLimit call.limit call.before with _ | ⟨period, field⟩
  · simp
  · cases period <;> simp

/-- A check finds one of the three fields, which has a bit. -/
theorem exists_testBit_of_firstOverLimit {sl : StatsCfg} {ac : Account}
    {period : GovernorsPeriodName} {field : GovernorsFieldName}
    (h : firstOverLimit sl ac = some (period, field)) :
    ∃ i, (getCauseOfRestrict field).testBit i = true := by
  have hmem := List.mem_of_find?_eq_some h
  have hfield := (List.pair_mem_product.mp hmem).2
  simp only [checkedFields, List.mem_cons, List.not_mem_nil, or_false] at hfield
  rcases hfield with rfl | rfl | rfl
  · exact ⟨0, by decide⟩
  · exact ⟨1, by decide⟩
  · exact ⟨2, by decide⟩

/-- The causes of the current period are all causes exactly when every field was seen over its
current limit. -/
theorem causesOf_current_eq_iff {calls : List CheckCall} (hf : ∀ call ∈ calls, call.Faithful)
    (a : Username) :
    causesOf CheckCall.currentCause a calls = causesOf CheckCall.storedCause a calls ↔
      SeenCurrent a calls := by
  constructor
  · intro heq call hmem hid period field hfirst
    obtain ⟨i, hi⟩ := exists_testBit_of_firstOverLimit hfirst
    have hstored : (causesOf CheckCall.storedCause a calls).testBit i = true :=
      (testBit_causesOf _ a calls i).mpr
        ⟨call, hmem, hid, ((hf call hmem).testBit_storedCause i).mpr ⟨period, field, hfirst, hi⟩⟩
    rw [← heq, testBit_causesOf] at hstored
    obtain ⟨current, hcurrent, hid', hbit⟩ := hstored
    obtain ⟨field', hfirst', hi'⟩ := (current.testBit_currentCause i).mp hbit
    have hsame : field' = field := by
      rw [testBit_getCauseOfRestrict] at hi hi'
      rcases hi with ⟨rfl, rfl⟩ | ⟨rfl, rfl⟩ | ⟨rfl, rfl⟩ <;> simpa using hi'
    exact ⟨current, hcurrent, hid', hsame ▸ hfirst'⟩
  · intro hseen
    apply Nat.eq_of_testBit_eq
    intro i
    rw [Bool.eq_iff_iff, testBit_causesOf, testBit_causesOf]
    constructor
    · rintro ⟨call, hmem, hid, hbit⟩
      obtain ⟨field, hfirst, hi⟩ := (call.testBit_currentCause i).mp hbit
      exact ⟨call, hmem, hid,
        ((hf call hmem).testBit_storedCause i).mpr ⟨.currentPeriod, field, hfirst, hi⟩⟩
    · rintro ⟨call, hmem, hid, hbit⟩
      obtain ⟨period, field, hfirst, hi⟩ := ((hf call hmem).testBit_storedCause i).mp hbit
      obtain ⟨current, hcurrent, hid', hfirst'⟩ := hseen call hmem hid period field hfirst
      exact ⟨current, hcurrent, hid', (current.testBit_currentCause i).mpr ⟨field, hfirst', hi⟩⟩

/-- The mask of an account is the union of the causes that were stored exactly when every field
was seen over its current limit. -/
theorem causes_recorded_iff {w w' : World} {calls : List CheckCall}
    (hclear : ∀ a, w.globals.restrictsOf a = none) (h : Window w w' calls) (a : Username) :
    causeMask w'.globals a = causesOf CheckCall.storedCause a calls ↔ SeenCurrent a calls := by
  have hstart : causeMask w.globals a = 0 := by
    rw [causeMask, hclear]
    rfl
  rw [h.counted.mask, hstart, Nat.zero_or]
  exact causesOf_current_eq_iff h.counted.faithful a

/-- A daemon whose short interval is one second, after a user spent some ticks of CPU time. -/
def spentWorld (cpu : ℤ) : World :=
  incrementCounters sampleUser cpu 0 0 0
    (.init { shippedConfig false with intervalShort := 1 })

/-- One tick after one second. -/
def secondTick : TickInput :=
  ⟨1, fun _ => 1, 1000000, .asListed, .asListed, .asListed, .asListed, false⟩

theorem window_secondTick (cpu : ℤ) :
    Window (spentWorld cpu) (proceedAccounts secondTick (spentWorld cpu))
      ([] ++ checkCalls secondTick (spentWorld cpu)) :=
  .step (.start _) (.tick secondTick (spentWorld cpu) rfl rfl)

theorem causes_recorded_iff_sample :
    SeenCurrent sampleUser ([] ++ checkCalls secondTick (spentWorld 500)) :=
  (causes_recorded_iff (fun _ => rfl) (window_secondTick 500) sampleUser).mp (by decide +kernel)

/-- A restriction over the short limit of the CPU is counted without a cause. -/
theorem short_restrict_has_no_cause :
    ¬ ∀ (w w' : World) (calls : List CheckCall), (∀ a, w.globals.restrictsOf a = none) →
      Window w w' calls → ∀ a,
        causeMask w'.globals a = causesOf CheckCall.storedCause a calls := by
  intro hcauses
  have heq := hcauses _ _ _ (fun _ => rfl) (window_secondTick 390) sampleUser
  have hmask : causeMask (proceedAccounts secondTick (spentWorld 390)).globals sampleUser = 0 := by
    decide +kernel
  have hstored : causesOf CheckCall.storedCause sampleUser
      ([] ++ checkCalls secondTick (spentWorld 390)) = 1 := by
    decide +kernel
  rw [hmask, hstored] at heq
  cases heq

end DbGovernor
