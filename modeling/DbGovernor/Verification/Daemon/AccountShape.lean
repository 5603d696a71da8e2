import DbGovernor.Verification.Daemon.TimeLimit

/-!
# What is written to an account

Every write of the daemon to an account is one of six. A property of accounts that these keep holds
of all accounts after every run.
-/

namespace DbGovernor

/-- What one function of the daemon does to an account. -/
inductive AccountWrite (cfg : GovernorConfig) (ac : Account) : Account → Prop where
  | none : AccountWrite cfg ac ac
  | join (u) : AccountWrite cfg ac { ac with users := ac.users ++ [u] }
  | sums (current short mid long) : AccountWrite cfg ac { ac with
      current := current
      shortAverage := short
      midAverage := mid
      longAverage := long }
  | level (now level period field) (hlow : 0 ≤ level) (hhigh : level ≤ 3)
      (hperiod : period ≠ .noPeriod) : AccountWrite cfg ac { ac with
        restricted := level
        timeout := levelPeriod cfg level
        startCount := now
        info := ⟨period, field⟩ }
  | limit (now period field) (hperiod : period ≠ .noPeriod) : AccountWrite cfg ac { ac with
      restricted := 1000
      timeout := intOfUnsigned cfg.lUnlimit
      startCount := now
      info := ⟨period, field⟩ }
  | release (now restricted field) (hlevel : restricted = 0 ∨ restricted = ac.restricted) :
      AccountWrite cfg ac { ac with
        restricted := restricted
        timeout := 0
        startCount := now
        info := ⟨.noPeriod, field⟩ }
  | clear : AccountWrite cfg ac (clearAccount ac)

/-- A new account has the property, and no write takes it away. -/
structure KeptByWrites (P : Account → Prop) (cfg : GovernorConfig) : Prop where
  new : ∀ id, P (initAccount id)
  write : ∀ ac ac', P ac → AccountWrite cfg ac ac' → P ac'

/-- All accounts have the property. -/
structure AccountsHave (P : Account → Prop) (cfg : GovernorConfig) (w : World) : Prop where
  cfg_eq : w.cfg = cfg
  all : ∀ a ac, w.accounts.lookup a = some ac → P ac

/-! ### One account -/

section Account

variable {cfg : GovernorConfig}

theorem write_restrictPeriod (now : ℤ) (cur : GovernorsFieldName) {period : GovernorsPeriodName}
    (hperiod : period ≠ .noPeriod) (field : GovernorsFieldName) (ac : Account) (g : Globals) :
    AccountWrite cfg ac (restrictPeriod cfg now cur period field ac g).1 := by
  rw [restrictPeriod_account]
  obtain ⟨hlow, hhigh⟩ := nextLevel_bounds cfg now ac
  exact .level now _ period field hlow hhigh hperiod

theorem write_accountAnalyzeLimit (now : ℤ) (ac : Account) (g : Globals) :
    AccountWrite cfg ac (accountAnalyzeLimit cfg now ac g).1 := by
  by_cases hoff : (cfg.allLve || !cfg.useLve) = true
  · rw [accountAnalyzeLimit_off hoff]
    exact .none
  · have hlve : cfg.useLve = true ∧ cfg.allLve = false := by simpa [and_comm] using hoff
    have ho := accountAnalyzeLimit_outcome hlve.1 hlve.2 now ac g
    generalize accountAnalyzeLimit cfg now ac g = r at ho ⊢
    cases ho with
    | ignored => exact .none
    | stuck => exact .none
    | kept => exact .none
    | restricted cur period field _ _ hperiod => exact .limit now period field hperiod
    | released => exact .release 0 0 _ (.inl rfl)

theorem write_accountAnalyze (now : ℤ) (ac : Account) (g : Globals) :
    AccountWrite cfg ac (accountAnalyze cfg now ac g).1 := by
  by_cases hoff : (cfg.allLve || !cfg.useLve) = true
  · rw [accountAnalyze_off hoff]
    exact .none
  · have hlve : cfg.useLve = true ∧ cfg.allLve = false := by simpa [and_comm] using hoff
    have ho := accountAnalyze_outcome hlve.1 hlve.2 now ac g
    generalize accountAnalyze cfg now ac g = r at ho ⊢
    cases ho with
    | ignored => exact .none
    | stuck => exact .none
    | running => exact .none
    | quiet => exact .none
    | restricted cur period field _ _ hperiod => exact write_restrictPeriod now cur hperiod field ac g
    | renewed cur period field _ _ _ hperiod =>
        rw [restrictPeriod_account]
        obtain ⟨hlow, hhigh⟩ := nextLevel_bounds cfg now (expired now ac)
        exact .level now _ period field hlow hhigh hperiod
    | released => exact .release now ac.restricted _ (.inr rfl)
    | forgiven => exact .release 0 0 _ (.inl rfl)

theorem write_dbctlRestrictAccount (now : ℤ) (command : DbCtlCommand) (ac : Account)
    (g : Globals) : AccountWrite cfg ac (dbctlRestrictAccount cfg now command ac g).1 := by
  cases hmode : cfg.restrictMode with
  | true =>
      rw [dbctlRestrictAccount_limit hmode]
      exact .limit now .currentPeriod _ (by simp)
  | false =>
      obtain ⟨level, hlow, hhigh, heq⟩ := dbctlRestrictAccount_period hmode now command ac g
      rw [heq]
      exact .level now level .currentPeriod _ hlow hhigh (by simp)

theorem write_dbctlUnrestrictSet (now : ℤ) (command : DbCtlCommand) (ac : Account) (g : Globals) :
    AccountWrite cfg ac (dbctlUnrestrictSet cfg now command ac g).1 := by
  by_cases hid : ac.id = command.username
  · rw [dbctlUnrestrictSet_of_named hid]
    exact .clear
  · rw [dbctlUnrestrictSet, if_neg hid]
    exact .none

theorem write_calcAccStats (users : HashTable UserStats) (ac : Account) :
    AccountWrite cfg ac (calcAccStats users ac) := by
  rw [calcAccStats]
  split
  · exact .none
  · exact .sums _ _ _ _

end Account

/-! ### One step -/

section Step

variable {P : Account → Prop} {cfg : GovernorConfig} {w : World}

theorem AccountsHave.frame (h : AccountsHave P cfg w) {w' : World} (hcfg : w'.cfg = w.cfg)
    (haccounts : w'.accounts = w.accounts) : AccountsHave P cfg w' :=
  ⟨hcfg.trans h.cfg_eq, haccounts ▸ h.all⟩

theorem AccountsHave.setAccount (h : AccountsHave P cfg w) (a : Username) {r : Account × Globals}
    (hr : P r.1) : AccountsHave P cfg (w.setAccount a r) := by
  refine ⟨h.cfg_eq, fun b bc hb => ?_⟩
  rcases lookup_insert_cases hb with ⟨-, rfl⟩ | ⟨-, hb⟩
  · exact hr
  · exact h.all b bc hb

theorem AccountsHave.onAccount (hk : KeptByWrites P cfg) (h : AccountsHave P cfg w)
    {f : GovernorConfig → Account → Globals → Account × Globals}
    (hf : ∀ ac g, AccountWrite cfg ac (f cfg ac g).1) (a : Username) :
    AccountsHave P cfg (w.onAccount f a) := by
  rw [World.onAccount]
  cases ha : w.accounts.lookup a with
  | none => exact h
  | some ac =>
      refine h.setAccount a (hk.write ac _ (h.all a ac ha) ?_)
      rw [h.cfg_eq]
      exact hf ac w.globals

theorem AccountsHave.foldl_onAccount (hk : KeptByWrites P cfg) (h : AccountsHave P cfg w)
    {f : GovernorConfig → Account → Globals → Account × Globals}
    (hf : ∀ ac g, AccountWrite cfg ac (f cfg ac g).1) (keys : List Username) :
    AccountsHave P cfg (keys.foldl (World.onAccount f) w) :=
  List.foldlRecOn keys _ h fun _ hw a _ => hw.onAccount hk hf a

theorem AccountsHave.addUserStats (hk : KeptByWrites P cfg) (h : AccountsHave P cfg w)
    (u : Username) : AccountsHave P cfg (addUserStats u w) := by
  obtain ⟨t, ac, hac, heq⟩ := addUserStats_spec u w
  have hold : P ac := by
    rcases hac with hl | ⟨-, rfl⟩
    · exact h.all _ ac hl
    · exact hk.new _
  rw [heq]
  refine ⟨h.cfg_eq, fun b bc hb => ?_⟩
  rcases lookup_insert_cases hb with ⟨-, rfl⟩ | ⟨-, hb⟩
  · exact hk.write ac _ hold (.join u)
  · exact h.all b bc hb

theorem AccountsHave.addEmptyStatsForUid (hk : KeptByWrites P cfg) (h : AccountsHave P cfg w)
    (u : Username) : AccountsHave P cfg (addEmptyStatsForUid u w) := by
  rw [DbGovernor.addEmptyStatsForUid]
  split
  · exact h
  · exact h.addUserStats hk u

theorem AccountsHave.addUserStatsFromCounter (hk : KeptByWrites P cfg) (h : AccountsHave P cfg w)
    (t : TickInput) (key : Username) : AccountsHave P cfg (addUserStatsFromCounter t w key) := by
  rw [DbGovernor.addUserStatsFromCounter]
  split
  · exact h
  · rw [resetCounters, addNewStats]
    have hadd := h.addEmptyStatsForUid hk key
    split <;> split <;> exact hadd.frame rfl rfl

theorem AccountsHave.tickEmptyUsers (h : AccountsHave P cfg w) (key : Username) :
    AccountsHave P cfg (tickEmptyUsers w key) := by
  rw [DbGovernor.tickEmptyUsers]
  split
  · exact h
  · split
    · exact h.frame rfl rfl
    · exact h

theorem AccountsHave.proceedAccounts (hk : KeptByWrites P cfg) (h : AccountsHave P cfg w)
    (t : TickInput) : AccountsHave P cfg (proceedAccounts t w) := by
  have hnext : AccountsHave P cfg { w with tickId := w.tickId + 1 } := h.frame rfl rfl
  have hsampled : AccountsHave P cfg (sampleUsers t w) := by
    rw [sampleUsers]
    refine List.foldlRecOn _ _ ?_ fun _ hw key _ => hw.tickEmptyUsers key
    exact List.foldlRecOn _ _ hnext fun _ hw key _ => hw.addUserStatsFromCounter hk t key
  have hgathered : AccountsHave P cfg (gatherStats t w) := by
    rw [gatherStats_eq]
    exact hsampled.foldl_onAccount hk (fun ac _ => write_calcAccStats _ ac) _
  have hdecided : AccountsHave P cfg (analyzeAccounts t (gatherStats t w)) := by
    refine hgathered.foldl_onAccount hk (fun ac g => ?_) _
    split
    · exact write_accountAnalyzeLimit t.now ac g
    · exact write_accountAnalyze t.now ac g
  obtain ⟨g, -, -, heq⟩ := proceedAccounts_spec t w
  rw [heq]
  exact hdecided.frame rfl rfl

theorem AccountsHave.dbctlRestrictNamed (hk : KeptByWrites P cfg) (h : AccountsHave P cfg w)
    (now : ℤ) (command : DbCtlCommand) (a : Username) :
    AccountsHave P cfg (dbctlRestrictNamed now command w a) := by
  rw [DbGovernor.dbctlRestrictNamed]
  cases ha : w.accounts.lookup a with
  | none => exact h
  | some ac =>
      dsimp only
      split
      · refine h.setAccount a (hk.write ac _ (h.all a ac ha) ?_)
        rw [h.cfg_eq]
        exact write_dbctlRestrictAccount now command ac w.globals
      · exact h

theorem AccountsHave.dbctlRestrictSet (hk : KeptByWrites P cfg) (h : AccountsHave P cfg w)
    (now : ℤ) (command : DbCtlCommand) (key : Username) :
    AccountsHave P cfg (dbctlRestrictSet now command w key) := by
  rw [DbGovernor.dbctlRestrictSet]
  split
  · exact h.dbctlRestrictNamed hk now command key
  · have hadd := h.addUserStats hk command.username
    dsimp only
    split
    · exact hadd.dbctlRestrictNamed hk now command _
    · exact hadd.dbctlRestrictNamed hk now command key

theorem AccountsHave.reinitUsersList (h : AccountsHave P cfg w) (file : Option (List UInt8))
    (ord : IterOrder) : AccountsHave P cfg (reinitUsersList file ord w) := by
  rw [DbGovernor.reinitUsersList]
  dsimp only
  split
  · refine List.foldlRecOn _ _ (h.frame rfl rfl) fun _ hw key _ => ?_
    rw [addAllUsersToList]
    split
    · exact hw
    · exact List.foldlRecOn _ _ hw fun _ hw _ _ => hw.frame rfl rfl
  · exact h.frame rfl rfl

theorem AccountsHave.setDbuserMap (hk : KeptByWrites P cfg) (h : AccountsHave P cfg w)
    (ord : IterOrder) : AccountsHave P cfg (setDbuserMap ord w) := by
  rw [DbGovernor.setDbuserMap]
  split
  · exact h
  · refine List.foldlRecOn _ _ h fun _ hw key _ => ?_
    split
    · exact hw
    · exact hw.addEmptyStatsForUid hk _

/-- The configuration after a message. -/
def DbctlMessage.cfgAfter (cfg : GovernorConfig) : DbctlMessage → GovernorConfig
  | .rereadCfg cfg' => cfg'
  | .reinitUsersList cfg' _ => cfg'
  | .restrict _ | .unrestrict _ | .unrestrictA => cfg

theorem AccountsHave.runDbctlCommand (hk : KeptByWrites P cfg) (h : AccountsHave P cfg w)
    (msg : DbctlMessage) (hk' : KeptByWrites P (msg.cfgAfter cfg)) (now : ℤ) (ord : IterOrder) :
    AccountsHave P (msg.cfgAfter cfg) (runDbctlCommand msg now ord w) := by
  cases msg with
  | rereadCfg cfg' => exact ⟨rfl, h.all⟩
  | reinitUsersList cfg' file =>
      have hw : AccountsHave P cfg' { w with cfg := cfg' } := ⟨rfl, h.all⟩
      simp only [DbGovernor.runDbctlCommand]
      refine AccountsHave.reinitUsersList ?_ file ord
      split
      · exact hw
      · exact hw.foldl_onAccount hk' (fun _ _ => .clear) _
  | restrict command =>
      simp only [DbGovernor.runDbctlCommand]
      split
      · exact h
      · exact List.foldlRecOn _ _ h fun _ hw key _ => hw.dbctlRestrictSet hk now command key
  | unrestrict command =>
      simp only [DbGovernor.runDbctlCommand]
      split
      · exact h
      · exact h.foldl_onAccount hk (fun ac g => write_dbctlUnrestrictSet now command ac g) _
  | unrestrictA =>
      simp only [DbGovernor.runDbctlCommand]
      split
      · exact h
      · exact h.foldl_onAccount hk (fun _ _ => .clear) _

/-- A step keeps what the writes keep under the configurations before and after it. -/
theorem AccountsHave.daemonStep {w' : World} (h : AccountsHave P w.cfg w) (hs : DaemonStep w w')
    (hk : KeptByWrites P w.cfg) (hk' : KeptByWrites P w'.cfg) : AccountsHave P w'.cfg w' := by
  have hsame : ∀ {v : World}, AccountsHave P w.cfg v → AccountsHave P v.cfg v :=
    fun hv => ⟨rfl, hv.all⟩
  cases hs with
  | increment u cpu read write tm =>
      rw [incrementCounters]
      split
      · exact hsame (h.frame rfl rfl)
      · exact hsame (h.frame rfl rfl)
  | tick t => exact hsame (h.proceedAccounts hk t)
  | dbctl msg now ord =>
      have htrue : ∀ cfg, KeptByWrites (fun _ => True) cfg := fun _ =>
        ⟨fun _ => trivial, fun _ _ _ _ => trivial⟩
      have hcfg := (AccountsHave.runDbctlCommand (htrue w.cfg) ⟨rfl, fun _ _ _ => trivial⟩ msg
        (htrue _) now ord).cfg_eq
      rw [hcfg] at hk' ⊢
      exact h.runDbctlCommand hk msg hk' now ord
  | mapRefresh dataCfg file file' ordMap ordAccounts =>
      have hw : AccountsHave P w.cfg { w with userMap := some (getMapFile dataCfg file).2 } :=
        h.frame rfl rfl
      exact hsame ((hw.setDbuserMap hk ordMap).reinitUsersList file' ordAccounts)
  | copy _ _ _ => exact h.frame rfl rfl
  | reinit _ => exact h.frame rfl rfl
  | spawn _ => exact h.frame rfl rfl
  | work _ _ _ => exact h.frame rfl rfl
  | finish _ => exact h.frame rfl rfl

end Step

/-! ### The marks of a restriction -/

/-- An account says of itself that it is restricted exactly as long as it is, and by what. -/
structure Account.Shaped (ac : Account) : Prop where
  timeout_nonneg : 0 ≤ ac.timeout
  marked : ac.info.fieldRestrict ≠ .noPeriod ↔ ac.timeout ≠ 0
  level : 0 ≤ ac.restricted ∧ (ac.restricted ≤ 3 ∨ ac.restricted = 1000)

theorem shaped_keptByWrites {cfg : GovernorConfig} (hp : cfg.PositivePeriods) :
    KeptByWrites Account.Shaped cfg where
  new id := ⟨le_refl 0, by simp [initAccount], by simp [initAccount]⟩
  write ac ac' h hwrite := by
    cases hwrite with
    | none => exact h
    | join u => exact ⟨h.timeout_nonneg, h.marked, h.level⟩
    | sums current short mid long => exact ⟨h.timeout_nonneg, h.marked, h.level⟩
    | level now level period field hlow hhigh hperiod =>
        have hpos := hp.levelPeriod_pos level
        exact ⟨hpos.le, iff_of_true hperiod hpos.ne', hlow, .inl hhigh⟩
    | limit now period field hperiod =>
        exact ⟨hp.lUnlimit.le, iff_of_true hperiod hp.lUnlimit.ne', by simp, .inr rfl⟩
    | release now restricted field hlevel =>
        refine ⟨le_refl 0, iff_of_false (by simp) (by simp), ?_⟩
        rcases hlevel with rfl | rfl
        · exact ⟨le_refl 0, .inl (by simp)⟩
        · exact h.level
    | clear =>
        exact ⟨le_refl 0, iff_of_false (by simp [clearAccount]) (by simp [clearAccount]),
          by simp [clearAccount]⟩

/-- The states of a daemon whose configurations have positive periods. -/
inductive PositiveReachable : World → Prop where
  | start (cfg) (hp : cfg.PositivePeriods) : PositiveReachable (World.init cfg)
  | step {w w'} (h : PositiveReachable w) (hs : DaemonStep w w') (hp : w'.cfg.PositivePeriods) :
      PositiveReachable w'

theorem PositiveReachable.positivePeriods {w : World} (h : PositiveReachable w) :
    w.cfg.PositivePeriods := by
  cases h with
  | start _ hp => exact hp
  | step _ _ hp => exact hp

theorem PositiveReachable.shaped {w : World} (h : PositiveReachable w) {a : Username}
    {ac : Account} (hac : w.accounts.lookup a = some ac) : ac.Shaped := by
  suffices hall : AccountsHave Account.Shaped w.cfg w from hall.all a ac hac
  clear hac
  induction h with
  | start cfg hp => exact ⟨rfl, by simp [World.init]⟩
  | step h hs hp ih =>
      exact ih.daemonStep hs (shaped_keptByWrites h.positivePeriods) (shaped_keptByWrites hp)

end DbGovernor
