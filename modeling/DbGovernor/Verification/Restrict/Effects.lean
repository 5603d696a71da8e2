import DbGovernor.Verification.Restrict.Decision

/-!
# Effects on the command list and on the level

Each branch of a decision enqueues one broadcast over the users of the account, or none.
-/

namespace DbGovernor

/-- `g'` is reached from `g` by enqueueing exactly `cmds`. -/
structure Enqueues (g : Globals) (cmds : List Command) (g' : Globals) : Prop where
  ready : g'.Ready
  enqueued : g'.enqueued = g.enqueued ++ cmds

/-- The newest command for every user of the account is FREEZE. -/
def Frozen (ac : Account) (g : Globals) : Prop :=
  ∀ u ∈ ac.users, lastCommand u g.enqueued = some .freeze

/-- The newest command for no user of the account is FREEZE. -/
def Thawed (ac : Account) (g : Globals) : Prop :=
  ∀ u ∈ ac.users, lastCommand u g.enqueued ≠ some .freeze

/-- An account as `init_account` makes it, with its users, before any command for them. -/
structure Fresh (ac : Account) (g : Globals) : Prop where
  restricted : ac.restricted = 0
  timeout : ac.timeout = 0
  startCount : ac.startCount = 0
  info : ac.info = ⟨.noPeriod, .norestrictParam2⟩
  users : ac.users ≠ []
  ready : g.Ready
  silent : ∀ u ∈ ac.users, lastCommand u g.enqueued = none

theorem Fresh.thawed {ac : Account} {g : Globals} (h : Fresh ac g) : Thawed ac g := by
  intro u hu
  simp [h.silent u hu]

def sampleUser : Username := strlcpy [117]

def sampleAccount : Account := { initAccount sampleUser with users := [sampleUser] }

theorem sampleAccount_fresh : Fresh sampleAccount .init :=
  ⟨rfl, rfl, rfl, rfl, by simp [sampleAccount], Globals.init_ready, by simp [Globals.init]⟩

/-- A usage that only the current limit of the CPU sees. -/
def cpuUsage (cpu : ℚ) : Usage := { Usage.zero with current := ⟨cpu, 0, 0⟩ }

variable {cfg : GovernorConfig} {ac : Account} {g g' : Globals}

theorem Enqueues.frozen (h : Enqueues g (broadcast .freeze ac.users) g') : Frozen ac g' := by
  intro u hu
  rw [h.enqueued, lastCommand_broadcast, if_pos hu]

theorem Enqueues.thawed (h : Enqueues g (broadcast .unfreeze ac.users) g') : Thawed ac g' := by
  intro u hu
  rw [h.enqueued, lastCommand_broadcast, if_pos hu]
  simp

theorem Enqueues.frozen_of_nil (h : Enqueues g [] g') (hf : Frozen ac g) : Frozen ac g' := by
  intro u hu
  simpa [h.enqueued] using hf u hu

theorem Enqueues.thawed_of_nil (h : Enqueues g [] g') (hf : Thawed ac g) : Thawed ac g' := by
  intro u hu
  simpa [h.enqueued] using hf u hu

theorem Thawed.not_frozen (h : Thawed ac g) (hne : ac.users ≠ []) : ¬ Frozen ac g := by
  intro hf
  obtain ⟨u, hu⟩ := List.exists_mem_of_ne_nil _ hne
  exact h u hu (hf u hu)

/-! ### Commands -/

theorem countRestrict_enqueues (cfg : GovernorConfig) (id : Username) (cause : ℕ) (h : g.Ready) :
    Enqueues g [] (countRestrict cfg id cause g) := by
  rw [countRestrict]
  split
  · exact ⟨h, by simp [incNumberOfRestricts]⟩
  · exact ⟨h, by simp⟩

theorem accountRestrict_enqueues (he : cfg.Enforcing) (ac : Account) (h : g.Ready) :
    Enqueues g (broadcast .freeze ac.users) (accountRestrict cfg ac g) := by
  rw [accountRestrict_eq he]
  obtain ⟨hr, hq⟩ := enqueueUsers_spec .freeze ac.users g h
  exact ⟨hr, hq⟩

theorem accountUnrestrict_enqueues (he : cfg.Enforcing) (ac : Account) (h : g.Ready) :
    Enqueues g (broadcast .unfreeze ac.users) (accountUnrestrict cfg ac g) := by
  rw [accountUnrestrict_eq he]
  obtain ⟨hr, hq⟩ := enqueueUsers_spec .unfreeze ac.users g h
  exact ⟨hr, hq⟩

/-- The commands of a branch that restricts: FREEZE for every user, unless the level was
not zero. -/
def restrictCommands (ac : Account) : List Command :=
  if ac.restricted = 0 then broadcast .freeze ac.users else []

/-- Counting a restriction and then freezing the users of an account enqueues the freezes. -/
theorem countRestrict_accountRestrict_enqueues (he : cfg.Enforcing) (ac : Account)
    (id : Username) (cause : ℕ) (h : g.Ready) :
    Enqueues g (broadcast .freeze ac.users)
      (accountRestrict cfg ac (countRestrict cfg id cause g)) := by
  have hc := countRestrict_enqueues cfg id cause h
  have hr := accountRestrict_enqueues he ac hc.ready
  refine ⟨hr.ready, ?_⟩
  rw [hr.enqueued, hc.enqueued, List.append_nil]

theorem restrictPeriodLimit_enqueues (he : cfg.Enforcing) (now : ℤ) (cur : GovernorsFieldName)
    (period : GovernorsPeriodName) (field : GovernorsFieldName) (ac : Account) (h : g.Ready) :
    Enqueues g (restrictCommands ac) (restrictPeriodLimit cfg now cur period field ac g).2 := by
  rw [restrictPeriodLimit, restrictCommands]
  dsimp only
  split
  · exact countRestrict_accountRestrict_enqueues he _ ac.id _ h
  · exact countRestrict_enqueues cfg ac.id _ h

theorem restrictPeriod_enqueues (he : cfg.Enforcing) (now : ℤ) (cur : GovernorsFieldName)
    (period : GovernorsPeriodName) (field : GovernorsFieldName) (ac : Account) (h : g.Ready) :
    Enqueues g (restrictCommands ac) (restrictPeriod cfg now cur period field ac g).2 := by
  rw [restrictPeriod, restrictCommands]
  dsimp only
  split
  · exact countRestrict_accountRestrict_enqueues he _ ac.id _ h
  · exact countRestrict_enqueues cfg ac.id _ h

theorem dbctlRestrictAccount_id [Rounding] (cfg : GovernorConfig) (now : ℤ) (command : DbCtlCommand)
    (ac : Account) (g : Globals) : (dbctlRestrictAccount cfg now command ac g).1.id = ac.id := by
  simp only [dbctlRestrictAccount]
  cases cfg.restrictMode <;> rfl

theorem dbctlRestrictAccount_users [Rounding] (cfg : GovernorConfig) (now : ℤ)
    (command : DbCtlCommand) (ac : Account) (g : Globals) :
    (dbctlRestrictAccount cfg now command ac g).1.users = ac.users := by
  simp only [dbctlRestrictAccount]
  cases cfg.restrictMode <;> rfl

/-- A RESTRICT command counts the restriction or not, and then freezes the users. -/
theorem dbctlRestrictAccount_globals [Rounding] (cfg : GovernorConfig) (now : ℤ)
    (command : DbCtlCommand) (ac : Account) (h : g.Ready) :
    ∃ g₁, Enqueues g [] g₁ ∧ (dbctlRestrictAccount cfg now command ac g).2 =
      accountRestrict cfg (dbctlRestrictAccount cfg now command ac g).1 g₁ := by
  have hcount : ∀ (p : Prop) [Decidable p] (id : Username) (cause : ℕ),
      Enqueues g [] (if p then countRestrict cfg id cause g else g) := by
    intro p _ id cause
    split
    · exact countRestrict_enqueues cfg id cause h
    · exact ⟨h, by simp⟩
  exact ⟨_, hcount _ _ _, rfl⟩

theorem dbctlRestrictAccount_enqueues [Rounding] (he : cfg.Enforcing) (now : ℤ)
    (command : DbCtlCommand) (ac : Account) (h : g.Ready) :
    Enqueues g (broadcast .freeze ac.users) (dbctlRestrictAccount cfg now command ac g).2 := by
  obtain ⟨g₁, hc, heq⟩ := dbctlRestrictAccount_globals cfg now command ac h
  have hr := accountRestrict_enqueues he (dbctlRestrictAccount cfg now command ac g).1 hc.ready
  rw [← heq, dbctlRestrictAccount_users] at hr
  refine ⟨hr.ready, ?_⟩
  rw [hr.enqueued, hc.enqueued, List.append_nil]

theorem dbctlUnrestrictSet_of_named [Rounding] {now : ℤ} {command : DbCtlCommand}
    (hid : ac.id = command.username) :
    dbctlUnrestrictSet cfg now command ac g =
      (clearAccount ac, accountUnrestrict cfg (clearAccount ac) g) := by
  have hc := checkRestrict_of_not_exceeds (clearAccount_not_exceeds cfg ac) now g
  simp [dbctlUnrestrictSet, hid, hc]

theorem dbctlRestrictAccount_limit [Rounding] (hmode : cfg.restrictMode = true) (now : ℤ)
    (command : DbCtlCommand) (ac : Account) (g : Globals) :
    (dbctlRestrictAccount cfg now command ac g).1 =
      { ac with
        timeout := intOfUnsigned cfg.lUnlimit
        restricted := 1000
        startCount := now
        info := ⟨.currentPeriod,
          isStatOverlimitCurrent ac.current (configGetAccountLimit cfg ac.id)⟩ } := by
  simp [dbctlRestrictAccount, hmode]

/-! ### Levels -/

/-- The configured period of the level with index `level`. -/
def levelPeriod (cfg : GovernorConfig) (level : ℤ) : ℤ :=
  intOfUnsigned
    (if level = 0 then cfg.level1
    else if level = 1 then cfg.level2
    else if level = 2 then cfg.level3
    else cfg.level4)

theorem getTimeout_eq (cfg : GovernorConfig) (level penalty : ℤ) :
    getTimeout cfg level penalty =
      (max 0 (min 3 (level + penalty)), levelPeriod cfg (max 0 (min 3 (level + penalty)))) := by
  have hclamp : (if (if level + penalty > 3 then 3 else level + penalty) < 0 then 0
      else (if level + penalty > 3 then 3 else level + penalty)) =
      max 0 (min 3 (level + penalty)) := by
    split_ifs <;> omega
  simp only [getTimeout, levelPeriod, hclamp]

theorem intOfUnsigned_of_lt {u : UInt32} (h : u.toNat < 2 ^ 31) :
    intOfUnsigned u = u.toNat := if_pos h

/-- A configured number of seconds that an `int` holds and that is not zero. -/
def Seconds (u : UInt32) : Prop := 1 ≤ u.toNat ∧ u.toNat ≤ 2 ^ 31 - 1

instance (u : UInt32) : Decidable (Seconds u) := inferInstanceAs (Decidable (_ ∧ _))

theorem Seconds.intOfUnsigned_eq {u : UInt32} (h : Seconds u) : intOfUnsigned u = u.toNat :=
  intOfUnsigned_of_lt (by have := h.2; omega)

theorem Seconds.intOfUnsigned_pos {u : UInt32} (h : Seconds u) : 0 < intOfUnsigned u := by
  have := h.1
  rw [h.intOfUnsigned_eq]
  omega

/-- The levels and the penalty period of the configuration are numbers of seconds. -/
structure GovernorConfig.Levels (cfg : GovernorConfig) : Prop where
  level1 : Seconds cfg.level1
  level2 : Seconds cfg.level2
  level3 : Seconds cfg.level3
  level4 : Seconds cfg.level4
  timeout : Seconds cfg.timeout

theorem shippedConfig_levels (restrictMode : Bool) : (shippedConfig restrictMode).Levels where
  level1 := (by decide : Seconds 60)
  level2 := (by decide : Seconds 900)
  level3 := (by decide : Seconds 3600)
  level4 := (by decide : Seconds 86400)
  timeout := (by decide : Seconds 3600)

theorem GovernorConfig.Levels.levelPeriod_pos (h : cfg.Levels) (level : ℤ) :
    0 < levelPeriod cfg level := by
  rw [levelPeriod]
  split_ifs
  · exact h.level1.intOfUnsigned_pos
  · exact h.level2.intOfUnsigned_pos
  · exact h.level3.intOfUnsigned_pos
  · exact h.level4.intOfUnsigned_pos

/-- The level that a branch of `check_restrict` gives to an account. -/
def nextLevel (cfg : GovernorConfig) (now : ℤ) (ac : Account) : ℤ :=
  if ac.startCount + cfg.timeout.toNat > now then max 0 (min 3 (ac.restricted + 1))
  else max 0 (min 3 ac.restricted)

theorem restrictPeriod_account (cfg : GovernorConfig) (now : ℤ) (cur : GovernorsFieldName)
    (period : GovernorsPeriodName) (field : GovernorsFieldName) (ac : Account) (g : Globals) :
    (restrictPeriod cfg now cur period field ac g).1 =
      { ac with
        restricted := nextLevel cfg now ac
        timeout := levelPeriod cfg (nextLevel cfg now ac)
        startCount := now
        info := ⟨period, field⟩ } := by
  rw [restrictPeriod, nextLevel]
  dsimp only
  split_ifs <;> simp [getTimeout_eq]

theorem dbctlRestrictAccount_period [Rounding] (hmode : cfg.restrictMode = false) (now : ℤ)
    (command : DbCtlCommand) (ac : Account) (g : Globals) :
    ∃ level, 0 ≤ level ∧ level ≤ 3 ∧
      (dbctlRestrictAccount cfg now command ac g).1 =
        { ac with
          timeout := levelPeriod cfg level
          restricted := level
          startCount := now
          info := ⟨.currentPeriod,
            isStatOverlimitCurrent ac.current (configGetAccountLimit cfg ac.id)⟩ } := by
  refine ⟨(dbctlRestrictAccount cfg now command ac g).1.restricted, ?_, ?_, ?_⟩ <;>
    simp [dbctlRestrictAccount, hmode, getTimeout_eq]

theorem nextLevel_bounds (cfg : GovernorConfig) (now : ℤ) (ac : Account) :
    0 ≤ nextLevel cfg now ac ∧ nextLevel cfg now ac ≤ 3 := by
  rw [nextLevel]
  split <;> omega

end DbGovernor
