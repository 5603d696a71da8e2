import DbGovernor.Verification.Daemon.MapRefresh
import DbGovernor.Verification.Daemon.TickDecision

/-!
# Restrictions run out

A tick ends every restriction that has run out, unless the decision passes over the account: it
does so in ignore mode, whoever restricted the account and whenever it came into that mode.
-/

namespace DbGovernor

/-- A restriction that should have ended by `now`. -/
def Overdue (now : ℤ) (ac : Account) : Prop :=
  ac.timeout ≠ 0 ∧ ac.startCount + ac.timeout ≤ now

/-- The decisions do not look at a restriction of the account. -/
def PassedOver (cfg : GovernorConfig) (ac : Account) : Prop :=
  ¬ Watched cfg ac ∨ ac.startCount ≤ 0

instance (now : ℤ) (ac : Account) : Decidable (Overdue now ac) :=
  inferInstanceAs (Decidable (_ ∧ _))

instance (cfg : GovernorConfig) (ac : Account) : Decidable (PassedOver cfg ac) :=
  inferInstanceAs (Decidable (_ ∨ _))

/-- The levels and the period of the limit mode are positive where an `int` holds them. -/
structure GovernorConfig.PositivePeriods (cfg : GovernorConfig) : Prop where
  level1 : 0 < intOfUnsigned cfg.level1
  level2 : 0 < intOfUnsigned cfg.level2
  level3 : 0 < intOfUnsigned cfg.level3
  level4 : 0 < intOfUnsigned cfg.level4
  lUnlimit : 0 < intOfUnsigned cfg.lUnlimit

theorem shippedConfig_positivePeriods (restrictMode : Bool) :
    (shippedConfig restrictMode).PositivePeriods := by
  cases restrictMode <;>
    exact ⟨by decide, by decide, by decide, by decide, by decide⟩

/-! ### One decision -/

section Decision

variable {cfg : GovernorConfig} {now : ℤ} {ac : Account} {g : Globals}

theorem GovernorConfig.PositivePeriods.levelPeriod_pos (h : cfg.PositivePeriods) (level : ℤ) :
    0 < levelPeriod cfg level := by
  rw [levelPeriod]
  split_ifs
  · exact h.level1
  · exact h.level2
  · exact h.level3
  · exact h.level4

/-- A restriction that begins now is not overdue. -/
theorem not_overdue_of_pos {ac : Account} (hs : ac.startCount = now) (ht : 0 < ac.timeout) :
    ¬ Overdue now ac := by
  rintro ⟨-, hlate⟩
  omega

theorem not_overdue_of_released {ac : Account} (ht : ac.timeout = 0) : ¬ Overdue now ac :=
  fun h => h.1 ht

theorem restrictPeriod_not_overdue (hp : cfg.PositivePeriods) (cur : GovernorsFieldName)
    (period : GovernorsPeriodName) (field : GovernorsFieldName) (ac : Account) (g : Globals) :
    ¬ Overdue now (restrictPeriod cfg now cur period field ac g).1 := by
  rw [restrictPeriod_account]
  exact not_overdue_of_pos rfl (hp.levelPeriod_pos _)

theorem accountAnalyzeLimit_not_overdue (he : cfg.Enforcing) (hp : cfg.PositivePeriods)
    (hw : Watched cfg ac) (hopen : ac.timeout = 0 ∨ 0 < ac.startCount) (now : ℤ) (g : Globals) :
    ¬ Overdue now (accountAnalyzeLimit cfg now ac g).1 := by
  have ho := accountAnalyzeLimit_outcome he.useLve he.allLve now ac g
  generalize accountAnalyzeLimit cfg now ac g = r at ho ⊢
  cases ho with
  | ignored hn => exact absurd hw hn
  | stuck ht hs => exact absurd hopen (not_or.mpr ⟨ht, not_lt.mpr hs⟩)
  | kept _ _ hx =>
      rintro ⟨ht, hlate⟩
      exact absurd hlate (not_le.mpr (hx.resolve_left ht))
  | restricted cur period field _ _ _ => exact not_overdue_of_pos rfl hp.lUnlimit
  | released _ _ _ _ => exact not_overdue_of_released rfl

theorem accountAnalyze_not_overdue (he : cfg.Enforcing) (hp : cfg.PositivePeriods)
    (hw : Watched cfg ac) (hopen : ac.timeout = 0 ∨ 0 < ac.startCount) (now : ℤ) (g : Globals) :
    ¬ Overdue now (accountAnalyze cfg now ac g).1 := by
  have ho := accountAnalyze_outcome he.useLve he.allLve now ac g
  generalize accountAnalyze cfg now ac g = r at ho ⊢
  cases ho with
  | ignored hn => exact absurd hw hn
  | stuck ht hs => exact absurd hopen (not_or.mpr ⟨ht, not_lt.mpr hs⟩)
  | running _ hx => exact fun h => absurd h.2 (not_le.mpr hx)
  | quiet ht _ => exact not_overdue_of_released ht
  | restricted cur period field _ _ _ => exact restrictPeriod_not_overdue hp cur period field ac g
  | renewed cur period field _ _ _ _ =>
      exact restrictPeriod_not_overdue hp cur period field (expired now ac) g
  | released _ _ _ => exact not_overdue_of_released rfl
  | forgiven _ _ _ => exact not_overdue_of_released rfl

theorem analyzeMode_passedOver (he : cfg.Enforcing) (ht : ac.timeout ≠ 0)
    (hpassed : PassedOver cfg ac) (now : ℤ) (g : Globals) :
    analyzeMode cfg now ac g = (ac, g) := by
  by_cases hw : Watched cfg ac
  · have hs : ¬ 0 < ac.startCount := not_lt.mpr (hpassed.resolve_left (not_not.mpr hw))
    have hearly : ¬ (0 < ac.startCount ∧ ac.startCount + ac.timeout ≤ now) := fun h => hs h.1
    rw [analyzeMode, accountAnalyzeLimit_stuck he.useLve he.allLve hw ht hs,
      accountAnalyze_runs_on he.useLve he.allLve hw ht hearly, ite_self]
  · rw [analyzeMode, accountAnalyzeLimit_ignored hw, accountAnalyze_ignored hw, ite_self]

/-- A decision leaves an overdue restriction exactly if it passes over it. -/
theorem analyzeMode_overdue_iff (he : cfg.Enforcing) (hp : cfg.PositivePeriods) (now : ℤ)
    (ac : Account) (g : Globals) :
    Overdue now (analyzeMode cfg now ac g).1 ↔ Overdue now ac ∧ PassedOver cfg ac := by
  constructor
  · intro h
    by_cases hpassed : ac.timeout ≠ 0 ∧ PassedOver cfg ac
    · rw [analyzeMode_passedOver he hpassed.1 hpassed.2] at h
      exact ⟨h, hpassed.2⟩
    · have hopen : ac.timeout = 0 ∨ 0 < ac.startCount := by
        by_contra hno
        obtain ⟨ht, hs⟩ := not_or.mp hno
        exact hpassed ⟨ht, .inr (not_lt.mp hs)⟩
      by_cases hw : Watched cfg ac
      · rw [analyzeMode] at h
        split at h
        · exact absurd h (accountAnalyzeLimit_not_overdue he hp hw hopen now g)
        · exact absurd h (accountAnalyze_not_overdue he hp hw hopen now g)
      · have ht : ac.timeout = 0 := by
          by_contra ht
          exact hpassed ⟨ht, .inl hw⟩
        rw [analyzeMode, accountAnalyzeLimit_ignored hw, accountAnalyze_ignored hw, ite_self] at h
        exact absurd ht h.1
  · rintro ⟨h, hpassed⟩
    rw [analyzeMode_passedOver he h.1 hpassed]
    exact h

end Decision

/-! ### One tick -/

/-- No restriction is overdue. -/
def NoneOverdue (now : ℤ) (w : World) : Prop :=
  ∀ a ac, w.accounts.lookup a = some ac → ¬ Overdue now ac

/-- The decisions look at every overdue restriction. -/
def Attended (now : ℤ) (w : World) : Prop :=
  ∀ a ac, w.accounts.lookup a = some ac → ¬ (Overdue now ac ∧ PassedOver w.cfg ac)

section Tick

variable {w : World}

theorem Gathered.overdue_iff {old ac : Account} (h : Gathered w old ac) (now : ℤ) :
    Overdue now ac ↔ Overdue now old := by
  rw [Overdue, Overdue, h.timeout_eq, h.startCount_eq]

theorem Gathered.passedOver_iff {old ac : Account} (h : Gathered w old ac)
    (cfg : GovernorConfig) : PassedOver cfg ac ↔ PassedOver cfg old := by
  rw [PassedOver, PassedOver, Watched, Watched, h.id_eq, h.startCount_eq]

/-- After a tick no restriction is overdue exactly if the decisions looked at those that were. -/
theorem proceedAccounts_noneOverdue_iff (h : DaemonInv w) (he : w.cfg.Enforcing)
    (hp : w.cfg.PositivePeriods) (t : TickInput) :
    NoneOverdue t.now (proceedAccounts t w) ↔ Attended t.now w := by
  constructor
  · rintro hnone a old hold ⟨hover, hpassed⟩
    obtain ⟨ac, hac⟩ := Option.isSome_iff_exists.mp
      (gatherStats_lookup_isSome h t (Option.isSome_of_mem hold))
    have hg := gathered_gatherStats h t hac
    have hsame : w.accountOrNew a = old := by rw [World.accountOrNew, hold, Option.getD_some]
    rw [hsame] at hg
    obtain ⟨g, -, -, hl, -⟩ := proceedAccounts_visit h t hac
    refine hnone a _ hl ((analyzeMode_overdue_iff he hp t.now ac g).mpr ⟨?_, ?_⟩)
    · exact (hg.overdue_iff t.now).mpr hover
    · exact (hg.passedOver_iff w.cfg).mpr hpassed
  · intro hattended a ac' hl' hover
    obtain ⟨ac, hac⟩ := Option.isSome_iff_exists.mp (gatherStats_of_proceedAccounts t hl')
    obtain ⟨g, -, -, hl, -⟩ := proceedAccounts_visit h t hac
    obtain rfl := Option.some.inj (hl.symm.trans hl')
    obtain ⟨hover', hpassed⟩ := (analyzeMode_overdue_iff he hp t.now ac g).mp hover
    have hg := gathered_gatherStats h t hac
    rw [hg.overdue_iff] at hover'
    rw [hg.passedOver_iff] at hpassed
    cases hold : w.accounts.lookup a with
    | none =>
        rw [World.accountOrNew, hold] at hover'
        exact hover'.1 rfl
    | some old =>
        rw [World.accountOrNew, hold] at hover' hpassed
        exact hattended a old hold ⟨hover', hpassed⟩

end Tick

/-! ### Runs -/

/-- A step of the daemon: traffic, a tick, or a message. -/
inductive DaemonEvent where
  | increment (u : Username) (cpu read write : ℤ) (tm : ℚ)
  | tick (t : TickInput)
  | dbctl (msg : DbctlMessage) (now : ℤ) (ord : IterOrder)

def DaemonEvent.apply (w : World) : DaemonEvent → World
  | .increment u cpu read write tm => incrementCounters u cpu read write tm w
  | .tick t => proceedAccounts t w
  | .dbctl msg now ord => runDbctlCommand msg now ord w

/-- The configuration that a message brings, if it brings one. -/
def DbctlMessage.config : DbctlMessage → Option GovernorConfig
  | .rereadCfg cfg => some cfg
  | .reinitUsersList cfg _ => some cfg
  | _ => none

/-- A reread keeps the flags and the positive periods; modes and limits may change. -/
def DaemonEvent.Timed : DaemonEvent → Prop
  | .dbctl msg _ _ => ∀ cfg ∈ msg.config, cfg.Enforcing ∧ cfg.PositivePeriods
  | _ => True

/-- The tick leaves no restriction overdue. -/
def DaemonEvent.Ends (w : World) : DaemonEvent → Prop
  | .tick t => NoneOverdue t.now (proceedAccounts t w)
  | _ => True

/-- The tick looks at every overdue restriction. -/
def DaemonEvent.Attends (w : World) : DaemonEvent → Prop
  | .tick t => Attended t.now w
  | _ => True

theorem DaemonEvent.daemonStep (w : World) : ∀ e : DaemonEvent, DaemonStep w (e.apply w)
  | .increment u cpu read write tm => .increment u cpu read write tm w
  | .tick t => .tick t w
  | .dbctl msg now ord => .dbctl msg now ord w

section Cfg

variable {w : World}

/-- `reinit_users_list` writes the map and the list. -/
theorem reinitUsersList_frame (file : Option (List UInt8)) (ord : IterOrder) (w : World) :
    ∃ userMap badList, reinitUsersList file ord w =
      { w with userMap := userMap, mysql := { w.mysql with badList := badList } } := by
  have hadd : ∀ (key : Username) (v : World), ∃ badList, addAllUsersToList v key =
      { v with mysql := { v.mysql with badList := badList } } := by
    intro key v
    rw [addAllUsersToList]
    split
    · exact ⟨v.mysql.badList, rfl⟩
    · refine List.foldlRecOn (motive := fun (v' : World) => ∃ badList, v' =
        { v with mysql := { v.mysql with badList := badList } }) _ _ ⟨v.mysql.badList, rfl⟩ ?_
      rintro v' ⟨badList, rfl⟩ id _
      exact ⟨_, rfl⟩
  rw [reinitUsersList]
  dsimp only
  split
  · refine List.foldlRecOn (motive := fun (v : World) => ∃ userMap badList, v =
      { w with userMap := userMap, mysql := { w.mysql with badList := badList } }) _ _
      ⟨_, _, rfl⟩ ?_
    rintro v ⟨userMap, badList, rfl⟩ key _
    obtain ⟨badList', heq⟩ := hadd key
      { w with userMap := userMap, mysql := { w.mysql with badList := badList } }
    exact ⟨userMap, badList', heq⟩
  · exact ⟨_, _, rfl⟩

theorem reinitUsersList_cfg (file : Option (List UInt8)) (ord : IterOrder) (w : World) :
    (reinitUsersList file ord w).cfg = w.cfg := by
  obtain ⟨_, _, heq⟩ := reinitUsersList_frame file ord w
  rw [heq]

theorem dbctlRestrictSet_cfg (now : ℤ) (command : DbCtlCommand) (w : World) (key : Username) :
    (dbctlRestrictSet now command w key).cfg = w.cfg := by
  have hnamed : ∀ (v : World) a, (dbctlRestrictNamed now command v a).cfg = v.cfg := by
    intro v a
    rw [dbctlRestrictNamed]
    split
    · rfl
    · split <;> rfl
  have hadd := (registered_addUserStats command.username w).frame.cfg
  rw [dbctlRestrictSet]
  split
  · exact hnamed w key
  · dsimp only
    split
    · exact (hnamed _ _).trans hadd
    · exact (hnamed _ _).trans hadd

/-- A message changes the configuration to the one it brings. -/
theorem runDbctlCommand_cfg (msg : DbctlMessage) (now : ℤ) (ord : IterOrder) (w : World) :
    (runDbctlCommand msg now ord w).cfg = msg.config.getD w.cfg := by
  cases msg with
  | rereadCfg cfg => rfl
  | reinitUsersList cfg file =>
      rw [runDbctlCommand, reinitUsersList_cfg]
      split
      · rfl
      · exact (foldl_onAccount_base _ _ _).cfg
  | restrict command =>
      rw [runDbctlCommand]
      split
      · rfl
      · exact List.foldlRecOn (motive := fun (v : World) => v.cfg = w.cfg) _ _ rfl
          fun v hv key _ => (dbctlRestrictSet_cfg now command v key).trans hv
  | unrestrict command =>
      rw [runDbctlCommand]
      split
      · rfl
      · exact (foldl_onAccount_base _ _ _).cfg
  | unrestrictA =>
      rw [runDbctlCommand]
      split
      · rfl
      · exact (foldl_onAccount_base _ _ _).cfg

theorem proceedAccounts_cfg (h : DaemonInv w) (t : TickInput) :
    (proceedAccounts t w).cfg = w.cfg :=
  (proceedAccounts_base t w).cfg.trans (sampled_sampleUsers h t).frame.cfg

end Cfg

/-- The states of a run under positive periods. -/
structure TimedInv (w : World) : Prop where
  inv : DaemonInv w
  enforcing : w.cfg.Enforcing
  periods : w.cfg.PositivePeriods

theorem TimedInv.step {w : World} (h : TimedInv w) {e : DaemonEvent} (he : e.Timed) :
    TimedInv (e.apply w) := by
  have hinv := h.inv.step (e.daemonStep w)
  cases e with
  | increment u cpu read write tm =>
      have hcfg : (incrementCounters u cpu read write tm w).cfg = w.cfg := by
        rw [incrementCounters]
        split <;> rfl
      refine ⟨hinv, ?_, ?_⟩
      · rw [DaemonEvent.apply, hcfg]
        exact h.enforcing
      · rw [DaemonEvent.apply, hcfg]
        exact h.periods
  | tick t =>
      have hcfg := proceedAccounts_cfg h.inv t
      refine ⟨hinv, ?_, ?_⟩
      · rw [DaemonEvent.apply, hcfg]
        exact h.enforcing
      · rw [DaemonEvent.apply, hcfg]
        exact h.periods
  | dbctl msg now ord =>
      have hcfg := runDbctlCommand_cfg msg now ord w
      have hnew : (msg.config.getD w.cfg).Enforcing ∧ (msg.config.getD w.cfg).PositivePeriods := by
        cases hm : msg.config with
        | none => exact ⟨h.enforcing, h.periods⟩
        | some cfg => exact he cfg hm
      rw [← hcfg] at hnew
      exact ⟨hinv, hnew.1, hnew.2⟩

/-- In every run of traffic, ticks and messages, no restriction is overdue after a tick exactly
if the decisions of each tick look at every restriction that is overdue before it. -/
theorem none_overdue_iff_attended (w : World) (hw : Reachable w) (he : w.cfg.Enforcing)
    (hp : w.cfg.PositivePeriods) (events : List DaemonEvent) (htimed : ∀ e ∈ events, e.Timed) :
    Runs.Meets DaemonEvent.apply DaemonEvent.Ends w events ↔
      Runs.Meets DaemonEvent.apply DaemonEvent.Attends w events := by
  have hmeets : Runs.Meets DaemonEvent.apply (fun _ e => e.Timed) w events :=
    Runs.meets_of_forall w events fun e hmem _ => htimed e hmem
  have hstart : TimedInv w := ⟨hw.daemonInv, he, hp⟩
  have hiff : ∀ v e, TimedInv v → e.Timed →
      (DaemonEvent.Ends v e ↔ DaemonEvent.Attends v e) := by
    intro v e hv _
    cases e with
    | increment u cpu read write tm => exact Iff.rfl
    | tick t => exact proceedAccounts_noneOverdue_iff hv.inv hv.enforcing hv.periods t
    | dbctl msg now ord => exact Iff.rfl
  exact Runs.meets_congr hiff (fun _ _ hv htime _ => hv.step htime) hmeets hstart

/-! ### Restrictions that end and one that does not -/

theorem attended_of_entries {now : ℤ} {w : World}
    (h : ∀ e ∈ w.accounts.entries, ¬ (Overdue now e.2 ∧ PassedOver w.cfg e.2)) :
    Attended now w :=
  fun _ _ ha => h _ (AList.mem_lookup_iff.mp ha)

theorem none_overdue_iff_attended_sample :
    Runs.Meets DaemonEvent.apply DaemonEvent.Ends (World.init (shippedConfig true))
      [.increment sampleUser 500 0 0 0, .tick (sampleTickInput 0),
        .dbctl (.restrict ⟨sampleUser, 1⟩) 1000005 .asListed, .tick (sampleTickInput 70)] := by
  refine (none_overdue_iff_attended _ (.start _) (shippedConfig_enforcing true)
    (shippedConfig_positivePeriods true) _ ?_).mpr ?_
  · simp [DaemonEvent.Timed, DbctlMessage.config]
  · exact ⟨trivial, attended_of_entries (by decide +kernel), trivial,
      attended_of_entries (by decide +kernel), trivial⟩

/-- The shipped configuration with one account in ignore mode. -/
def ignoringConfig : GovernorConfig :=
  { shippedConfig true with
    accountLimits := (∅ : HashTable StatsCfg).insert sampleUser
      { (shippedConfig true).defaultLimit with mode := .ignoreMode } }

/-- The two messages of `dbctl ignore` with a tick between them that restricts the account. -/
def ignoringRun : List DaemonEvent :=
  [.increment sampleUser 500 0 0 0, .tick (sampleTickInput 0),
    .dbctl (.unrestrict ⟨sampleUser, 0⟩) 1000001 .asListed,
    .increment sampleUser 500 0 0 1, .tick (sampleTickInput 1),
    .dbctl (.rereadCfg ignoringConfig) 1000002 .asListed, .tick (sampleTickInput 70)]

/-- An account that is restricted again before it comes into ignore mode stays restricted. -/
theorem ignored_account_stays_restricted :
    ¬ ∀ (w : World) (events : List DaemonEvent), Reachable w → w.cfg.Enforcing →
      w.cfg.PositivePeriods → (∀ e ∈ events, e.Timed) →
      Runs.Meets DaemonEvent.apply DaemonEvent.Ends w events := by
  intro h
  have htimed : ∀ e ∈ ignoringRun, e.Timed := by
    have hcfg : ignoringConfig.Enforcing ∧ ignoringConfig.PositivePeriods :=
      ⟨⟨rfl, rfl, rfl⟩, ⟨by decide, by decide, by decide, by decide, by decide⟩⟩
    simp [ignoringRun, DaemonEvent.Timed, DbctlMessage.config, hcfg]
  have hrun := h (World.init (shippedConfig true)) ignoringRun (.start _)
    (shippedConfig_enforcing true) (shippedConfig_positivePeriods true) htimed
  have hends := hrun.2.2.2.2.2.2.1
  have hstuck : ∃ ac ∈ (ignoringRun.foldl DaemonEvent.apply
      (World.init (shippedConfig true))).accounts.lookup sampleUser, Overdue 1000070 ac := by
    decide +kernel
  obtain ⟨ac, hac, hover⟩ := hstuck
  exact hends sampleUser ac hac hover

end DbGovernor
