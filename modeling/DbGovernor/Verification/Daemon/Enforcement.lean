import DbGovernor.Verification.Daemon.ConnectionLimits
import DbGovernor.Verification.Daemon.RestrictLevel
import DbGovernor.Verification.SharedMemory.Refinement

/-!
# From the decision to the plugin

In limit mode, once the commands are handed over, the plugin finds a user in the list exactly if
its account is restricted, and with the uid of the map. This is about the steps of
`EnforcementStep`: the configuration is not read again, no user joins a restricted account, nobody
is restricted who is not registered, no command comes between the two sections of the hand-over, no
FREEZE meets a full list, and the map changes only while nobody is restricted and every command is
handed over.
-/

namespace DbGovernor

/-! ### Steps -/

/-- A user joins a restricted account in the tick. -/
def TickJoins (t : TickInput) (w : World) : Prop :=
  ∃ a ac, (gatherStats t w).accounts.lookup a = some ac ∧ ac.timeout ≠ 0 ∧
    ac.users ≠ (w.accountOrNew a).users

/-- The uids of the map are those of users. -/
def MapUids (w : World) : Prop := ∀ u um, findUid w.userMap u = some um → 1 ≤ um.uid

/-- The steps of the daemon that keep the list in time with the decisions. Of those of `DaemonStep`
it leaves out `REREAD_CFG` and `REINIT_USERS_LIST`, a tick in which a user joins a restricted
account, RESTRICT of a user that is not registered, commands while the list is copied and not yet
emptied, a refresh of the map while an account is restricted or a command is under way or with a
map of which a uid is below 1, and a FREEZE that meets a full list. -/
inductive EnforcementStep : World → World → Prop where
  | increment (u cpu read write tm w) : EnforcementStep w (incrementCounters u cpu read write tm w)
  | tick (t w) (hpc : w.sender.pc = .idle) (hjoin : ¬ TickJoins t w) :
      EnforcementStep w (proceedAccounts t w)
  | restrict (command now ord w) (hpc : w.sender.pc ≠ .copied)
      (hknown : (w.users.lookup command.username).isSome) :
      EnforcementStep w (runDbctlCommand (.restrict command) now ord w)
  | unrestrict (command now ord w) (hpc : w.sender.pc ≠ .copied) :
      EnforcementStep w (runDbctlCommand (.unrestrict command) now ord w)
  | unrestrictA (now ord w) (hpc : w.sender.pc ≠ .copied) :
      EnforcementStep w (runDbctlCommand .unrestrictA now ord w)
  | mapRefresh (dataCfg file file' ordMap ordAccounts w) (hnone : NoneRestricted w)
      (hdrained : Drained w)
      (huids : MapUids (parseMapFileEveryHour dataCfg file file' ordMap ordAccounts w)) :
      EnforcementStep w (parseMapFileEveryHour dataCfg file file' ordMap ordAccounts w)
  | copy (w) (hpc : w.sender.pc = .idle) (hbusy : w.sender.isSendCommandCycle = false) :
      EnforcementStep w { w with sender := copySection w.globals w.sender }
  | reinit (w) (hpc : w.sender.pc = .copied) :
      EnforcementStep w { w with
        globals := reinitCommandList w.globals
        sender := { w.sender with pc := .reinited } }
  | spawn (w) (hpc : w.sender.pc = .reinited) :
      EnforcementStep w { w with sender := spawnWorker w.sender }
  | work (cmd rest w) (hworker : w.sender.worker = some (cmd :: rest))
      (hroom : ∀ c ∈ cmd, ¬ MeetsFull w.mysql ⟨w.userMap, c⟩) :
      EnforcementStep w (workOn cmd rest w)
  | finish (w) (hworker : w.sender.worker = some []) :
      EnforcementStep w { w with sender := finishWorker w.sender }

/-- The states that such steps lead to. -/
def EnforcementReachable (cfg : GovernorConfig) : World → Prop :=
  Relation.ReflTransGen EnforcementStep (World.init cfg)

/-- Limit mode with a period of restriction. -/
structure GovernorConfig.LimitMode (cfg : GovernorConfig) : Prop extends cfg.Enforcing where
  restrictMode : cfg.restrictMode = true
  lUnlimit : Seconds cfg.lUnlimit

theorem EnforcementStep.daemonStep {w w' : World} (h : EnforcementStep w w')
    (hgpl : w.cfg.isGpl = false) : DaemonStep w w' := by
  cases h with
  | increment u cpu read write tm => exact .increment u cpu read write tm w
  | tick t => exact .tick t w
  | restrict command now ord => exact .dbctl (.restrict command) now ord w
  | unrestrict command now ord => exact .dbctl (.unrestrict command) now ord w
  | unrestrictA now ord => exact .dbctl .unrestrictA now ord w
  | mapRefresh dataCfg file file' ordMap ordAccounts =>
      exact .mapRefresh dataCfg file file' ordMap ordAccounts w
  | copy _ hpc hbusy => exact .copy w hgpl hpc hbusy
  | reinit _ hpc => exact .reinit w hpc
  | spawn _ hpc => exact .spawn w hpc
  | work cmd rest _ hworker => exact .work cmd rest w hworker
  | finish _ hworker => exact .finish w hworker

/-! ### One account -/

/-- An account is at rest and its users are released, or it is restricted and they are frozen. -/
inductive AccountState (ac : Account) (g : Globals) : Prop where
  | idle (restricted : ac.restricted = 0) (timeout : ac.timeout = 0) (thawed : Thawed ac g)
  | active (restricted : ac.restricted ≠ 0) (timeout : ac.timeout ≠ 0) (frozen : Frozen ac g)

section Account

variable {cfg : GovernorConfig} {ac : Account} {g g' : Globals}

theorem AccountState.silent (h : AccountState ac g) (hs : Silent ac.users g g') :
    AccountState ac g' := by
  cases h with
  | idle hr ht hthawed => exact .idle hr ht (hthawed.silent hs)
  | active hr ht hfrozen =>
      refine .active hr ht fun u hu => ?_
      rw [hs.lastCommand hu]
      exact hfrozen u hu

theorem AccountState.thawed (h : AccountState ac g) (ht : ac.timeout = 0) : Thawed ac g := by
  cases h with
  | idle _ _ hthawed => exact hthawed
  | active _ hne _ => exact absurd ht hne

theorem AccountState.frozen (h : AccountState ac g) (ht : ac.timeout ≠ 0) : Frozen ac g := by
  cases h with
  | idle _ hzero _ => exact absurd hzero ht
  | active _ _ hfrozen => exact hfrozen

theorem AccountState.accountAnalyzeLimit (h : AccountState ac g) (hm : cfg.LimitMode)
    (hg : g.Ready) (now : ℤ) :
    AccountState (accountAnalyzeLimit cfg now ac g).1 (accountAnalyzeLimit cfg now ac g).2 := by
  have ho := accountAnalyzeLimit_outcome hm.useLve hm.allLve now ac g
  generalize DbGovernor.accountAnalyzeLimit cfg now ac g = r at ho ⊢
  cases ho with
  | ignored _ => exact h
  | stuck _ _ => exact h
  | kept _ _ _ => exact h
  | restricted cur period field _ _ _ =>
      have hq := restrictPeriodLimit_enqueues hm.toEnforcing now cur period field ac hg
      refine .active (by simp [restrictPeriodLimit]) hm.lUnlimit.intOfUnsigned_pos.ne' ?_
      cases h with
      | idle hr _ _ =>
          rw [restrictCommands, if_pos hr] at hq
          exact hq.frozen
      | active hr _ hfrozen =>
          rw [restrictCommands, if_neg hr] at hq
          exact hq.frozen_of_nil hfrozen
  | released _ _ _ _ =>
      exact .idle rfl rfl (accountUnrestrict_enqueues hm.toEnforcing _ hg).thawed

theorem accountState_dbctlRestrictAccount (hm : cfg.LimitMode) (hg : g.Ready) (now : ℤ)
    (command : DbCtlCommand) :
    AccountState (dbctlRestrictAccount cfg now command ac g).1
      (dbctlRestrictAccount cfg now command ac g).2 := by
  have hq := dbctlRestrictAccount_enqueues hm.toEnforcing now command ac hg
  rw [dbctlRestrictAccount_limit hm.restrictMode]
  have hone : (1000 : ℤ) ≠ 0 := by decide
  exact .active hone hm.lUnlimit.intOfUnsigned_pos.ne' hq.frozen

theorem AccountState.dbctlUnrestrictSet (h : AccountState ac g) (hm : cfg.LimitMode)
    (hg : g.Ready) (now : ℤ) (command : DbCtlCommand) :
    AccountState (dbctlUnrestrictSet cfg now command ac g).1
      (dbctlUnrestrictSet cfg now command ac g).2 := by
  by_cases hid : ac.id = command.username
  · rw [dbctlUnrestrictSet_of_named hid]
    exact .idle rfl rfl (accountUnrestrict_enqueues hm.toEnforcing (clearAccount ac) hg).thawed
  · simpa [DbGovernor.dbctlUnrestrictSet, hid] using h

theorem AccountState.dbctlUnrestrictAllSet (h : AccountState ac g) (hm : cfg.LimitMode)
    (hg : g.Ready) :
    AccountState (dbctlUnrestrictAllSet cfg ac g).1 (dbctlUnrestrictAllSet cfg ac g).2 := by
  refine .idle rfl rfl ?_
  rw [DbGovernor.dbctlUnrestrictAllSet]
  dsimp only
  split
  · exact (accountUnrestrict_enqueues hm.toEnforcing ac hg).thawed
  · rename_i ht
    exact h.thawed (not_not.mp ht)

theorem accountRestrict_grows (cfg : GovernorConfig) (ac : Account) (hg : g.Ready) :
    Grows g (accountRestrict cfg ac g) := by
  have hrun : accountRestrict cfg ac g = Effect.run ⟨none, restrictCommand cfg⟩ ac.id ac.users g :=
    accountRestrict_eq_run cfg ac none ac.id g
  rw [hrun]
  exact Effect.grows (restrictCommand_kinds cfg) hg _ _

theorem countRestrict_grows (cfg : GovernorConfig) (id : Username) (cause : ℕ) (hg : g.Ready) :
    Grows g (countRestrict cfg id cause g) := by
  rw [countRestrict_eq_count]
  exact Effect.grows (e := ⟨_, none⟩) (by simp) hg id []

theorem dbctlRestrictAccount_grows (hg : g.Ready) (cfg : GovernorConfig) (now : ℤ)
    (command : DbCtlCommand) (ac : Account) :
    Grows g (dbctlRestrictAccount cfg now command ac g).2 := by
  have hcount : ∀ (p : Prop) [Decidable p] (id : Username) (cause : ℕ),
      Grows g (if p then countRestrict cfg id cause g else g) := by
    intro p _ id cause
    split
    · exact countRestrict_grows cfg id cause hg
    · exact .refl hg
  exact (hcount _ _ _).trans (accountRestrict_grows cfg _ (hcount _ _ _).ready)

theorem dbctlUnrestrictSet_grows (hg : g.Ready) (cfg : GovernorConfig) (now : ℤ)
    (command : DbCtlCommand) (ac : Account) :
    Grows g (dbctlUnrestrictSet cfg now command ac g).2 := by
  by_cases hid : ac.id = command.username
  · rw [dbctlUnrestrictSet_of_named hid]
    exact accountUnrestrict_grows cfg (clearAccount ac) hg
  · simp only [DbGovernor.dbctlUnrestrictSet, if_neg hid]
    exact .refl hg

end Account

/-! ### Passes over the accounts -/

/-- What a pass that began in `w` has kept. -/
structure PassInv (w v : World) : Prop where
  owned : Owned v
  cfg : v.cfg = w.cfg
  users : v.users = w.users
  sender : v.sender = w.sender
  mysql : v.mysql = w.mysql
  userMap : v.userMap = w.userMap
  grows : Grows w.globals v.globals
  state : ∀ a ac, v.accounts.lookup a = some ac → AccountState ac v.globals

section Pass

variable {w v : World} {f : GovernorConfig → Account → Globals → Account × Globals}

/-- A visit of one account. -/
theorem PassInv.setAccount (h : PassInv w v) {a : Username} {ac : Account}
    (hac : v.accounts.lookup a = some ac) {r : Account × Globals} (hk : Keeps ac v.globals r)
    (hgrow : Grows v.globals r.2) (hstate : AccountState r.1 r.2) :
    PassInv w (v.setAccount a r) := by
  refine ⟨h.owned.setAccount hac hk, h.cfg, h.users, h.sender, h.mysql, h.userMap,
    h.grows.trans hgrow, ?_⟩
  intro b bc hb
  rcases lookup_insert_cases hb with ⟨rfl, rfl⟩ | ⟨hba, hb⟩
  · exact hstate
  · exact (h.state b bc hb).silent
      (hk.addresses.silent fun u hu => h.owned.disjoint hac hb (Ne.symm hba) hu)

theorem PassInv.onAccount (h : PassInv w v) (a : Username)
    (hkeeps : ∀ ac g, g.Ready → Keeps ac g (f w.cfg ac g))
    (hgrows : ∀ ac g, g.Ready → Grows g (f w.cfg ac g).2)
    (hstate : ∀ ac g, g.Ready → AccountState ac g →
      AccountState (f w.cfg ac g).1 (f w.cfg ac g).2) : PassInv w (v.onAccount f a) := by
  cases hac : v.accounts.lookup a with
  | none =>
      rw [onAccount_of_none hac]
      exact h
  | some ac =>
      have hg := h.owned.ready
      rw [World.onAccount_of_lookup hac, h.cfg]
      exact h.setAccount hac (hkeeps ac _ hg) (hgrows ac _ hg) (hstate ac _ hg (h.state a ac hac))

theorem PassInv.foldl_onAccount (h : PassInv w v) (keys : List Username)
    (hkeeps : ∀ ac g, g.Ready → Keeps ac g (f w.cfg ac g))
    (hgrows : ∀ ac g, g.Ready → Grows g (f w.cfg ac g).2)
    (hstate : ∀ ac g, g.Ready → AccountState ac g →
      AccountState (f w.cfg ac g).1 (f w.cfg ac g).2) :
    PassInv w (keys.foldl (World.onAccount f) v) :=
  List.foldlRecOn keys _ h fun _ hv a _ => hv.onAccount a hkeeps hgrows hstate

/-- A call of `dbctl_restrict_set` for a registered user. -/
theorem PassInv.dbctlRestrictSet (h : PassInv w v) (hm : w.cfg.LimitMode)
    {command : DbCtlCommand} (hknown : (w.users.lookup command.username).isSome) (now : ℤ)
    (key : Username) : PassInv w (dbctlRestrictSet now command v key) := by
  obtain ⟨us, hus⟩ := Option.isSome_iff_exists.mp hknown
  rw [← h.users] at hus
  simp only [DbGovernor.dbctlRestrictSet, hus, dbctlRestrictNamed]
  cases hac : v.accounts.lookup key with
  | none => exact h
  | some ac =>
      dsimp only
      split
      · have hg := h.owned.ready
        rw [h.cfg]
        refine h.setAccount hac (dbctlRestrictAccount_keeps hg w.cfg now command ac) ?_
          (accountState_dbctlRestrictAccount hm hg now command)
        exact dbctlRestrictAccount_grows hg w.cfg now command ac
      · exact h

end Pass

/-! ### The invariant -/

/-- The busy flag is down while the tick thread does not hand over and no worker runs. -/
def FlagDown (s : Sender) : Prop :=
  s.pc = .idle → s.worker = none → s.isSendCommandCycle = false

/-- The accounts and the commands go together, and the list holds the users whose last executed
command is FREEZE, each with the uid of the map. -/
structure EnforcementInv (cfg : GovernorConfig) (w : World) : Prop where
  reachable : Reachable w
  cfg_eq : w.cfg = cfg
  handover : HandoverInv (w.globals, w.sender)
  flag : FlagDown w.sender
  kinds : ∀ c ∈ w.globals.enqueued, c.command = .freeze ∨ c.command = .unfreeze
  state : ∀ a ac, w.accounts.lookup a = some ac → AccountState ac w.globals
  shm : ShmInv w.mysql.badList
  uids : MapUids w
  listed : ∀ u, w.mysql.badList.listedUid u =
    if lastCommand u w.sender.executed = some .freeze then some (getUid w.userMap u) else none

section Steps

variable {cfg : GovernorConfig} {w v : World}

theorem listedUid_clear (u : Username) : clearBadUsersList.listedUid u = none := by
  simp [listedUid_eq, findIndex, clearBadUsersList]

theorem EnforcementInv.init (cfg : GovernorConfig) : EnforcementInv cfg (World.init cfg) where
  reachable := .start cfg
  cfg_eq := rfl
  handover := .init
  flag _ _ := rfl
  kinds := by simp [World.init, Globals.init]
  state := by simp [World.init]
  shm := .clear
  uids := by simp [MapUids, World.init, findUid]
  listed u := by
    rw [World.init, MysqlSide.init, listedUid_clear]
    rfl

/-- A step that appends commands and leaves the sending side alone. -/
theorem EnforcementInv.of_grows (h : EnforcementInv cfg w) (hreach : Reachable v)
    (hcfg : v.cfg = w.cfg) (hsender : v.sender = w.sender) (hmysql : v.mysql = w.mysql)
    (hmap : v.userMap = w.userMap) (hgrow : Grows w.globals v.globals)
    (hpc : w.sender.pc ≠ .copied)
    (hstate : ∀ a ac, v.accounts.lookup a = some ac → AccountState ac v.globals) :
    EnforcementInv cfg v := by
  refine ⟨hreach, hcfg.trans h.cfg_eq, ?_, ?_, ?_, hstate, ?_, ?_, ?_⟩
  · rw [hsender]
    exact h.handover.grows hgrow hpc
  · rw [hsender]
    exact h.flag
  · obtain ⟨cmds, hq⟩ := hgrow
    rw [hq.enqueued]
    intro c hc
    exact (List.mem_append.mp hc).elim (h.kinds c) (hq.kinds c)
  · rw [hmysql]
    exact h.shm
  · rw [MapUids, hmap]
    exact h.uids
  · rw [hmysql, hsender, hmap]
    exact h.listed

theorem EnforcementInv.of_pass (h : EnforcementInv cfg w) (hpass : PassInv w v)
    (hreach : Reachable v) (hpc : w.sender.pc ≠ .copied) : EnforcementInv cfg v :=
  h.of_grows hreach hpass.cfg hpass.sender hpass.mysql hpass.userMap hpass.grows hpc hpass.state

theorem EnforcementInv.passInv (h : EnforcementInv cfg w) : PassInv w w :=
  ⟨h.reachable.daemonInv.toOwned, rfl, rfl, rfl, rfl, rfl, .refl h.reachable.daemonInv.ready,
    h.state⟩

/-- A section of the hand-over that carries no command out. -/
theorem EnforcementInv.section (h : EnforcementInv cfg w) (hreach : Reachable v)
    (hcfg : v.cfg = w.cfg) (haccounts : v.accounts = w.accounts)
    (hlog : v.globals.enqueued = w.globals.enqueued)
    (hexec : v.sender.executed = w.sender.executed) (hmysql : v.mysql = w.mysql)
    (hmap : v.userMap = w.userMap) (hhandover : HandoverInv (v.globals, v.sender))
    (hflag : FlagDown v.sender) : EnforcementInv cfg v := by
  refine ⟨hreach, hcfg.trans h.cfg_eq, hhandover, hflag, ?_, ?_, ?_, ?_, ?_⟩
  · rw [hlog]
    exact h.kinds
  · rw [haccounts]
    intro a ac hac
    exact (h.state a ac hac).silent ⟨[], by simpa using hlog, by simp⟩
  · rw [hmysql]
    exact h.shm
  · rw [MapUids, hmap]
    exact h.uids
  · rw [hmysql, hexec, hmap]
    exact h.listed

/-! ### Commands and ticks -/

theorem EnforcementInv.foreachAccount (h : EnforcementInv cfg w)
    {f : GovernorConfig → Account → Globals → Account × Globals} (ord : IterOrder)
    (hkeeps : ∀ ac g, g.Ready → Keeps ac g (f cfg ac g))
    (hgrows : ∀ ac g, g.Ready → Grows g (f cfg ac g).2)
    (hstate : ∀ ac g, g.Ready → AccountState ac g → AccountState (f cfg ac g).1 (f cfg ac g).2)
    (hreach : Reachable (foreachAccount ord f w)) (hpc : w.sender.pc ≠ .copied) :
    EnforcementInv cfg (foreachAccount ord f w) := by
  rw [← h.cfg_eq] at hkeeps hgrows hstate
  exact h.of_pass (h.passInv.foldl_onAccount _ hkeeps hgrows hstate) hreach hpc

theorem EnforcementInv.restrict (h : EnforcementInv cfg w) (hm : cfg.LimitMode)
    (command : DbCtlCommand) (now : ℤ) (ord : IterOrder)
    (hknown : (w.users.lookup command.username).isSome) (hpc : w.sender.pc ≠ .copied)
    (hreach : Reachable (runDbctlCommand (.restrict command) now ord w)) :
    EnforcementInv cfg (runDbctlCommand (.restrict command) now ord w) := by
  have hmode : w.cfg.LimitMode := h.cfg_eq ▸ hm
  rw [runDbctlCommand_restrict_eq hmode.toEnforcing] at hreach ⊢
  refine h.of_pass ?_ hreach hpc
  exact List.foldlRecOn _ _ h.passInv fun _ hv key _ => hv.dbctlRestrictSet hmode hknown now key

theorem EnforcementInv.unrestrict (h : EnforcementInv cfg w) (hm : cfg.LimitMode)
    (command : DbCtlCommand) (now : ℤ) (ord : IterOrder) (hpc : w.sender.pc ≠ .copied)
    (hreach : Reachable (runDbctlCommand (.unrestrict command) now ord w)) :
    EnforcementInv cfg (runDbctlCommand (.unrestrict command) now ord w) := by
  have hmode : w.cfg.LimitMode := h.cfg_eq ▸ hm
  rw [runDbctlCommand_unrestrict_eq hmode.toEnforcing] at hreach ⊢
  exact h.foreachAccount ord (fun ac _ hg => dbctlUnrestrictSet_keeps hg cfg now command ac)
    (fun ac _ hg => dbctlUnrestrictSet_grows hg cfg now command ac)
    (fun _ _ hg hs => hs.dbctlUnrestrictSet hm hg now command) hreach hpc

theorem EnforcementInv.unrestrictA (h : EnforcementInv cfg w) (hm : cfg.LimitMode) (now : ℤ)
    (ord : IterOrder) (hpc : w.sender.pc ≠ .copied)
    (hreach : Reachable (runDbctlCommand .unrestrictA now ord w)) :
    EnforcementInv cfg (runDbctlCommand .unrestrictA now ord w) := by
  have hmode : w.cfg.LimitMode := h.cfg_eq ▸ hm
  rw [runDbctlCommand_unrestrictA_eq hmode.toEnforcing] at hreach ⊢
  exact h.foreachAccount ord (fun ac _ hg => dbctlUnrestrictAllSet_keeps hg cfg ac)
    (fun ac _ hg => dbctlUnrestrictAllSet_grows hg cfg ac)
    (fun _ _ hg hs => hs.dbctlUnrestrictAllSet hm hg) hreach hpc

/-- An account before the decisions of a tick in which nobody joins a restricted one. -/
theorem EnforcementInv.gathered (h : EnforcementInv cfg w) {t : TickInput}
    (hjoin : ¬ TickJoins t w) {a : Username} {ac : Account}
    (hac : (gatherStats t w).accounts.lookup a = some ac) : AccountState ac w.globals := by
  have hg := gathered_gatherStats h.reachable.daemonInv t hac
  have hold : AccountState (w.accountOrNew a) w.globals := by
    cases hl : w.accounts.lookup a with
    | none =>
        have hnew : w.accountOrNew a = initAccount a := by
          rw [World.accountOrNew, hl, Option.getD_none]
        rw [hnew]
        exact .idle rfl rfl (by simp [Thawed, initAccount])
    | some old =>
        have hsame : w.accountOrNew a = old := by rw [World.accountOrNew, hl, Option.getD_some]
        rw [hsame]
        exact h.state a old hl
  cases hold with
  | idle hr ht hthawed =>
      refine .idle (hg.restricted_eq.trans hr) (hg.timeout_eq.trans ht) ?_
      obtain ⟨joined, husers, hnew⟩ := hg.users_eq
      intro u hu
      rw [husers] at hu
      rcases List.mem_append.mp hu with hmem | hmem
      · exact hthawed u hmem
      · intro hlast
        have hknown := h.reachable.daemonInv.registered_of_lastCommand hlast
        simp [hnew u hmem] at hknown
  | active hr ht hfrozen =>
      have hne : ac.timeout ≠ 0 := by
        rw [hg.timeout_eq]
        exact ht
      have husers : ac.users = (w.accountOrNew a).users := by
        by_contra hjoined
        exact hjoin ⟨a, ac, hac, hne, hjoined⟩
      refine .active ?_ hne ?_
      · rw [hg.restricted_eq]
        exact hr
      · rw [Frozen, husers]
        exact hfrozen

theorem EnforcementInv.tick (h : EnforcementInv cfg w) (hm : cfg.LimitMode) (t : TickInput)
    (hpc : w.sender.pc = .idle) (hjoin : ¬ TickJoins t w) :
    EnforcementInv cfg (proceedAccounts t w) := by
  have hinv := h.reachable.daemonInv
  have hframe := gatherStats_frame hinv t
  have hcfg : (gatherStats t w).cfg = cfg := hframe.cfg.trans h.cfg_eq
  have hstart : PassInv (gatherStats t w) (gatherStats t w) := by
    refine ⟨(hinv.gatherStats t).toOwned, rfl, rfl, rfl, rfl, rfl,
      .refl (hinv.gatherStats t).ready, ?_⟩
    intro a ac hac
    rw [hframe.globals]
    exact h.gathered hjoin hac
  have hanalyze : analyzeAccounts t (gatherStats t w) =
      (t.ordAnalyze.order (gatherStats t w).accounts.keys).foldl
        (World.onAccount fun cfg => accountAnalyzeLimit cfg t.now) (gatherStats t w) := by
    rw [analyzeAccounts, hcfg, hm.restrictMode]
    rfl
  have hpass : PassInv (gatherStats t w) (analyzeAccounts t (gatherStats t w)) := by
    rw [hanalyze]
    refine hstart.foldl_onAccount _ ?_ ?_ ?_
    · exact fun ac _ hg => accountAnalyzeLimit_keeps hg _ t.now ac
    · exact fun ac _ hg => accountAnalyzeLimit_grows hg _ t.now ac
    · intro ac g hg hs
      rw [hcfg]
      exact hs.accountAnalyzeLimit hm hg t.now
  obtain ⟨g, hlist, hlog, heq⟩ := proceedAccounts_spec t w
  have hgrow : Grows w.globals g := by
    obtain ⟨cmds, hq⟩ := hpass.grows
    rw [hframe.globals] at hq
    have hlisted := hq.listed
    have hready := hq.ready
    rw [Globals.listed, ← hlist] at hlisted
    rw [Globals.Ready, ← hlist] at hready
    exact ⟨cmds, ⟨hready, hlog.trans hq.enqueued⟩, hlisted, hq.kinds⟩
  have hne : w.sender.pc ≠ .copied := by simp [hpc]
  have hreach : Reachable (proceedAccounts t w) := .step h.reachable (.tick t w)
  rw [heq] at hreach ⊢
  refine h.of_grows hreach (hpass.cfg.trans hframe.cfg) (hpass.sender.trans hframe.sender)
    (hpass.mysql.trans hframe.mysql) (hpass.userMap.trans hframe.userMap) hgrow hne ?_
  intro a ac hac
  exact (hpass.state a ac hac).silent ⟨[], by simpa using hlog, by simp⟩

/-! ### The worker -/

/-- The worker visits commands that were enqueued. -/
theorem HandoverInv.mem_enqueued {g : Globals} {s : Sender} (h : HandoverInv (g, s)) {c : Command}
    {rest : GList} (hworker : s.worker = some (some c :: rest)) : c ∈ g.enqueued := by
  cases h.phase with
  | sending _ rest' hw _ hlog =>
      obtain rfl : rest' = some c :: rest := Option.some.inj (hw.symm.trans hworker)
      dsimp only at hlog
      simp [hlog]
  | waiting _ hw _ => simp [hworker] at hw
  | copied _ hw _ _ _ => simp [hworker] at hw
  | reinited _ hw _ _ => simp [hworker] at hw

theorem EnforcementInv.work (h : EnforcementInv cfg w) (hm : cfg.LimitMode)
    {cmd : Option Command} {rest : GList} (hworker : w.sender.worker = some (cmd :: rest))
    (hroom : ∀ c ∈ cmd, ¬ MeetsFull w.mysql ⟨w.userMap, c⟩) :
    EnforcementInv cfg (workOn cmd rest w) := by
  have hhandover := h.handover.work
  simp only [HandoverEvent.apply, hworker] at hhandover
  have hreach : Reachable (workOn cmd rest w) := .step h.reachable (.work cmd rest w hworker)
  have hflag : FlagDown (workOn cmd rest w).sender := by
    rintro - ⟨⟩
  cases cmd with
  | none =>
      refine ⟨hreach, h.cfg_eq, hhandover, hflag, h.kinds, h.state, h.shm, h.uids, ?_⟩
      simpa [workOn, visitCommand, sendCommands] using h.listed
  | some c =>
      have hmem := h.handover.mem_enqueued hworker
      have hproper : SentCommand.Proper ⟨w.userMap, c⟩ := ⟨h.kinds c hmem, h.uids⟩
      have hlve : w.cfg.useLve = true := h.cfg_eq ▸ hm.useLve
      have hall : w.cfg.allLve = false := h.cfg_eq ▸ hm.allLve
      refine ⟨hreach, h.cfg_eq, hhandover, hflag, h.kinds, h.state,
        h.shm.execute hlve hall hproper, h.uids, ?_⟩
      have hlist := listedUid_execute h.shm hlve hall hproper (hroom c rfl)
      intro u
      have hone : (workOn (some c) rest w).mysql.badList.listedUid u =
          BadMap.execute w.mysql.badList.listedUid ⟨w.userMap, c⟩ u := congrFun hlist u
      have hexec : (workOn (some c) rest w).sender.executed = w.sender.executed ++ [c] := rfl
      have hmap : (workOn (some c) rest w).userMap = w.userMap := rfl
      have hbefore := h.listed u
      rw [hone, hexec, hmap, lastCommand_append_singleton]
      rcases h.kinds c hmem with hc | hc
      · simp only [BadMap.execute, hc]
        by_cases hu : c.username = u
        · subst hu
          by_cases hlast : lastCommand c.username w.sender.executed = some .freeze
          · simp [hbefore, hlast]
          · simp [hbefore, hlast]
        · split
          · simpa [hu] using hbefore
          · simpa [hu, Function.update_of_ne (Ne.symm hu)] using hbefore
      · simp only [BadMap.execute, hc]
        by_cases hu : c.username = u
        · subst hu
          simp
        · simpa [hu, Function.update_of_ne (Ne.symm hu)] using hbefore

/-! ### A refresh of the map -/

/-- What registrations keep that began in `w` while nobody was restricted. -/
structure JoinedAtRest (w v : World) : Prop where
  owned : Owned v
  cfg : v.cfg = w.cfg
  sender : v.sender = w.sender
  mysql : v.mysql = w.mysql
  globals : v.globals = w.globals
  rest : ∀ a ac, v.accounts.lookup a = some ac →
    ac.restricted = 0 ∧ ac.timeout = 0 ∧ Thawed ac v.globals

theorem JoinedAtRest.addEmptyStatsForUid (h : JoinedAtRest w v) (u : Username) :
    JoinedAtRest w (addEmptyStatsForUid u v) := by
  rw [DbGovernor.addEmptyStatsForUid]
  cases hu : v.users.lookup u with
  | some us => exact h
  | none =>
      dsimp only
      have howned := h.owned.addUserStats hu
      obtain ⟨t, ac, hac, heq⟩ := addUserStats_spec u v
      rw [heq] at howned ⊢
      have hold : ac.restricted = 0 ∧ ac.timeout = 0 ∧ Thawed ac v.globals := by
        rcases hac with hl | ⟨-, rfl⟩
        · exact h.rest _ ac hl
        · exact ⟨rfl, rfl, by simp [Thawed, initAccount]⟩
      refine ⟨howned, h.cfg, h.sender, h.mysql, h.globals, ?_⟩
      intro b bc hb
      rcases lookup_insert_cases hb with ⟨rfl, rfl⟩ | ⟨-, hb⟩
      · refine ⟨hold.1, hold.2.1, fun v hv hlast => ?_⟩
        rcases List.mem_append.mp hv with hmem | hmem
        · exact hold.2.2 v hmem hlast
        · rw [List.mem_singleton.mp hmem] at hlast
          have hknown := h.owned.registered_of_lastCommand hlast
          simp [hu] at hknown
      · exact h.rest b bc hb

theorem JoinedAtRest.setDbuserMap (h : JoinedAtRest w v) (ord : IterOrder) :
    JoinedAtRest w (setDbuserMap ord v) := by
  rw [DbGovernor.setDbuserMap]
  cases v.userMap with
  | none => exact h
  | some t =>
      refine List.foldlRecOn (motive := fun v => JoinedAtRest w v) _ _ h ?_
      intro v' hv key _
      split
      · exact hv
      · exact hv.addEmptyStatsForUid _

/-- Nobody's last command is FREEZE while nobody is restricted. -/
theorem EnforcementInv.not_freeze (h : EnforcementInv cfg w) (hnone : NoneRestricted w)
    (u : Username) : lastCommand u w.globals.enqueued ≠ some .freeze := by
  intro hlast
  obtain ⟨us, hus⟩ := Option.isSome_iff_exists.mp
    (h.reachable.daemonInv.registered_of_lastCommand hlast)
  obtain ⟨ac, hac, hcount⟩ := h.reachable.partitioned.listed u us hus
  have hmem : u ∈ ac.users := List.count_pos_iff.mp (by omega)
  exact (h.state _ ac hac).thawed (hnone _ ac hac) u hmem hlast

theorem EnforcementInv.mapRefresh (h : EnforcementInv cfg w) (hm : cfg.LimitMode)
    (dataCfg : GovernorConfig) (file file' : Option (List UInt8)) (ordMap ordAccounts : IterOrder)
    (hnone : NoneRestricted w) (hdrained : Drained w)
    (huids : MapUids (parseMapFileEveryHour dataCfg file file' ordMap ordAccounts w)) :
    EnforcementInv cfg (parseMapFileEveryHour dataCfg file file' ordMap ordAccounts w) := by
  have hreach : Reachable (parseMapFileEveryHour dataCfg file file' ordMap ordAccounts w) :=
    .step h.reachable (.mapRefresh dataCfg file file' ordMap ordAccounts w)
  have howned := h.reachable.daemonInv.toOwned
  have hstart : JoinedAtRest w { w with userMap := some (getMapFile dataCfg file).2 } := by
    refine ⟨⟨howned.ready, howned.owns, howned.logged⟩, rfl, rfl, rfl, rfl, ?_⟩
    intro a ac hac
    have ht := hnone a ac hac
    cases h.state a ac hac with
    | idle hr _ hthawed => exact ⟨hr, ht, hthawed⟩
    | active _ hne _ => exact absurd ht hne
  have hset := hstart.setDbuserMap ordMap
  rw [parseMapFileEveryHour] at hreach huids ⊢
  generalize setDbuserMap ordMap { w with userMap := some (getMapFile dataCfg file).2 } = v
    at hset hreach huids ⊢
  have hall : v.cfg.allLve = false := by
    rw [hset.cfg, h.cfg_eq]
    exact hm.allLve
  simp only [reinitUsersList, hall, Bool.false_eq_true, if_false, deleteAllusersFromList,
    if_true] at hreach huids ⊢
  refine ⟨hreach, hset.cfg.trans h.cfg_eq, ?_, ?_, ?_, ?_, .clear, huids, ?_⟩
  · simpa only [hset.globals, hset.sender] using h.handover
  · simpa only [hset.sender] using h.flag
  · simpa only [hset.globals] using h.kinds
  · intro a ac hac
    obtain ⟨hr, ht, hthawed⟩ := hset.rest a ac hac
    exact .idle hr ht hthawed
  · intro u
    have hlast := h.not_freeze hnone u
    rw [← h.handover.executed_of_drained hdrained, ← hset.sender] at hlast
    rw [listedUid_clear, if_neg hlast]

/-! ### Runs -/

theorem EnforcementInv.step (h : EnforcementInv cfg w) (hm : cfg.LimitMode)
    (hstep : EnforcementStep w v) : EnforcementInv cfg v := by
  have hgpl : w.cfg.isGpl = false := h.cfg_eq ▸ hm.isGpl
  have hreach : Reachable v := .step h.reachable (hstep.daemonStep hgpl)
  cases hstep with
  | increment u cpu read write tm =>
      rw [incrementCounters] at hreach ⊢
      split at hreach
      · exact h.section hreach rfl rfl rfl rfl rfl rfl h.handover h.flag
      · exact h.section hreach rfl rfl rfl rfl rfl rfl h.handover h.flag
  | tick t _ hpc hjoin => exact h.tick hm t hpc hjoin
  | restrict command now ord _ hpc hknown => exact h.restrict hm command now ord hknown hpc hreach
  | unrestrict command now ord _ hpc => exact h.unrestrict hm command now ord hpc hreach
  | unrestrictA now ord _ hpc => exact h.unrestrictA hm now ord hpc hreach
  | mapRefresh dataCfg file file' ordMap ordAccounts _ hnone hdrained huids =>
      exact h.mapRefresh hm dataCfg file file' ordMap ordAccounts hnone hdrained huids
  | copy _ hpc hbusy =>
      have hhandover := h.handover.copy
      rw [HandoverEvent.apply, if_pos ⟨hpc, hbusy⟩] at hhandover
      refine h.section hreach rfl rfl rfl rfl rfl rfl hhandover ?_
      rintro ⟨⟩
  | reinit _ hpc =>
      have hhandover := h.handover.reinit
      rw [HandoverEvent.apply, if_pos hpc] at hhandover
      refine h.section hreach rfl rfl rfl rfl rfl rfl hhandover ?_
      rintro ⟨⟩
  | spawn _ hpc =>
      have hhandover := h.handover.spawn
      rw [HandoverEvent.apply, if_pos hpc] at hhandover
      have hexec : (spawnWorker w.sender).executed = w.sender.executed := by
        rw [spawnWorker]
        split <;> rfl
      refine h.section hreach rfl rfl rfl hexec rfl rfl hhandover ?_
      dsimp only
      rw [spawnWorker]
      split
      · rintro - ⟨⟩
      · exact fun _ _ => rfl
  | work cmd rest _ hworker hroom => exact h.work hm hworker hroom
  | finish _ hworker =>
      have hhandover := h.handover.finish
      simp only [HandoverEvent.apply, hworker] at hhandover
      exact h.section hreach rfl rfl rfl rfl rfl rfl hhandover fun _ _ => rfl

theorem EnforcementReachable.inv (h : EnforcementReachable cfg w) (hm : cfg.LimitMode) :
    EnforcementInv cfg w := by
  induction h with
  | refl => exact .init cfg
  | tail _ hstep ih => exact ih.step hm hstep

end Steps

/-! ### The plugin -/

/-- The account of the user is restricted. -/
def UserRestricted (w : World) (u : Username) : Prop :=
  ∃ a ac, w.accounts.lookup a = some ac ∧ u ∈ ac.users ∧ ac.timeout ≠ 0

theorem EnforcementInv.freeze_iff {cfg : GovernorConfig} {w : World} (h : EnforcementInv cfg w)
    (u : Username) :
    lastCommand u w.globals.enqueued = some .freeze ↔ UserRestricted w u := by
  constructor
  · intro hlast
    obtain ⟨us, hus⟩ := Option.isSome_iff_exists.mp
      (h.reachable.daemonInv.registered_of_lastCommand hlast)
    obtain ⟨ac, hac, hcount⟩ := h.reachable.partitioned.listed u us hus
    have hmem : u ∈ ac.users := List.count_pos_iff.mp (by omega)
    refine ⟨_, ac, hac, hmem, fun ht => ?_⟩
    exact (h.state _ ac hac).thawed ht u hmem hlast
  · rintro ⟨a, ac, hac, hmem, ht⟩
    exact (h.state a ac hac).frozen ht u hmem

/-- When every command was carried out, the list is that of the restricted accounts. -/
theorem EnforcementInv.told {cfg : GovernorConfig} {w : World} (h : EnforcementInv cfg w)
    (hexec : w.sender.executed = w.globals.enqueued) (u : Username) (waits : List TryWait) :
    (UserRestricted w u →
      isUserInBadListCleintPersistent w.mysql.badList (.acquired :: waits) u.bytes =
        getUid w.userMap u ∧ 1 ≤ getUid w.userMap u) ∧
      (¬ UserRestricted w u →
        isUserInBadListCleintPersistent w.mysql.badList (.acquired :: waits) u.bytes = 0) := by
  have hlisted := h.listed u
  rw [hexec] at hlisted
  rw [isUserInBadListCleintPersistent_eq, hlisted, ← h.freeze_iff u]
  refine ⟨fun hfreeze => ?_, fun hfreeze => ?_⟩
  · rw [if_pos hfreeze]
    have hproper : SentCommand.Proper ⟨w.userMap, ⟨u, .freeze⟩⟩ := ⟨.inl rfl, h.uids⟩
    exact ⟨rfl, hproper.getUid_pos u⟩
  · rw [if_neg hfreeze]
    rfl

theorem shippedConfig_limitMode : (shippedConfig true).LimitMode :=
  ⟨shippedConfig_enforcing true, rfl, by decide⟩

/-- The states of a run in which the traffic of a user is over the limit. -/
def overloadedWorld : World := incrementCounters sampleUser 500 0 0 0 (.init (shippedConfig true))

def decidedWorld : World := proceedAccounts (sampleTickInput 0) overloadedWorld

def copiedWorld : World :=
  { decidedWorld with sender := copySection decidedWorld.globals decidedWorld.sender }

def reinitedWorld : World :=
  { copiedWorld with
    globals := reinitCommandList copiedWorld.globals
    sender := { copiedWorld.sender with pc := .reinited } }

def spawnedWorld : World := { reinitedWorld with sender := spawnWorker reinitedWorld.sender }

def frozenWorld : World :=
  workOn (some ⟨sampleUser, .freeze⟩) [] (workOn none [some ⟨sampleUser, .freeze⟩] spawnedWorld)

def enforcedWorld : World := { frozenWorld with sender := finishWorker frozenWorld.sender }

theorem decidedWorld_reachable : EnforcementReachable (shippedConfig true) decidedWorld := by
  have hquiet : ∀ e ∈ (gatherStats (sampleTickInput 0) overloadedWorld).accounts.entries,
      e.2.timeout = 0 := by
    decide +kernel
  have hjoin : ¬ TickJoins (sampleTickInput 0) overloadedWorld := by
    rintro ⟨a, ac, hac, ht, -⟩
    exact ht (hquiet ⟨a, ac⟩ (AList.mem_lookup_iff.mp hac))
  have hover : EnforcementReachable (shippedConfig true) overloadedWorld :=
    .single (.increment sampleUser 500 0 0 0 _)
  exact hover.tail (.tick (sampleTickInput 0) _ (by decide +kernel) hjoin)

theorem frozenWorld_room :
    ∀ c ∈ some ⟨sampleUser, .freeze⟩, ¬ MeetsFull (workOn none [some ⟨sampleUser, .freeze⟩]
      spawnedWorld).mysql ⟨spawnedWorld.userMap, c⟩ := by
  have hroom : ¬ (workOn none [some ⟨sampleUser, .freeze⟩] spawnedWorld).mysql.badList.numbers + 1 =
      maxItemsInTable := by
    decide +kernel
  rintro c ⟨⟩ ⟨-, -, hfull⟩
  exact hroom hfull

theorem enforcedWorld_reachable : EnforcementReachable (shippedConfig true) enforcedWorld := by
  have hcopied := decidedWorld_reachable.tail (.copy _ (by decide +kernel) (by decide +kernel))
  have hreinited := hcopied.tail (.reinit _ (by decide +kernel))
  have hspawned := hreinited.tail (.spawn _ (by decide +kernel))
  have hpassed := hspawned.tail (.work none [some ⟨sampleUser, .freeze⟩] spawnedWorld
    (by decide +kernel) (by simp))
  have hfrozen := hpassed.tail (.work (some ⟨sampleUser, .freeze⟩) [] _ (by decide +kernel)
    frozenWorld_room)
  exact hfrozen.tail (.finish _ (by decide +kernel))

end DbGovernor
