import DbGovernor.Verification.Commands.Handover
import DbGovernor.Verification.Daemon.RestrictUndo
import DbGovernor.Verification.Daemon.TimeLimit
import DbGovernor.Verification.Restrict.Verdict

/-!
# Connection limits

`send_commands` gives a frozen user a limit of connections and takes it back with UNFREEZE. The
release sends UNFREEZE under the configuration of that moment, which need not be the one under
which the user was frozen.
-/

namespace DbGovernor

/-! ### Steps -/

/-- A step of the daemon in limit mode. -/
inductive ConnectionEvent where
  | increment (u : Username) (cpu read write : ℤ) (tm : ℚ)
  | tick (t : TickInput)
  | unrestrictA (now : ℤ) (ord : IterOrder)
  | reinitUsersList (cfg : GovernorConfig) (file : Option (List UInt8)) (now : ℤ)
      (ord : IterOrder)
  | copy
  | reinit
  | spawn
  | work
  | finish

/-- The tick thread decides and hands over in turn; where it, or the worker, stands elsewhere,
nothing happens. -/
def ConnectionEvent.apply (w : World) : ConnectionEvent → World
  | .increment u cpu read write tm => incrementCounters u cpu read write tm w
  | .tick t => if w.sender.pc = .idle then proceedAccounts t w else w
  | .unrestrictA now ord => runDbctlCommand .unrestrictA now ord w
  | .reinitUsersList cfg file now ord => runDbctlCommand (.reinitUsersList cfg file) now ord w
  | .copy =>
      if w.sender.pc = .idle ∧ w.sender.isSendCommandCycle = false then
        { w with sender := copySection w.globals w.sender }
      else w
  | .reinit =>
      if w.sender.pc = .copied then
        { w with
          globals := reinitCommandList w.globals
          sender := { w.sender with pc := .reinited } }
      else w
  | .spawn => if w.sender.pc = .reinited then { w with sender := spawnWorker w.sender } else w
  | .work =>
      match w.sender.worker with
      | some (cmd :: rest) => workOn cmd rest w
      | _ => w
  | .finish =>
      match w.sender.worker with
      | some [] => { w with sender := finishWorker w.sender }
      | _ => w

/-- Limit mode with a limit of connections to set. -/
structure GovernorConfig.LimitsConnections (cfg : GovernorConfig) : Prop where
  isGpl : cfg.isGpl = false
  restrictMode : cfg.restrictMode = true
  maxUserConnections : cfg.maxUserConnections ≠ 0

/-- The mode may change to any use of LVE. -/
def ConnectionEvent.Admissible : ConnectionEvent → Prop
  | .reinitUsersList cfg _ _ _ => cfg.LimitsConnections
  | _ => True

/-- Every user with a limit belongs to a restricted account. -/
def LimitsHeld (w : World) : Prop :=
  ∀ u, w.mysql.userLimits u ≠ 0 →
    ∃ a ac, w.accounts.lookup a = some ac ∧ u ∈ ac.users ∧ ac.timeout ≠ 0

/-! ### The condition -/

/-- The decision in limit mode restricts the account. -/
structure Restricts (cfg : GovernorConfig) (ac : Account) : Prop where
  useLve : cfg.useLve = true
  allLve : cfg.allLve = false
  watched : Watched cfg ac
  exceeds : Exceeds cfg ac
  openTo : ac.timeout = 0 ∨ 0 < ac.startCount

/-- No account is restricted. -/
def NoneRestricted (w : World) : Prop :=
  ∀ a ac, w.accounts.lookup a = some ac → ac.timeout = 0

/-- What a release enqueues under `cfg` is UNFREEZE, and it is handed over. -/
def ReleaseReaches (cfg : GovernorConfig) (w : World) : Prop :=
  unrestrictCommand cfg = some .unfreeze ∧ w.sender.pc ≠ .copied

/-- A restriction lasts, and a release is handed over. -/
def ConnectionEvent.Lifts (w : World) : ConnectionEvent → Prop
  | .tick t => w.sender.pc = .idle → intOfUnsigned w.cfg.lUnlimit = 0 →
      ∀ a ac, (gatherStats t w).accounts.lookup a = some ac → ¬ Restricts w.cfg ac
  | .unrestrictA _ _ => w.cfg.useLve = true → w.cfg.allLve = false →
      NoneRestricted w ∨ ReleaseReaches w.cfg w
  | .reinitUsersList cfg _ _ _ => NoneRestricted w ∨ ReleaseReaches cfg w
  | _ => True

/-! ### Commands on the list and in its history -/

/-- From `g` to `g'` the commands `cmds` came on the list. -/
structure Queues (g : Globals) (cmds : List Command) (g' : Globals) : Prop
    extends Enqueues g cmds g' where
  listed : g'.listed = g.listed ++ cmds
  kinds : ∀ c ∈ cmds, c.command = .freeze ∨ c.command = .unfreeze

/-- From `g` to `g'` some commands came on the list. -/
def Grows (g g' : Globals) : Prop := ∃ cmds, Queues g cmds g'

section Queues

variable {g g' g'' : Globals} {cfg : GovernorConfig}

theorem Grows.refl (h : g.Ready) : Grows g g := ⟨[], ⟨h, by simp⟩, by simp, by simp⟩

theorem Grows.trans (h : Grows g g') (h' : Grows g' g'') : Grows g g'' := by
  obtain ⟨cmds, hq⟩ := h
  obtain ⟨cmds', hq'⟩ := h'
  refine ⟨cmds ++ cmds', ⟨hq'.ready, ?_⟩, ?_, ?_⟩
  · rw [hq'.enqueued, hq.enqueued, List.append_assoc]
  · rw [hq'.listed, hq.listed, List.append_assoc]
  · intro c hc
    exact (List.mem_append.mp hc).elim (hq.kinds c) (hq'.kinds c)

theorem Grows.ready (h : Grows g g') : g'.Ready := by
  obtain ⟨cmds, hq⟩ := h
  exact hq.ready

/-- An effect that sends FREEZE, UNFREEZE or nothing. -/
theorem Effect.grows {e : Effect} (he : ∀ c ∈ e.command, c = .freeze ∨ c = .unfreeze)
    (hg : g.Ready) (id : Username) (users : List Username) : Grows g (e.run id users g) := by
  refine ⟨e.commands users, ⟨Effect.run_ready hg, Effect.run_enqueued hg⟩,
    Effect.run_queue hg, ?_⟩
  intro c hc
  rw [Effect.commands] at hc
  cases hcmd : e.command with
  | none => simp [hcmd] at hc
  | some command =>
      rw [hcmd] at hc
      rw [(mem_broadcast.mp hc).2]
      exact he command hcmd

theorem restrictCommand_kinds (cfg : GovernorConfig) :
    ∀ c ∈ restrictCommand cfg, c = .freeze ∨ c = .unfreeze := by
  rw [restrictCommand]
  split <;> simp

theorem unrestrictCommand_kinds (cfg : GovernorConfig) :
    ∀ c ∈ unrestrictCommand cfg, c = .freeze ∨ c = .unfreeze := by
  rw [unrestrictCommand]
  split <;> simp

theorem accountUnrestrict_grows (cfg : GovernorConfig) (ac : Account) (hg : g.Ready) :
    Grows g (accountUnrestrict cfg ac g) := by
  rw [accountUnrestrict_eq_run cfg ac ac.id g]
  exact Effect.grows (unrestrictCommand_kinds cfg) hg _ _

theorem restrictPeriodLimit_grows (cfg : GovernorConfig) (now : ℤ) (cur : GovernorsFieldName)
    (period : GovernorsPeriodName) (field : GovernorsFieldName) (ac : Account) (hg : g.Ready) :
    Grows g (restrictPeriodLimit cfg now cur period field ac g).2 := by
  rw [restrictPeriodLimit, countRestrict_eq_count]
  dsimp only
  split
  · rw [accountRestrict_eq_run]
    exact Effect.grows (restrictCommand_kinds cfg) hg _ _
  · exact Effect.grows (e := ⟨_, none⟩) (by simp) hg ac.id ac.users

theorem accountAnalyzeLimit_grows (hg : g.Ready) (cfg : GovernorConfig) (now : ℤ)
    (ac : Account) : Grows g (accountAnalyzeLimit cfg now ac g).2 := by
  by_cases hoff : (cfg.allLve || !cfg.useLve) = true
  · rw [accountAnalyzeLimit_off hoff]
    exact .refl hg
  · simp only [Bool.or_eq_true, Bool.not_eq_true', not_or, Bool.not_eq_true,
      Bool.not_eq_false] at hoff
    have ho := accountAnalyzeLimit_outcome hoff.2 hoff.1 now ac g
    generalize accountAnalyzeLimit cfg now ac g = r at ho ⊢
    cases ho with
    | ignored _ => exact .refl hg
    | stuck _ _ => exact .refl hg
    | kept _ _ _ => exact .refl hg
    | restricted cur period field _ _ _ =>
        exact restrictPeriodLimit_grows cfg now cur period field ac hg
    | released _ _ _ _ => exact accountUnrestrict_grows cfg _ hg

theorem dbctlUnrestrictAllSet_grows (hg : g.Ready) (cfg : GovernorConfig) (ac : Account) :
    Grows g (dbctlUnrestrictAllSet cfg ac g).2 := by
  rw [dbctlUnrestrictAllSet]
  dsimp only
  split
  · exact accountUnrestrict_grows cfg ac hg
  · exact .refl hg

/-- A pass over the accounts appends what its calls append. -/
theorem foldl_onAccount_grows {f : GovernorConfig → Account → Globals → Account × Globals}
    (hf : ∀ cfg ac g, g.Ready → Grows g (f cfg ac g).2) (keys : List Username) {w : World}
    (hg : w.globals.Ready) : Grows w.globals (keys.foldl (World.onAccount f) w).globals := by
  refine List.foldlRecOn (motive := fun (v : World) => Grows w.globals v.globals) keys _
    (.refl hg) ?_
  intro v hv key _
  cases hac : v.accounts.lookup key with
  | none =>
      rw [onAccount_of_none hac]
      exact hv
  | some ac =>
      rw [World.onAccount_of_lookup hac]
      exact hv.trans (hf v.cfg ac v.globals hv.ready)

theorem HandoverInv.grows {s : Globals × Sender} (h : HandoverInv s) (hgrow : Grows s.1 g')
    (hpc : s.2.pc ≠ .copied) : HandoverInv (g', s.2) := by
  obtain ⟨cmds, hq⟩ := hgrow
  exact h.extend hq.ready hq.listed hq.enqueued hpc

end Queues

/-! ### The invariant -/

/-- What holds while every release is handed over. A user with a limit was last sent FREEZE, and
FREEZE is the newest command for the users of restricted accounts only. -/
structure Settled (w : World) : Prop where
  limits : w.cfg.LimitsConnections
  handover : HandoverInv (w.globals, w.sender)
  kinds : ∀ c ∈ w.globals.enqueued, c.command = .freeze ∨ c.command = .unfreeze
  sent : ∀ u, w.mysql.userLimits u ≠ 0 → lastCommand u w.sender.executed = some .freeze
  thawed : ∀ a ac, w.accounts.lookup a = some ac → ac.timeout = 0 → Thawed ac w.globals

structure ConnectionInv (w : World) : Prop extends Settled w where
  reachable : Reachable w

theorem ConnectionInv.init {cfg : GovernorConfig} (h : cfg.LimitsConnections) :
    ConnectionInv (World.init cfg) where
  reachable := .start cfg
  limits := h
  handover := .init
  kinds := by simp [World.init, Globals.init]
  sent := by simp [World.init, MysqlSide.init]
  thawed := by simp [World.init]

section Drained

variable {w : World}

/-- When everything is handed over, the newest command of each user was carried out. -/
theorem HandoverInv.executed_of_drained (h : HandoverInv (w.globals, w.sender))
    (hd : Drained w) : w.sender.executed = w.globals.enqueued := by
  obtain ⟨hlisted, hworker, hpc⟩ := hd
  cases h.phase with
  | waiting _ _ hlog =>
      dsimp only at hlog
      rw [hlog, hlisted, List.append_nil]
  | copied hp _ _ _ _ => simp [hpc] at hp
  | reinited hp _ _ _ => simp [hpc] at hp
  | sending _ rest hw _ _ => simp [hworker] at hw

theorem ConnectionInv.limitsHeld (h : ConnectionInv w) (hd : Drained w) : LimitsHeld w := by
  intro u hu
  have hlast := h.sent u hu
  rw [h.handover.executed_of_drained hd] at hlast
  obtain ⟨us, hus⟩ := Option.isSome_iff_exists.mp
    (h.reachable.daemonInv.registered_of_lastCommand hlast)
  obtain ⟨ac, hac, hcount⟩ := h.reachable.partitioned.listed u us hus
  have hmem : u ∈ ac.users := List.count_pos_iff.mp (by omega)
  refine ⟨us.account, ac, hac, hmem, ?_⟩
  intro ht
  exact h.thawed _ ac hac ht u hmem hlast

end Drained

/-! ### Decisions and releases -/

section Visits

variable {w : World} {a : Username} {ac : Account}

/-- The newest commands for a released account with the users that join it before a decision. -/
theorem ConnectionInv.thawed_gathered (h : ConnectionInv w) (hg : Gathered w (w.accountOrNew a) ac)
    (ht : ac.timeout = 0) : Thawed ac w.globals := by
  obtain ⟨joined, husers, hnew⟩ := hg.users_eq
  intro u hu
  rw [husers] at hu
  rcases List.mem_append.mp hu with hold | hjoin
  · cases hac : w.accounts.lookup a with
    | none => simp [World.accountOrNew, hac, initAccount] at hold
    | some old =>
        have hsame : w.accountOrNew a = old := by rw [World.accountOrNew, hac, Option.getD_some]
        rw [hsame] at hg hold
        exact h.thawed a old hac (hg.timeout_eq.symm.trans ht) u hold
  · intro hlast
    have hknown := h.reachable.daemonInv.registered_of_lastCommand hlast
    simp [hnew u hjoin] at hknown

/-- A decision that leaves the account released leaves its users thawed. -/
theorem accountAnalyzeLimit_thawed {cfg : GovernorConfig} {g : Globals} (hgpl : cfg.isGpl = false)
    (hlast : intOfUnsigned cfg.lUnlimit = 0 → ¬ Restricts cfg ac) (hg : g.Ready) (now : ℤ)
    (hthawed : ac.timeout = 0 → Thawed ac g)
    (ht : (accountAnalyzeLimit cfg now ac g).1.timeout = 0) :
    Thawed ac (accountAnalyzeLimit cfg now ac g).2 := by
  by_cases hoff : (cfg.allLve || !cfg.useLve) = true
  · rw [accountAnalyzeLimit_off hoff] at ht ⊢
    exact hthawed ht
  simp only [Bool.or_eq_true, Bool.not_eq_true', not_or, Bool.not_eq_true,
    Bool.not_eq_false] at hoff
  obtain ⟨ha, hu⟩ := hoff
  by_cases hopen : ac.timeout = 0 ∨ 0 < ac.startCount
  · have ho := accountAnalyzeLimit_outcome hu ha now ac g
    generalize accountAnalyzeLimit cfg now ac g = r at ho ht ⊢
    cases ho with
    | ignored _ => exact hthawed ht
    | stuck h0 _ => exact absurd ht h0
    | kept _ _ _ => exact hthawed ht
    | restricted cur period field hw hx _ =>
        have hzero : intOfUnsigned cfg.lUnlimit = 0 := ht
        exact absurd ⟨hu, ha, hw, hx, hopen⟩ (hlast hzero)
    | released _ _ _ _ =>
        have he : cfg.Enforcing := ⟨hu, ha, hgpl⟩
        exact (accountUnrestrict_enqueues he _ hg).thawed
  · obtain ⟨h0, hs⟩ := not_or.mp hopen
    by_cases hw : Watched cfg ac
    · rw [accountAnalyzeLimit_stuck hu ha hw h0 hs] at ht
      exact absurd ht h0
    · rw [accountAnalyzeLimit_ignored hw] at ht
      exact absurd ht h0

/-- A release under `cfg` leaves the users of the account thawed. -/
theorem dbctlUnrestrictAllSet_thawed {cfg : GovernorConfig} {g : Globals} (hg : g.Ready)
    (hthawed : ac.timeout = 0 → Thawed ac g)
    (hsends : ac.timeout ≠ 0 → unrestrictCommand cfg = some .unfreeze) :
    Thawed ac (dbctlUnrestrictAllSet cfg ac g).2 := by
  by_cases ht : ac.timeout = 0
  · simpa [dbctlUnrestrictAllSet, ht] using hthawed ht
  · simp only [dbctlUnrestrictAllSet, ht, ne_eq, not_false_eq_true, if_true]
    intro u hu
    rw [accountUnrestrict_eq_run cfg ac ac.id g, Effect.run_enqueued hg, Effect.commands,
      hsends ht, lastCommand_broadcast, if_pos hu]
    simp

theorem Thawed.silent {g g' : Globals} (h : Thawed ac g) (hs : Silent ac.users g g') :
    Thawed ac g' := by
  intro u hu
  rw [hs.lastCommand hu]
  exact h u hu

end Visits

/-! ### Steps against the invariant -/

section Steps

variable {w : World}

/-- Nothing that the invariant mentions changes but the statics, which grow. -/
theorem Settled.grows {w' : World} (h : Settled w) (hcfg : w'.cfg.LimitsConnections)
    (hsender : w'.sender = w.sender)
    (hlimits : w'.mysql.userLimits = w.mysql.userLimits) (hgrow : Grows w.globals w'.globals)
    (hpc : w.sender.pc ≠ .copied ∨ w'.globals = w.globals)
    (hthawed : ∀ a ac, w'.accounts.lookup a = some ac → ac.timeout = 0 → Thawed ac w'.globals) :
    Settled w' := by
  refine ⟨hcfg, ?_, ?_, ?_, hthawed⟩
  · rw [hsender]
    rcases hpc with hne | hsame
    · exact h.handover.grows hgrow hne
    · rw [hsame]
      exact h.handover
  · obtain ⟨cmds, hq⟩ := hgrow
    rw [hq.enqueued]
    intro c hc
    exact (List.mem_append.mp hc).elim (h.kinds c) (hq.kinds c)
  · rw [hsender, hlimits]
    exact h.sent

/-- A tick appends commands and leaves the sending side alone. -/
theorem proceedAccounts_grows (h : DaemonInv w) (hmode : w.cfg.restrictMode = true)
    (t : TickInput) :
    (proceedAccounts t w).sender = w.sender ∧ (proceedAccounts t w).mysql = w.mysql ∧
      Grows w.globals (proceedAccounts t w).globals := by
  have hframe := gatherStats_frame h t
  have hready : (gatherStats t w).globals.Ready := (h.gatherStats t).ready
  have hgather : (gatherStats t w).cfg.restrictMode = true := by
    rw [hframe.cfg]
    exact hmode
  have hpass := foldl_onAccount_grows (fun cfg ac _ hg => accountAnalyzeLimit_grows hg cfg t.now ac)
    (t.ordAnalyze.order (gatherStats t w).accounts.keys) hready
  obtain ⟨accounts, globals, heq⟩ := foldl_onAccount_frame
    (fun cfg => accountAnalyzeLimit cfg t.now)
    (t.ordAnalyze.order (gatherStats t w).accounts.keys) (gatherStats t w)
  have hanalyze : analyzeAccounts t (gatherStats t w) =
      (t.ordAnalyze.order (gatherStats t w).accounts.keys).foldl
        (World.onAccount fun cfg => accountAnalyzeLimit cfg t.now) (gatherStats t w) := by
    rw [analyzeAccounts, hgather]
    rfl
  obtain ⟨g, hlist, hlog, hproceed⟩ := proceedAccounts_spec t w
  rw [hproceed, hanalyze, heq]
  refine ⟨hframe.sender, hframe.mysql, ?_⟩
  rw [← hanalyze, hframe.globals] at hpass
  obtain ⟨cmds, hq⟩ := hpass
  refine ⟨cmds, ⟨?_, hlog.trans hq.enqueued⟩, ?_, hq.kinds⟩
  · rw [Globals.Ready, hlist]
    exact hq.ready
  · have hlisted := hq.listed
    rw [Globals.listed] at hlisted
    rw [Globals.listed, hlist]
    exact hlisted

theorem ConnectionInv.tick (h : ConnectionInv w) (t : TickInput) (hpc : w.sender.pc = .idle)
    (hlift : intOfUnsigned w.cfg.lUnlimit = 0 →
      ∀ a ac, (gatherStats t w).accounts.lookup a = some ac → ¬ Restricts w.cfg ac) :
    ConnectionInv (proceedAccounts t w) := by
  have hinv := h.reachable.daemonInv
  obtain ⟨hsender, hmysql, hgrow⟩ := proceedAccounts_grows hinv h.limits.restrictMode t
  have hcfg : (proceedAccounts t w).cfg.LimitsConnections := by
    rw [proceedAccounts_cfg hinv t]
    exact h.limits
  have hne : w.sender.pc ≠ .copied := by simp [hpc]
  refine ⟨h.toSettled.grows hcfg hsender (congrArg MysqlSide.userLimits hmysql) hgrow (.inl hne) ?_,
    .step h.reachable (.tick t w)⟩
  intro a ac' hl' ht'
  obtain ⟨ac, hac⟩ := Option.isSome_iff_exists.mp (gatherStats_of_proceedAccounts t hl')
  obtain ⟨g, hg, hs, hl, hs'⟩ := proceedAccounts_visit hinv t hac
  obtain rfl := Option.some.inj (hl.symm.trans hl')
  rw [analyzeMode, if_pos h.limits.restrictMode] at hs' ht' ⊢
  have hbefore : ac.timeout = 0 → Thawed ac g := fun ht =>
    (h.thawed_gathered (gathered_gatherStats hinv t hac) ht).silent hs
  have hafter := accountAnalyzeLimit_thawed h.limits.isGpl (fun hzero => hlift hzero a ac hac) hg
    t.now hbefore ht'
  rw [Thawed, (accountAnalyzeLimit_keeps hg w.cfg t.now ac).users_eq]
  exact hafter.silent hs'

/-- Without a restricted account a release sends nothing. -/
theorem foreachAccount_noneRestricted (h : NoneRestricted w) (ord : IterOrder) :
    (foreachAccount ord dbctlUnrestrictAllSet w).globals = w.globals := by
  have hpass : NoneRestricted (foreachAccount ord dbctlUnrestrictAllSet w) ∧
      (foreachAccount ord dbctlUnrestrictAllSet w).globals = w.globals := by
    refine List.foldlRecOn (motive := fun (v : World) => NoneRestricted v ∧ v.globals = w.globals)
      _ _ ⟨h, rfl⟩ ?_
    rintro v ⟨hnone, hsame⟩ key _
    cases hac : v.accounts.lookup key with
    | none =>
        rw [onAccount_of_none hac]
        exact ⟨hnone, hsame⟩
    | some ac =>
        have ht := hnone key ac hac
        rw [World.onAccount_of_lookup hac]
        refine ⟨?_, ?_⟩
        · intro b bc hb
          rcases lookup_insert_cases hb with ⟨-, rfl⟩ | ⟨-, hb⟩
          · rfl
          · exact hnone b bc hb
        · simpa [World.setAccount, dbctlUnrestrictAllSet, ht] using hsame
  exact hpass.2

/-- The pass of `dbctl_unrestrict_all_set`. -/
theorem Settled.release (h : Settled w) (hinv : DaemonInv w)
    (hr : NoneRestricted w ∨ ReleaseReaches w.cfg w) (ord : IterOrder) :
    Settled (foreachAccount ord dbctlUnrestrictAllSet w) := by
  have hgrow := foldl_onAccount_grows (fun cfg ac _ hg => dbctlUnrestrictAllSet_grows hg cfg ac)
    (ord.order w.accounts.keys) hinv.ready
  have hcfg : (foreachAccount ord dbctlUnrestrictAllSet w).cfg = w.cfg :=
    (foldl_onAccount_base _ _ _).cfg
  have hframe : (foreachAccount ord dbctlUnrestrictAllSet w).sender = w.sender ∧
      (foreachAccount ord dbctlUnrestrictAllSet w).mysql = w.mysql := by
    obtain ⟨accounts, globals, heq⟩ := foldl_onAccount_frame dbctlUnrestrictAllSet
      (ord.order w.accounts.keys) w
    rw [foreachAccount, heq]
    exact ⟨rfl, rfl⟩
  refine h.grows (by rw [hcfg]; exact h.limits) hframe.1
    (congrArg MysqlSide.userLimits hframe.2) hgrow ?_ ?_
  · rcases hr with hnone | hreach
    · exact .inr (foreachAccount_noneRestricted hnone ord)
    · exact .inl hreach.2
  · intro a ac' hl' _
    cases hac : w.accounts.lookup a with
    | none =>
        have hbad := hl'.symm.trans (foldl_onAccount_of_none hac _)
        cases hbad
    | some ac =>
        obtain ⟨g, hg, hs, hl, hs'⟩ := foldl_onAccount_visit
          (fun cfg ac _ hg => dbctlUnrestrictAllSet_keeps hg cfg ac) hinv.toOwned hac
          (ord.order_nodup _) (ord.mem_order hac)
        obtain rfl := Option.some.inj (hl.symm.trans hl')
        have hbefore : ac.timeout = 0 → Thawed ac g := fun ht => (h.thawed a ac hac ht).silent hs
        have hsends : ac.timeout ≠ 0 → unrestrictCommand w.cfg = some .unfreeze := fun ht =>
          hr.elim (fun hnone => absurd (hnone a ac hac) ht) And.left
        exact (dbctlUnrestrictAllSet_thawed hg hbefore hsends).silent hs'

theorem Settled.reinitUsersList (h : Settled w) (file : Option (List UInt8)) (ord : IterOrder) :
    Settled (reinitUsersList file ord w) := by
  obtain ⟨userMap, badList, heq⟩ := reinitUsersList_frame file ord w
  rw [heq]
  exact ⟨h.limits, h.handover, h.kinds, h.sent, h.thawed⟩

theorem ConnectionInv.unrestrictA (h : ConnectionInv w) (now : ℤ) (ord : IterOrder)
    (hlift : w.cfg.useLve = true → w.cfg.allLve = false →
      NoneRestricted w ∨ ReleaseReaches w.cfg w) :
    ConnectionInv (runDbctlCommand .unrestrictA now ord w) := by
  refine ⟨?_, .step h.reachable (.dbctl .unrestrictA now ord w)⟩
  rw [runDbctlCommand]
  split
  · exact h.toSettled
  · rename_i hopen
    simp only [Bool.or_eq_true, Bool.not_eq_true', not_or, Bool.not_eq_true,
      Bool.not_eq_false] at hopen
    exact h.toSettled.release h.reachable.daemonInv (hlift hopen.2 hopen.1.2) ord

theorem ConnectionInv.reinitUsersList (h : ConnectionInv w) {cfg : GovernorConfig}
    (hcfg : cfg.LimitsConnections) (file : Option (List UInt8)) (now : ℤ) (ord : IterOrder)
    (hlift : NoneRestricted w ∨ ReleaseReaches cfg w) :
    ConnectionInv (runDbctlCommand (.reinitUsersList cfg file) now ord w) := by
  refine ⟨?_, .step h.reachable (.dbctl (.reinitUsersList cfg file) now ord w)⟩
  have hreread : Settled { w with cfg := cfg } := ⟨hcfg, h.handover, h.kinds, h.sent, h.thawed⟩
  have hinv : DaemonInv { w with cfg := cfg } :=
    h.reachable.daemonInv.runDbctlCommand (.rereadCfg cfg) now ord
  simp only [runDbctlCommand, h.limits.isGpl, Bool.false_eq_true, if_false]
  exact (hreread.release hinv hlift ord).reinitUsersList file ord

/-- A section of the hand-over that carries no command out. -/
theorem ConnectionInv.section {w' : World} (h : ConnectionInv w) (hstep : DaemonStep w w')
    (hcfg : w'.cfg = w.cfg) (haccounts : w'.accounts = w.accounts)
    (hlog : w'.globals.enqueued = w.globals.enqueued)
    (hexec : w'.sender.executed = w.sender.executed) (hmysql : w'.mysql = w.mysql)
    (hhandover : HandoverInv (w'.globals, w'.sender)) : ConnectionInv w' := by
  refine ⟨⟨?_, hhandover, ?_, ?_, ?_⟩, .step h.reachable hstep⟩
  · rw [hcfg]
    exact h.limits
  · rw [hlog]
    exact h.kinds
  · rw [hmysql, hexec]
    exact h.sent
  · rw [haccounts]
    intro a ac hac ht u hu
    rw [hlog]
    exact h.thawed a ac hac ht u hu

/-- After a command only its own user can have come by a limit, and only through FREEZE. -/
theorem sendCommands_userLimits {cfg : GovernorConfig} (hmax : cfg.maxUserConnections ≠ 0)
    (userMap : Option (HashTable UserMap)) (m : MysqlSide) {c : Command}
    (hkind : c.command = .freeze ∨ c.command = .unfreeze) {u : Username}
    (hu : (sendCommands cfg userMap m (some c)).userLimits u ≠ 0) :
    c.username = u ∧ c.command = .freeze ∨ c.username ≠ u ∧ m.userLimits u ≠ 0 := by
  by_cases hname : c.username = u
  · rcases hkind with hfreeze | hunfreeze
    · exact .inl ⟨hname, hfreeze⟩
    · simp [sendCommands, hunfreeze, updateUserLimit, hmax, hname] at hu
  · refine .inr ⟨hname, ?_⟩
    have hother : ∀ (m : MysqlSide) limit,
        (updateUserLimit cfg c.username limit m).userLimits u = m.userLimits u := by
      intro m limit
      rw [updateUserLimit, if_pos hmax]
      exact Function.update_of_ne (Ne.symm hname) _ _
    have hsame : (sendCommands cfg userMap m (some c)).userLimits u = m.userLimits u := by
      rcases hkind with hfreeze | hunfreeze
      · simp only [sendCommands, hfreeze]
        split_ifs
        · rfl
        · rw [hother]
        · rfl
      · simp only [sendCommands, hunfreeze, hother]
        split <;> rfl
    rwa [hsame] at hu

theorem ConnectionInv.work (h : ConnectionInv w) {cmd : Option Command} {rest : GList}
    (hworker : w.sender.worker = some (cmd :: rest)) : ConnectionInv (workOn cmd rest w) := by
  have hhandover := h.handover.work
  simp only [HandoverEvent.apply, hworker] at hhandover
  refine ⟨⟨h.limits, hhandover, h.kinds, ?_, h.thawed⟩, .step h.reachable (.work cmd rest w hworker)⟩
  intro u hu
  cases cmd with
  | none => simpa [workOn, visitCommand] using h.sent u hu
  | some c =>
      have hmem : c ∈ w.globals.enqueued := by
        cases h.handover.phase with
        | sending _ rest' hw _ hlog =>
            obtain rfl : rest' = some c :: rest := Option.some.inj (hw.symm.trans hworker)
            dsimp only at hlog
            simp [hlog]
        | waiting _ hw _ => simp [hworker] at hw
        | copied _ hw _ _ _ => simp [hworker] at hw
        | reinited _ hw _ _ => simp [hworker] at hw
      have hexec : (workOn (some c) rest w).sender.executed = w.sender.executed ++ [c] := rfl
      rw [hexec, lastCommand_append_singleton]
      rcases sendCommands_userLimits h.limits.maxUserConnections w.userMap w.mysql (h.kinds c hmem)
          hu with ⟨hname, hfreeze⟩ | ⟨hname, hold⟩
      · rw [if_pos hname, hfreeze]
      · rw [if_neg hname]
        exact h.sent u hold

theorem ConnectionInv.step (h : ConnectionInv w) {e : ConnectionEvent} (he : e.Admissible)
    (hlift : e.Lifts w) : ConnectionInv (e.apply w) := by
  cases e with
  | increment u cpu read write tm =>
      have hstep := DaemonStep.increment u cpu read write tm w
      rw [ConnectionEvent.apply]
      rw [incrementCounters] at hstep ⊢
      split at hstep
      · exact h.section hstep rfl rfl rfl rfl rfl h.handover
      · exact h.section hstep rfl rfl rfl rfl rfl h.handover
  | tick t =>
      rw [ConnectionEvent.apply]
      split
      · rename_i hpc
        exact h.tick t hpc (hlift hpc)
      · exact h
  | unrestrictA now ord => exact h.unrestrictA now ord hlift
  | reinitUsersList cfg file now ord => exact h.reinitUsersList he file now ord hlift
  | copy =>
      have hhandover := h.handover.copy
      rw [ConnectionEvent.apply]
      rw [HandoverEvent.apply] at hhandover
      split
      · rename_i hidle
        rw [if_pos hidle] at hhandover
        exact h.section (.copy w h.limits.isGpl hidle.1 hidle.2) rfl rfl rfl rfl rfl hhandover
      · exact h
  | reinit =>
      have hhandover := h.handover.reinit
      rw [ConnectionEvent.apply]
      rw [HandoverEvent.apply] at hhandover
      split
      · rename_i hcopied
        rw [if_pos hcopied] at hhandover
        exact h.section (.reinit w hcopied) rfl rfl rfl rfl rfl hhandover
      · exact h
  | spawn =>
      have hhandover := h.handover.spawn
      rw [ConnectionEvent.apply]
      rw [HandoverEvent.apply] at hhandover
      split
      · rename_i hreinited
        rw [if_pos hreinited] at hhandover
        refine h.section (.spawn w hreinited) rfl rfl rfl ?_ rfl hhandover
        dsimp only
        rw [spawnWorker]
        split <;> rfl
      · exact h
  | work =>
      rw [ConnectionEvent.apply]
      split
      · rename_i cmd rest hworker
        exact h.work hworker
      · exact h
  | finish =>
      have hhandover := h.handover.finish
      rw [ConnectionEvent.apply]
      rw [HandoverEvent.apply] at hhandover
      split
      · rename_i hworker
        simp only [hworker] at hhandover
        exact h.section (.finish w hworker) rfl rfl rfl rfl rfl hhandover
      · exact h

end Steps

/-! ### Limits that are lifted, and one that is not -/

/-- In every run in which each release is sent and handed over, and each restriction lasts, a user
with a limit of connections belongs to a restricted account whenever the queues are empty. -/
theorem limits_held_of_lifted {cfg : GovernorConfig} (hcfg : cfg.LimitsConnections)
    (events : List ConnectionEvent) (hadm : ∀ e ∈ events, e.Admissible)
    (h : Runs.Meets ConnectionEvent.apply (fun w e => e.Lifts w) (World.init cfg) events) :
    ∀ part, part <+: events → Drained (part.foldl ConnectionEvent.apply (World.init cfg)) →
      LimitsHeld (part.foldl ConnectionEvent.apply (World.init cfg)) := by
  have hmeets : Runs.Meets ConnectionEvent.apply (fun w e => e.Admissible ∧ e.Lifts w)
      (World.init cfg) events :=
    Runs.meets_and.mpr ⟨Runs.meets_of_forall _ events fun e he _ => hadm e he, h⟩
  intro part hpart hdrained
  have hinv := hmeets.invariant_of_isPrefix (fun _ _ hw he => hw.step he.1 he.2)
    (ConnectionInv.init hcfg) hpart
  exact hinv.limitsHeld hdrained

theorem shippedConfig_limitsConnections : (shippedConfig true).LimitsConnections :=
  ⟨rfl, rfl, by decide⟩

/-- One hand-over of one command. -/
def handOver : List ConnectionEvent := [.copy, .reinit, .spawn, .work, .work, .finish]

/-- A user is restricted by a tick and gets a limit. -/
def limitedRun : List ConnectionEvent :=
  [.increment sampleUser 500 0 0 0, .tick (sampleTickInput 0)] ++ handOver

/-- The same user is released by UNRESTRICT_A. -/
def liftedRun : List ConnectionEvent :=
  limitedRun ++ [.unrestrictA 1000005 .asListed] ++ handOver

theorem limits_held_of_lifted_sample :
    LimitsHeld (liftedRun.foldl ConnectionEvent.apply (World.init (shippedConfig true))) := by
  refine limits_held_of_lifted shippedConfig_limitsConnections liftedRun ?_ ?_ liftedRun
    (List.prefix_refl _) ?_
  · simp [liftedRun, limitedRun, handOver, ConnectionEvent.Admissible]
  · refine ⟨trivial, fun _ hzero => absurd hzero (by decide), trivial, trivial, trivial, trivial,
      trivial, trivial, fun _ _ => .inr ⟨by decide +kernel, by decide +kernel⟩, ?_⟩
    exact ⟨trivial, trivial, trivial, trivial, trivial, trivial, trivial⟩
  · exact ⟨by decide +kernel, by decide +kernel, by decide +kernel⟩

/-- The shipped configuration with the use of LVE switched off. -/
def offConfig : GovernorConfig :=
  { shippedConfig true with useLve := false, separateLve := false }

/-- A change to a mode in which `account_unrestrict` sends nothing releases the account and leaves
the limit of its user. -/
theorem limit_stays_when_switched_off :
    ¬ ∀ cfg : GovernorConfig, cfg.LimitsConnections → ∀ events : List ConnectionEvent,
      (∀ e ∈ events, e.Admissible) → ∀ part, part <+: events →
      Drained (part.foldl ConnectionEvent.apply (World.init cfg)) →
      LimitsHeld (part.foldl ConnectionEvent.apply (World.init cfg)) := by
  intro h
  let run : List ConnectionEvent :=
    limitedRun ++ [.reinitUsersList offConfig none 1000005 .asListed]
  have hadm : ∀ e ∈ run, e.Admissible := by
    have hoff : offConfig.LimitsConnections := ⟨rfl, rfl, by decide⟩
    simp [run, limitedRun, handOver, ConnectionEvent.Admissible, hoff]
  have hdrained : Drained (run.foldl ConnectionEvent.apply (World.init (shippedConfig true))) :=
    ⟨by decide +kernel, by decide +kernel, by decide +kernel⟩
  have hheld := h (shippedConfig true) shippedConfig_limitsConnections run hadm run
    (List.prefix_refl _) hdrained
  obtain ⟨a, ac, hac, -, ht⟩ := hheld sampleUser (by decide +kernel)
  have hnone : ∀ e ∈ (run.foldl ConnectionEvent.apply
      (World.init (shippedConfig true))).accounts.entries, e.2.timeout = 0 := by
    decide +kernel
  exact ht (hnone ⟨a, ac⟩ (AList.mem_lookup_iff.mp hac))

end DbGovernor
