import DbGovernor.Verification.Daemon.TimeLimit

/-!
# Accounts that are not to be restricted

The decisions leave out the accounts in `IGNORE_MODE`. `NORESTRICT_MODE` is parsed and stored,
and no decision looks at it: such an account is frozen like one in `RESTRICT_MODE`.
-/

namespace DbGovernor

/-- The effective limits of the account say that it is not to be restricted. -/
def Exempt (cfg : GovernorConfig) (a : Username) : Prop :=
  (configGetAccountLimit cfg a).mode = .norestrictMode ∨
    (configGetAccountLimit cfg a).mode = .ignoreMode

instance (cfg : GovernorConfig) (a : Username) : Decidable (Exempt cfg a) :=
  inferInstanceAs (Decidable (_ ∨ _))

/-- The account is released, or its restriction is open to a new decision. -/
def OpenTo (cfg : GovernorConfig) (now : ℤ) (ac : Account) : Prop :=
  ac.timeout = 0 ∨
    0 < ac.startCount ∧ (cfg.restrictMode = true ∨ ac.startCount + ac.timeout ≤ now)

/-- A decision about the account sends FREEZE. -/
structure Freezes (cfg : GovernorConfig) (now : ℤ) (ac : Account) : Prop where
  enforcing : cfg.Enforcing
  watched : Watched cfg ac
  exceeds : Exceeds cfg ac
  restricted : ac.restricted = 0
  openTo : OpenTo cfg now ac

/-- What a decision enqueues: FREEZE for every user, or no FREEZE. -/
structure DecisionCommands (cfg : GovernorConfig) (now : ℤ) (ac : Account) (g : Globals)
    (cmds : List Command) (g' : Globals) : Prop where
  enqueues : Enqueues g cmds g'
  freezes : Freezes cfg now ac → cmds = broadcast .freeze ac.users
  spares : ¬ Freezes cfg now ac → ∀ c ∈ cmds, c.command ≠ .freeze

/-! ### One decision -/

section Decision

variable {cfg : GovernorConfig} {now : ℤ} {ac : Account} {g g' : Globals}

theorem DecisionCommands.of_none (h : Enqueues g [] g') (hn : ¬ Freezes cfg now ac) :
    DecisionCommands cfg now ac g [] g' :=
  ⟨h, fun hf => absurd hf hn, by simp⟩

theorem DecisionCommands.of_release {users : List Username}
    (h : Enqueues g (broadcast .unfreeze users) g') (hn : ¬ Freezes cfg now ac) :
    DecisionCommands cfg now ac g (broadcast .unfreeze users) g' := by
  refine ⟨h, fun hf => absurd hf hn, ?_⟩
  rintro - c hc
  rw [(mem_broadcast.mp hc).2]
  decide

/-- A branch that restricts sends FREEZE exactly if the account was at level zero. -/
theorem DecisionCommands.of_restrict (h : Enqueues g (restrictCommands ac) g')
    (hiff : ac.restricted = 0 ↔ Freezes cfg now ac) :
    DecisionCommands cfg now ac g (restrictCommands ac) g' := by
  refine ⟨h, fun hf => if_pos (hiff.mpr hf), ?_⟩
  intro hn c hc
  rw [restrictCommands, if_neg fun hr => hn (hiff.mp hr)] at hc
  cases hc

theorem accountAnalyzeLimit_commands (he : cfg.Enforcing) (hmode : cfg.restrictMode = true)
    (hg : g.Ready) (now : ℤ) (ac : Account) :
    ∃ cmds, DecisionCommands cfg now ac g cmds (accountAnalyzeLimit cfg now ac g).2 := by
  have hnil : Enqueues g [] g := ⟨hg, by simp⟩
  by_cases hopen : ac.timeout = 0 ∨ 0 < ac.startCount
  · have ho := accountAnalyzeLimit_outcome he.useLve he.allLve now ac g
    generalize accountAnalyzeLimit cfg now ac g = r at ho ⊢
    cases ho with
    | ignored hw => exact ⟨_, .of_none hnil fun hf => hw hf.watched⟩
    | stuck ht hs => exact absurd hopen (not_or.mpr ⟨ht, not_lt.mpr hs⟩)
    | kept _ hx _ => exact ⟨_, .of_none hnil fun hf => hx hf.exceeds⟩
    | restricted cur period field hw hx _ =>
        refine ⟨_, .of_restrict (restrictPeriodLimit_enqueues he now cur period field ac hg) ?_⟩
        refine ⟨fun hr => ⟨he, hw, hx, hr, ?_⟩, Freezes.restricted⟩
        exact hopen.imp_right fun hs => ⟨hs, .inl hmode⟩
    | released _ hx _ _ =>
        exact ⟨_, .of_release (accountUnrestrict_enqueues he _ hg) fun hf => hx hf.exceeds⟩
  · obtain ⟨ht, hs⟩ := not_or.mp hopen
    have hn : ¬ Freezes cfg now ac := fun hf => hopen (hf.openTo.imp_right And.left)
    by_cases hw : Watched cfg ac
    · rw [accountAnalyzeLimit_stuck he.useLve he.allLve hw ht hs]
      exact ⟨_, .of_none hnil hn⟩
    · rw [accountAnalyzeLimit_ignored hw]
      exact ⟨_, .of_none hnil hn⟩

theorem accountAnalyze_commands (he : cfg.Enforcing) (hmode : cfg.restrictMode = false)
    (hg : g.Ready) (now : ℤ) (ac : Account) :
    ∃ cmds, DecisionCommands cfg now ac g cmds (accountAnalyze cfg now ac g).2 := by
  have hnil : Enqueues g [] g := ⟨hg, by simp⟩
  by_cases hw : Watched cfg ac
  · by_cases hstuck : ac.timeout ≠ 0 ∧ ¬ 0 < ac.startCount
    · have hearly : ¬ (0 < ac.startCount ∧ ac.startCount + ac.timeout ≤ now) :=
        fun hboth => hstuck.2 hboth.1
      rw [accountAnalyze_runs_on he.useLve he.allLve hw hstuck.1 hearly]
      refine ⟨_, .of_none hnil fun hf => ?_⟩
      exact hf.openTo.elim hstuck.1 fun hs => hstuck.2 hs.1
    · have ho := accountAnalyze_outcome he.useLve he.allLve now ac g
      generalize accountAnalyze cfg now ac g = r at ho ⊢
      cases ho with
      | ignored hn => exact absurd hw hn
      | stuck ht hs => exact absurd ⟨ht, not_lt.mpr hs⟩ hstuck
      | running ht hx =>
          refine ⟨_, .of_none hnil fun hf => ?_⟩
          rcases hf.openTo with h0 | ⟨-, hlimit | hdue⟩
          · exact ht h0
          · simp [hmode] at hlimit
          · exact absurd hdue (not_le.mpr hx)
      | quiet _ hx => exact ⟨_, .of_none hnil fun hf => hx hf.exceeds⟩
      | restricted cur period field ht hx _ =>
          refine ⟨_, .of_restrict (restrictPeriod_enqueues he now cur period field ac hg) ?_⟩
          exact ⟨fun hr => ⟨he, hw, hx, hr, .inl ht⟩, Freezes.restricted⟩
      | renewed cur period field ht hdue hx _ =>
          have hs : 0 < ac.startCount := by
            by_contra hs
            exact hstuck ⟨ht, hs⟩
          refine ⟨_, .of_restrict
            (restrictPeriod_enqueues he now cur period field (expired now ac) hg) ?_⟩
          exact ⟨fun hr => ⟨he, hw, hx, hr, .inr ⟨hs, .inr hdue⟩⟩, Freezes.restricted⟩
      | released _ _ hx =>
          exact ⟨_, .of_release (accountUnrestrict_enqueues he (expired now ac) hg)
            fun hf => hx hf.exceeds⟩
      | forgiven _ hx _ => exact ⟨_, .of_none hnil fun hf => hx hf.exceeds⟩
  · rw [accountAnalyze_ignored hw]
    exact ⟨_, .of_none hnil fun hf => hw hf.watched⟩

/-- Without the library nothing is sent. -/
theorem restrictPeriod_gpl (hgpl : cfg.isGpl = true) (hg : g.Ready) (cur : GovernorsFieldName)
    (period : GovernorsPeriodName) (field : GovernorsFieldName) (ac : Account) :
    Enqueues g [] (restrictPeriod cfg now cur period field ac g).2 := by
  have hsilent : ∀ ac g, accountRestrict cfg ac g = g := by simp [accountRestrict, hgpl]
  rw [restrictPeriod]
  dsimp only
  rw [hsilent, ite_self]
  exact countRestrict_enqueues cfg ac.id _ hg

theorem restrictPeriodLimit_gpl (hgpl : cfg.isGpl = true) (hg : g.Ready)
    (cur : GovernorsFieldName) (period : GovernorsPeriodName) (field : GovernorsFieldName)
    (ac : Account) : Enqueues g [] (restrictPeriodLimit cfg now cur period field ac g).2 := by
  have hsilent : ∀ ac g, accountRestrict cfg ac g = g := by simp [accountRestrict, hgpl]
  rw [restrictPeriodLimit]
  dsimp only
  rw [hsilent, ite_self]
  exact countRestrict_enqueues cfg ac.id _ hg

theorem analyzeMode_gpl (hgpl : cfg.isGpl = true) (hu : cfg.useLve = true)
    (ha : cfg.allLve = false) (hg : g.Ready) (now : ℤ) (ac : Account) :
    Enqueues g [] (analyzeMode cfg now ac g).2 := by
  have hnil : Enqueues g [] g := ⟨hg, by simp⟩
  have hsilent : ∀ ac g, accountUnrestrict cfg ac g = g := by simp [accountUnrestrict, hgpl]
  rw [analyzeMode]
  split
  · have ho := accountAnalyzeLimit_outcome hu ha now ac g
    generalize accountAnalyzeLimit cfg now ac g = r at ho ⊢
    cases ho with
    | ignored _ => exact hnil
    | stuck _ _ => exact hnil
    | kept _ _ _ => exact hnil
    | restricted cur period field _ _ _ => exact restrictPeriodLimit_gpl hgpl hg cur period field ac
    | released _ _ _ _ =>
        rw [unrestrictLimit]
        dsimp only
        rw [hsilent]
        exact hnil
  · have ho := accountAnalyze_outcome hu ha now ac g
    generalize accountAnalyze cfg now ac g = r at ho ⊢
    cases ho with
    | ignored _ => exact hnil
    | stuck _ _ => exact hnil
    | running _ _ => exact hnil
    | quiet _ _ => exact hnil
    | restricted cur period field _ _ _ => exact restrictPeriod_gpl hgpl hg cur period field ac
    | renewed cur period field _ _ _ _ =>
        exact restrictPeriod_gpl hgpl hg cur period field (expired now ac)
    | released _ _ _ =>
        dsimp only
        rw [hsilent]
        exact hnil
    | forgiven _ _ _ => exact hnil

/-- Every decision, in either mode and under all flags. -/
theorem analyzeMode_commands (cfg : GovernorConfig) (hg : g.Ready) (now : ℤ) (ac : Account) :
    ∃ cmds, DecisionCommands cfg now ac g cmds (analyzeMode cfg now ac g).2 := by
  by_cases hoff : (cfg.allLve || !cfg.useLve) = true
  · refine ⟨[], .of_none ?_ ?_⟩
    · rw [analyzeMode, accountAnalyzeLimit_off hoff, accountAnalyze_off hoff, ite_self]
      exact ⟨hg, by simp⟩
    · intro hf
      simp [hf.enforcing.allLve, hf.enforcing.useLve] at hoff
  · simp only [Bool.or_eq_true, Bool.not_eq_true', not_or, Bool.not_eq_true,
      Bool.not_eq_false] at hoff
    cases hgpl : cfg.isGpl with
    | true =>
        refine ⟨[], .of_none (analyzeMode_gpl hgpl hoff.2 hoff.1 hg now ac) ?_⟩
        intro hf
        simp [hf.enforcing.isGpl] at hgpl
    | false =>
        have he : cfg.Enforcing := ⟨hoff.2, hoff.1, hgpl⟩
        cases hmode : cfg.restrictMode with
        | true =>
            obtain ⟨cmds, h⟩ := accountAnalyzeLimit_commands he hmode hg now ac
            exact ⟨cmds, by simpa [analyzeMode, hmode] using h⟩
        | false =>
            obtain ⟨cmds, h⟩ := accountAnalyze_commands he hmode hg now ac
            exact ⟨cmds, by simpa [analyzeMode, hmode] using h⟩

end Decision

/-! ### One tick -/

/-- From `w` to `w'` no FREEZE is enqueued for a user of the account. -/
def Spared (a : Username) (w w' : World) : Prop :=
  ∀ ac, w'.accounts.lookup a = some ac →
    ∃ cmds, w'.globals.enqueued = w.globals.enqueued ++ cmds ∧
      ∀ c ∈ cmds, c.username ∈ ac.users → c.command ≠ .freeze

/-- With the figures of the tick the decision freezes an account in `NORESTRICT_MODE`. -/
def FreezesNorestrict (a : Username) (t : TickInput) (w : World) : Prop :=
  (configGetAccountLimit w.cfg a).mode = .norestrictMode ∧
    ∃ ac, (gatherStats t w).accounts.lookup a = some ac ∧ Freezes w.cfg t.now ac

section Tick

variable {w : World} {a : Username}

/-- A tick spares an account that it does not find over a limit in `NORESTRICT_MODE`, and no
other exempt account. -/
theorem proceedAccounts_spared_iff (h : DaemonInv w) (hx : Exempt w.cfg a) (t : TickInput) :
    Spared a w (proceedAccounts t w) ↔ ¬ FreezesNorestrict a t w := by
  constructor
  · rintro hspared ⟨-, ac, hac, hf⟩
    obtain ⟨g, hg, ⟨past, hpast, -⟩, hl, rest, hrest, -⟩ := proceedAccounts_visit h t hac
    obtain ⟨cmds, hd⟩ := analyzeMode_commands w.cfg hg t.now ac
    obtain ⟨all, hlog, hall⟩ := hspared _ hl
    obtain ⟨u, hu⟩ := List.exists_mem_of_ne_nil _ ((h.gatherStats t).owns a ac hac).users_ne
    have husers := (analyzeMode_keeps w.cfg.restrictMode t.now w.cfg ac hg).users_eq
    rw [analyzeMode_apply] at husers
    rw [hrest, hd.enqueues.enqueued, hpast, List.append_assoc, List.append_assoc] at hlog
    have hfreeze : (⟨u, .freeze⟩ : Command) ∈ all := by
      rw [← List.append_cancel_left hlog, hd.freezes hf]
      simp [mem_broadcast, hu]
    exact hall _ hfreeze (husers ▸ hu) rfl
  · intro hn ac' hl'
    obtain ⟨ac, hac⟩ := Option.isSome_iff_exists.mp (gatherStats_of_proceedAccounts t hl')
    obtain ⟨g, hg, ⟨past, hpast, hsilent⟩, hl, rest, hrest, hsilent'⟩ :=
      proceedAccounts_visit h t hac
    obtain rfl := Option.some.inj (hl.symm.trans hl')
    obtain ⟨cmds, hd⟩ := analyzeMode_commands w.cfg hg t.now ac
    have husers := (analyzeMode_keeps w.cfg.restrictMode t.now w.cfg ac hg).users_eq
    rw [analyzeMode_apply] at husers
    have hid := ((h.gatherStats t).owns a ac hac).id_eq
    have hnf : ¬ Freezes w.cfg t.now ac := by
      intro hf
      have hwatched : (configGetAccountLimit w.cfg a).mode ≠ .ignoreMode := hid ▸ hf.watched
      exact hn ⟨hx.resolve_right hwatched, ac, hac, hf⟩
    refine ⟨past ++ (cmds ++ rest), ?_, ?_⟩
    · rw [hrest, hd.enqueues.enqueued, hpast, List.append_assoc, List.append_assoc]
    · intro c hc hu
      rw [husers] at hu
      rcases List.mem_append.mp hc with hmem | hmem
      · exact absurd hu (hsilent c hmem)
      · rcases List.mem_append.mp hmem with hmem | hmem
        · exact hd.spares hnf c hmem
        · exact absurd hu (hsilent' c hmem)

end Tick

/-! ### Runs -/

/-- Traffic, a tick, or a new configuration: what happens without an operator's RESTRICT. -/
def DaemonEvent.Automatic : DaemonEvent → Prop
  | .dbctl (.rereadCfg _) _ _ => True
  | .dbctl _ _ _ => False
  | _ => True

def DaemonEvent.FreezesNorestrict (a : Username) (w : World) : DaemonEvent → Prop
  | .tick t => DbGovernor.FreezesNorestrict a t w
  | _ => False

theorem spared_of_enqueued_eq {a : Username} {w w' : World}
    (h : w'.globals.enqueued = w.globals.enqueued) : Spared a w w' :=
  fun _ _ => ⟨[], by simpa using h, by simp⟩

/-- In every run without commands in which the account is exempt, no FREEZE is enqueued for its
users exactly if no tick finds it in `NORESTRICT_MODE`, over a limit, and at level zero. -/
theorem exempt_spared_iff (w : World) (hw : Reachable w) (a : Username)
    (events : List DaemonEvent) (hauto : ∀ e ∈ events, e.Automatic)
    (hexempt : Runs.Meets DaemonEvent.apply (fun w _ => Exempt w.cfg a) w events) :
    Runs.Meets DaemonEvent.apply (fun w e => Spared a w (e.apply w)) w events ↔
      Runs.Meets DaemonEvent.apply (fun w e => ¬ e.FreezesNorestrict a w) w events := by
  have hok : Runs.Meets DaemonEvent.apply (fun w e => e.Automatic ∧ Exempt w.cfg a) w events :=
    Runs.meets_and.mpr ⟨Runs.meets_of_forall w events fun e he _ => hauto e he, hexempt⟩
  have hiff : ∀ (v : World) (e : DaemonEvent), DaemonInv v → e.Automatic ∧ Exempt v.cfg a →
      (Spared a v (e.apply v) ↔ ¬ e.FreezesNorestrict a v) := by
    rintro v e hv ⟨hauto, hx⟩
    cases e with
    | increment u cpu read write tm =>
        refine iff_of_true (spared_of_enqueued_eq ?_) not_false
        rw [DaemonEvent.apply, incrementCounters]
        split <;> rfl
    | tick t => exact proceedAccounts_spared_iff hv hx t
    | dbctl msg now ord =>
        cases msg with
        | rereadCfg cfg => exact iff_of_true (spared_of_enqueued_eq rfl) not_false
        | reinitUsersList cfg file => exact absurd hauto not_false
        | restrict command => exact absurd hauto not_false
        | unrestrict command => exact absurd hauto not_false
        | unrestrictA => exact absurd hauto not_false
  exact Runs.meets_congr hiff (fun v e hv _ _ => hv.step (e.daemonStep v)) hok hw.daemonInv

/-- The shipped configuration with one account in `NORESTRICT_MODE`. -/
def norestrictConfig : GovernorConfig :=
  { shippedConfig true with
    accountLimits := (∅ : HashTable StatsCfg).insert sampleUser
      { (shippedConfig true).defaultLimit with mode := .norestrictMode } }

/-- Three seconds of CPU in one second, under the limit of four. -/
theorem exempt_spared_iff_sample :
    Runs.Meets DaemonEvent.apply (fun w e => Spared sampleUser w (e.apply w))
      (World.init norestrictConfig) [.increment sampleUser 300 0 0 0, .tick (sampleTickInput 0)] := by
  refine (exempt_spared_iff _ (.start _) sampleUser _ ?_ ?_).mpr ?_
  · simp [DaemonEvent.Automatic]
  · exact ⟨by decide, by decide +kernel, trivial⟩
  · refine ⟨not_false, ?_, trivial⟩
    rintro ⟨-, ac, hac, hf⟩
    have hwithin : ∀ ac ∈ (gatherStats (sampleTickInput 0) (DaemonEvent.apply
        (World.init norestrictConfig) (.increment sampleUser 300 0 0 0))).accounts.lookup sampleUser,
        ¬ Exceeds norestrictConfig ac := by
      decide +kernel
    exact hwithin ac hac hf.exceeds

/-- Five seconds of CPU in one second: the account in `NORESTRICT_MODE` is frozen. -/
theorem norestrict_account_frozen :
    ¬ ∀ (w : World) (a : Username) (events : List DaemonEvent), Reachable w →
      (∀ e ∈ events, e.Automatic) →
      Runs.Meets DaemonEvent.apply (fun w _ => Exempt w.cfg a) w events →
      Runs.Meets DaemonEvent.apply (fun w e => Spared a w (e.apply w)) w events := by
  intro h
  have hrun := h (World.init norestrictConfig) sampleUser
    [.increment sampleUser 500 0 0 0, .tick (sampleTickInput 0)] (.start _)
    (by simp [DaemonEvent.Automatic]) ⟨by decide, by decide +kernel, trivial⟩
  have hspared := hrun.2.1
  have hfrozen : ∃ ac ∈ ([.increment sampleUser 500 0 0 0, .tick (sampleTickInput 0)].foldl
      DaemonEvent.apply (World.init norestrictConfig)).accounts.lookup sampleUser,
        sampleUser ∈ ac.users := by
    decide +kernel
  obtain ⟨ac, hac, hu⟩ := hfrozen
  obtain ⟨cmds, hlog, hcmds⟩ := hspared ac hac
  have hlogged : ([.increment sampleUser 500 0 0 0, .tick (sampleTickInput 0)].foldl
      DaemonEvent.apply (World.init norestrictConfig)).globals.enqueued =
        [⟨sampleUser, .freeze⟩] := by
    decide +kernel
  have hall : [⟨sampleUser, .freeze⟩] = cmds := hlogged.symm.trans hlog
  exact hcmds ⟨sampleUser, .freeze⟩ (by simp [← hall]) hu rfl

end DbGovernor
