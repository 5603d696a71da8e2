import DbGovernor.Verification.Restrict.Operations

/-!
# Period mode

A restriction lasts for the period of its level, and the level outlives it for a penalty
window. Through every run the state of an account keeps six linked facts.
-/

namespace DbGovernor

/-- The two states of an account in period mode. -/
inductive PeriodState (cfg : GovernorConfig) (ac : Account) (g : Globals) : Prop where
  | idle (timeout : ac.timeout = 0) (started : ac.restricted ≠ 0 → ac.startCount ≠ 0)
      (period : ac.info.fieldRestrict = .noPeriod) (thawed : Thawed ac g)
  | active (timeout : ac.timeout = levelPeriod cfg ac.restricted) (startCount : 0 < ac.startCount)
      (period : ac.info.fieldRestrict ≠ .noPeriod)

structure PeriodInv (cfg : GovernorConfig) (id : Username) (users : List Username)
    (ac : Account) (g : Globals) : Prop where
  id_eq : ac.id = id
  users_eq : ac.users = users
  ready : g.Ready
  nonneg : 0 ≤ ac.restricted
  le_three : ac.restricted ≤ 3
  start_nonneg : 0 ≤ ac.startCount
  state : PeriodState cfg ac g

theorem Fresh.periodInv {cfg : GovernorConfig} {ac : Account} {g : Globals} (h : Fresh ac g) :
    PeriodInv cfg ac.id ac.users ac g := by
  refine ⟨rfl, rfl, h.ready, ?_, ?_, ?_, ?_⟩
  · rw [h.restricted]
  · rw [h.restricted]
    decide
  · rw [h.startCount]
  · exact .idle h.timeout (fun hne => absurd h.restricted hne) (by rw [h.info]) h.thawed

section Steps

variable {cfg : GovernorConfig} {id : Username} {users : List Username} {ac : Account}
  {g : Globals}

theorem PeriodInv.withUsage (h : PeriodInv cfg id users ac g) (u : Usage) :
    PeriodInv cfg id users (ac.withUsage u) g := by
  refine ⟨h.id_eq, h.users_eq, h.ready, h.nonneg, h.le_three, h.start_nonneg, ?_⟩
  cases h.state with
  | idle ht hs hp hf => exact .idle ht hs hp hf
  | active ht hs hp => exact .active ht hs hp

/-- A restriction has started whenever a timeout runs. -/
theorem PeriodInv.startCount_pos (h : PeriodInv cfg id users ac g) (ht : ac.timeout ≠ 0) :
    0 < ac.startCount := by
  cases h.state with
  | idle h0 _ _ _ => exact absurd h0 ht
  | active _ hs _ => exact hs

theorem PeriodInv.thawed (h : PeriodInv cfg id users ac g) (hlevels : cfg.Levels)
    (ht : ac.timeout = 0) : Thawed ac g := by
  cases h.state with
  | idle _ _ _ hf => exact hf
  | active ht' _ _ =>
      have hpos := hlevels.levelPeriod_pos ac.restricted
      exact absurd (ht'.symm.trans ht) hpos.ne'

theorem PeriodInv.restrictPeriod (hid : ac.id = id) (husers : ac.users = users) (hg : g.Ready)
    (he : cfg.Enforcing) {now : ℤ} (hnow : 0 < now) (cur : GovernorsFieldName)
    {period : GovernorsPeriodName} (field : GovernorsFieldName) (hp : period ≠ .noPeriod) :
    PeriodInv cfg id users (restrictPeriod cfg now cur period field ac g).1
      (restrictPeriod cfg now cur period field ac g).2 := by
  have hq := restrictPeriod_enqueues he now cur period field ac hg
  obtain ⟨h0, h3⟩ := nextLevel_bounds cfg now ac
  rw [restrictPeriod_account]
  exact ⟨hid, husers, hq.ready, h0, h3, hnow.le, .active rfl hnow hp⟩

theorem PeriodInv.accountAnalyze (h : PeriodInv cfg id users ac g) (he : cfg.Enforcing)
    (hlevels : cfg.Levels) {now : ℤ} (hnow : 0 < now) :
    PeriodInv cfg id users (accountAnalyze cfg now ac g).1 (accountAnalyze cfg now ac g).2 := by
  have ho := accountAnalyze_outcome he.useLve he.allLve now ac g
  generalize DbGovernor.accountAnalyze cfg now ac g = r at ho ⊢
  cases ho with
  | ignored _ => exact h
  | stuck _ _ => exact h
  | running _ _ => exact h
  | quiet _ _ => exact h
  | restricted cur period field _ _ hp =>
      exact .restrictPeriod h.id_eq h.users_eq h.ready he hnow cur field hp
  | renewed cur period field _ _ _ hp =>
      have hid : (expired now ac).id = id := h.id_eq
      have husers : (expired now ac).users = users := h.users_eq
      exact .restrictPeriod hid husers h.ready he hnow cur field hp
  | released _ _ _ =>
      have hq := accountUnrestrict_enqueues he (expired now ac) h.ready
      exact ⟨h.id_eq, h.users_eq, hq.ready, h.nonneg, h.le_three, hnow.le,
        .idle rfl (fun _ => hnow.ne') rfl hq.thawed⟩
  | forgiven ht _ _ =>
      exact ⟨h.id_eq, h.users_eq, h.ready, le_refl 0, by simp [endPenalty], le_refl 0,
        .idle rfl (fun hne => absurd rfl hne) rfl (h.thawed hlevels ht)⟩

theorem PeriodInv.dbctlRestrictAccount (h : PeriodInv cfg id users ac g) (he : cfg.Enforcing)
    (hmode : cfg.restrictMode = false) {now : ℤ} (hnow : 0 < now) (command : DbCtlCommand) :
    PeriodInv cfg id users (dbctlRestrictAccount cfg now command ac g).1
      (dbctlRestrictAccount cfg now command ac g).2 := by
  have hq := dbctlRestrictAccount_enqueues he now command ac h.ready
  obtain ⟨level, h0, h3, hac⟩ := dbctlRestrictAccount_period hmode now command ac g
  rw [hac]
  exact ⟨h.id_eq, h.users_eq, hq.ready, h0, h3, hnow.le, .active rfl hnow (by simp)⟩

/-- A cleared account is at rest as soon as none of its users is frozen. -/
theorem PeriodInv.clearAccount (h : PeriodInv cfg id users ac g) {g' : Globals} (hg : g'.Ready)
    (hf : Thawed ac g') : PeriodInv cfg id users (clearAccount ac) g' :=
  ⟨h.id_eq, h.users_eq, hg, le_refl 0, by simp [DbGovernor.clearAccount], le_refl 0,
    .idle rfl (fun hne => absurd rfl hne) rfl hf⟩

theorem PeriodInv.dbctlUnrestrictSet (h : PeriodInv cfg id users ac g) (he : cfg.Enforcing)
    (now : ℤ) (command : DbCtlCommand) :
    PeriodInv cfg id users (dbctlUnrestrictSet cfg now command ac g).1
      (dbctlUnrestrictSet cfg now command ac g).2 := by
  by_cases hid : ac.id = command.username
  · rw [dbctlUnrestrictSet_of_named hid]
    have hq := accountUnrestrict_enqueues he (DbGovernor.clearAccount ac) h.ready
    exact h.clearAccount hq.ready hq.thawed
  · simpa [DbGovernor.dbctlUnrestrictSet, hid] using h

theorem PeriodInv.dbctlUnrestrictAllSet (h : PeriodInv cfg id users ac g) (he : cfg.Enforcing)
    (hlevels : cfg.Levels) :
    PeriodInv cfg id users (dbctlUnrestrictAllSet cfg ac g).1
      (dbctlUnrestrictAllSet cfg ac g).2 := by
  by_cases ht : ac.timeout = 0
  · simp only [DbGovernor.dbctlUnrestrictAllSet, ht, ne_eq, not_true_eq_false, if_false]
    exact h.clearAccount h.ready (h.thawed hlevels ht)
  · have hq := accountUnrestrict_enqueues he ac h.ready
    simp only [DbGovernor.dbctlUnrestrictAllSet, if_pos ht]
    exact h.clearAccount hq.ready hq.thawed

theorem PeriodInv.run (h : PeriodInv cfg id users ac g) (he : cfg.Enforcing)
    (hlevels : cfg.Levels) (hmode : cfg.restrictMode = false) {table : HashTable UserStats}
    (op : AccountOp) (hop : op.Admissible table) :
    PeriodInv cfg id users (op.run cfg ac g).1 (op.run cfg ac g).2 := by
  cases op with
  | tick now usage =>
      simp only [AccountOp.run, analyzeMode, hmode]
      exact (h.withUsage usage).accountAnalyze he hlevels hop
  | restrict now command =>
      rw [AccountOp.run]
      split
      · exact h.dbctlRestrictAccount he hmode hop.1 command
      · exact h
  | unrestrict now command => exact h.dbctlUnrestrictSet he now command
  | unrestrictAll => exact h.dbctlUnrestrictAllSet he hlevels

/-- A tick leaves no restriction behind that has run out. -/
theorem PeriodInv.accountAnalyze_deadline (h : PeriodInv cfg id users ac g) (he : cfg.Enforcing)
    (hlevels : cfg.Levels) (hw : Watched cfg ac) {now : ℤ}
    (ht : (DbGovernor.accountAnalyze cfg now ac g).1.timeout ≠ 0) :
    now < (DbGovernor.accountAnalyze cfg now ac g).1.startCount +
      (DbGovernor.accountAnalyze cfg now ac g).1.timeout := by
  have ho := accountAnalyze_outcome he.useLve he.allLve now ac g
  generalize DbGovernor.accountAnalyze cfg now ac g = r at ho ht ⊢
  cases ho with
  | ignored hn => exact absurd hw hn
  | stuck _ hs => exact absurd (h.startCount_pos ht) (not_lt.mpr hs)
  | running _ hlt => exact hlt
  | quiet h0 _ => exact absurd h0 ht
  | restricted cur period field _ _ _ =>
      rw [restrictPeriod_account]
      exact lt_add_of_pos_right now (hlevels.levelPeriod_pos _)
  | renewed cur period field _ _ _ _ =>
      rw [restrictPeriod_account]
      exact lt_add_of_pos_right now (hlevels.levelPeriod_pos _)
  | released _ _ _ => exact absurd rfl ht
  | forgiven _ _ _ => exact absurd rfl ht

end Steps

/-! ### The six facts -/

structure PeriodAgreement (cfg : GovernorConfig) (ac : Account) (g : Globals) : Prop where
  nonneg : 0 ≤ ac.restricted
  le_three : ac.restricted ≤ 3
  period : ac.timeout ≠ 0 ↔ ac.info.fieldRestrict ≠ .noPeriod
  timeout : ac.timeout ≠ 0 → ac.timeout = levelPeriod cfg ac.restricted
  started : ac.timeout ≠ 0 ∨ ac.restricted ≠ 0 → ac.startCount ≠ 0
  thawed : ac.timeout = 0 → ∀ u ∈ ac.users, lastCommand u g.enqueued ≠ some .freeze

theorem PeriodInv.agreement {cfg : GovernorConfig} {id : Username} {users : List Username}
    {ac : Account} {g : Globals} (h : PeriodInv cfg id users ac g) (hlevels : cfg.Levels) :
    PeriodAgreement cfg ac g := by
  refine ⟨h.nonneg, h.le_three, ?_, ?_, ?_, h.thawed hlevels⟩
  · cases h.state with
    | idle ht _ hp _ => simp [ht, hp]
    | active ht _ hp =>
        have hpos := hlevels.levelPeriod_pos ac.restricted
        exact ⟨fun _ => hp, fun _ => ht ▸ hpos.ne'⟩
  · intro hne
    cases h.state with
    | idle ht _ _ _ => exact absurd ht hne
    | active ht _ _ => exact ht
  · intro hor
    cases h.state with
    | idle ht hs _ _ => exact hs (hor.resolve_left (not_not.mpr ht))
    | active _ hs _ => exact hs.ne'

/-- In period mode the six facts hold after every run of ticks and commands on a fresh
account, and a run that ends with a tick leaves no restriction that has run out. -/
theorem period_mode_agreement (w : World) (a : Username) (ac : Account)
    (hac : w.accounts.lookup a = some ac) (hfresh : Fresh ac w.globals)
    (hcfg : w.cfg.Enforcing) (hmode : w.cfg.restrictMode = false) (hlevels : w.cfg.Levels)
    (hwatched : Watched w.cfg ac) (ops : List AccountOp)
    (hops : ∀ op ∈ ops, op.Admissible w.users) :
    ∃ ac', (ops.foldl (AccountOp.apply a) w).accounts.lookup a = some ac' ∧
      ac'.users = ac.users ∧
      PeriodAgreement w.cfg ac' (ops.foldl (AccountOp.apply a) w).globals ∧
      ∀ now usage, ops.getLast? = some (.tick now usage) → ac'.timeout ≠ 0 →
        now < ac'.startCount + ac'.timeout := by
  have hstep : ∀ op : AccountOp, op.Admissible w.users → ∀ ac' g,
      PeriodInv w.cfg ac.id ac.users ac' g →
      PeriodInv w.cfg ac.id ac.users (op.run w.cfg ac' g).1 (op.run w.cfg ac' g).2 :=
    fun op hop _ _ hinv => hinv.run hcfg hlevels hmode op hop
  obtain ⟨-, -, ac', hl, hinv⟩ :=
    AccountOp.run_invariant hstep rfl rfl hac hfresh.periodInv hops
  refine ⟨ac', hl, hinv.users_eq, hinv.agreement hlevels, ?_⟩
  intro now usage hlast ht
  obtain ⟨before, rfl⟩ := List.getLast?_eq_some_iff.mp hlast
  obtain ⟨hc, hu, ac₁, hl₁, hinv₁⟩ := AccountOp.run_invariant hstep rfl rfl hac hfresh.periodInv
    fun op hop => hops op (List.mem_append_left _ hop)
  have hop : (AccountOp.tick now usage).Admissible (before.foldl (AccountOp.apply a) w).users :=
    hu ▸ hops _ (by simp)
  obtain ⟨hspec, -⟩ := AccountOp.apply_spec hop hl₁
  rw [List.foldl_append, List.foldl_cons, List.foldl_nil, hspec] at hl
  obtain rfl := Option.some.inj hl
  simp only [AccountOp.run, analyzeMode, hc, hmode] at ht ⊢
  have hw : Watched w.cfg (ac₁.withUsage usage) := by
    simpa only [Watched, Account.withUsage, hinv₁.id_eq] using hwatched
  exact (hinv₁.withUsage usage).accountAnalyze_deadline hcfg hlevels hw ht

theorem period_mode_agreement_sample :
    ∃ ac', (sampleOps.foldl (AccountOp.apply sampleUser)
        (sampleWorld false)).accounts.lookup sampleUser = some ac' ∧
      ac'.users = [sampleUser] ∧
      PeriodAgreement (shippedConfig false) ac'
        (sampleOps.foldl (AccountOp.apply sampleUser) (sampleWorld false)).globals ∧
      ∀ now usage, sampleOps.getLast? = some (.tick now usage) → ac'.timeout ≠ 0 →
        now < ac'.startCount + ac'.timeout :=
  period_mode_agreement (sampleWorld false) sampleUser sampleAccount (sampleWorld_lookup false)
    sampleAccount_fresh (shippedConfig_enforcing false) rfl (shippedConfig_levels false)
    (by decide) sampleOps (sampleOps_admissible false)

end DbGovernor
