import DbGovernor.Verification.Restrict.Operations
import Mathlib.Tactic.TFAE

/-!
# Limit mode

An account is either at rest or under a restriction, and five pieces of state say which.
Over a run of ticks the restriction has a closed form: it lasts until `l_unlimit` seconds
after the last tick over a limit.
-/

namespace DbGovernor

/-- The two states of an account in limit mode. -/
inductive LimitState (limit : ℤ) (ac : Account) (g : Globals) : Prop where
  | idle (restricted : ac.restricted = 0) (timeout : ac.timeout = 0)
      (startCount : ac.startCount = 0) (period : ac.info.fieldRestrict = .noPeriod)
      (thawed : Thawed ac g)
  | active (restricted : ac.restricted = 1000) (timeout : ac.timeout = limit)
      (startCount : 0 < ac.startCount) (period : ac.info.fieldRestrict ≠ .noPeriod)
      (frozen : Frozen ac g)

/-- `Ready` and one of the two states, on a given list of users. -/
structure LimitInv (cfg : GovernorConfig) (users : List Username) (ac : Account)
    (g : Globals) : Prop where
  users_eq : ac.users = users
  ready : g.Ready
  state : LimitState (intOfUnsigned cfg.lUnlimit) ac g

theorem Fresh.limitInv {cfg : GovernorConfig} {ac : Account} {g : Globals} (h : Fresh ac g) :
    LimitInv cfg ac.users ac g :=
  ⟨rfl, h.ready, .idle h.restricted h.timeout h.startCount (by rw [h.info]) h.thawed⟩

section Steps

variable {cfg : GovernorConfig} {users : List Username} {ac : Account} {g : Globals}

/-- Statistics play no part in the state of an account. -/
theorem LimitInv.withUsage (h : LimitInv cfg users ac g) (u : Usage) :
    LimitInv cfg users (ac.withUsage u) g := by
  refine ⟨h.users_eq, h.ready, ?_⟩
  cases h.state with
  | idle hr ht hs hp hf => exact .idle hr ht hs hp hf
  | active hr ht hs hp hf => exact .active hr ht hs hp hf

theorem LimitInv.restrictPeriodLimit (h : LimitInv cfg users ac g) (he : cfg.Enforcing) {now : ℤ}
    (hnow : 0 < now) (cur : GovernorsFieldName) {period : GovernorsPeriodName}
    (field : GovernorsFieldName) (hp : period ≠ .noPeriod) :
    LimitInv cfg users (restrictPeriodLimit cfg now cur period field ac g).1
      (restrictPeriodLimit cfg now cur period field ac g).2 := by
  have hq := restrictPeriodLimit_enqueues he now cur period field ac h.ready
  refine ⟨h.users_eq, hq.ready, .active rfl rfl hnow hp ?_⟩
  cases h.state with
  | idle hr _ _ _ _ =>
      rw [restrictCommands, if_pos hr] at hq
      exact hq.frozen
  | active hr _ _ _ hf =>
      rw [restrictCommands, if_neg (by omega)] at hq
      exact hq.frozen_of_nil hf

theorem LimitInv.unrestrictLimit (h : LimitInv cfg users ac g) (he : cfg.Enforcing) :
    LimitInv cfg users (unrestrictLimit cfg ac g).1 (unrestrictLimit cfg ac g).2 := by
  have hq := accountUnrestrict_enqueues he (DbGovernor.unrestrictLimit cfg ac g).1 h.ready
  exact ⟨h.users_eq, hq.ready, .idle rfl rfl rfl rfl hq.thawed⟩

theorem LimitInv.accountAnalyzeLimit (h : LimitInv cfg users ac g) (he : cfg.Enforcing) {now : ℤ}
    (hnow : 0 < now) :
    LimitInv cfg users (accountAnalyzeLimit cfg now ac g).1
      (accountAnalyzeLimit cfg now ac g).2 := by
  have ho := accountAnalyzeLimit_outcome he.useLve he.allLve now ac g
  generalize DbGovernor.accountAnalyzeLimit cfg now ac g = r at ho ⊢
  cases ho with
  | ignored _ => exact h
  | stuck _ _ => exact h
  | kept _ _ _ => exact h
  | restricted cur period field _ _ hp => exact h.restrictPeriodLimit he hnow cur field hp
  | released _ _ _ _ => exact h.unrestrictLimit he

theorem LimitInv.dbctlRestrictAccount (h : LimitInv cfg users ac g) (he : cfg.Enforcing)
    (hmode : cfg.restrictMode = true) {now : ℤ} (hnow : 0 < now) (command : DbCtlCommand) :
    LimitInv cfg users (dbctlRestrictAccount cfg now command ac g).1
      (dbctlRestrictAccount cfg now command ac g).2 := by
  have hq := dbctlRestrictAccount_enqueues he now command ac h.ready
  rw [dbctlRestrictAccount_limit hmode]
  exact ⟨h.users_eq, hq.ready, .active rfl rfl hnow (by simp) hq.frozen⟩

theorem LimitInv.dbctlUnrestrictSet (h : LimitInv cfg users ac g) (he : cfg.Enforcing) (now : ℤ)
    (command : DbCtlCommand) :
    LimitInv cfg users (dbctlUnrestrictSet cfg now command ac g).1
      (dbctlUnrestrictSet cfg now command ac g).2 := by
  by_cases hid : ac.id = command.username
  · rw [dbctlUnrestrictSet_of_named hid]
    have hq := accountUnrestrict_enqueues he (clearAccount ac) h.ready
    exact ⟨h.users_eq, hq.ready, .idle rfl rfl rfl rfl hq.thawed⟩
  · simpa [DbGovernor.dbctlUnrestrictSet, hid] using h

theorem LimitInv.dbctlUnrestrictAllSet (h : LimitInv cfg users ac g) (he : cfg.Enforcing)
    (hlimit : Seconds cfg.lUnlimit) :
    LimitInv cfg users (dbctlUnrestrictAllSet cfg ac g).1 (dbctlUnrestrictAllSet cfg ac g).2 := by
  cases h.state with
  | idle hr ht hs hp hf =>
      simp only [DbGovernor.dbctlUnrestrictAllSet, ht]
      exact ⟨h.users_eq, h.ready, .idle rfl rfl rfl rfl hf⟩
  | active hr ht hs hp hf =>
      have hne : ac.timeout ≠ 0 := by
        rw [ht]
        exact hlimit.intOfUnsigned_pos.ne'
      have hq := accountUnrestrict_enqueues he ac h.ready
      simp only [DbGovernor.dbctlUnrestrictAllSet, if_pos hne]
      exact ⟨h.users_eq, hq.ready, .idle rfl rfl rfl rfl hq.thawed⟩

theorem LimitInv.run (h : LimitInv cfg users ac g) (he : cfg.Enforcing)
    (hmode : cfg.restrictMode = true) (hlimit : Seconds cfg.lUnlimit)
    {table : HashTable UserStats} (op : AccountOp) (hop : op.Admissible table) :
    LimitInv cfg users (op.run cfg ac g).1 (op.run cfg ac g).2 := by
  cases op with
  | tick now usage =>
      simp only [AccountOp.run, analyzeMode, hmode, if_true]
      exact (h.withUsage usage).accountAnalyzeLimit he hop
  | restrict now command =>
      rw [AccountOp.run]
      split
      · exact h.dbctlRestrictAccount he hmode hop.1 command
      · exact h
  | unrestrict now command => exact h.dbctlUnrestrictSet he now command
  | unrestrictAll => exact h.dbctlUnrestrictAllSet he hlimit

end Steps

/-! ### The five pieces of state agree -/

/-- The five signs of a restriction are equivalent, and without them the account is at rest. -/
structure LimitAgreement (ac : Account) (g : Globals) : Prop where
  signs : List.TFAE [
    ac.restricted = 1000,
    ac.timeout ≠ 0,
    ac.startCount ≠ 0,
    ac.info.fieldRestrict ≠ .noPeriod,
    ∀ u ∈ ac.users, lastCommand u g.enqueued = some .freeze]
  rest : ac.timeout = 0 → ac.restricted = 0 ∧ ac.timeout = 0 ∧ ac.startCount = 0

theorem LimitInv.agreement {cfg : GovernorConfig} {users : List Username} {ac : Account}
    {g : Globals} (h : LimitInv cfg users ac g) (hlimit : Seconds cfg.lUnlimit)
    (hne : users ≠ []) : LimitAgreement ac g := by
  cases h.state with
  | idle hr ht hs hp hf =>
      have hfrozen : ¬ ∀ u ∈ ac.users, lastCommand u g.enqueued = some .freeze :=
        hf.not_frozen (h.users_eq ▸ hne)
      refine ⟨?_, fun _ => ⟨hr, ht, hs⟩⟩
      tfae_have 1 → 2 := by omega
      tfae_have 2 → 3 := by omega
      tfae_have 3 → 4 := by omega
      tfae_have 4 → 5 := fun hp' => absurd hp hp'
      tfae_have 5 → 1 := fun hall => absurd hall hfrozen
      tfae_finish
  | active hr ht hs hp hf =>
      have htimeout : ac.timeout ≠ 0 := by
        rw [ht]
        exact hlimit.intOfUnsigned_pos.ne'
      refine ⟨?_, fun h0 => absurd h0 htimeout⟩
      tfae_have 1 → 2 := fun _ => htimeout
      tfae_have 2 → 3 := fun _ => hs.ne'
      tfae_have 3 → 4 := fun _ => hp
      tfae_have 4 → 5 := fun _ => hf
      tfae_have 5 → 1 := fun _ => hr
      tfae_finish

/-- In limit mode the signs of a restriction agree after every run of ticks and commands
on a fresh account. The clock only has to be positive. -/
theorem limit_mode_agreement (w : World) (a : Username) (ac : Account)
    (hac : w.accounts.lookup a = some ac) (hfresh : Fresh ac w.globals)
    (hcfg : w.cfg.Enforcing) (hmode : w.cfg.restrictMode = true)
    (hlimit : Seconds w.cfg.lUnlimit) (ops : List AccountOp)
    (hops : ∀ op ∈ ops, op.Admissible w.users) :
    ∃ ac', (ops.foldl (AccountOp.apply a) w).accounts.lookup a = some ac' ∧
      ac'.users = ac.users ∧
      LimitAgreement ac' (ops.foldl (AccountOp.apply a) w).globals := by
  have hstep : ∀ op : AccountOp, op.Admissible w.users → ∀ ac' g,
      LimitInv w.cfg ac.users ac' g →
      LimitInv w.cfg ac.users (op.run w.cfg ac' g).1 (op.run w.cfg ac' g).2 :=
    fun op hop _ _ hinv => hinv.run hcfg hmode hlimit op hop
  obtain ⟨-, -, ac', hl, hinv⟩ := AccountOp.run_invariant hstep rfl rfl hac hfresh.limitInv hops
  exact ⟨ac', hl, hinv.users_eq, hinv.agreement hlimit hfresh.users⟩

theorem limit_mode_agreement_sample :
    ∃ ac', (sampleOps.foldl (AccountOp.apply sampleUser)
        (sampleWorld true)).accounts.lookup sampleUser = some ac' ∧
      ac'.users = [sampleUser] ∧
      LimitAgreement ac'
        (sampleOps.foldl (AccountOp.apply sampleUser) (sampleWorld true)).globals :=
  limit_mode_agreement (sampleWorld true) sampleUser sampleAccount (sampleWorld_lookup true)
    sampleAccount_fresh (shippedConfig_enforcing true) rfl (by decide : Seconds 60) sampleOps
    (sampleOps_admissible true)

/-! ### The closed form of a run -/

/-- One call of `account_analyze_limit`, with the limits and the statistics it finds. -/
structure LimitTick where
  cfg : GovernorConfig
  usage : Usage
  now : ℤ

def LimitTick.apply (s : Account × Globals) (t : LimitTick) : Account × Globals :=
  accountAnalyzeLimit t.cfg t.now (s.1.withUsage t.usage) s.2

/-- Some period reports a field at this tick. -/
def LimitTick.Over (id : Username) (t : LimitTick) : Prop :=
  OverLimit (configGetAccountLimit t.cfg id) ((initAccount id).withUsage t.usage)

instance (id : Username) (t : LimitTick) : Decidable (t.Over id) :=
  inferInstanceAs (Decidable (OverLimit _ _))

/-- The conditions of limit mode with the period `limit`, on an account that is not ignored. -/
structure LimitTick.Enforced (limit : UInt32) (id : Username) (t : LimitTick) : Prop where
  useLve : t.cfg.useLve = true
  allLve : t.cfg.allLve = false
  lUnlimit : t.cfg.lUnlimit = limit
  mode : (configGetAccountLimit t.cfg id).mode ≠ .ignoreMode
  clock : 0 < t.now

/-- The last tick over a limit. -/
def lastOver (id : Username) (ticks : List LimitTick) : Option LimitTick :=
  KeyedLog.last (fun t => decide (t.Over id)) true ticks

theorem lastOver_append_singleton (id : Username) (ticks : List LimitTick) (t : LimitTick) :
    lastOver id (ticks ++ [t]) = if t.Over id then some t else lastOver id ticks := by
  simp [lastOver]

/-- The state of an account after a run, told by the last tick over a limit. -/
inductive LimitHistory (limit : ℤ) (ticks : List LimitTick) (ac : Account) : Prop where
  | idle (timeout : ac.timeout = 0)
      (past : ∀ last, lastOver ac.id ticks = some last → ∃ t ∈ ticks, last.now + limit ≤ t.now)
  | active (last : LimitTick) (is_last : lastOver ac.id ticks = some last)
      (timeout : ac.timeout = limit) (startCount : ac.startCount = last.now)
      (mem : last ∈ ticks) (future : ∀ t ∈ ticks, t.now < last.now + limit)

section History

variable {limit : UInt32} {ticks : List LimitTick} {ac : Account} {g : Globals} {t : LimitTick}

theorem LimitHistory.step_over (ht : t.Enforced limit ac.id) (hover : t.Over ac.id)
    (hL : Seconds limit) (hmono : ∀ t' ∈ ticks, t'.now ≤ t.now)
    (hstart : ac.timeout = 0 ∨ 0 < ac.startCount) :
    LimitHistory (intOfUnsigned limit) (ticks ++ [t]) (t.apply (ac, g)).1 := by
  have ho := accountAnalyzeLimit_outcome ht.useLve ht.allLve t.now (ac.withUsage t.usage) g
  rw [LimitTick.apply]
  generalize accountAnalyzeLimit t.cfg t.now (ac.withUsage t.usage) g = r at ho ⊢
  cases ho with
  | ignored hw => exact absurd ht.mode hw
  | stuck h0 hs =>
      exact absurd hstart (not_or.mpr ⟨h0, not_lt.mpr hs⟩)
  | kept _ he _ => exact absurd hover he
  | released _ he _ _ => exact absurd hover he
  | restricted cur period field _ _ _ =>
      refine .active t ?_ ?_ rfl (by simp) ?_
      · exact (lastOver_append_singleton _ _ _).trans (if_pos hover)
      · exact congrArg intOfUnsigned ht.lUnlimit
      · intro t' ht'
        have hpos := hL.intOfUnsigned_pos
        rcases List.mem_append.mp ht' with hmem | hmem
        · have := hmono t' hmem
          omega
        · rw [List.mem_singleton.mp hmem]
          omega

theorem LimitHistory.step_quiet (h : LimitHistory (intOfUnsigned limit) ticks ac)
    (ht : t.Enforced limit ac.id) (hquiet : ¬ t.Over ac.id) (hL : Seconds limit)
    (hclock : ∀ t' ∈ ticks, 0 < t'.now) :
    LimitHistory (intOfUnsigned limit) (ticks ++ [t]) (t.apply (ac, g)).1 := by
  have hlast : lastOver ac.id (ticks ++ [t]) = lastOver ac.id ticks :=
    (lastOver_append_singleton _ _ _).trans (if_neg hquiet)
  have ho := accountAnalyzeLimit_outcome ht.useLve ht.allLve t.now (ac.withUsage t.usage) g
  rw [LimitTick.apply]
  generalize accountAnalyzeLimit t.cfg t.now (ac.withUsage t.usage) g = r at ho ⊢
  have hidle : ac.timeout = 0 →
      LimitHistory (intOfUnsigned limit) (ticks ++ [t]) (ac.withUsage t.usage) := by
    intro h0
    refine .idle h0 ?_
    intro last hl
    cases h with
    | idle _ past =>
        obtain ⟨t', hmem, hle⟩ := past last (hlast ▸ hl)
        exact ⟨t', List.mem_append_left _ hmem, hle⟩
    | active _ _ htimeout _ _ _ =>
        exact absurd (htimeout.symm.trans h0) hL.intOfUnsigned_pos.ne'
  cases ho with
  | ignored hw => exact absurd ht.mode hw
  | restricted _ _ _ _ he _ => exact absurd he hquiet
  | stuck h0 hs =>
      cases h with
      | idle h0' _ => exact absurd h0' h0
      | active last _ _ hstart hmem _ =>
          have hpos : 0 < ac.startCount := hstart ▸ hclock last hmem
          exact absurd hs (not_le.mpr hpos)
  | kept _ _ hin =>
      by_cases h0 : ac.timeout = 0
      · exact hidle h0
      · have hlt : t.now < ac.startCount + ac.timeout := hin.resolve_left h0
        cases h with
        | idle h0' _ => exact absurd h0' h0
        | active last hl htimeout hstart hmem future =>
            refine .active last (hlast.trans hl) htimeout hstart (List.mem_append_left _ hmem) ?_
            intro t' ht'
            rcases List.mem_append.mp ht' with hmem | hmem
            · exact future t' hmem
            · rwa [List.mem_singleton.mp hmem, ← hstart, ← htimeout]
  | released _ _ h0 hle =>
      cases h with
      | idle h0' _ => exact absurd h0' h0
      | active last hl htimeout hstart _ _ =>
          refine .idle rfl fun last' hl' => ⟨t, by simp, ?_⟩
          obtain rfl : last = last' := Option.some.inj (hl.symm.trans (hlast.symm.trans hl'))
          rw [← hstart, ← htimeout]
          exact hle

end History

theorem LimitTick.apply_id (s : Account × Globals) (t : LimitTick) {limit : UInt32} {id : Username}
    (ht : t.Enforced limit id) : (t.apply s).1.id = s.1.id := by
  have ho := accountAnalyzeLimit_outcome ht.useLve ht.allLve t.now (s.1.withUsage t.usage) s.2
  rw [LimitTick.apply]
  generalize accountAnalyzeLimit t.cfg t.now (s.1.withUsage t.usage) s.2 = r at ho ⊢
  cases ho <;> rfl

/-- From an account at rest, every run leaves the state that its last tick over a limit tells. -/
theorem limitHistory_run {limit : UInt32} (hL : Seconds limit) (ac : Account) (g : Globals)
    (h0 : ac.timeout = 0) (ticks : List LimitTick)
    (henf : ∀ t ∈ ticks, t.Enforced limit ac.id)
    (hmono : ticks.Pairwise fun t t' => t.now ≤ t'.now) :
    (ticks.foldl LimitTick.apply (ac, g)).1.id = ac.id ∧
      LimitHistory (intOfUnsigned limit) ticks (ticks.foldl LimitTick.apply (ac, g)).1 := by
  induction ticks using List.reverseRecOn with
  | nil => exact ⟨rfl, .idle h0 (by simp [lastOver])⟩
  | append_singleton ticks t ih =>
      obtain ⟨hpre, -, hle⟩ := List.pairwise_append.mp hmono
      obtain ⟨hid, hist⟩ := ih (fun t' ht' => henf t' (List.mem_append_left _ ht')) hpre
      have ht := henf t (by simp)
      rw [List.foldl_append, List.foldl_cons, List.foldl_nil]
      generalize ticks.foldl LimitTick.apply (ac, g) = s at hid hist ⊢
      refine ⟨(LimitTick.apply_id s t ht).trans hid, ?_⟩
      rw [← hid] at ht
      have hclock : ∀ t' ∈ ticks, 0 < t'.now := fun t' ht' =>
        (henf t' (List.mem_append_left _ ht')).clock
      by_cases hover : t.Over s.1.id
      · refine LimitHistory.step_over ht hover hL (fun t' ht' => hle t' ht' t (by simp)) ?_
        cases hist with
        | idle htimeout _ => exact .inl htimeout
        | active last _ _ hstart hmem _ => exact .inr (hstart ▸ hclock last hmem)
      · exact hist.step_quiet ht hover hL hclock

/-- After a run that ends at `tn` the account is restricted exactly when some tick was over a
limit and `tn` comes less than the limit period after the last of them. -/
theorem limit_mode_closed_form (limit : UInt32) (hL : Seconds limit) (ac : Account) (g : Globals)
    (h0 : ac.timeout = 0) (ticks : List LimitTick) (tn : LimitTick)
    (henf : ∀ t ∈ ticks ++ [tn], t.Enforced limit ac.id)
    (hmono : (ticks ++ [tn]).Pairwise fun t t' => t.now ≤ t'.now) :
    ((ticks ++ [tn]).foldl LimitTick.apply (ac, g)).1.timeout ≠ 0 ↔
      ∃ last, lastOver ac.id (ticks ++ [tn]) = some last ∧ tn.now < last.now + limit.toNat := by
  obtain ⟨hid, hist⟩ := limitHistory_run hL ac g h0 (ticks ++ [tn]) henf hmono
  rw [← hid, ← hL.intOfUnsigned_eq]
  have hmax : ∀ t ∈ ticks ++ [tn], t.now ≤ tn.now := by
    intro t ht
    rcases List.mem_append.mp ht with hmem | hmem
    · exact (List.pairwise_append.mp hmono).2.2 t hmem tn (by simp)
    · rw [List.mem_singleton.mp hmem]
  cases hist with
  | idle htimeout past =>
      refine ⟨fun h => absurd htimeout h, ?_⟩
      rintro ⟨last, hl, hlt⟩
      obtain ⟨t, hmem, hle⟩ := past last hl
      have := hmax t hmem
      omega
  | active last hl htimeout _ _ future =>
      have hne : intOfUnsigned limit ≠ 0 := hL.intOfUnsigned_pos.ne'
      exact ⟨fun _ => ⟨last, hl, future tn (by simp)⟩, fun _ => htimeout ▸ hne⟩

/-- A tick of the shipped configuration. -/
def sampleTick (cpu : ℚ) (now : ℤ) : LimitTick := ⟨shippedConfig true, cpuUsage cpu, now⟩

theorem limit_mode_closed_form_sample :
    (([sampleTick 5 100] ++ [sampleTick 0 159]).foldl LimitTick.apply
        (sampleAccount, .init)).1.timeout ≠ 0 ↔
      ∃ last, lastOver sampleUser ([sampleTick 5 100] ++ [sampleTick 0 159]) = some last ∧
        159 < last.now + 60 :=
  limit_mode_closed_form 60 (by decide) sampleAccount .init rfl [sampleTick 5 100]
    (sampleTick 0 159)
    (by
      intro t ht
      rcases List.mem_pair.mp ht with rfl | rfl <;>
        exact ⟨rfl, rfl, rfl, by decide, by decide⟩)
    (by simp [sampleTick])

end DbGovernor
