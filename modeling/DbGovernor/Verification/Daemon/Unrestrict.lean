import DbGovernor.Verification.Daemon.MapRefresh
import DbGovernor.Verification.Daemon.QuietTick
import DbGovernor.Verification.Daemon.TickDecision
import DbGovernor.Verification.Shared.Runs

/-!
# A manual unrestrict

The unrestrict commands clear the figures of an account, but the rings of its users keep
their samples, and the next tick sums them up again. Without new traffic the account stays
released exactly when what the rings leave over is within its limits.
-/

namespace DbGovernor

/-- What the rings of the users of an account show at the next tick without traffic. -/
def accountResidual (w : World) (ac : Account) : Usage :=
  Usage.total (ac.users.map (nextUsage w.cfg w.users))

/-! ### One tick -/

section Tick

variable {w : World}

/-- Users that join an account bring no usage. -/
theorem total_nextUsage_joined {cfg : GovernorConfig} {users : HashTable UserStats}
    {ids joined : List Username} (hne : ids ≠ []) (h : ∀ v ∈ joined, users.lookup v = none) :
    Usage.total ((ids ++ joined).map (nextUsage cfg users)) =
      Usage.total (ids.map (nextUsage cfg users)) := by
  rw [List.map_append]
  refine Usage.total_append_zeros (by simpa using hne) ?_ ?_
  · intro x hx
    obtain ⟨u, -, rfl⟩ := List.mem_map.mp hx
    exact rounded_nextUsage cfg users u
  · intro x hx
    obtain ⟨v, hv, rfl⟩ := List.mem_map.mp hx
    simp [nextUsage, h v hv]

/-- An account after the sums of a tick in which `joined` joined it. -/
def Account.gathered (ac : Account) (joined : List Username) (u : Usage) : Account :=
  { ac with users := ac.users ++ joined }.withUsage u

/-- What a tick without traffic does to one account: users may join it, its figures become the
residual, and it is decided about once. -/
theorem proceedAccounts_account (h : DaemonInv w) (hzero : ZeroCounters w) (t : TickInput)
    {a : Username} {ac : Account} (ha : w.accounts.lookup a = some ac) :
    ∃ joined g, (∀ v ∈ joined, w.users.lookup v = none) ∧ g.Ready ∧
      Silent (ac.users ++ joined) w.globals g ∧
      (proceedAccounts t w).accounts.lookup a =
        some (analyzeMode w.cfg t.now (ac.gathered joined (accountResidual w ac)) g).1 ∧
      Silent (ac.users ++ joined)
        (analyzeMode w.cfg t.now (ac.gathered joined (accountResidual w ac)) g).2
        (proceedAccounts t w).globals := by
  obtain ⟨hpass, -⟩ := sampleUsers_spec h hzero t
  obtain ⟨joined, hl, hjoined⟩ := hpass.accounts a ac ha
  have hsum : calcAccStats (sampleUsers t w).users { ac with users := ac.users ++ joined } =
      ac.gathered joined (accountResidual w ac) := by
    have husage : userUsage (sampleUsers t w).users = nextUsage w.cfg w.users :=
      funext (userUsage_sampleUsers h hzero t)
    rw [calcAccStats_eq_total _ (hpass.inv.owns a _ hl).users_ne, husage,
      total_nextUsage_joined (h.owns a ac ha).users_ne hjoined, accountResidual, Account.gathered]
  have hgathered : (gatherStats t w).accounts.lookup a =
      some (ac.gathered joined (accountResidual w ac)) := by
    rw [gatherStats_accounts, hl, Option.map_some, hsum]
  obtain ⟨g, hg, hs, hl', hs'⟩ := proceedAccounts_visit h t hgathered
  exact ⟨joined, g, hjoined, hg, hs, hl', hs'⟩

/-- Another tick without traffic leaves no more over for an account and those that join it. -/
theorem accountResidual_proceedAccounts_le (h : DaemonInv w) (hzero : ZeroCounters w)
    (t : TickInput) {ac ac' : Account} {joined : List Username} (hne : ac.users ≠ [])
    (husers : ac'.users = ac.users ++ joined) (hjoined : ∀ v ∈ joined, w.users.lookup v = none) :
    accountResidual (proceedAccounts t w) ac' ≤ accountResidual w ac := by
  obtain ⟨hpass, -⟩ := sampleUsers_spec h hzero t
  have hbase := proceedAccounts_base t w
  have hcfg : (proceedAccounts t w).cfg = w.cfg := hbase.cfg.trans hpass.cfg_eq
  calc accountResidual (proceedAccounts t w) ac'
      = Usage.total ((ac.users ++ joined).map (nextUsage w.cfg (sampleUsers t w).users)) := by
        rw [accountResidual, hcfg, hbase.users, husers]
    _ ≤ Usage.total ((ac.users ++ joined).map (nextUsage w.cfg w.users)) := by
        refine Usage.total_mono (List.forall₂_map_left_iff.mpr (List.forall₂_map_right_iff.mpr ?_))
        exact List.forall₂_same.mpr fun u _ => nextUsage_sampleUsers_le h hzero t u
    _ = accountResidual w ac := total_nextUsage_joined hne hjoined

end Tick

/-! ### Decisions about a released account -/

section Decision

variable {cfg : GovernorConfig} {ac : Account} {g : Globals}

theorem exceeds_withUsage_congr {ac ac' : Account} (hid : ac.id = ac'.id) (u : Usage) :
    Exceeds cfg (ac.withUsage u) ↔ Exceeds cfg (ac'.withUsage u) := by
  simp only [Exceeds, OverLimit, Account.withUsage, hid]

theorem analyzeMode_of_not_watched (hw : ¬ Watched cfg ac) (now : ℤ) (g : Globals) :
    analyzeMode cfg now ac g = (ac, g) := by
  have hmode : (configGetAccountLimit cfg ac.id).mode = .ignoreMode := not_not.mp hw
  simp [analyzeMode, accountAnalyzeLimit, accountAnalyze, hmode]

/-- A released account within its limits stays released, and nothing is sent. -/
theorem analyzeMode_within (he : cfg.Enforcing) (ht : ac.timeout = 0)
    (hq : ¬ Watched cfg ac ∨ ¬ Exceeds cfg ac) (now : ℤ) (g : Globals) :
    (analyzeMode cfg now ac g).1.timeout = 0 ∧ (analyzeMode cfg now ac g).2 = g := by
  rcases hq with hw | hx
  · rw [analyzeMode_of_not_watched hw]
    exact ⟨ht, rfl⟩
  · rw [analyzeMode]
    split
    · have ho := accountAnalyzeLimit_outcome he.useLve he.allLve now ac g
      generalize accountAnalyzeLimit cfg now ac g = r at ho ⊢
      cases ho with
      | ignored _ => exact ⟨ht, rfl⟩
      | stuck h0 _ => exact absurd ht h0
      | kept _ _ _ => exact ⟨ht, rfl⟩
      | restricted _ _ _ _ hover _ => exact absurd hover hx
      | released _ _ h0 _ => exact absurd ht h0
    · have ho := accountAnalyze_outcome he.useLve he.allLve now ac g
      generalize accountAnalyze cfg now ac g = r at ho ⊢
      cases ho with
      | ignored _ => exact ⟨ht, rfl⟩
      | stuck h0 _ => exact absurd ht h0
      | running h0 _ => exact absurd ht h0
      | quiet _ _ => exact ⟨ht, rfl⟩
      | restricted _ _ _ _ hover _ => exact absurd hover hx
      | renewed _ _ _ h0 _ _ _ => exact absurd ht h0
      | released h0 _ _ => exact absurd ht h0
      | forgiven _ _ _ => exact ⟨rfl, rfl⟩

/-- A cleared account over a limit is frozen. -/
theorem analyzeMode_over (he : cfg.Enforcing) (hg : g.Ready) (ht : ac.timeout = 0)
    (hr : ac.restricted = 0) (hw : Watched cfg ac) (hx : Exceeds cfg ac) (now : ℤ) :
    Enqueues g (broadcast .freeze ac.users) (analyzeMode cfg now ac g).2 := by
  have hcmds : restrictCommands ac = broadcast .freeze ac.users := if_pos hr
  rw [analyzeMode, ← hcmds]
  split
  · have ho := accountAnalyzeLimit_outcome he.useLve he.allLve now ac g
    generalize accountAnalyzeLimit cfg now ac g = r at ho ⊢
    cases ho with
    | ignored hn => exact absurd hw hn
    | stuck h0 _ => exact absurd ht h0
    | kept _ hn _ => exact absurd hx hn
    | restricted cur period field _ _ _ =>
        exact restrictPeriodLimit_enqueues he now cur period field ac hg
    | released _ hn _ _ => exact absurd hx hn
  · have ho := accountAnalyze_outcome he.useLve he.allLve now ac g
    generalize accountAnalyze cfg now ac g = r at ho ⊢
    cases ho with
    | ignored hn => exact absurd hw hn
    | stuck h0 _ => exact absurd ht h0
    | running h0 _ => exact absurd ht h0
    | quiet _ hn => exact absurd hx hn
    | restricted cur period field _ _ _ =>
        exact restrictPeriod_enqueues he now cur period field ac hg
    | renewed _ _ _ h0 _ _ _ => exact absurd ht h0
    | released h0 _ _ => exact absurd ht h0
    | forgiven _ hn _ => exact absurd hx hn

end Decision

/-! ### Runs without traffic -/

inductive QuietStep where
  | increment (u : Username) (cpu read write : ℤ) (tm : ℚ)
  | tick (t : TickInput)

def QuietStep.apply (w : World) : QuietStep → World
  | .increment u cpu read write tm => incrementCounters u cpu read write tm w
  | .tick t => proceedAccounts t w

/-- At a tick every usage counter is zero. -/
def QuietStep.Quiet (w : World) : QuietStep → Prop
  | .increment _ _ _ _ _ => True
  | .tick _ => ZeroCounters w

/-- The account is not restricted, and since `w₀` no FREEZE was enqueued for its users. -/
def StaysReleased (a : Username) (w₀ w : World) : Prop :=
  ∃ ac, w.accounts.lookup a = some ac ∧ ac.timeout = 0 ∧
    ∃ cmds, w.globals.enqueued = w₀.globals.enqueued ++ cmds ∧
      ∀ c ∈ cmds, c.username ∈ ac.users → c.command ≠ .freeze

/-- An unrestrict command for the account. -/
def Unrestricts (ac : Account) : DbctlMessage → Prop
  | .unrestrict command => command.username = ac.id
  | .unrestrictA => True
  | _ => False

/-- The account is ignored, or what the rings of its users leave over is within its limits. -/
def Forgotten (w : World) (ac : Account) : Prop :=
  ¬ Watched w.cfg ac ∨ ¬ Exceeds w.cfg (ac.withUsage (accountResidual w ac))

instance (w : World) (ac : Account) : Decidable (Forgotten w ac) :=
  inferInstanceAs (Decidable (_ ∨ _))

/-- The state of an account that was released in `w₀` with the residual `bound`. -/
structure RestInv (cfg : GovernorConfig) (a : Username) (bound : Usage) (w₀ w : World) : Prop where
  inv : DaemonInv w
  cfg_eq : w.cfg = cfg
  account : ∃ ac, w.accounts.lookup a = some ac ∧ ac.timeout = 0 ∧
    accountResidual w ac ≤ bound ∧ Silent ac.users w₀.globals w.globals

theorem StaysReleased.timeout_eq_zero {a : Username} {w₀ w : World} {ac : Account}
    (h : StaysReleased a w₀ w) (ha : w.accounts.lookup a = some ac) : ac.timeout = 0 := by
  obtain ⟨ac', hl, ht, -⟩ := h
  obtain rfl : ac' = ac := Option.some.inj (hl.symm.trans ha)
  exact ht

section Rest

variable {cfg : GovernorConfig} {a : Username} {bound : Usage} {w₀ w : World} {ac₀ : Account}

theorem RestInv.staysReleased (h : RestInv cfg a bound w₀ w) : StaysReleased a w₀ w := by
  obtain ⟨ac, hl, ht, -, cmds, hlog, hcmds⟩ := h.account
  exact ⟨ac, hl, ht, cmds, hlog, fun c hc hu => absurd hu (hcmds c hc)⟩

theorem RestInv.increment (h : RestInv cfg a bound w₀ w) (u : Username) (cpu read write : ℤ)
    (tm : ℚ) : RestInv cfg a bound w₀ (incrementCounters u cpu read write tm w) := by
  have hinv := h.inv.incrementCounters u cpu read write tm
  cases hu : w.counters.lookup u with
  | none =>
      simp only [incrementCounters, hu] at hinv ⊢
      exact ⟨hinv, h.cfg_eq, h.account⟩
  | some item =>
      simp only [incrementCounters, hu] at hinv ⊢
      exact ⟨hinv, h.cfg_eq, h.account⟩

/-- Commands of the past are for registered users, so none is for a user that joins. -/
theorem Silent.join {users joined : List Username} {g : Globals} (h : Silent users g w.globals)
    (hw : Owned w) (hjoined : ∀ v ∈ joined, w.users.lookup v = none) :
    Silent (users ++ joined) g w.globals := by
  obtain ⟨cmds, hlog, hcmds⟩ := h
  refine ⟨cmds, hlog, ?_⟩
  intro c hc hmem
  rcases List.mem_append.mp hmem with hold | hnew
  · exact hcmds c hc hold
  · have hsome := hw.logged c (hlog ▸ List.mem_append_right _ hc)
    simp [hjoined _ hnew] at hsome

theorem RestInv.tick (h : RestInv cfg a bound w₀ w) (he : cfg.Enforcing) (hid : ac₀.id = a)
    (hquiet : ¬ Watched cfg ac₀ ∨ ¬ Exceeds cfg (ac₀.withUsage bound)) (hzero : ZeroCounters w)
    (t : TickInput) : RestInv cfg a bound w₀ (proceedAccounts t w) := by
  obtain ⟨ac, hl, ht, hle, hsilent⟩ := h.account
  obtain ⟨joined, g, hjoined, hg, hs, hl', hs'⟩ := proceedAccounts_account h.inv hzero t hl
  have hsame : ac.id = ac₀.id := (h.inv.owns a ac hl).id_eq.trans hid.symm
  have hwithin : ¬ Watched cfg (ac.gathered joined (accountResidual w ac)) ∨
      ¬ Exceeds cfg (ac.gathered joined (accountResidual w ac)) := by
    refine hquiet.imp (fun hn hw => hn ?_) fun hn hx => hn ?_
    · simpa only [Watched, Account.gathered, Account.withUsage, hsame] using hw
    · have hx' : Exceeds cfg ({ ac with users := ac.users ++ joined }.withUsage bound) :=
        exceeds_mono hle hx
      exact (exceeds_withUsage_congr hsame bound).mp hx'
  have ht' : (ac.gathered joined (accountResidual w ac)).timeout = 0 := ht
  obtain ⟨htimeout, hglobals⟩ := analyzeMode_within he ht' hwithin t.now g
  have husers := (analyzeMode_keeps cfg.restrictMode t.now cfg
    (ac.gathered joined (accountResidual w ac)) hg).users_eq
  rw [analyzeMode_apply] at husers
  rw [h.cfg_eq] at hl' hs'
  rw [hglobals] at hs'
  generalize (analyzeMode cfg t.now (ac.gathered joined (accountResidual w ac)) g).1 = ac'
    at hl' htimeout husers
  have hpast := hsilent.join h.inv.toOwned hjoined
  have hcfg := (proceedAccounts_base t w).cfg.trans (sampleUsers_spec h.inv hzero t).1.cfg_eq
  refine ⟨h.inv.proceedAccounts t, hcfg.trans h.cfg_eq, ac', hl', htimeout, ?_, ?_⟩
  · have hne := (h.inv.owns a ac hl).users_ne
    exact (accountResidual_proceedAccounts_le h.inv hzero t hne husers hjoined).trans hle
  · rw [husers]
    exact (hpast.trans hs).trans hs'

theorem RestInv.run (h : RestInv cfg a bound w₀ w) (he : cfg.Enforcing) (hid : ac₀.id = a)
    (hquiet : ¬ Watched cfg ac₀ ∨ ¬ Exceeds cfg (ac₀.withUsage bound)) {steps : List QuietStep}
    (hsteps : Runs.Meets QuietStep.apply QuietStep.Quiet w steps) :
    RestInv cfg a bound w₀ (steps.foldl QuietStep.apply w) := by
  have hstep : ∀ w step, RestInv cfg a bound w₀ w → QuietStep.Quiet w step →
      RestInv cfg a bound w₀ (QuietStep.apply w step) := by
    intro w step hw hq
    cases step with
    | increment u cpu read write tm => exact hw.increment u cpu read write tm
    | tick t => exact hw.tick he hid hquiet hq t
  exact hsteps.invariant hstep h

end Rest

/-! ### The command -/

section Command

variable {w : World} {a : Username} {ac : Account} {msg : DbctlMessage}

/-- The unrestrict commands clear the account and leave the users alone. -/
theorem runDbctlCommand_unrestrict (h : Owned w) (he : w.cfg.Enforcing)
    (ha : w.accounts.lookup a = some ac) (hmsg : Unrestricts ac msg) (now : ℤ) (ord : IterOrder) :
    (runDbctlCommand msg now ord w).accounts.lookup a = some (clearAccount ac) ∧
      SameBase w (runDbctlCommand msg now ord w) := by
  cases msg with
  | rereadCfg cfg => exact absurd hmsg id
  | reinitUsersList cfg file => exact absurd hmsg id
  | restrict command => exact absurd hmsg id
  | unrestrict command =>
      obtain ⟨g, -, -, hl, -⟩ := foldl_onAccount_visit
        (fun cfg ac _ hg => dbctlUnrestrictSet_keeps hg cfg now command ac) h ha
        (ord.order_nodup w.accounts) (ord.mem_order ha)
      have hid : ac.id = command.username := Eq.symm hmsg
      rw [dbctlUnrestrictSet_of_named hid] at hl
      rw [runDbctlCommand_unrestrict_eq he]
      exact ⟨hl, foldl_onAccount_base _ _ w⟩
  | unrestrictA =>
      obtain ⟨g, -, -, hl, -⟩ := foldl_onAccount_visit
        (fun cfg ac _ hg => dbctlUnrestrictAllSet_keeps hg cfg ac) h ha
        (ord.order_nodup w.accounts) (ord.mem_order ha)
      rw [runDbctlCommand_unrestrictA_eq he]
      exact ⟨hl, foldl_onAccount_base _ _ w⟩

theorem SameBase.accountResidual {w' : World} (h : SameBase w w') (ac : Account) :
    accountResidual w' (clearAccount ac) = accountResidual w ac := by
  rw [DbGovernor.accountResidual, DbGovernor.accountResidual, h.cfg, h.users]
  rfl

/-- A cleared account is at rest in the state in which it was cleared. -/
theorem RestInv.cleared (h : DaemonInv w) (ha : w.accounts.lookup a = some (clearAccount ac)) :
    RestInv w.cfg a (accountResidual w (clearAccount ac)) w w :=
  ⟨h, rfl, clearAccount ac, ha, rfl, le_refl _, .refl _ _⟩

/-- A cleared account whose rings leave too much over is frozen by the next tick. -/
theorem not_staysReleased_of_over (h : DaemonInv w) (he : w.cfg.Enforcing)
    (hzero : ZeroCounters w) (ha : w.accounts.lookup a = some (clearAccount ac))
    (hw : Watched w.cfg ac)
    (hx : Exceeds w.cfg (ac.withUsage (accountResidual w (clearAccount ac)))) (t : TickInput) :
    ¬ StaysReleased a w (proceedAccounts t w) := by
  rintro ⟨ac', hl', -, cmds, hlog, hcmds⟩
  obtain ⟨joined, g, -, hg, hs, hl, hs'⟩ := proceedAccounts_account h hzero t ha
  generalize hnew : (clearAccount ac).gathered joined (accountResidual w (clearAccount ac)) = acn
    at hl hs'
  have hwn : Watched w.cfg acn := hnew ▸ hw
  have hxn : Exceeds w.cfg acn := hnew ▸ hx
  have hqueue := analyzeMode_over he hg (hnew ▸ rfl) (hnew ▸ rfl) hwn hxn t.now
  have husers := (analyzeMode_keeps w.cfg.restrictMode t.now w.cfg acn hg).users_eq
  rw [analyzeMode_apply] at husers
  obtain rfl : ac' = _ := Option.some.inj (hl'.symm.trans hl)
  obtain ⟨u, hu⟩ := List.exists_mem_of_ne_nil _ (h.owns a _ ha).users_ne
  have hmem : u ∈ acn.users := hnew ▸ List.mem_append_left joined hu
  obtain ⟨past, hpast, -⟩ := hs
  obtain ⟨rest, hrest, -⟩ := hs'
  rw [hrest, hqueue.enqueued, hpast, List.append_assoc, List.append_assoc] at hlog
  have hfreeze : (⟨u, .freeze⟩ : Command) ∈ cmds := by
    rw [← List.append_cancel_left hlog]
    simp [mem_broadcast, hmem]
  exact hcmds _ hfreeze (husers ▸ hmem) rfl

end Command

/-- After an unrestrict command the account stays released through every run without traffic
if its rings are within its limits; if they are not, the next tick freezes it again. -/
theorem unrestrict_holds_iff_forgotten (w : World) (hw : Reachable w) (hcfg : w.cfg.Enforcing)
    (a : Username) (ac : Account) (ha : w.accounts.lookup a = some ac) (msg : DbctlMessage)
    (hmsg : Unrestricts ac msg) (now : ℤ) (ord : IterOrder) :
    (Forgotten w ac → ∀ steps,
      Runs.Meets QuietStep.apply QuietStep.Quiet (runDbctlCommand msg now ord w) steps →
      StaysReleased a (runDbctlCommand msg now ord w)
        (steps.foldl QuietStep.apply (runDbctlCommand msg now ord w))) ∧
    (ZeroCounters w → ¬ Forgotten w ac → ∀ t,
      ¬ StaysReleased a (runDbctlCommand msg now ord w)
        (proceedAccounts t (runDbctlCommand msg now ord w))) := by
  have hinv := hw.daemonInv
  have hinv' := hinv.runDbctlCommand msg now ord
  obtain ⟨hl, hbase⟩ := runDbctlCommand_unrestrict hinv.toOwned hcfg ha hmsg now ord
  have hres := hbase.accountResidual ac
  generalize runDbctlCommand msg now ord w = w' at hinv' hl hbase hres ⊢
  constructor
  · intro hf steps hsteps
    have hquiet : ¬ Watched w'.cfg ac ∨
        ¬ Exceeds w'.cfg (ac.withUsage (accountResidual w' (clearAccount ac))) := by
      rw [hbase.cfg, hres]
      exact hf
    have hrest := (RestInv.cleared hinv' hl).run (hbase.cfg ▸ hcfg)
      (hinv.owns a ac ha).id_eq hquiet hsteps
    exact hrest.staysReleased
  · intro hzero hf t
    have hover := not_or.mp hf
    have hzero' : ZeroCounters w' := by
      rw [ZeroCounters, hbase.counters]
      exact hzero
    have hwatched : Watched w'.cfg ac := by
      rw [hbase.cfg]
      exact not_not.mp hover.1
    have hexceeds : Exceeds w'.cfg (ac.withUsage (accountResidual w' (clearAccount ac))) := by
      rw [hbase.cfg, hres]
      exact not_not.mp hover.2
    exact not_staysReleased_of_over hinv' (hbase.cfg ▸ hcfg) hzero' hl hwatched hexceeds t

/-- At a limit rounding decides: fourteen samples of 0.45 and a zero have a mean over 0.42. -/
example : percentage 42 <
    ((totalStats (0 :: List.replicate 14 ⟨Rounding.fl (45 / 100), 0, 0⟩)).divide 15).cpu := by
  decide +kernel

/-! ### Light and heavy use before an unrestrict -/

theorem zeroCounters_of_entries {w : World}
    (h : ∀ e ∈ w.counters.entries, e.2.s = resetStats) : ZeroCounters w :=
  fun _ _ hu => h _ (AList.mem_lookup_iff.mp hu)

theorem unrestrict_holds_iff_forgotten_sample :
    ∃ ac ∈ (busyWorld 1).accounts.lookup sampleUser, ac.timeout ≠ 0 ∧ ∀ steps,
      Runs.Meets QuietStep.apply QuietStep.Quiet
        (runDbctlCommand (.unrestrict ⟨sampleUser, 0⟩) 1000001 .asListed (busyWorld 1)) steps →
      StaysReleased sampleUser
        (runDbctlCommand (.unrestrict ⟨sampleUser, 0⟩) 1000001 .asListed (busyWorld 1))
        (steps.foldl QuietStep.apply
          (runDbctlCommand (.unrestrict ⟨sampleUser, 0⟩) 1000001 .asListed (busyWorld 1))) := by
  have hlight : ∃ ac ∈ (busyWorld 1).accounts.lookup sampleUser,
      ac.timeout ≠ 0 ∧ sampleUser = ac.id ∧ Forgotten (busyWorld 1) ac := by
    decide +kernel
  obtain ⟨ac, hac, ht, hid, hf⟩ := hlight
  have hcfg : (busyWorld 1).cfg.Enforcing :=
    ⟨by decide +kernel, by decide +kernel, by decide +kernel⟩
  exact ⟨ac, hac, ht, (unrestrict_holds_iff_forgotten (busyWorld 1) (busyWorld_reachable 1)
    hcfg sampleUser ac hac (.unrestrict ⟨sampleUser, 0⟩) hid 1000001 .asListed).1 hf⟩

/-- After fifteen seconds of use the short average stays over its limit, and the tick after
the unrestrict restricts the account again. -/
theorem unrestrict_undone_by_tick :
    ¬ ∀ (w : World) (a : Username) (ac : Account) (msg : DbctlMessage) (now : ℤ)
      (ord : IterOrder) (steps : List QuietStep), Reachable w → w.cfg.Enforcing →
      w.accounts.lookup a = some ac → Unrestricts ac msg →
      Runs.Meets QuietStep.apply QuietStep.Quiet (runDbctlCommand msg now ord w) steps →
      StaysReleased a (runDbctlCommand msg now ord w)
        (steps.foldl QuietStep.apply (runDbctlCommand msg now ord w)) := by
  intro h
  let w := busyWorld 15
  let msg : DbctlMessage := .unrestrict ⟨sampleUser, 0⟩
  let t := sampleTickInput 15
  have hac : ∃ ac ∈ w.accounts.lookup sampleUser, sampleUser = ac.id := by decide +kernel
  obtain ⟨ac, hac, hid⟩ := hac
  have hcfg : w.cfg.Enforcing := ⟨by decide +kernel, by decide +kernel, by decide +kernel⟩
  have hzero : ZeroCounters (runDbctlCommand msg 1000015 .asListed w) :=
    zeroCounters_of_entries (by decide +kernel)
  have hrestricted : ∃ ac ∈ (([.tick t] : List QuietStep).foldl QuietStep.apply
      (runDbctlCommand msg 1000015 .asListed w)).accounts.lookup sampleUser, ac.timeout ≠ 0 := by
    decide +kernel
  obtain ⟨ac', hl', ht'⟩ := hrestricted
  have hstay := h w sampleUser ac msg 1000015 .asListed [.tick t] (busyWorld_reachable 15)
    hcfg hac hid ⟨hzero, trivial⟩
  exact ht' (hstay.timeout_eq_zero hl')

end DbGovernor
