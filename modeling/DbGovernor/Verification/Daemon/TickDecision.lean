import DbGovernor.Verification.Daemon.Sampling

/-!
# What a tick does to one account

Before the decisions users may join the account and its figures are replaced; then it is decided
about once, and before and after that only users of other accounts are addressed.
-/

namespace DbGovernor

/-- `ac` is the account `old` with new users at the end and other figures. -/
structure Gathered (w : World) (old ac : Account) : Prop where
  id_eq : ac.id = old.id
  timeout_eq : ac.timeout = old.timeout
  startCount_eq : ac.startCount = old.startCount
  restricted_eq : ac.restricted = old.restricted
  users_eq : ∃ joined, ac.users = old.users ++ joined ∧ ∀ u ∈ joined, w.users.lookup u = none

/-- The entry of an account, or the one that `init_account` would make. -/
def World.accountOrNew (w : World) (a : Username) : Account :=
  (w.accounts.lookup a).getD (initAccount a)

section Pass

variable {f : GovernorConfig → Account → Globals → Account × Globals}

/-- A pass over the accounts writes the accounts and the statics. -/
theorem foldl_onAccount_frame (f : GovernorConfig → Account → Globals → Account × Globals)
    (keys : List Username) (w : World) :
    ∃ accounts globals, keys.foldl (World.onAccount f) w =
      { w with accounts := accounts, globals := globals } := by
  induction keys generalizing w with
  | nil => exact ⟨_, _, rfl⟩
  | cons key keys ih =>
      cases hac : w.accounts.lookup key with
      | none =>
          rw [List.foldl_cons, onAccount_of_none hac]
          exact ih w
      | some ac =>
          rw [List.foldl_cons, World.onAccount_of_lookup hac]
          obtain ⟨accounts, globals, heq⟩ := ih (w.setAccount key (f w.cfg ac w.globals))
          exact ⟨accounts, globals, heq⟩

theorem foldl_onAccount_globals (hf : ∀ cfg ac g, (f cfg ac g).2 = g) (keys : List Username)
    (w : World) : (keys.foldl (World.onAccount f) w).globals = w.globals := by
  refine List.foldlRecOn (motive := fun (v : World) => v.globals = w.globals) keys _ rfl ?_
  intro v hv key _
  cases hac : v.accounts.lookup key with
  | none =>
      rw [onAccount_of_none hac]
      exact hv
  | some ac =>
      rw [World.onAccount_of_lookup hac, World.setAccount]
      exact (hf v.cfg ac v.globals).trans hv

end Pass

theorem analyzeMode_apply (cfg : GovernorConfig) (now : ℤ) (ac : Account) (g : Globals) :
    (if cfg.restrictMode then accountAnalyzeLimit cfg now else accountAnalyze cfg now) ac g =
      analyzeMode cfg now ac g := by
  rw [analyzeMode]
  split <;> rfl

section Tick

variable {w : World} {a : Username} {ac : Account}

/-- Up to the decisions the statics, the configuration and the sending side are left alone. -/
theorem gatherStats_frame (h : DaemonInv w) (t : TickInput) :
    SameFrame { w with tickId := w.tickId + 1 } (gatherStats t w) := by
  have hs := (sampled_sampleUsers h t).frame
  obtain ⟨accounts, globals, heq⟩ := foldl_onAccount_frame
    (fun _ ac g => (calcAccStats (sampleUsers t w).users ac, g))
    (t.ordSums.order (sampleUsers t w).accounts.keys) (sampleUsers t w)
  have hglobals := foldl_onAccount_globals
    (f := fun _ ac g => (calcAccStats (sampleUsers t w).users ac, g)) (fun _ _ _ => rfl)
    (t.ordSums.order (sampleUsers t w).accounts.keys) (sampleUsers t w)
  rw [← gatherStats_eq] at heq hglobals
  refine ⟨?_, ?_, ?_, hglobals.trans hs.globals, ?_, ?_⟩
  · rw [heq]
    exact hs.cfg
  · rw [heq]
    exact hs.tickId
  · rw [heq]
    exact hs.userMap
  · rw [heq]
    exact hs.sender
  · rw [heq]
    exact hs.mysql

theorem calcAccStats_state (users : HashTable UserStats) (ac : Account) :
    (calcAccStats users ac).id = ac.id ∧ (calcAccStats users ac).timeout = ac.timeout ∧
      (calcAccStats users ac).startCount = ac.startCount ∧
      (calcAccStats users ac).restricted = ac.restricted ∧
      (calcAccStats users ac).users = ac.users := by
  rw [calcAccStats]
  split <;> exact ⟨rfl, rfl, rfl, rfl, rfl⟩

/-- An account before the decisions is the old one with the users that joined it. -/
theorem gathered_gatherStats (h : DaemonInv w) (t : TickInput)
    (ha : (gatherStats t w).accounts.lookup a = some ac) : Gathered w (w.accountOrNew a) ac := by
  rw [gatherStats_accounts, (sampled_sampleUsers h t).accounts, joinAccount_eq] at ha
  obtain ⟨bc, hb, rfl⟩ := Option.map_eq_some_iff.mp ha
  obtain ⟨hid, ht, hs, hr, husers⟩ := calcAccStats_state (sampleUsers t w).users bc
  have hunknown : ∀ u ∈ newcomers { w with tickId := w.tickId + 1 } a
      (t.ordCounters.order w.counters.keys), w.users.lookup u = none := by
    intro u hu
    have hnew := (List.mem_filter.mp hu).2
    rw [Bool.and_eq_true] at hnew
    exact Option.isNone_iff_eq_none.mp hnew.1
  split at hb
  · have hold : w.accountOrNew a = bc := by
      rw [World.accountOrNew]
      change w.accounts.lookup a = some bc at hb
      rw [hb]
      rfl
    rw [hold]
    exact ⟨hid, ht, hs, hr, [], by simpa using husers, by simp⟩
  · obtain rfl := Option.some.inj hb
    exact ⟨hid, ht, hs, hr, _, husers, hunknown⟩

/-- The accounts that were there are still there before the decisions. -/
theorem gatherStats_lookup_isSome (h : DaemonInv w) (t : TickInput)
    (ha : (w.accounts.lookup a).isSome) : ((gatherStats t w).accounts.lookup a).isSome := by
  obtain ⟨old, hold⟩ := Option.isSome_iff_exists.mp ha
  rw [gatherStats_accounts, (sampled_sampleUsers h t).accounts]
  change ((joinAccount a (w.accounts.lookup a) _).map _).isSome
  rw [hold, joinAccount_some]
  rfl

/-- The one decision of a tick about an account. -/
theorem proceedAccounts_visit (h : DaemonInv w) (t : TickInput)
    (ha : (gatherStats t w).accounts.lookup a = some ac) :
    ∃ g, g.Ready ∧ Silent ac.users w.globals g ∧
      (proceedAccounts t w).accounts.lookup a = some (analyzeMode w.cfg t.now ac g).1 ∧
      Silent ac.users (analyzeMode w.cfg t.now ac g).2 (proceedAccounts t w).globals := by
  have hframe := gatherStats_frame h t
  obtain ⟨g, hg, hs, hl, hs'⟩ := foldl_onAccount_visit
    (fun cfg ac _ hg => analyzeMode_keeps (gatherStats t w).cfg.restrictMode t.now cfg ac hg)
    (h.gatherStats t).toOwned ha (t.ordAnalyze.order_nodup _) (t.ordAnalyze.mem_order ha)
  have hcfg : (gatherStats t w).cfg = w.cfg := hframe.cfg
  have hglobals : (gatherStats t w).globals = w.globals := hframe.globals
  have hmode : ∀ g, (if (gatherStats t w).cfg.restrictMode then
      accountAnalyzeLimit (gatherStats t w).cfg t.now
      else accountAnalyze (gatherStats t w).cfg t.now) ac g = analyzeMode w.cfg t.now ac g := by
    intro g
    rw [hcfg, analyzeMode_apply]
  rw [hmode] at hl hs'
  rw [hglobals] at hs
  obtain ⟨g', -, hlog, heq⟩ := proceedAccounts_spec t w
  rw [heq]
  exact ⟨g, hg, hs, hl, hs'.congr hlog⟩

/-- The decisions make no account. -/
theorem gatherStats_of_proceedAccounts (t : TickInput)
    (ha : (proceedAccounts t w).accounts.lookup a = some ac) :
    ((gatherStats t w).accounts.lookup a).isSome := by
  obtain ⟨g', -, -, heq⟩ := proceedAccounts_spec t w
  rw [heq, analyzeAccounts] at ha
  by_contra hnone
  have hnone' := Option.not_isSome_iff_eq_none.mp hnone
  have hbad := ha.symm.trans (foldl_onAccount_of_none hnone' _)
  cases hbad

end Tick

end DbGovernor
