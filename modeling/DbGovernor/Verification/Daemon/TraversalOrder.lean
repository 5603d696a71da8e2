import DbGovernor.Verification.Daemon.TickTrace
import DbGovernor.Verification.Daemon.Usage
import DbGovernor.Verification.Restrict.Verdict

/-!
# The order of the traversals

A tick visits three hash tables, and its result does not depend on the orders of the visits, up
to the order of the users in an account and of the commands for different users.
-/

namespace DbGovernor

/-! ### Agreement -/

/-- Accounts that differ in the order of their users only. -/
structure Account.Similar (ac ac' : Account) : Prop where
  users : ac'.users.Perm ac.users
  rest : ac' = { ac with users := ac'.users }

/-- Statics with the same restriction counters, and with the same commands for each user in the
same order. -/
structure Globals.Agrees (g g' : Globals) : Prop where
  enqueued : ∀ u, commandsFor u g.enqueued = commandsFor u g'.enqueued
  queue : ∀ u, commandsFor u g.queue = commandsFor u g'.queue
  counted : g.dbGovNumberOfRestricts.isSome = g'.dbGovNumberOfRestricts.isSome
  restricts : ∀ a, g.restrictsOf a = g'.restrictsOf a

/-- States that no order of traversal tells apart. -/
structure World.Agrees (w w' : World) : Prop where
  cfg : w.cfg = w'.cfg
  tickId : w.tickId = w'.tickId
  userMap : w.userMap = w'.userMap
  sender : w.sender = w'.sender
  mysql : w.mysql = w'.mysql
  users : ∀ u, w.users.lookup u = w'.users.lookup u
  counters : ∀ u, w.counters.lookup u = w'.counters.lookup u
  homes : ∀ u, w.userAccountTable.lookup u = w'.userAccountTable.lookup u
  accounts : ∀ a, Option.Rel Account.Similar (w.accounts.lookup a) (w'.accounts.lookup a)
  globals : w.globals.Agrees w'.globals

section Agrees

theorem Account.Similar.refl (ac : Account) : ac.Similar ac := ⟨.refl _, rfl⟩

theorem Account.Similar.symm {ac ac' : Account} (h : ac.Similar ac') : ac'.Similar ac :=
  ⟨h.users.symm, by rw [h.rest]⟩

theorem Account.Similar.trans {ac ac' ac'' : Account} (h : ac.Similar ac') (h' : ac'.Similar ac'') :
    ac.Similar ac'' :=
  ⟨h'.users.trans h.users, by rw [h'.rest, h.rest]⟩

theorem Globals.agrees_equivalence : Equivalence Globals.Agrees where
  refl _ := ⟨fun _ => rfl, fun _ => rfl, rfl, fun _ => rfl⟩
  symm h := ⟨fun u => (h.enqueued u).symm, fun u => (h.queue u).symm, h.counted.symm,
    fun a => (h.restricts a).symm⟩
  trans h h' := ⟨fun u => (h.enqueued u).trans (h'.enqueued u),
    fun u => (h.queue u).trans (h'.queue u), h.counted.trans h'.counted,
    fun a => (h.restricts a).trans (h'.restricts a)⟩

theorem similar_equivalence : Equivalence (Option.Rel Account.Similar) where
  refl o := by
    cases o with
    | none => exact .none
    | some ac => exact .some (.refl ac)
  symm h := by
    cases h with
    | none => exact .none
    | some h => exact .some h.symm
  trans h h' := by
    cases h with
    | none => exact h'
    | some h =>
        cases h' with
        | some h' => exact .some (h.trans h')

theorem World.agrees_equivalence : Equivalence World.Agrees where
  refl _ := ⟨rfl, rfl, rfl, rfl, rfl, fun _ => rfl, fun _ => rfl, fun _ => rfl,
    fun _ => similar_equivalence.refl _, Globals.agrees_equivalence.refl _⟩
  symm h := ⟨h.cfg.symm, h.tickId.symm, h.userMap.symm, h.sender.symm, h.mysql.symm,
    fun u => (h.users u).symm, fun u => (h.counters u).symm, fun u => (h.homes u).symm,
    fun a => similar_equivalence.symm (h.accounts a), Globals.agrees_equivalence.symm h.globals⟩
  trans h h' := ⟨h.cfg.trans h'.cfg, h.tickId.trans h'.tickId, h.userMap.trans h'.userMap,
    h.sender.trans h'.sender, h.mysql.trans h'.mysql, fun u => (h.users u).trans (h'.users u),
    fun u => (h.counters u).trans (h'.counters u), fun u => (h.homes u).trans (h'.homes u),
    fun a => similar_equivalence.trans (h.accounts a) (h'.accounts a),
    Globals.agrees_equivalence.trans h.globals h'.globals⟩

/-- Tables with the same entries have the same keys. -/
theorem keys_perm_of_isSome {ν : Type} {table table' : HashTable ν}
    (h : ∀ a, (table.lookup a).isSome ↔ (table'.lookup a).isSome) :
    table.keys.Perm table'.keys := by
  rw [List.perm_ext_iff_of_nodup table.keys_nodup table'.keys_nodup]
  intro a
  rw [← AList.mem_keys, ← AList.mem_keys, ← AList.lookup_isSome, ← AList.lookup_isSome, h]

theorem IterOrder.order_perm {ν : Type} (ord ord' : IterOrder) {table table' : HashTable ν}
    (h : ∀ a, (table.lookup a).isSome ↔ (table'.lookup a).isSome) :
    (ord.order table.keys).Perm (ord'.order table'.keys) :=
  ((ord.perm _).trans (keys_perm_of_isSome h)).trans (ord'.perm _).symm

theorem World.Agrees.lookup_none {w w' : World} (h : w.Agrees w') {a : Username}
    (ha : w.accounts.lookup a = none) : w'.accounts.lookup a = none := by
  have hrel := h.accounts a
  rw [ha] at hrel
  generalize w'.accounts.lookup a = o at hrel ⊢
  cases hrel with
  | none => rfl

theorem World.Agrees.lookup_some {w w' : World} (h : w.Agrees w') {a : Username} {ac : Account}
    (ha : w.accounts.lookup a = some ac) :
    ∃ ac', w'.accounts.lookup a = some ac' ∧ ac.Similar ac' := by
  have hrel := h.accounts a
  rw [ha] at hrel
  generalize w'.accounts.lookup a = o at hrel ⊢
  cases hrel with
  | some hsim => exact ⟨_, rfl, hsim⟩

theorem World.Agrees.accounts_isSome {w w' : World} (h : w.Agrees w') (a : Username) :
    (w.accounts.lookup a).isSome ↔ (w'.accounts.lookup a).isSome := by
  cases ha : w.accounts.lookup a with
  | none => simp [h.lookup_none ha]
  | some ac =>
      obtain ⟨ac', ha', -⟩ := h.lookup_some ha
      simp [ha']

end Agrees

/-! ### Effects on the statics -/

section Effects

variable {g g' : Globals} {users users' : List Username} {id id' : Username}

/-- One effect, with the users in two orders. -/
theorem Globals.Agrees.run (h : g.Agrees g') (hg : g.Ready) (hg' : g'.Ready) (e : Effect)
    (id : Username) (hp : users.Perm users') :
    (e.run id users g).Agrees (e.run id users' g') := by
  refine ⟨?_, ?_, ?_, ?_⟩
  · intro u
    rw [Effect.run_enqueued hg, Effect.run_enqueued hg', commandsFor_append, commandsFor_append,
      h.enqueued, e.commandsFor_perm hp]
  · intro u
    rw [Effect.run_queue hg, Effect.run_queue hg', commandsFor_append, commandsFor_append,
      h.queue, e.commandsFor_perm hp]
  · rw [e.run_restricts_isSome, e.run_restricts_isSome, h.counted]
  · intro a
    rw [e.run_restrictsOf, e.run_restrictsOf, h.restricts]

/-- Commands for disjoint sets of users may change places. -/
theorem commandsFor_swap (e e' : Effect) (hdisj : users.Disjoint users') (u : Username)
    (cmds : List Command) :
    commandsFor u ((cmds ++ e.commands users) ++ e'.commands users') =
      commandsFor u ((cmds ++ e'.commands users') ++ e.commands users) := by
  simp only [commandsFor_append]
  by_cases hu : u ∈ users
  · rw [e'.commandsFor_of_notMem fun hu' => hdisj hu hu', List.append_nil, List.append_nil]
  · rw [e.commandsFor_of_notMem hu, List.append_nil, List.append_nil]

/-- The effects of two accounts may change places. -/
theorem agrees_run_comm (hg : g.Ready) (e e' : Effect) (hid : id ≠ id')
    (hdisj : users.Disjoint users') :
    (e'.run id' users' (e.run id users g)).Agrees (e.run id users (e'.run id' users' g)) := by
  have hfirst : (e.run id users g).Ready := Effect.run_ready hg
  have hsecond : (e'.run id' users' g).Ready := Effect.run_ready hg
  refine ⟨?_, ?_, ?_, ?_⟩
  · intro u
    rw [Effect.run_enqueued hfirst, Effect.run_enqueued hg, Effect.run_enqueued hsecond,
      Effect.run_enqueued hg]
    exact commandsFor_swap e e' hdisj u g.enqueued
  · intro u
    rw [Effect.run_queue hfirst, Effect.run_queue hg, Effect.run_queue hsecond,
      Effect.run_queue hg]
    exact commandsFor_swap e e' hdisj u g.queue
  · simp only [Effect.run_restricts_isSome]
    exact Bool.or_left_comm ..
  · intro a
    simp only [Effect.run_restrictsOf]
    by_cases ha : a = id
    · subst ha
      simp [hid]
    · simp [ha]

end Effects

/-! ### A pass over the accounts -/

section Pass

variable {f : GovernorConfig → Account → Globals → Account × Globals} {w w' : World}

/-- A visit, with the verdict and the effect it carries out. -/
theorem onAccount_eq_verdict (hfree : OrderFree (f w.cfg)) {a : Username} {ac : Account}
    (ha : w.accounts.lookup a = some ac) :
    ∃ (verdict : Account) (e : Effect), verdict.id = ac.id ∧
      (∀ users, users.Perm ac.users → ∀ g, f w.cfg { ac with users := users } g =
        ({ verdict with users := users }, e.run ac.id users g)) ∧
      w.onAccount f a =
        w.setAccount a ({ verdict with users := ac.users }, e.run ac.id ac.users w.globals) := by
  obtain ⟨verdict, e, hid, hf⟩ := hfree ac
  refine ⟨verdict, e, hid, hf, ?_⟩
  rw [World.onAccount_of_lookup ha]
  exact congrArg (w.setAccount a) (hf ac.users (.refl _) w.globals)

theorem World.Agrees.setAccount (h : w.Agrees w') (a : Username) {r r' : Account × Globals}
    (hac : r.1.Similar r'.1) (hg : r.2.Agrees r'.2) :
    (w.setAccount a r).Agrees (w'.setAccount a r') := by
  refine ⟨h.cfg, h.tickId, h.userMap, h.sender, h.mysql, h.users, h.counters, h.homes, ?_, hg⟩
  intro b
  by_cases hb : b = a
  · subst hb
    simpa [World.setAccount] using Option.Rel.some hac
  · simpa [World.setAccount, hb] using h.accounts b

theorem World.Agrees.onAccount (hfree : ∀ cfg, OrderFree (f cfg)) (h : w.Agrees w') (ho : Owned w)
    (ho' : Owned w') (a : Username) : (w.onAccount f a).Agrees (w'.onAccount f a) := by
  cases ha : w.accounts.lookup a with
  | none =>
      rw [onAccount_of_none ha, onAccount_of_none (h.lookup_none ha)]
      exact h
  | some ac =>
      obtain ⟨ac', ha', hsim⟩ := h.lookup_some ha
      obtain ⟨verdict, e, -, hf, hvisit⟩ := onAccount_eq_verdict (hfree w.cfg) ha
      have hvisit' : w'.onAccount f a = w'.setAccount a
          ({ verdict with users := ac'.users }, e.run ac.id ac'.users w'.globals) := by
        rw [World.onAccount_of_lookup ha', ← h.cfg, hsim.rest, hf ac'.users hsim.users]
      rw [hvisit, hvisit']
      exact h.setAccount a ⟨hsim.users, rfl⟩
        (h.globals.run ho.ready ho'.ready e ac.id hsim.users.symm)

theorem setAccount_comm {a b : Username} (hab : a ≠ b) (ac bc : Account) {g g' h h' : Globals}
    (hg : g.Agrees g') :
    ((w.setAccount a (ac, h)).setAccount b (bc, g)).Agrees
      ((w.setAccount b (bc, h')).setAccount a (ac, g')) := by
  refine ⟨rfl, rfl, rfl, rfl, rfl, fun _ => rfl, fun _ => rfl, fun _ => rfl, ?_, hg⟩
  intro c
  have hsame : ((w.setAccount a (ac, h)).setAccount b (bc, g)).accounts.lookup c =
      ((w.setAccount b (bc, h')).setAccount a (ac, g')).accounts.lookup c := by
    by_cases hca : c = a
    · subst hca
      simp [World.setAccount, hab]
    · by_cases hcb : c = b
      · subst hcb
        simp [World.setAccount, hca]
      · simp [World.setAccount, hca, hcb]
  rw [hsame]
  exact similar_equivalence.refl _

/-- The visits of two accounts may change places. -/
theorem onAccount_comm (hfree : ∀ cfg, OrderFree (f cfg)) (ho : Owned w) (a b : Username) :
    ((w.onAccount f a).onAccount f b).Agrees ((w.onAccount f b).onAccount f a) := by
  by_cases hab : a = b
  · subst hab
    exact World.agrees_equivalence.refl _
  cases ha : w.accounts.lookup a with
  | none =>
      have ha' := (onAccount_lookup_ne (f := f) (w := w) hab).trans ha
      rw [onAccount_of_none ha, onAccount_of_none ha']
      exact World.agrees_equivalence.refl _
  | some ac =>
      cases hb : w.accounts.lookup b with
      | none =>
          have hb' := (onAccount_lookup_ne (f := f) (w := w) (Ne.symm hab)).trans hb
          rw [onAccount_of_none hb, onAccount_of_none hb']
          exact World.agrees_equivalence.refl _
      | some bc =>
          obtain ⟨va, ea, -, hfa, hvisit⟩ := onAccount_eq_verdict (hfree w.cfg) ha
          obtain ⟨vb, eb, -, hfb, hvisit'⟩ := onAccount_eq_verdict (hfree w.cfg) hb
          have ha' := (onAccount_lookup_ne (f := f) (w := w) hab).trans ha
          have hb' := (onAccount_lookup_ne (f := f) (w := w) (Ne.symm hab)).trans hb
          have hid : ac.id ≠ bc.id := by
            rw [(ho.owns a ac ha).id_eq, (ho.owns b bc hb).id_eq]
            exact hab
          have hdisj : ac.users.Disjoint bc.users := fun _ hu hu' => ho.disjoint ha hb hab hu hu'
          rw [World.onAccount_of_lookup hb', World.onAccount_of_lookup ha', hvisit, hvisit']
          have hsecond := hfb bc.users (.refl _) (ea.run ac.id ac.users w.globals)
          have hsecond' := hfa ac.users (.refl _) (eb.run bc.id bc.users w.globals)
          change (World.setAccount _ b (f w.cfg bc (ea.run ac.id ac.users w.globals))).Agrees
            (World.setAccount _ a (f w.cfg ac (eb.run bc.id bc.users w.globals)))
          rw [hsecond, hsecond']
          exact setAccount_comm hab _ _ (agrees_run_comm ho.ready ea eb hid hdisj)

/-- A pass in two orders. -/
theorem World.Agrees.foldl_onAccount (hfree : ∀ cfg, OrderFree (f cfg))
    (hf : ∀ cfg ac g, g.Ready → Keeps ac g (f cfg ac g)) (h : w.Agrees w') (ho : Owned w)
    (ho' : Owned w') {keys keys' : List Username} (hkeys : keys.Perm keys') :
    (keys.foldl (World.onAccount f) w).Agrees (keys'.foldl (World.onAccount f) w') :=
  Visits.foldl_perm World.agrees_equivalence (fun _ a hv => hv.onAccount hf a)
    (fun _ _ a hv hv' hagrees => hagrees.onAccount hfree hv hv' a)
    (fun _ a b hv => onAccount_comm hfree hv a b) hkeys ho ho' h

end Pass

/-! ### The sampling -/

/-- Ticks that take the same from outside, apart from the orders of their traversals. -/
structure SameReadings (t t' : TickInput) : Prop where
  tm : t.tm = t'.tm
  resetTm : t.resetTm = t'.resetTm
  now : t.now = t'.now
  statsWritten : t.statsWritten = t'.statsWritten

theorem joinAccount_perm (a : Username) (old : Option Account) {joined joined' : List Username}
    (h : joined.Perm joined') :
    Option.Rel Account.Similar (joinAccount a old joined) (joinAccount a old joined') := by
  have hnil : joined = [] ↔ joined' = [] := by
    rw [← List.length_eq_zero_iff, ← List.length_eq_zero_iff, h.length_eq]
  rw [joinAccount_eq, joinAccount_eq]
  by_cases hj : joined = []
  · rw [if_pos hj, if_pos (hnil.mp hj)]
    exact similar_equivalence.refl _
  · rw [if_neg hj, if_neg (mt hnil.mpr hj)]
    exact .some ⟨h.symm.append_left _, rfl⟩

section Tick

variable {t t' : TickInput} {w w' : World}

theorem SameReadings.sampledUser [Rounding] (h : SameReadings t t') (w₀ : World) (u : Username) :
    sampledUser t w₀ u = sampledUser t' w₀ u := by
  have hsample : tickSample t w₀ u = tickSample t' w₀ u := by
    simp only [tickSample, counterSample, h.tm]
  rw [DbGovernor.sampledUser, DbGovernor.sampledUser, hsample]

theorem agrees_sampleUsers [Rounding] (h : DaemonInv w) (hr : SameReadings t t') :
    (sampleUsers t w).Agrees (sampleUsers t' w) := by
  have hs := sampled_sampleUsers h t
  have hs' := sampled_sampleUsers h t'
  refine ⟨hs.frame.cfg.trans hs'.frame.cfg.symm, hs.frame.tickId.trans hs'.frame.tickId.symm,
    hs.frame.userMap.trans hs'.frame.userMap.symm, hs.frame.sender.trans hs'.frame.sender.symm,
    hs.frame.mysql.trans hs'.frame.mysql.symm, ?_, ?_, ?_, ?_, ?_⟩
  · intro u
    rw [hs.users, hs'.users, hr.sampledUser]
  · intro u
    rw [hs.counters, hs'.counters, hr.resetTm]
  · intro u
    rw [hs.homes, hs'.homes]
  · intro a
    rw [hs.accounts, hs'.accounts]
    refine joinAccount_perm a _ (List.Perm.filter _ ?_)
    exact (t.ordCounters.perm _).trans (t'.ordCounters.perm _).symm
  · rw [hs.frame.globals, hs'.frame.globals]
    exact Globals.agrees_equivalence.refl _

end Tick

/-! ### The sums and the decisions -/

section Exact

/- A sum that rounds depends on the order of its terms, so nothing is rounded from here on. -/
attribute [local instance] Rounding.exact

variable {t t' : TickInput} {w w' : World}

theorem calcAccStats_congr {users users' : HashTable UserStats}
    (h : ∀ u, users.lookup u = users'.lookup u) : calcAccStats users = calcAccStats users' := by
  have husage : userUsage users = userUsage users' := by
    funext u
    rw [userUsage, userUsage, h]
  funext ac
  rw [calcAccStats, calcAccStats, husage]

theorem calcAccStats_orderFree (users : HashTable UserStats) :
    OrderFree fun ac g => (calcAccStats users ac, g) := by
  intro ac
  refine ⟨calcAccStats users ac, ⟨none, none⟩, ?_, ?_⟩
  · rw [calcAccStats]
    split <;> rfl
  · intro ids hp g
    have hsums : calcAccStats users { ac with users := ids } =
        { calcAccStats users ac with users := ids } := by
      by_cases hnil : ac.users = []
      · have hids : ids = [] := (hnil ▸ hp).eq_nil
        rw [calcAccStats, calcAccStats, hids, hnil]
      · have hids : ids ≠ [] := fun heq => hnil (heq ▸ hp).symm.eq_nil
        have hsum : calcAccStats users { ac with users := ids } =
            { ac with users := ids }.withUsage ((ids.map (userUsage users)).sum) :=
          (calcAccStats_eq_total users hids).trans (by rw [Usage.total_exact])
        rw [calcAccStats_eq_total users hnil, Usage.total_exact, hsum,
          (hp.map (userUsage users)).sum_eq]
        rfl
    exact congrArg (·, g) hsums

theorem agrees_gatherStats (h : DaemonInv w) (hr : SameReadings t t') :
    (gatherStats t w).Agrees (gatherStats t' w) := by
  have hsampled := agrees_sampleUsers h hr
  rw [gatherStats_eq, gatherStats_eq, calcAccStats_congr hsampled.users]
  exact hsampled.foldl_onAccount (fun _ => calcAccStats_orderFree _)
    (fun _ ac _ hg => calcAccStats_keeps _ ac hg) (h.sampleUsers t).toOwned
    (h.sampleUsers t').toOwned (t.ordSums.order_perm t'.ordSums hsampled.accounts_isSome)

theorem analyzeMode_orderFree (mode : Bool) (now : ℤ) (cfg : GovernorConfig) :
    OrderFree (if mode then accountAnalyzeLimit cfg now else accountAnalyze cfg now) := by
  cases mode with
  | true => exact accountAnalyzeLimit_orderFree cfg now
  | false => exact accountAnalyze_orderFree cfg now

theorem World.Agrees.analyzeAccounts (h : w.Agrees w') (hr : SameReadings t t') (ho : Owned w)
    (ho' : Owned w') : (analyzeAccounts t w).Agrees (analyzeAccounts t' w') := by
  rw [DbGovernor.analyzeAccounts, DbGovernor.analyzeAccounts, ← h.cfg, ← hr.now]
  exact h.foldl_onAccount (fun cfg => analyzeMode_orderFree _ t.now cfg)
    (fun cfg ac _ hg => analyzeMode_keeps _ t.now cfg ac hg) ho ho'
    (t.ordAnalyze.order_perm t'.ordAnalyze h.accounts_isSome)

theorem Globals.Agrees.addDbGovStatitrics {g g' : Globals} (h : g.Agrees g') (written : Bool) :
    (addDbGovStatitrics written g).Agrees (addDbGovStatitrics written g') := by
  cases written with
  | false => exact h
  | true =>
      refine ⟨h.enqueued, h.queue, ?_, ?_⟩
      · simpa [DbGovernor.addDbGovStatitrics] using h.counted
      · intro a
        have hcounted := h.counted
        cases hg : g.dbGovNumberOfRestricts <;> cases hg' : g'.dbGovNumberOfRestricts <;>
          simp [DbGovernor.addDbGovStatitrics, Globals.restrictsOf, hg, hg']

theorem World.Agrees.setGlobals {w w' : World} (h : w.Agrees w') {g g' : Globals}
    (hg : g.Agrees g') : ({ w with globals := g } : World).Agrees { w' with globals := g' } :=
  ⟨h.cfg, h.tickId, h.userMap, h.sender, h.mysql, h.users, h.counters, h.homes, h.accounts, hg⟩

/-- A tick from a reachable state leaves agreeing states whatever the orders of its traversals. The
run before may round. -/
theorem tick_order_free {w : World} (h : ∃ _ : Rounding, Reachable w) {t t' : TickInput}
    (hr : SameReadings t t') : (proceedAccounts t w).Agrees (proceedAccounts t' w) := by
  have hinv : DaemonInv w := h.elim fun _ hreach => hreach.daemonInv
  have hgathered := agrees_gatherStats hinv hr
  have hdecided := hgathered.analyzeAccounts hr (hinv.gatherStats t).toOwned
    (hinv.gatherStats t').toOwned
  rw [proceedAccounts, proceedAccounts]
  generalize analyzeAccounts t (gatherStats t w) = v at hdecided ⊢
  generalize analyzeAccounts t' (gatherStats t' w) = v' at hdecided ⊢
  have hmode : v'.cfg.statisticMode = v.cfg.statisticMode := by rw [hdecided.cfg]
  by_cases hstat : v.cfg.statisticMode = true
  · rw [if_pos hstat, if_pos (hmode.trans hstat), ← hr.statsWritten]
    exact hdecided.setGlobals (hdecided.globals.addDbGovStatitrics t.statsWritten)
  · rw [if_neg hstat, if_neg fun h' => hstat (hmode.symm.trans h')]
    exact hdecided

/-- The tick of the sample, with its traversals backwards. -/
def backwardTick : TickInput :=
  let backward : IterOrder := ⟨List.reverse, List.reverse_perm⟩
  ⟨1, fun _ => 1, 0, backward, backward, backward, backward, false⟩

theorem tick_order_free_sample :
    (proceedAccounts plainTick tickedWorld).Agrees (proceedAccounts backwardTick tickedWorld) :=
  tick_order_free ⟨_, tickedWorld_reachable⟩ ⟨rfl, rfl, rfl, rfl⟩

end Exact

end DbGovernor
