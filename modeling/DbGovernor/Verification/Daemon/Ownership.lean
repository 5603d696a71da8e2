import DbGovernor.Verification.Restrict.Operations

/-!
# Accounts and their users

In every reachable state each user of an account is registered under that account, so that
a command for a user belongs to one account only, and every command is for a registered user.
-/

namespace DbGovernor

/-! ### Tables -/

section Tables

variable {ν : Type} {t : HashTable ν} {k u : Username} {v x : ν}

theorem lookup_insert_cases (h : (t.insert k v).lookup u = some x) :
    u = k ∧ v = x ∨ u ≠ k ∧ t.lookup u = some x := by
  by_cases hu : u = k
  · subst hu
    exact .inl ⟨rfl, Option.some.inj ((AList.lookup_insert t).symm.trans h)⟩
  · rw [AList.lookup_insert_ne hu] at h
    exact .inr ⟨hu, h⟩

theorem isSome_lookup_insert (k : Username) (v : ν) (h : (t.lookup u).isSome) :
    ((t.insert k v).lookup u).isSome := by
  rw [AList.lookup_isSome] at h ⊢
  exact (AList.mem_insert t).mpr (.inr h)

/-- The keys of a traversal are distinct, and an entry of the table is among them. -/
theorem IterOrder.order_nodup (ord : IterOrder) (t : HashTable ν) : (ord.order t.keys).Nodup :=
  (ord.perm t.keys).nodup_iff.mpr t.keys_nodup

theorem IterOrder.mem_order (ord : IterOrder) (h : t.lookup k = some v) :
    k ∈ ord.order t.keys := by
  rw [(ord.perm _).mem_iff, ← AList.mem_keys, ← AList.lookup_isSome, h]
  rfl

end Tables

/-! ### Ownership -/

/-- An entry of `accounts`: it has users, and each of them is registered under it. -/
structure Owns (users : HashTable UserStats) (a : Username) (ac : Account) : Prop where
  id_eq : ac.id = a
  users_ne : ac.users ≠ []
  member : ∀ u ∈ ac.users, ∃ us, users.lookup u = some us ∧ us.account = a

structure Owned (w : World) : Prop where
  ready : w.globals.Ready
  owns : ∀ a ac, w.accounts.lookup a = some ac → Owns w.users a ac
  logged : ∀ c ∈ w.globals.enqueued, (w.users.lookup c.username).isSome

/-- Two accounts share no user. -/
theorem Owned.disjoint {w : World} (h : Owned w) {a b : Username} {ac bc : Account}
    (ha : w.accounts.lookup a = some ac) (hb : w.accounts.lookup b = some bc) (hne : a ≠ b)
    {u : Username} (hu : u ∈ ac.users) : u ∉ bc.users := by
  intro hu'
  obtain ⟨us, hus, hacc⟩ := (h.owns a ac ha).member u hu
  obtain ⟨us', hus', hacc'⟩ := (h.owns b bc hb).member u hu'
  obtain rfl : us = us' := Option.some.inj (hus.symm.trans hus')
  exact hne (hacc.symm.trans hacc')

theorem Owned.init (cfg : GovernorConfig) : Owned (World.init cfg) :=
  ⟨Globals.init_ready, fun a ac h => by simp [World.init] at h, fun c h => by cases h⟩

/-! ### Functions of one account -/

/-- From `g` to `g'` only commands for `users` are enqueued, on a list that stays allocated. -/
structure Addresses (users : List Username) (g g' : Globals) : Prop where
  ready : g'.Ready
  log : ∃ cmds, g'.enqueued = g.enqueued ++ cmds ∧ ∀ c ∈ cmds, c.username ∈ users

section Addresses

variable {users : List Username} {g g' g'' : Globals}

theorem Addresses.refl (h : g.Ready) : Addresses users g g := ⟨h, [], by simp, by simp⟩

theorem Addresses.trans (h : Addresses users g g') (h' : Addresses users g' g'') :
    Addresses users g g'' := by
  obtain ⟨cmds, hlog, hcmds⟩ := h.log
  obtain ⟨cmds', hlog', hcmds'⟩ := h'.log
  refine ⟨h'.ready, cmds ++ cmds', by rw [hlog', hlog, List.append_assoc], ?_⟩
  intro c hc
  rcases List.mem_append.mp hc with hmem | hmem
  · exact hcmds c hmem
  · exact hcmds' c hmem

theorem Addresses.of_nil (h : Enqueues g [] g') : Addresses users g g' :=
  ⟨h.ready, [], h.enqueued, by simp⟩

theorem enqueueUsers_addresses (command : CommandT) (h : g.Ready) :
    Addresses users g (enqueueUsers command users g) := by
  obtain ⟨hr, hlog⟩ := enqueueUsers_spec command users g h
  exact ⟨hr, _, hlog, fun c hc => (mem_broadcast.mp hc).1⟩

/-- Commands for other users leave the last command of a user alone. -/
theorem Addresses.lastCommand (h : Addresses users g g') {u : Username} (hu : u ∉ users) :
    lastCommand u g'.enqueued = lastCommand u g.enqueued := by
  obtain ⟨cmds, hlog, hcmds⟩ := h.log
  rw [hlog]
  refine lastCommand_append_of_ne u g.enqueued cmds fun c hc heq => hu ?_
  exact heq ▸ hcmds c hc

theorem accountRestrict_addresses (cfg : GovernorConfig) (ac : Account) (h : g.Ready) :
    Addresses ac.users g (accountRestrict cfg ac g) := by
  rw [accountRestrict]
  split_ifs
  · exact .refl h
  · exact .refl h
  · exact enqueueUsers_addresses .freeze h

theorem accountUnrestrict_addresses (cfg : GovernorConfig) (ac : Account) (h : g.Ready) :
    Addresses ac.users g (accountUnrestrict cfg ac g) := by
  rw [accountUnrestrict]
  split_ifs
  · exact .refl h
  · exact .refl h
  · exact .refl h
  · exact enqueueUsers_addresses .unfreeze h

end Addresses

/-- A result that keeps the name and the users of an account and addresses only them. -/
structure Keeps (ac : Account) (g : Globals) (r : Account × Globals) : Prop where
  id_eq : r.1.id = ac.id
  users_eq : r.1.users = ac.users
  addresses : Addresses ac.users g r.2

section Keeps

variable {cfg : GovernorConfig} {now : ℤ} {ac : Account} {g : Globals}

theorem restrictPeriod_keeps (h : g.Ready) (cur : GovernorsFieldName)
    (period : GovernorsPeriodName) (field : GovernorsFieldName) :
    Keeps ac g (restrictPeriod cfg now cur period field ac g) := by
  have hc := countRestrict_enqueues cfg ac.id (getCauseOfRestrict cur) h
  refine ⟨rfl, rfl, ?_⟩
  rw [restrictPeriod]
  dsimp only
  split
  · exact (Addresses.of_nil hc).trans (accountRestrict_addresses cfg _ hc.ready)
  · exact .of_nil hc

theorem restrictPeriodLimit_keeps (h : g.Ready) (cur : GovernorsFieldName)
    (period : GovernorsPeriodName) (field : GovernorsFieldName) :
    Keeps ac g (restrictPeriodLimit cfg now cur period field ac g) := by
  have hc := countRestrict_enqueues cfg ac.id (getCauseOfRestrict cur) h
  refine ⟨rfl, rfl, ?_⟩
  rw [restrictPeriodLimit]
  dsimp only
  split
  · exact (Addresses.of_nil hc).trans (accountRestrict_addresses cfg _ hc.ready)
  · exact .of_nil hc

theorem accountAnalyze_keeps [Rounding] (h : g.Ready) (cfg : GovernorConfig) (now : ℤ)
    (ac : Account) :
    Keeps ac g (accountAnalyze cfg now ac g) := by
  by_cases hoff : (cfg.allLve || !cfg.useLve) = true
  · simp only [accountAnalyze, hoff, if_true]
    exact ⟨rfl, rfl, .refl h⟩
  · simp only [Bool.or_eq_true, Bool.not_eq_true', not_or, Bool.not_eq_true,
      Bool.not_eq_false] at hoff
    have ho := accountAnalyze_outcome hoff.2 hoff.1 now ac g
    generalize accountAnalyze cfg now ac g = r at ho ⊢
    cases ho with
    | ignored _ => exact ⟨rfl, rfl, .refl h⟩
    | stuck _ _ => exact ⟨rfl, rfl, .refl h⟩
    | running _ _ => exact ⟨rfl, rfl, .refl h⟩
    | quiet _ _ => exact ⟨rfl, rfl, .refl h⟩
    | restricted cur period field _ _ _ => exact restrictPeriod_keeps h cur period field
    | renewed cur period field _ _ _ _ =>
        obtain ⟨hid, husers, haddr⟩ := restrictPeriod_keeps h cur period field
        exact ⟨hid, husers, haddr⟩
    | released _ _ _ => exact ⟨rfl, rfl, accountUnrestrict_addresses cfg (expired now ac) h⟩
    | forgiven _ _ _ => exact ⟨rfl, rfl, .refl h⟩

theorem accountAnalyzeLimit_keeps [Rounding] (h : g.Ready) (cfg : GovernorConfig) (now : ℤ)
    (ac : Account) :
    Keeps ac g (accountAnalyzeLimit cfg now ac g) := by
  by_cases hoff : (cfg.allLve || !cfg.useLve) = true
  · simp only [accountAnalyzeLimit, hoff, if_true]
    exact ⟨rfl, rfl, .refl h⟩
  · simp only [Bool.or_eq_true, Bool.not_eq_true', not_or, Bool.not_eq_true,
      Bool.not_eq_false] at hoff
    have ho := accountAnalyzeLimit_outcome hoff.2 hoff.1 now ac g
    generalize accountAnalyzeLimit cfg now ac g = r at ho ⊢
    cases ho with
    | ignored _ => exact ⟨rfl, rfl, .refl h⟩
    | stuck _ _ => exact ⟨rfl, rfl, .refl h⟩
    | kept _ _ _ => exact ⟨rfl, rfl, .refl h⟩
    | restricted cur period field _ _ _ => exact restrictPeriodLimit_keeps h cur period field
    | released _ _ _ _ => exact ⟨rfl, rfl, accountUnrestrict_addresses cfg _ h⟩

theorem dbctlRestrictAccount_keeps [Rounding] (h : g.Ready) (cfg : GovernorConfig) (now : ℤ)
    (command : DbCtlCommand) (ac : Account) :
    Keeps ac g (dbctlRestrictAccount cfg now command ac g) := by
  obtain ⟨g₁, hc, heq⟩ := dbctlRestrictAccount_globals cfg now command ac h
  have hr := accountRestrict_addresses cfg (dbctlRestrictAccount cfg now command ac g).1 hc.ready
  rw [← heq, dbctlRestrictAccount_users] at hr
  exact ⟨dbctlRestrictAccount_id cfg now command ac g,
    dbctlRestrictAccount_users cfg now command ac g, (Addresses.of_nil hc).trans hr⟩

theorem dbctlUnrestrictSet_keeps [Rounding] (h : g.Ready) (cfg : GovernorConfig) (now : ℤ)
    (command : DbCtlCommand) (ac : Account) :
    Keeps ac g (dbctlUnrestrictSet cfg now command ac g) := by
  by_cases hid : ac.id = command.username
  · rw [dbctlUnrestrictSet_of_named hid]
    exact ⟨rfl, rfl, accountUnrestrict_addresses cfg (clearAccount ac) h⟩
  · simp only [dbctlUnrestrictSet, if_neg hid]
    exact ⟨rfl, rfl, .refl h⟩

theorem dbctlUnrestrictAllSet_keeps (h : g.Ready) (cfg : GovernorConfig) (ac : Account) :
    Keeps ac g (dbctlUnrestrictAllSet cfg ac g) := by
  refine ⟨rfl, rfl, ?_⟩
  rw [dbctlUnrestrictAllSet]
  dsimp only
  split
  · exact accountUnrestrict_addresses cfg ac h
  · exact .refl h

end Keeps

/-! ### Steps of the daemon -/

theorem getUserAccount_world (w : World) (u : Username) :
    ∃ t, (getUserAccount w u).2 = { w with userAccountTable := t } := by
  rw [getUserAccount]
  split
  · exact ⟨_, rfl⟩
  · exact ⟨_, rfl⟩

/-- A registration puts the user at the end of one account, which is made if there is none. -/
theorem addUserStats_spec (u : Username) (w : World) :
    ∃ t ac, (w.accounts.lookup (getUserAccount w u).1 = some ac ∨
        w.accounts.lookup (getUserAccount w u).1 = none ∧
          ac = initAccount (getUserAccount w u).1) ∧
      addUserStats u w =
        { w with
          userAccountTable := t
          accounts := w.accounts.insert (getUserAccount w u).1
            { ac with users := ac.users ++ [u] }
          users := w.users.insert u (initUserStats w.cfg u (getUserAccount w u).1) } := by
  obtain ⟨t, ht⟩ := getUserAccount_world w u
  cases hl : w.accounts.lookup (getUserAccount w u).1 with
  | none => exact ⟨t, _, .inr ⟨rfl, rfl⟩, by simp [addUserStats, ht, hl]⟩
  | some ac => exact ⟨t, ac, .inl rfl, by simp [addUserStats, ht, hl]⟩

theorem addEmptyStatsForUid_base (u : Username) (w : World) :
    (addEmptyStatsForUid u w).cfg = w.cfg ∧ (addEmptyStatsForUid u w).tickId = w.tickId := by
  rw [addEmptyStatsForUid]
  split
  · exact ⟨rfl, rfl⟩
  · obtain ⟨t, ac, -, heq⟩ := addUserStats_spec u w
    rw [heq]
    exact ⟨rfl, rfl⟩

section Steps

variable {w : World}

theorem Owns.congr_users {users users' : HashTable UserStats} {a : Username} {ac : Account}
    (h : Owns users a ac)
    (hkeep : ∀ u us, users.lookup u = some us →
      ∃ us', users'.lookup u = some us' ∧ us'.account = us.account) : Owns users' a ac := by
  refine ⟨h.id_eq, h.users_ne, ?_⟩
  intro u hu
  obtain ⟨us, hus, hacc⟩ := h.member u hu
  obtain ⟨us', hus', hacc'⟩ := hkeep u us hus
  exact ⟨us', hus', hacc'.trans hacc⟩

/-- Every entry of `accounts` owns its users. -/
def Owning (w : World) : Prop := ∀ a ac, w.accounts.lookup a = some ac → Owns w.users a ac

theorem Owning.setAccount (h : Owning w) {a : Username} {ac : Account}
    (ha : w.accounts.lookup a = some ac) {r : Account × Globals} (hid : r.1.id = ac.id)
    (husers : r.1.users = ac.users) : Owning (w.setAccount a r) := by
  intro b bc hb
  rcases lookup_insert_cases hb with ⟨rfl, rfl⟩ | ⟨-, hb⟩
  · have hac := h b ac ha
    refine ⟨hid.trans hac.id_eq, husers ▸ hac.users_ne, ?_⟩
    rw [husers]
    exact hac.member
  · exact h b bc hb

theorem Owning.setUser (h : Owning w) {u : Username} {us us' : UserStats}
    (hus : w.users.lookup u = some us) (hacc : us'.account = us.account) :
    Owning { w with users := w.users.insert u us' } := by
  intro a ac ha
  refine (h a ac ha).congr_users ?_
  intro v vs hv
  by_cases hvu : v = u
  · subst hvu
    obtain rfl : us = vs := Option.some.inj (hus.symm.trans hv)
    exact ⟨us', by simp, hacc⟩
  · exact ⟨vs, by simpa [hvu] using hv, rfl⟩

theorem Owning.addUserStats (h : Owning w) {u : Username} (hnew : w.users.lookup u = none) :
    Owning (addUserStats u w) := by
  obtain ⟨t, ac, hac, heq⟩ := addUserStats_spec u w
  generalize (getUserAccount w u).1 = a at hac heq
  rw [heq]
  have hkeep : ∀ v vs, w.users.lookup v = some vs →
      ∃ vs', (w.users.insert u (initUserStats w.cfg u a)).lookup v = some vs' ∧
        vs'.account = vs.account := by
    intro v vs hv
    have hvu : v ≠ u := by
      rintro rfl
      simp [hnew] at hv
    exact ⟨vs, by simpa [hvu] using hv, rfl⟩
  have hold : ac.id = a ∧ ∀ v ∈ ac.users, ∃ vs,
      (w.users.insert u (initUserStats w.cfg u a)).lookup v = some vs ∧ vs.account = a := by
    rcases hac with hl | ⟨-, rfl⟩
    · exact ⟨(h a ac hl).id_eq, ((h a ac hl).congr_users hkeep).member⟩
    · exact ⟨rfl, by simp [initAccount]⟩
  intro b bc hb
  rcases lookup_insert_cases hb with ⟨rfl, rfl⟩ | ⟨-, hb⟩
  · refine ⟨hold.1, by simp, ?_⟩
    intro v hv
    rcases List.mem_append.mp hv with hmem | hmem
    · exact hold.2 v hmem
    · rw [List.mem_singleton.mp hmem]
      exact ⟨_, AList.lookup_insert _, rfl⟩
  · exact (h b bc hb).congr_users hkeep

theorem Owned.setAccount (h : Owned w) {a : Username} {ac : Account}
    (ha : w.accounts.lookup a = some ac) {r : Account × Globals} (hr : Keeps ac w.globals r) :
    Owned (w.setAccount a r) := by
  have howns : Owning w := h.owns
  refine ⟨hr.addresses.ready, howns.setAccount ha hr.id_eq hr.users_eq, ?_⟩
  intro c hc
  obtain ⟨cmds, hlog, hcmds⟩ := hr.addresses.log
  have hmem : c ∈ w.globals.enqueued ++ cmds := hlog ▸ hc
  rcases List.mem_append.mp hmem with hold | hnew
  · exact h.logged c hold
  · obtain ⟨us, hus, -⟩ := (h.owns a ac ha).member _ (hcmds c hnew)
    exact Option.isSome_of_mem hus

theorem Owned.onAccount (h : Owned w)
    {f : GovernorConfig → Account → Globals → Account × Globals}
    (hf : ∀ cfg ac g, g.Ready → Keeps ac g (f cfg ac g)) (a : Username) :
    Owned (w.onAccount f a) := by
  cases ha : w.accounts.lookup a with
  | none => simpa [World.onAccount, ha] using h
  | some ac =>
      rw [World.onAccount_of_lookup ha]
      exact h.setAccount ha (hf w.cfg ac w.globals h.ready)

theorem Owned.foldl_onAccount (h : Owned w)
    {f : GovernorConfig → Account → Globals → Account × Globals}
    (hf : ∀ cfg ac g, g.Ready → Keeps ac g (f cfg ac g)) (keys : List Username) :
    Owned (keys.foldl (World.onAccount f) w) :=
  List.foldlRecOn keys _ h fun _ hw a _ => hw.onAccount hf a

theorem Owned.setUser (h : Owned w) {u : Username} {us us' : UserStats}
    (hus : w.users.lookup u = some us) (hacc : us'.account = us.account) :
    Owned { w with users := w.users.insert u us' } := by
  have howns : Owning w := h.owns
  exact ⟨h.ready, howns.setUser hus hacc, fun c hc => isSome_lookup_insert u us' (h.logged c hc)⟩

theorem Owned.addUserStats (h : Owned w) {u : Username} (hnew : w.users.lookup u = none) :
    Owned (addUserStats u w) := by
  have howns : Owning w := h.owns
  have howns' := howns.addUserStats hnew
  obtain ⟨t, ac, -, heq⟩ := addUserStats_spec u w
  rw [heq] at howns' ⊢
  exact ⟨h.ready, howns', fun c hc => isSome_lookup_insert u _ (h.logged c hc)⟩

end Steps

end DbGovernor
