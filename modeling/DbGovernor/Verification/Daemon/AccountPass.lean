import DbGovernor.Verification.Daemon.Ownership

/-!
# A pass over the accounts

A pass visits each account once. What it does to one account is one call of its function,
before and after which only users of other accounts are addressed.
-/

namespace DbGovernor

/-- From `g` to `g'` no command for `users` is enqueued. -/
def Silent (users : List Username) (g g' : Globals) : Prop :=
  ∃ cmds, g'.enqueued = g.enqueued ++ cmds ∧ ∀ c ∈ cmds, c.username ∉ users

section Silent

variable {users : List Username} {g g' g'' : Globals}

theorem Silent.refl (users : List Username) (g : Globals) : Silent users g g :=
  ⟨[], by simp, by simp⟩

theorem Silent.trans (h : Silent users g g') (h' : Silent users g' g'') : Silent users g g'' := by
  obtain ⟨cmds, hlog, hcmds⟩ := h
  obtain ⟨cmds', hlog', hcmds'⟩ := h'
  refine ⟨cmds ++ cmds', by rw [hlog', hlog, List.append_assoc], ?_⟩
  intro c hc
  rcases List.mem_append.mp hc with hmem | hmem
  · exact hcmds c hmem
  · exact hcmds' c hmem

theorem Silent.congr (h : Silent users g g') (hlog : g''.enqueued = g'.enqueued) :
    Silent users g g'' := by
  obtain ⟨cmds, hcmds, husers⟩ := h
  exact ⟨cmds, hlog.trans hcmds, husers⟩

theorem Addresses.silent {others : List Username} (h : Addresses others g g')
    (hdisj : ∀ u ∈ others, u ∉ users) : Silent users g g' := by
  obtain ⟨cmds, hlog, hcmds⟩ := h.log
  exact ⟨cmds, hlog, fun c hc => hdisj _ (hcmds c hc)⟩

end Silent

section Pass

variable {f : GovernorConfig → Account → Globals → Account × Globals} {w : World} {a : Username}
  {ac : Account}

/-- Fields that no pass over the accounts writes. -/
structure SameBase (w w' : World) : Prop where
  cfg : w'.cfg = w.cfg
  users : w'.users = w.users
  tickId : w'.tickId = w.tickId
  counters : w'.counters = w.counters

theorem World.onAccount_base (f : GovernorConfig → Account → Globals → Account × Globals)
    (w : World) (b : Username) : SameBase w (w.onAccount f b) := by
  rw [World.onAccount]
  split <;> exact ⟨rfl, rfl, rfl, rfl⟩

theorem foldl_onAccount_base (f : GovernorConfig → Account → Globals → Account × Globals)
    (keys : List Username) (w : World) : SameBase w (keys.foldl (World.onAccount f) w) := by
  induction keys generalizing w with
  | nil => exact ⟨rfl, rfl, rfl, rfl⟩
  | cons b keys ih =>
      have hb := World.onAccount_base f w b
      have hrest := ih (w.onAccount f b)
      exact ⟨hrest.cfg.trans hb.cfg, hrest.users.trans hb.users, hrest.tickId.trans hb.tickId,
        hrest.counters.trans hb.counters⟩

/-- The accounts after a pass whose visits each change the account they are for. -/
theorem foldl_lookup {step : World → Username → World} {inv : World → Prop}
    {change : Account → Account} (hinv : ∀ v key, inv v → inv (step v key))
    (hstep : ∀ v key, inv v → ∀ a, (step v key).accounts.lookup a =
      if a = key then (v.accounts.lookup a).map change else v.accounts.lookup a)
    {keys : List Username} (hnd : keys.Nodup) (hw : inv w) (a : Username) :
    (keys.foldl step w).accounts.lookup a =
      if a ∈ keys then (w.accounts.lookup a).map change else w.accounts.lookup a := by
  induction keys generalizing w with
  | nil => simp
  | cons key keys ih =>
      obtain ⟨hkey, hrest⟩ := List.nodup_cons.mp hnd
      rw [List.foldl_cons, ih hrest (hinv w key hw), hstep w key hw]
      by_cases ha : a = key
      · subst ha
        simp [hkey]
      · simp [ha]

/-- The accounts after a pass whose function does not look at the statics. -/
theorem foldl_onAccount_lookup {change : Account → Account}
    (hf : ∀ ac g, (f w.cfg ac g).1 = change ac) {keys : List Username} (hnd : keys.Nodup)
    (hkeys : ∀ a, a ∈ keys ↔ (w.accounts.lookup a).isSome) (a : Username) :
    (keys.foldl (World.onAccount f) w).accounts.lookup a = (w.accounts.lookup a).map change := by
  have hpass : (keys.foldl (World.onAccount f) w).accounts.lookup a =
      if a ∈ keys then (w.accounts.lookup a).map change else w.accounts.lookup a := by
    refine @foldl_lookup w _ (fun v => v.cfg = w.cfg) change ?_ ?_ keys hnd rfl a
    · intro v key hv
      exact (World.onAccount_base f v key).cfg.trans hv
    · intro v key hv b
      cases hac : v.accounts.lookup key with
      | none =>
          rw [World.onAccount, hac]
          by_cases hb : b = key
          · subst hb
            simp [hac]
          · simp [hb]
      | some ac =>
          rw [World.onAccount_of_lookup hac, World.setAccount, hv, hf]
          by_cases hb : b = key
          · subst hb
            simp [hac]
          · simp [hb]
  rw [hpass]
  split
  · rfl
  · rename_i hmem
    rw [hkeys, Option.not_isSome_iff_eq_none] at hmem
    simp [hmem]

theorem onAccount_of_none (ha : w.accounts.lookup a = none) : w.onAccount f a = w := by
  rw [World.onAccount, ha]

theorem onAccount_lookup_ne {b : Username} (hab : a ≠ b) :
    (w.onAccount f b).accounts.lookup a = w.accounts.lookup a := by
  rw [World.onAccount]
  split
  · rfl
  · exact AList.lookup_insert_ne hab

/-- A pass makes no account. -/
theorem foldl_onAccount_of_none (ha : w.accounts.lookup a = none) (keys : List Username) :
    (keys.foldl (World.onAccount f) w).accounts.lookup a = none := by
  refine List.foldlRecOn (motive := fun (v : World) => v.accounts.lookup a = none) keys _ ha ?_
  intro v hv key _
  by_cases hkey : a = key
  · subst hkey
    rw [onAccount_of_none hv]
    exact hv
  · rw [onAccount_lookup_ne hkey]
    exact hv

/-- A visit of another account. -/
theorem onAccount_other (hf : ∀ cfg ac g, g.Ready → Keeps ac g (f cfg ac g)) (h : Owned w)
    (ha : w.accounts.lookup a = some ac) {b : Username} (hba : b ≠ a) :
    (w.onAccount f b).accounts.lookup a = some ac ∧
      Silent ac.users w.globals (w.onAccount f b).globals := by
  refine ⟨(onAccount_lookup_ne (Ne.symm hba)).trans ha, ?_⟩
  cases hb : w.accounts.lookup b with
  | none =>
      rw [onAccount_of_none hb]
      exact .refl _ _
  | some bc =>
      rw [World.onAccount_of_lookup hb]
      have hk := hf w.cfg bc w.globals h.ready
      exact hk.addresses.silent fun u hu => h.disjoint hb ha hba hu

theorem foldl_onAccount_others (hf : ∀ cfg ac g, g.Ready → Keeps ac g (f cfg ac g)) (h : Owned w)
    (ha : w.accounts.lookup a = some ac) {keys : List Username} (hkeys : a ∉ keys) :
    (keys.foldl (World.onAccount f) w).accounts.lookup a = some ac ∧
      Silent ac.users w.globals (keys.foldl (World.onAccount f) w).globals := by
  induction keys generalizing w with
  | nil => exact ⟨ha, .refl _ _⟩
  | cons b keys ih =>
      simp only [List.mem_cons, not_or] at hkeys
      obtain ⟨hl, hs⟩ := onAccount_other hf h ha (Ne.symm hkeys.1)
      obtain ⟨hl', hs'⟩ := ih (h.onAccount hf b) hl hkeys.2
      exact ⟨hl', hs.trans hs'⟩

/-- The one visit of an account in a pass over distinct keys. -/
theorem foldl_onAccount_visit (hf : ∀ cfg ac g, g.Ready → Keeps ac g (f cfg ac g)) (h : Owned w)
    (ha : w.accounts.lookup a = some ac) {keys : List Username} (hnd : keys.Nodup)
    (hkeys : a ∈ keys) :
    ∃ g, g.Ready ∧ Silent ac.users w.globals g ∧
      (keys.foldl (World.onAccount f) w).accounts.lookup a = some (f w.cfg ac g).1 ∧
      Silent ac.users (f w.cfg ac g).2 (keys.foldl (World.onAccount f) w).globals := by
  obtain ⟨before, after, rfl⟩ := List.append_of_mem hkeys
  rw [List.nodup_append] at hnd
  have hbefore : a ∉ before := fun hmem => hnd.2.2 a hmem a (by simp) rfl
  have hafter : a ∉ after := (List.nodup_cons.mp hnd.2.1).1
  obtain ⟨hl, hs⟩ := foldl_onAccount_others hf h ha hbefore
  have howned := h.foldl_onAccount hf before
  have hcfg := (foldl_onAccount_base f before w).cfg
  rw [List.foldl_append, List.foldl_cons]
  generalize before.foldl (World.onAccount f) w = w₁ at hl hs howned hcfg ⊢
  have hk := hf w.cfg ac w₁.globals howned.ready
  rw [World.onAccount_of_lookup hl, hcfg]
  have hvisit : (w₁.setAccount a (f w.cfg ac w₁.globals)).accounts.lookup a =
      some (f w.cfg ac w₁.globals).1 := AList.lookup_insert _
  obtain ⟨hl', hs'⟩ := foldl_onAccount_others hf (howned.setAccount hl hk) hvisit hafter
  rw [hk.users_eq] at hs'
  exact ⟨w₁.globals, howned.ready, hs, hl', hs'⟩

end Pass

/-! ### The commands about accounts -/

section Commands

variable {w : World}

theorem runDbctlCommand_unrestrict_eq [Rounding] {command : DbCtlCommand} (he : w.cfg.Enforcing)
    (now : ℤ) (ord : IterOrder) : runDbctlCommand (.unrestrict command) now ord w =
      foreachAccount ord (fun cfg => dbctlUnrestrictSet cfg now command) w := by
  simp [runDbctlCommand, he.isGpl, he.allLve, he.useLve]

theorem runDbctlCommand_unrestrictA_eq [Rounding] (he : w.cfg.Enforcing) (now : ℤ)
    (ord : IterOrder) :
    runDbctlCommand .unrestrictA now ord w = foreachAccount ord dbctlUnrestrictAllSet w := by
  simp [runDbctlCommand, he.isGpl, he.allLve, he.useLve]

theorem runDbctlCommand_restrict_eq [Rounding] {command : DbCtlCommand} (he : w.cfg.Enforcing)
    (now : ℤ) (ord : IterOrder) : runDbctlCommand (.restrict command) now ord w =
      (ord.order w.accounts.keys).foldl (dbctlRestrictSet now command) w := by
  simp [runDbctlCommand, he.isGpl, he.allLve, he.useLve]

end Commands

end DbGovernor
