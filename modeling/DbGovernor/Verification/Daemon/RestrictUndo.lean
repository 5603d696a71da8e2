import DbGovernor.Verification.Daemon.Partition
import DbGovernor.Verification.Daemon.Registration

/-!
# Restricting and unrestricting one name

RESTRICT finds an account by its id and by the users it lists, and registers a name it does not
know; UNRESTRICT finds an account by its id alone. The second takes the first back for the names
that are users of the account of the same name.
-/

namespace DbGovernor

/-! ### The accounts of a RESTRICT -/

/-- The account that a call of `dbctl_restrict_set` looks at: the one of the traversal, or the
one of the user that the call registers. -/
def restrictKey (command : DbCtlCommand) (w : World) (key : Username) : Username :=
  match w.users.lookup command.username with
  | some _ => key
  | none => w.homeAccount command.username

/-- The account that a call of `dbctl_restrict_set` restricts, if there is one. -/
def restrictTarget (command : DbCtlCommand) (w : World) (key : Username) : Option Username :=
  match (addEmptyStatsForUid command.username w).accounts.lookup (restrictKey command w key) with
  | none => none
  | some ac =>
      if ac.id = command.username ∨ command.username ∈ ac.users then
        some (restrictKey command w key)
      else none

/-- The accounts that a pass of `dbctl_restrict_set` restricts. -/
def restrictTargets (now : ℤ) (command : DbCtlCommand) : World → List Username → List Username
  | _, [] => []
  | w, key :: keys =>
      (restrictTarget command w key).toList ++
        restrictTargets now command (dbctlRestrictSet now command w key) keys

/-- An account as UNRESTRICT leaves the ones it names. -/
def Undone (w : World) (a : Username) : Prop :=
  ∃ ac, w.accounts.lookup a = some ac ∧ ac.timeout = 0 ∧ ac.restricted = 0 ∧
    ∀ u ∈ ac.users, lastCommand u w.globals.enqueued = some .unfreeze

/-! ### One call of `dbctl_restrict_set` -/

section Visit

variable {w : World} {command : DbCtlCommand} {key : Username}

theorem users_addUserStats (u : Username) (w : World) :
    (addUserStats u w).users.lookup u = some (initUserStats w.cfg u (w.homeAccount u)) := by
  rw [(registered_addUserStats u w).users]
  exact AList.lookup_insert _

/-- After the call the named user is registered, under the account it had or would get. -/
theorem users_addEmptyStatsForUid (u : Username) (w : World) :
    ∃ us, (addEmptyStatsForUid u w).users.lookup u = some us ∧
      us.account = (w.userOrNew u).account := by
  cases hu : w.users.lookup u with
  | none =>
      refine ⟨initUserStats w.cfg u (w.homeAccount u), ?_, ?_⟩
      · simpa [addEmptyStatsForUid, hu] using users_addUserStats u w
      · simp [World.userOrNew, hu]
  | some us => exact ⟨us, by simp [addEmptyStatsForUid, hu], by simp [World.userOrNew, hu]⟩

theorem dbctlRestrictSet_eq (now : ℤ) (command : DbCtlCommand) (w : World) (key : Username) :
    dbctlRestrictSet now command w key =
      dbctlRestrictNamed now command (addEmptyStatsForUid command.username w)
        (restrictKey command w key) := by
  cases hu : w.users.lookup command.username with
  | none =>
      have hnew := users_addUserStats command.username w
      simp only [dbctlRestrictSet, hu, hnew, addEmptyStatsForUid, restrictKey, initUserStats]
  | some us => simp only [dbctlRestrictSet, hu, addEmptyStatsForUid, restrictKey]

theorem dbctlRestrictSet_of_target {a : Username} (h : restrictTarget command w key = some a)
    (now : ℤ) :
    ∃ ac, (addEmptyStatsForUid command.username w).accounts.lookup a = some ac ∧
      (ac.id = command.username ∨ command.username ∈ ac.users) ∧
      dbctlRestrictSet now command w key =
        (addEmptyStatsForUid command.username w).setAccount a
          (dbctlRestrictAccount (addEmptyStatsForUid command.username w).cfg now command ac
            (addEmptyStatsForUid command.username w).globals) := by
  rw [dbctlRestrictSet_eq, dbctlRestrictNamed]
  rw [restrictTarget] at h
  cases hac : (addEmptyStatsForUid command.username w).accounts.lookup
      (restrictKey command w key) with
  | none => simp [hac] at h
  | some ac =>
      simp only [hac, Option.ite_none_right_eq_some, Option.some.injEq] at h
      obtain ⟨hnamed, rfl⟩ := h
      refine ⟨ac, hac, hnamed, ?_⟩
      simp only [comapreUsersName_eq_zero, hnamed, if_true]

theorem dbctlRestrictSet_of_no_target (h : restrictTarget command w key = none) (now : ℤ) :
    dbctlRestrictSet now command w key = addEmptyStatsForUid command.username w := by
  rw [dbctlRestrictSet_eq, dbctlRestrictNamed]
  rw [restrictTarget] at h
  cases hac : (addEmptyStatsForUid command.username w).accounts.lookup
      (restrictKey command w key) with
  | none => rfl
  | some ac =>
      simp only [hac, reduceCtorEq, ite_eq_right_iff] at h
      have hnamed : ¬ (ac.id = command.username ∨ command.username ∈ ac.users) := fun hn => h hn
      simp only [comapreUsersName_eq_zero, hnamed, if_false]

end Visit

/-! ### The pass of a RESTRICT -/

/-- What a pass of `dbctl_restrict_set` keeps. `home` is the account of the named user. -/
structure RestrictPass (cfg : GovernorConfig) (u home : Username) (w : World) : Prop where
  inv : DaemonInv w
  partition : Partitioned w
  cfg_eq : w.cfg = cfg
  home_eq : (w.userOrNew u).account = home

section Pass

variable {cfg : GovernorConfig} {home : Username} {w : World} {now : ℤ} {command : DbCtlCommand}
  {key : Username} {keys : List Username}

theorem RestrictPass.registered (h : RestrictPass cfg command.username home w) :
    RestrictPass cfg command.username home (addEmptyStatsForUid command.username w) ∧
      (addEmptyStatsForUid command.username w).globals = w.globals ∧
      ∃ us, (addEmptyStatsForUid command.username w).users.lookup command.username = some us ∧
        us.account = home := by
  obtain ⟨us, hus, hacc⟩ := users_addEmptyStatsForUid command.username w
  rw [h.home_eq] at hacc
  refine ⟨⟨h.inv.addEmptyStatsForUid _, ?_, ?_, by simp [World.userOrNew, hus, hacc]⟩, ?_,
    us, hus, hacc⟩
  · cases hu : w.users.lookup command.username with
    | none => simpa [addEmptyStatsForUid, hu] using h.partition.addUserStats hu
    | some us => simpa [addEmptyStatsForUid, hu] using h.partition
  · exact (addEmptyStatsForUid_base _ w).1.trans h.cfg_eq
  · cases hu : w.users.lookup command.username with
    | none => simpa [addEmptyStatsForUid, hu] using (registered_addUserStats _ w).frame.globals
    | some us => simp [addEmptyStatsForUid, hu]

theorem RestrictPass.visit (h : RestrictPass cfg command.username home w) (now : ℤ)
    (key : Username) :
    RestrictPass cfg command.username home (dbctlRestrictSet now command w key) := by
  obtain ⟨hreg, -, us, hus, hacc⟩ := h.registered
  have hinv := h.inv.dbctlRestrictSet now command key
  cases ht : restrictTarget command w key with
  | none =>
      rw [dbctlRestrictSet_of_no_target ht now]
      exact hreg
  | some a =>
      obtain ⟨ac, hac, -, heq⟩ := dbctlRestrictSet_of_target ht now
      have hk := dbctlRestrictAccount_keeps hreg.inv.ready
        (addEmptyStatsForUid command.username w).cfg now command ac
      rw [heq] at hinv ⊢
      refine ⟨hinv, hreg.partition.setAccount hac hk.id_eq hk.users_eq, hreg.cfg_eq, ?_⟩
      simp [World.userOrNew, World.setAccount, hus, hacc]

/-- The account of the named user is the one restricted account that can list it. -/
theorem RestrictPass.target_eq (h : RestrictPass cfg command.username home w)
    (hhome : home = command.username) {a : Username}
    (ht : restrictTarget command w key = some a) : a = command.username := by
  obtain ⟨hreg, -, us, hus, hacc⟩ := h.registered
  obtain ⟨ac, hac, hnamed, -⟩ := dbctlRestrictSet_of_target ht 0
  have howns := hreg.inv.owns a ac hac
  rcases hnamed with hid | hmem
  · exact howns.id_eq.symm.trans hid
  · obtain ⟨us', hus', hacc'⟩ := howns.member _ hmem
    obtain rfl : us = us' := Option.some.inj (hus.symm.trans hus')
    exact (hacc'.symm.trans hacc).trans hhome

theorem RestrictPass.targets_eq (h : RestrictPass cfg command.username home w)
    (hhome : home = command.username) (now : ℤ) (keys : List Username) :
    ∀ a ∈ restrictTargets now command w keys, a = command.username := by
  induction keys generalizing w with
  | nil => simp [restrictTargets]
  | cons key keys ih =>
      intro a ha
      rw [restrictTargets, List.mem_append, Option.mem_toList] at ha
      rcases ha with ht | hrest
      · exact h.target_eq hhome ht
      · exact ih (h.visit now key) a hrest

/-- The visit of the account of the named user freezes the user. -/
theorem RestrictPass.visit_home (h : RestrictPass cfg command.username home w)
    (he : cfg.Enforcing) (hkey : restrictKey command w key = home) (now : ℤ) :
    restrictTarget command w key = some home ∧
      lastCommand command.username (dbctlRestrictSet now command w key).globals.enqueued =
        some .freeze := by
  obtain ⟨hreg, -, us, hus, hacc⟩ := h.registered
  obtain ⟨ac, hac, hcount⟩ := hreg.partition.listed _ us hus
  rw [hacc] at hac
  have hmem : command.username ∈ ac.users := List.count_pos_iff.mp (by omega)
  have ht : restrictTarget command w key = some home := by
    rw [restrictTarget, hkey, hac]
    simp [hmem]
  obtain ⟨ac', hac', -, heq⟩ := dbctlRestrictSet_of_target ht now
  obtain rfl : ac = ac' := Option.some.inj (hac.symm.trans hac')
  have hq := dbctlRestrictAccount_enqueues (hreg.cfg_eq ▸ he) now command ac hreg.inv.ready
  refine ⟨ht, ?_⟩
  rw [heq, World.setAccount, hq.enqueued, lastCommand_broadcast, if_pos hmem]

/-- Whatever else the pass restricts, the named user stays frozen. -/
theorem RestrictPass.visit_frozen (h : RestrictPass cfg command.username home w)
    (he : cfg.Enforcing) (now : ℤ) (key : Username)
    (hlast : lastCommand command.username w.globals.enqueued = some .freeze) :
    lastCommand command.username (dbctlRestrictSet now command w key).globals.enqueued =
      some .freeze := by
  obtain ⟨hreg, hglobals, -⟩ := h.registered
  rw [← hglobals] at hlast
  cases ht : restrictTarget command w key with
  | none =>
      rw [dbctlRestrictSet_of_no_target ht now]
      exact hlast
  | some a =>
      obtain ⟨ac, -, -, heq⟩ := dbctlRestrictSet_of_target ht now
      have hq := dbctlRestrictAccount_enqueues (hreg.cfg_eq ▸ he) now command ac hreg.inv.ready
      rw [heq, World.setAccount, hq.enqueued, lastCommand_broadcast]
      split
      · rfl
      · exact hlast

theorem RestrictPass.run (h : RestrictPass cfg command.username home w) (now : ℤ)
    (keys : List Username) :
    RestrictPass cfg command.username home (keys.foldl (dbctlRestrictSet now command) w) :=
  List.foldlRecOn keys _ h fun _ hw key _ => hw.visit now key

theorem RestrictPass.run_frozen (h : RestrictPass cfg command.username home w)
    (he : cfg.Enforcing) (now : ℤ) (keys : List Username)
    (hlast : lastCommand command.username w.globals.enqueued = some .freeze) :
    lastCommand command.username
      (keys.foldl (dbctlRestrictSet now command) w).globals.enqueued = some .freeze := by
  induction keys generalizing w with
  | nil => exact hlast
  | cons key keys ih => exact ih (h.visit now key) (h.visit_frozen he now key hlast)

/-- A pass that comes to the account of the named user leaves the user frozen. -/
theorem RestrictPass.run_home (h : RestrictPass cfg command.username home w)
    (he : cfg.Enforcing) (now : ℤ)
    (hkeys : home ∈ keys ∨ w.users.lookup command.username = none ∧ keys ≠ []) :
    home ∈ restrictTargets now command w keys ∧
      lastCommand command.username
        (keys.foldl (dbctlRestrictSet now command) w).globals.enqueued = some .freeze := by
  induction keys generalizing w with
  | nil => simp at hkeys
  | cons key keys ih =>
      by_cases hkey : restrictKey command w key = home
      · obtain ⟨ht, hlast⟩ := h.visit_home he hkey now
        refine ⟨by simp [restrictTargets, ht], ?_⟩
        exact (h.visit now key).run_frozen he now keys hlast
      · have hrest : home ∈ keys := by
          cases hu : w.users.lookup command.username with
          | none =>
              have hhome := h.home_eq
              simp only [World.userOrNew, hu, Option.getD_none, initUserStats] at hhome
              simp [restrictKey, hu, hhome] at hkey
          | some us =>
              simp only [restrictKey, hu] at hkey
              rcases hkeys with hmem | ⟨hnone, -⟩
              · rcases List.mem_cons.mp hmem with heq | hmem
                · exact absurd heq.symm hkey
                · exact hmem
              · simp [hu] at hnone
        obtain ⟨hmem, hlast⟩ := ih (h.visit now key) (.inl hrest)
        exact ⟨by simp [restrictTargets, hmem], hlast⟩

end Pass

/-! ### The pass of an UNRESTRICT -/

section Unrestrict

variable {w : World} {a : Username} {ac : Account} {command : DbCtlCommand}

theorem Silent.lastCommand {users : List Username} {g g' : Globals} (h : Silent users g g')
    {u : Username} (hu : u ∈ users) : lastCommand u g'.enqueued = lastCommand u g.enqueued := by
  obtain ⟨cmds, hlog, hcmds⟩ := h
  rw [hlog]
  refine lastCommand_append_of_ne u g.enqueued cmds ?_
  rintro c hc rfl
  exact hcmds c hc hu

/-- Every command is for a registered user. -/
theorem Owned.registered_of_lastCommand (h : Owned w) {u : Username} {c : CommandT}
    (hlast : lastCommand u w.globals.enqueued = some c) : (w.users.lookup u).isSome := by
  obtain ⟨cmd, hcmd, -⟩ := Option.map_eq_some_iff.mp hlast
  have hkey : cmd.username = u := by simpa using List.find?_some hcmd
  rw [← hkey]
  exact h.logged cmd (List.mem_reverse.mp (List.mem_of_find?_eq_some hcmd))

/-- UNRESTRICT with the id of an account clears it and unfreezes its users. -/
theorem undone_of_unrestrict (h : Owned w) (he : w.cfg.Enforcing)
    (ha : w.accounts.lookup a = some ac) (hid : a = command.username) (now : ℤ)
    (ord : IterOrder) : Undone (runDbctlCommand (.unrestrict command) now ord w) a := by
  obtain ⟨g, hg, -, hl, hs⟩ := foldl_onAccount_visit
    (fun cfg ac _ hg => dbctlUnrestrictSet_keeps hg cfg now command ac) h ha
    (ord.order_nodup w.accounts) (ord.mem_order ha)
  have hnamed : ac.id = command.username := (h.owns a ac ha).id_eq.trans hid
  have hq := accountUnrestrict_enqueues he (clearAccount ac) hg
  rw [dbctlUnrestrictSet_of_named hnamed] at hl hs
  rw [runDbctlCommand_unrestrict_eq he]
  refine ⟨clearAccount ac, hl, rfl, rfl, ?_⟩
  intro u hu
  refine (hs.lastCommand hu).trans ?_
  rw [hq.enqueued, lastCommand_broadcast, if_pos hu]

/-- UNRESTRICT with another name leaves the account and the last commands of its users alone. -/
theorem unrestrict_other (h : Owned w) (he : w.cfg.Enforcing)
    (ha : w.accounts.lookup a = some ac) (command : DbCtlCommand) (hid : a ≠ command.username)
    (now : ℤ) (ord : IterOrder) {u : Username} (hu : u ∈ ac.users) :
    (runDbctlCommand (.unrestrict command) now ord w).accounts.lookup a = some ac ∧
      lastCommand u (runDbctlCommand (.unrestrict command) now ord w).globals.enqueued =
        lastCommand u w.globals.enqueued := by
  obtain ⟨g, -, hs, hl, hs'⟩ := foldl_onAccount_visit
    (fun cfg ac _ hg => dbctlUnrestrictSet_keeps hg cfg now command ac) h ha
    (ord.order_nodup w.accounts) (ord.mem_order ha)
  have hnamed : ¬ ac.id = command.username := by
    rw [(h.owns a ac ha).id_eq]
    exact hid
  simp only [dbctlUnrestrictSet, if_neg hnamed] at hl hs'
  rw [runDbctlCommand_unrestrict_eq he]
  exact ⟨hl, (hs'.lastCommand hu).trans (hs.lastCommand hu)⟩

end Unrestrict

/-! ### The two commands -/

/-- UNRESTRICT takes back what RESTRICT with the same name did exactly if the name, as a user,
has or gets the account of the same name. -/
theorem unrestrict_undoes_iff_own_account {w : World} (hw : Reachable w) (he : w.cfg.Enforcing)
    (command : DbCtlCommand) (level : ℤ) (now now' : ℤ) (ord ord' : IterOrder)
    (hsome : ∃ a ∈ restrictTargets now command w (ord.order w.accounts.keys),
      ∃ ac ∈ (runDbctlCommand (.restrict command) now ord w).accounts.lookup a,
        ac.timeout ≠ 0) :
    (∀ a ∈ restrictTargets now command w (ord.order w.accounts.keys),
      Undone (runDbctlCommand (.unrestrict ⟨command.username, level⟩) now' ord'
        (runDbctlCommand (.restrict command) now ord w)) a) ↔
      (w.userOrNew command.username).account = command.username := by
  have hpass : RestrictPass w.cfg command.username (w.userOrNew command.username).account w :=
    ⟨hw.daemonInv, hw.partitioned, rfl, rfl⟩
  have hafter := hpass.run now (ord.order w.accounts.keys)
  obtain ⟨b, hb, bc, hbc, -⟩ := hsome
  rw [runDbctlCommand_restrict_eq he] at hbc ⊢
  generalize hhome : (w.userOrNew command.username).account = home at hpass hafter ⊢
  constructor
  · intro hundone
    by_contra hne
    have hkeys : home ∈ ord.order w.accounts.keys ∨
        w.users.lookup command.username = none ∧ ord.order w.accounts.keys ≠ [] := by
      cases hu : w.users.lookup command.username with
      | none =>
          refine .inr ⟨rfl, ?_⟩
          rintro hnil
          simp [hnil, restrictTargets] at hb
      | some us =>
          obtain ⟨ac, hac, -⟩ := hw.partitioned.listed _ us hu
          have hacc : us.account = home := by simpa [World.userOrNew, hu] using hhome
          rw [hacc] at hac
          exact .inl (ord.mem_order hac)
    obtain ⟨hmem, hlast⟩ := hpass.run_home he now hkeys
    obtain ⟨us, hus⟩ := Option.isSome_iff_exists.mp (hafter.inv.registered_of_lastCommand hlast)
    have hacc : us.account = home := by simpa [World.userOrNew, hus] using hafter.home_eq
    obtain ⟨ac, hac, hcount⟩ := hafter.partition.listed _ us hus
    rw [hacc] at hac
    have hlisted : command.username ∈ ac.users := List.count_pos_iff.mp (by omega)
    obtain ⟨hl, hkept⟩ := unrestrict_other hafter.inv.toOwned (hafter.cfg_eq ▸ he) hac
      ⟨command.username, level⟩ hne now' ord' hlisted
    obtain ⟨ac', hl', -, -, hunfrozen⟩ := hundone home hmem
    obtain rfl : ac = ac' := Option.some.inj (hl.symm.trans hl')
    have hthaw := hunfrozen _ hlisted
    rw [hkept, hlast] at hthaw
    cases hthaw
  · intro hsame a ha
    obtain rfl := hpass.targets_eq hsame now _ a ha
    obtain rfl := hpass.targets_eq hsame now _ b hb
    exact undone_of_unrestrict hafter.inv.toOwned (hafter.cfg_eq ▸ he) hbc rfl now' ord'

theorem unrestrict_undoes_iff_own_account_sample :
    restrictTargets 5 ⟨sampleUser, 1⟩ tickedWorld
        (IterOrder.asListed.order tickedWorld.accounts.keys) ≠ [] ∧
    ∀ a ∈ restrictTargets 5 ⟨sampleUser, 1⟩ tickedWorld
        (IterOrder.asListed.order tickedWorld.accounts.keys),
      Undone (runDbctlCommand (.unrestrict ⟨sampleUser, 0⟩) 6 .asListed
        (runDbctlCommand (.restrict ⟨sampleUser, 1⟩) 5 .asListed tickedWorld)) a := by
  have hcfg : tickedWorld.cfg.Enforcing :=
    ⟨by decide +kernel, by decide +kernel, by decide +kernel⟩
  refine ⟨by decide +kernel, ?_⟩
  refine (unrestrict_undoes_iff_own_account tickedWorld_reachable hcfg ⟨sampleUser, 1⟩ 0 5 6
    .asListed .asListed ?_).mpr ?_
  · decide +kernel
  · decide +kernel

/-- A daemon that knows one user, whose account has the prefix of its name. -/
def prefixedWorld : World :=
  proceedAccounts plainTick (incrementCounters joiningUser 0 0 0 0 (.init (shippedConfig true)))

theorem prefixedWorld_reachable : Reachable prefixedWorld :=
  .step (.step (.start _) (.increment joiningUser 0 0 0 0 _)) (.tick plainTick _)

/-- RESTRICT finds the account by its user; UNRESTRICT with the same name finds nothing. -/
theorem restrict_by_user_not_undone :
    ¬ ∀ (w : World) (command : DbCtlCommand) (level now now' : ℤ) (ord ord' : IterOrder),
      Reachable w → w.cfg.Enforcing →
      (∃ a ∈ restrictTargets now command w (ord.order w.accounts.keys),
        ∃ ac ∈ (runDbctlCommand (.restrict command) now ord w).accounts.lookup a,
          ac.timeout ≠ 0) →
      ∀ a ∈ restrictTargets now command w (ord.order w.accounts.keys),
        Undone (runDbctlCommand (.unrestrict ⟨command.username, level⟩) now' ord'
          (runDbctlCommand (.restrict command) now ord w)) a := by
  intro h
  have hcfg : prefixedWorld.cfg.Enforcing :=
    ⟨by decide +kernel, by decide +kernel, by decide +kernel⟩
  have hmem : sampleUser ∈ restrictTargets 5 ⟨joiningUser, 1⟩ prefixedWorld
      (IterOrder.asListed.order prefixedWorld.accounts.keys) := by
    decide +kernel
  obtain ⟨ac, hac, ht, -⟩ := h prefixedWorld ⟨joiningUser, 1⟩ 0 5 6 .asListed .asListed
    prefixedWorld_reachable hcfg (by decide +kernel) sampleUser hmem
  have hstuck : ∃ ac ∈ (runDbctlCommand (.unrestrict ⟨joiningUser, 0⟩) 6 .asListed
      (runDbctlCommand (.restrict ⟨joiningUser, 1⟩) 5 .asListed prefixedWorld)).accounts.lookup
        sampleUser, ac.timeout ≠ 0 := by
    decide +kernel
  obtain ⟨ac', hac', ht'⟩ := hstuck
  obtain rfl : ac = ac' := Option.some.inj (hac.symm.trans hac')
  exact ht' ht

end DbGovernor
