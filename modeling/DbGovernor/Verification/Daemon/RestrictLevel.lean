import DbGovernor.Verification.Daemon.RestrictUndo
import DbGovernor.Verification.Daemon.TimeLimit

/-!
# The level of a RESTRICT

With a number RESTRICT sets the level of the account of the named user, which it registers if
need be. Without a number it lowers the level of the account by one on each visit, which is the
lowest level only from there or from the next one. A table without accounts is not visited.
-/

namespace DbGovernor

/-- The level that the number of a RESTRICT asks for, the lowest one without a number. -/
def requestedLevel (level : ℤ) : ℤ := if level = -1 then 0 else min level 4 - 1

/-- From `w` to `w'` the account `home` of the user `u` was restricted to a level, and no account
changed that has nothing to do with the user. -/
structure RestrictedTo (u home : Username) (level : ℤ) (w w' : World) : Prop where
  applied : ∃ ac, w'.accounts.lookup home = some ac ∧ ac.restricted = level ∧
    ac.timeout = levelPeriod w.cfg level
  others : ∀ a, (∀ ac ∈ w'.accounts.lookup a, ac.id ≠ u ∧ u ∉ ac.users) →
    w'.accounts.lookup a = w.accounts.lookup a

/-- How often a RESTRICT restricts the account of the user: a user that it registers on the
first visit has its account restricted by that visit and, if it comes later, by its own. -/
def homeVisits (u : Username) (keys : List Username) (w : World) : ℕ :=
  if (w.users.lookup u).isSome ∨ w.homeAccount u ∉ keys.tail then 1 else 2

/-! ### The account of a registered user -/

/-- A registered user has the account that `get_user_account` remembers for it. -/
def Remembered (w : World) : Prop :=
  ∀ u us, w.users.lookup u = some us → w.userAccountTable.lookup u = some us.account

section Remembered

variable {w : World}

theorem Remembered.addUserStats (h : Remembered w) (u : Username) :
    Remembered (addUserStats u w) := by
  obtain ⟨-, -, husers, hhomes, -⟩ := registered_addUserStats u w
  intro v vs hv
  rw [husers] at hv
  rw [hhomes]
  rcases lookup_insert_cases hv with ⟨rfl, rfl⟩ | ⟨hne, hold⟩
  · simp [initUserStats]
  · rw [if_neg hne]
    exact h v vs hold

theorem Remembered.edit {ticking : Prop} {w' : World} (h : Remembered w)
    (hedit : Edit ticking w w') : Remembered w' := by
  cases hedit with
  | frame _ husers _ hhomes _ =>
      rw [Remembered, husers, hhomes]
      exact h
  | account _ _ _ _ _ _ => exact h
  | register u _ => exact h.addUserStats u
  | newTick _ => exact h
  | sample u us us' _ hus _ hacc =>
      intro v vs hv
      rcases lookup_insert_cases hv with ⟨rfl, rfl⟩ | ⟨-, hold⟩
      · rw [hacc]
        exact h v us hus
      · exact h v vs hold

theorem Reachable.remembered (h : Reachable w) : Remembered w :=
  h.of_edits (fun _ _ _ hus => by simp [World.init] at hus) fun _ _ hv he => hv.edit he

theorem Remembered.homeAccount (h : Remembered w) {u : Username} {us : UserStats}
    (hus : w.users.lookup u = some us) : w.homeAccount u = us.account := by
  rw [World.homeAccount, getUserAccount, h u us hus]

end Remembered

/-! ### One visit -/

/-- The account as a visit of RESTRICT leaves it. -/
def restrictVisit (cfg : GovernorConfig) (now : ℤ) (command : DbCtlCommand) (ac : Account) :
    Account :=
  if ac.id = command.username ∨ command.username ∈ ac.users then
    (dbctlRestrictAccount cfg now command ac .init).1
  else ac

/-- The level that a visit gives to an account of the level `restricted`. -/
def visitLevel (level restricted : ℤ) : ℤ :=
  if level = -1 then max 0 (min 3 (restricted - 1)) else max 0 (min 3 (level - 1))

section Visit

variable {cfg : GovernorConfig} {now : ℤ} {command : DbCtlCommand} {ac : Account} {w : World}
  {key : Username}

theorem restrictVisit_id (cfg : GovernorConfig) (now : ℤ) (command : DbCtlCommand)
    (ac : Account) : (restrictVisit cfg now command ac).id = ac.id := by
  rw [restrictVisit]
  split
  · exact dbctlRestrictAccount_id cfg now command ac .init
  · rfl

theorem restrictVisit_users (cfg : GovernorConfig) (now : ℤ) (command : DbCtlCommand)
    (ac : Account) : (restrictVisit cfg now command ac).users = ac.users := by
  rw [restrictVisit]
  split
  · exact dbctlRestrictAccount_users cfg now command ac .init
  · rfl

theorem restrictVisit_of_member (hmode : cfg.restrictMode = false)
    (hmem : command.username ∈ ac.users) (now : ℤ) :
    (restrictVisit cfg now command ac).restricted = visitLevel command.level ac.restricted ∧
      (restrictVisit cfg now command ac).timeout =
        levelPeriod cfg (visitLevel command.level ac.restricted) := by
  have hlevel : (restrictVisit cfg now command ac).restricted =
      visitLevel command.level ac.restricted := by
    rw [restrictVisit, if_pos (.inr hmem), visitLevel]
    simp only [dbctlRestrictAccount, hmode, getTimeout_eq, Bool.false_eq_true, if_false]
    split_ifs <;> omega
  refine ⟨hlevel, ?_⟩
  rw [← hlevel, restrictVisit, if_pos (.inr hmem)]
  simp [dbctlRestrictAccount, hmode, getTimeout_eq]

theorem dbctlRestrictNamed_lookup (now : ℤ) (command : DbCtlCommand) (w : World)
    (key a : Username) :
    (dbctlRestrictNamed now command w key).accounts.lookup a =
      if a = key then (w.accounts.lookup a).map (restrictVisit w.cfg now command)
      else w.accounts.lookup a := by
  rw [dbctlRestrictNamed]
  by_cases ha : a = key
  · subst ha
    cases hac : w.accounts.lookup a with
    | none => simp [hac]
    | some ac =>
        simp only [comapreUsersName_eq_zero, if_true, Option.map_some, restrictVisit]
        split
        · simp [World.setAccount, dbctlRestrictAccount]
        · exact hac
  · rw [if_neg ha]
    split
    · rfl
    · split
      · exact AList.lookup_insert_ne ha
      · rfl

theorem dbctlRestrictNamed_base (now : ℤ) (command : DbCtlCommand) (w : World)
    (key : Username) : SameBase w (dbctlRestrictNamed now command w key) := by
  rw [dbctlRestrictNamed]
  split
  · exact ⟨rfl, rfl, rfl, rfl⟩
  · split <;> exact ⟨rfl, rfl, rfl, rfl⟩

/-- The accounts after a pass of RESTRICT for a registered user. -/
theorem foldl_restrict_lookup (command : DbCtlCommand)
    (hknown : (w.users.lookup command.username).isSome) (now : ℤ) {keys : List Username}
    (hnd : keys.Nodup) (a : Username) :
    (keys.foldl (dbctlRestrictSet now command) w).accounts.lookup a =
      if a ∈ keys then (w.accounts.lookup a).map (restrictVisit w.cfg now command)
      else w.accounts.lookup a := by
  let inv (v : World) : Prop := v.cfg = w.cfg ∧ (v.users.lookup command.username).isSome
  have hvisit : ∀ v key, inv v →
      dbctlRestrictSet now command v key = dbctlRestrictNamed now command v key := by
    rintro v key ⟨-, hv⟩
    obtain ⟨us, hus⟩ := Option.isSome_iff_exists.mp hv
    simp only [dbctlRestrictSet, hus]
  refine @foldl_lookup w _ inv _ ?_ ?_ keys hnd ⟨rfl, hknown⟩ a
  · intro v key hv
    have hbase := dbctlRestrictNamed_base now command v key
    rw [hvisit v key hv]
    exact ⟨hbase.cfg.trans hv.1, hbase.users ▸ hv.2⟩
  · intro v key hv b
    rw [hvisit v key hv, dbctlRestrictNamed_lookup, hv.1]

end Visit

/-! ### The pass -/

section Pass

variable {cfg : GovernorConfig} {now : ℤ} {command : DbCtlCommand} {w : World}
  {keys : List Username}

theorem restrictVisit_of_not_named {ac : Account} (hid : ac.id ≠ command.username)
    (hmem : command.username ∉ ac.users) (cfg : GovernorConfig) (now : ℤ) :
    restrictVisit cfg now command ac = ac := by
  rw [restrictVisit, if_neg]
  rintro (h | h)
  · exact hid h
  · exact hmem h

/-- The account of a user that is registered, or that the first visit registers. -/
theorem restrict_home_lookup (hw : Reachable w) (command : DbCtlCommand) :
    ∃ ac, (addEmptyStatsForUid command.username w).accounts.lookup
        (w.homeAccount command.username) = some ac ∧
      command.username ∈ ac.users ∧
      ac.restricted = ((w.accounts.lookup (w.homeAccount command.username)).map
        Account.restricted).getD 0 := by
  cases hu : w.users.lookup command.username with
  | some us =>
      obtain ⟨ac, hac, hcount⟩ := hw.partitioned.listed _ us hu
      rw [← hw.remembered.homeAccount hu] at hac
      refine ⟨ac, by simpa [addEmptyStatsForUid, hu] using hac, ?_, by simp [hac]⟩
      exact List.count_pos_iff.mp (by omega)
  | none =>
      have hacc := (registered_addUserStats command.username w).accounts
        (w.homeAccount command.username)
      simp only [addEmptyStatsForUid, hu]
      rw [hacc, if_pos rfl]
      refine ⟨_, rfl, by simp, ?_⟩
      cases w.accounts.lookup (w.homeAccount command.username) with
      | none => rfl
      | some ac => rfl

/-- What a pass of RESTRICT over the accounts does to them. -/
structure RestrictRun (command : DbCtlCommand) (now : ℤ) (keys : List Username)
    (w w' : World) : Prop where
  home : w'.accounts.lookup (w.homeAccount command.username) =
    ((addEmptyStatsForUid command.username w).accounts.lookup
      (w.homeAccount command.username)).map
        (restrictVisit w.cfg now command)^[homeVisits command.username keys w]
  others : ∀ a, a ≠ w.homeAccount command.username →
    w'.accounts.lookup a = w.accounts.lookup a ∨
      w'.accounts.lookup a = (w.accounts.lookup a).map (restrictVisit w.cfg now command)

/-- Each account of a registered user is visited once. -/
theorem restrictRun_of_registered {us : UserStats}
    (hu : w.users.lookup command.username = some us) (now : ℤ) (hnd : keys.Nodup)
    (hhome : w.homeAccount command.username ∈ keys) :
    RestrictRun command now keys w (keys.foldl (dbctlRestrictSet now command) w) := by
  have hpass := foldl_restrict_lookup (w := w) command (by simp [hu]) now hnd
  constructor
  · rw [hpass, if_pos hhome]
    simp [addEmptyStatsForUid, homeVisits, hu]
  · intro a _
    rw [hpass]
    split
    · exact .inr rfl
    · exact .inl rfl

/-- The first visit registers the user and is one of the account of the user, whichever account
it was for. -/
theorem restrictRun_of_unregistered (hu : w.users.lookup command.username = none) (now : ℤ)
    {key : Username} {rest : List Username} (hnd : rest.Nodup) :
    RestrictRun command now (key :: rest) w
      ((key :: rest).foldl (dbctlRestrictSet now command) w) := by
  have hfirst : dbctlRestrictSet now command w key =
      dbctlRestrictNamed now command (addEmptyStatsForUid command.username w)
        (w.homeAccount command.username) := by
    rw [dbctlRestrictSet_eq, restrictKey, hu]
  have hreg := registered_addUserStats command.username w
  have hnew : addEmptyStatsForUid command.username w = addUserStats command.username w := by
    simp [addEmptyStatsForUid, hu]
  have hbase := dbctlRestrictNamed_base now command
    (addEmptyStatsForUid command.username w) (w.homeAccount command.username)
  have hlookup := dbctlRestrictNamed_lookup now command
    (addEmptyStatsForUid command.username w) (w.homeAccount command.username)
  rw [List.foldl_cons, hfirst]
  generalize dbctlRestrictNamed now command (addEmptyStatsForUid command.username w)
    (w.homeAccount command.username) = v at hbase hlookup
  have hcfg : (addEmptyStatsForUid command.username w).cfg = w.cfg := by
    rw [hnew, hreg.frame.cfg]
  have hknown : (v.users.lookup command.username).isSome := by
    rw [hbase.users, hnew, hreg.users, AList.lookup_insert]
    rfl
  have hrest := foldl_restrict_lookup command hknown now hnd
  rw [hbase.cfg, hcfg] at hrest
  rw [hcfg] at hlookup
  constructor
  · rw [hrest, hlookup, if_pos rfl]
    by_cases htail : w.homeAccount command.username ∈ rest
    · simp [homeVisits, hu, htail, Function.iterate_succ]
    · simp [homeVisits, hu, htail]
  · intro a ha
    have hold : v.accounts.lookup a = w.accounts.lookup a := by
      rw [hlookup, if_neg ha, hnew, hreg.accounts, if_neg ha]
    rw [hrest, hold]
    split
    · exact .inr rfl
    · exact .inl rfl

theorem restrictRun_foldl (hw : Reachable w) (command : DbCtlCommand) (now : ℤ)
    (hnd : keys.Nodup) (hall : ∀ a, (w.accounts.lookup a).isSome → a ∈ keys) (hne : keys ≠ []) :
    RestrictRun command now keys w (keys.foldl (dbctlRestrictSet now command) w) := by
  cases hu : w.users.lookup command.username with
  | some us =>
      obtain ⟨ac, hac, -⟩ := restrict_home_lookup hw command
      have hreg : addEmptyStatsForUid command.username w = w := by simp [addEmptyStatsForUid, hu]
      rw [hreg] at hac
      exact restrictRun_of_registered hu now hnd (hall _ (by simp [hac]))
  | none =>
      cases keys with
      | nil => exact absurd rfl hne
      | cons key rest => exact restrictRun_of_unregistered hu now (List.nodup_cons.mp hnd).2

theorem homeVisits_eq_one_or_two (u : Username) (keys : List Username) (w : World) :
    homeVisits u keys w = 1 ∨ homeVisits u keys w = 2 := by
  rw [homeVisits]
  split
  · exact .inl rfl
  · exact .inr rfl

theorem iterate_restrictVisit_users (cfg : GovernorConfig) (now : ℤ) (command : DbCtlCommand)
    (n : ℕ) (ac : Account) : ((restrictVisit cfg now command)^[n] ac).users = ac.users := by
  induction n with
  | zero => rfl
  | succ n ih => rw [Function.iterate_succ_apply', restrictVisit_users, ih]

/-- An account that does not name the user is left as it was. -/
theorem RestrictRun.lookup_of_not_named {w' : World} (h : RestrictRun command now keys w w')
    (hw : Reachable w) {a : Username}
    (hnamed : ∀ ac ∈ w'.accounts.lookup a, ac.id ≠ command.username ∧ command.username ∉ ac.users) :
    w'.accounts.lookup a = w.accounts.lookup a := by
  by_cases ha : a = w.homeAccount command.username
  · subst ha
    obtain ⟨ac, hac, hmem, -⟩ := restrict_home_lookup hw command
    have hhome := h.home
    rw [hac, Option.map_some] at hhome
    refine absurd ?_ (hnamed _ hhome).2
    rw [iterate_restrictVisit_users]
    exact hmem
  · rcases h.others a ha with heq | heq
    · exact heq
    · rw [heq] at hnamed ⊢
      cases hold : w.accounts.lookup a with
      | none => rfl
      | some old =>
          obtain ⟨hid, hmem⟩ := hnamed (restrictVisit w.cfg now command old) (by simp [hold])
          rw [restrictVisit_id] at hid
          rw [restrictVisit_users] at hmem
          rw [Option.map_some, restrictVisit_of_not_named hid hmem]

/-- The level after the visits of the account of a user. -/
theorem iterate_restrictVisit (command : DbCtlCommand) (hmode : cfg.restrictMode = false)
    {ac : Account} (hmem : command.username ∈ ac.users)
    (hlevel : command.level = -1 ∨ 1 ≤ command.level) {visits : ℕ}
    (hvisits : visits = 1 ∨ visits = 2) (now : ℤ) :
    (((restrictVisit cfg now command)^[visits] ac).restricted = requestedLevel command.level ∧
      ((restrictVisit cfg now command)^[visits] ac).timeout =
        levelPeriod cfg (requestedLevel command.level)) ↔
      (command.level = -1 → ac.restricted ≤ visits) := by
  have hone := restrictVisit_of_member hmode hmem now
  have hmem' : command.username ∈ (restrictVisit cfg now command ac).users := by
    rw [restrictVisit_users]
    exact hmem
  have htwo := restrictVisit_of_member hmode hmem' now
  have hiff : ∀ level timeout r : ℤ, level = r → timeout = levelPeriod cfg level →
      ((level = requestedLevel command.level ∧
        timeout = levelPeriod cfg (requestedLevel command.level)) ↔
          r = requestedLevel command.level) := by
    rintro level timeout r rfl rfl
    exact ⟨fun h => h.1, fun h => ⟨h, by rw [h]⟩⟩
  rcases hvisits with rfl | rfl
  · rw [Function.iterate_one, hiff _ _ _ hone.1 (hone.1 ▸ hone.2), visitLevel, requestedLevel]
    split_ifs <;> omega
  · rw [Function.iterate_succ, Function.iterate_one, Function.comp_apply,
      hiff _ _ _ htwo.1 (htwo.1 ▸ htwo.2), hone.1, visitLevel, visitLevel, requestedLevel]
    split_ifs <;> omega

end Pass

/-! ### The command -/

/-- RESTRICT leaves the account of the user at the requested level exactly if there is an
account to visit and, without a number, the level is no more than the number of visits. -/
theorem restrict_level_iff {w : World} (hw : Reachable w) (he : w.cfg.Enforcing)
    (hmode : w.cfg.restrictMode = false) (u : Username) (level now : ℤ)
    (hlevel : level = -1 ∨ 1 ≤ level) (ord : IterOrder) :
    RestrictedTo u (w.homeAccount u) (requestedLevel level) w
        (runDbctlCommand (.restrict ⟨u, level⟩) now ord w) ↔
      ord.order w.accounts.keys ≠ [] ∧
        (level = -1 → ∀ ac ∈ w.accounts.lookup (w.homeAccount u),
          ac.restricted ≤ homeVisits u (ord.order w.accounts.keys) w) := by
  rw [runDbctlCommand_restrict_eq he]
  have hnd := ord.order_nodup w.accounts
  have hall : ∀ a, (w.accounts.lookup a).isSome → a ∈ ord.order w.accounts.keys := by
    intro a ha
    obtain ⟨ac, hac⟩ := Option.isSome_iff_exists.mp ha
    exact ord.mem_order hac
  generalize ord.order w.accounts.keys = keys at hnd hall
  by_cases hne : keys = []
  · subst hne
    have hnone : w.accounts.lookup (w.homeAccount u) = none := by
      by_contra hsome
      exact absurd (hall _ (Option.isSome_iff_ne_none.mpr hsome)) (by simp)
    constructor
    · rintro ⟨⟨ac, hac, -⟩, -⟩
      rw [List.foldl_nil, hnone] at hac
      cases hac
    · rintro ⟨hne, -⟩
      exact absurd rfl hne
  · have hpass := restrictRun_foldl hw ⟨u, level⟩ now hnd hall hne
    have hhome := hpass.home
    obtain ⟨ac, hac, hmem, hrestricted⟩ := restrict_home_lookup hw ⟨u, level⟩
    have hiff := iterate_restrictVisit ⟨u, level⟩ hmode hmem hlevel
      (homeVisits_eq_one_or_two u keys w) now
    rw [hac, Option.map_some] at hhome
    have hbefore : ac.restricted ≤ homeVisits u keys w ↔
        ∀ old ∈ w.accounts.lookup (w.homeAccount u), old.restricted ≤ homeVisits u keys w := by
      rw [hrestricted]
      cases w.accounts.lookup (w.homeAccount u) with
      | none => simp
      | some old => simp
    rw [hbefore] at hiff
    constructor
    · rintro ⟨⟨ac', hac', hlevel', htimeout⟩, -⟩
      obtain rfl := Option.some.inj (hhome.symm.trans hac')
      exact ⟨hne, hiff.mp ⟨hlevel', htimeout⟩⟩
    · rintro ⟨-, hlow⟩
      exact ⟨⟨_, hhome, hiff.mpr hlow⟩, fun a hnamed => hpass.lookup_of_not_named hw hnamed⟩

/-- A daemon in period mode that knows one user. -/
def periodWorld : World :=
  proceedAccounts plainTick (incrementCounters sampleUser 0 0 0 0 (.init (shippedConfig false)))

theorem periodWorld_reachable : Reachable periodWorld :=
  .step (.step (.start _) (.increment sampleUser 0 0 0 0 _)) (.tick plainTick _)

theorem restrict_level_iff_sample :
    RestrictedTo sampleUser sampleUser 2 periodWorld
      (runDbctlCommand (.restrict ⟨sampleUser, 3⟩) 5 .asListed periodWorld) :=
  (restrict_level_iff periodWorld_reachable
    ⟨by decide +kernel, by decide +kernel, by decide +kernel⟩ (by decide +kernel) sampleUser 3 5
    (.inr (by decide)) .asListed).mpr (by decide +kernel)

/-- Without a number RESTRICT takes an account of the third level to the second only. -/
theorem restrict_without_level_not_lowest :
    ¬ ∀ (w : World) (u : Username) (level now : ℤ) (ord : IterOrder), Reachable w →
      w.cfg.Enforcing → w.cfg.restrictMode = false → level = -1 ∨ 1 ≤ level →
      RestrictedTo u (w.homeAccount u) (requestedLevel level) w
        (runDbctlCommand (.restrict ⟨u, level⟩) now ord w) := by
  intro h
  let w := runDbctlCommand (.restrict ⟨sampleUser, 3⟩) 5 .asListed periodWorld
  have hw : Reachable w := .step periodWorld_reachable (.dbctl _ _ _ _)
  have hcfg : w.cfg = shippedConfig false := runDbctlCommand_cfg _ _ _ _
  obtain ⟨ac, hac, hlevel, -⟩ := (h w sampleUser (-1) 6 .asListed hw
    (hcfg ▸ shippedConfig_enforcing false) (hcfg ▸ rfl) (.inl rfl)).applied
  have hsecond : ((runDbctlCommand (.restrict ⟨sampleUser, -1⟩) 6 .asListed w).accounts.lookup
      (w.homeAccount sampleUser)).map Account.restricted = some 1 := by
    decide +kernel
  rw [hac, Option.map_some, hlevel] at hsecond
  exact absurd hsecond (by decide)

end DbGovernor
