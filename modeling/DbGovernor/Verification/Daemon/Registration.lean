import DbGovernor.Verification.Daemon.Ownership

/-!
# Users that join an account

In limit mode FREEZE is broadcast once, over the users an account has when it is restricted.
Every user of a restricted account is frozen in the runs in which no user joins an account
while it is restricted.
-/

namespace DbGovernor

/-- A tick of one account, the registration of a user, or a change of the dbuser map. -/
inductive JoinOp where
  | tick (a : Username) (now : ℤ) (usage : Usage)
  | register (u : Username)
  | newMap (userMap : Option (HashTable UserMap))

def JoinOp.apply (w : World) : JoinOp → World
  | .tick a now usage =>
      w.onAccount (fun cfg ac => accountAnalyzeLimit cfg now (ac.withUsage usage)) a
  | .register u => addEmptyStatsForUid u w
  | .newMap userMap => { w with userMap := userMap }

/-- Each user of a restricted account has FREEZE as its last command. -/
def AllFrozen (w : World) : Prop :=
  ∀ a ac, w.accounts.lookup a = some ac → ac.timeout ≠ 0 →
    ∀ u ∈ ac.users, lastCommand u w.globals.enqueued = some .freeze

/-- The registration of a new user in an account that is restricted. -/
def JoinsRestricted (w : World) : JoinOp → Prop
  | .register u => w.users.lookup u = none ∧
      ∃ ac ∈ w.accounts.lookup (getUserAccount w u).1, ac.timeout ≠ 0
  | _ => False

instance (w : World) : ∀ op, Decidable (JoinsRestricted w op)
  | .register _ => inferInstanceAs (Decidable (_ ∧ _))
  | .tick _ _ _ | .newMap _ => inferInstanceAs (Decidable False)

/-! ### The invariant -/

/-- An account is at rest, or it is restricted for the period `limit` with its users frozen.
A period of zero is no restriction. -/
inductive JoinState (limit : ℤ) (ac : Account) (g : Globals) : Prop where
  | idle (restricted : ac.restricted = 0) (timeout : ac.timeout = 0)
  | active (restricted : ac.restricted ≠ 0) (timeout : ac.timeout = limit)
      (frozen : limit ≠ 0 → Frozen ac g)

structure JoinInv (cfg : GovernorConfig) (w : World) : Prop where
  cfg_eq : w.cfg = cfg
  owned : Owned w
  state : ∀ a ac, w.accounts.lookup a = some ac →
    JoinState (intOfUnsigned cfg.lUnlimit) ac w.globals

theorem JoinInv.init (cfg : GovernorConfig) : JoinInv cfg (World.init cfg) :=
  ⟨rfl, .init cfg, fun a ac h => by simp [World.init] at h⟩

theorem JoinInv.allFrozen {cfg : GovernorConfig} {w : World} (h : JoinInv cfg w) :
    AllFrozen w := by
  intro a ac hac ht
  cases h.state a ac hac with
  | idle _ h0 => exact absurd h0 ht
  | active _ hlimit hf => exact hf (hlimit ▸ ht)

section Steps

variable {cfg : GovernorConfig} {w : World} {limit : ℤ} {ac : Account} {g g' : Globals}

theorem JoinState.congr (h : JoinState limit ac g)
    (hlast : ∀ u ∈ ac.users, lastCommand u g'.enqueued = lastCommand u g.enqueued) :
    JoinState limit ac g' := by
  cases h with
  | idle hr ht => exact .idle hr ht
  | active hr ht hf =>
      refine .active hr ht ?_
      intro hne u hu
      rw [hlast u hu]
      exact hf hne u hu

theorem JoinState.accountAnalyzeLimit (h : JoinState (intOfUnsigned cfg.lUnlimit) ac g)
    (he : cfg.Enforcing) (hg : g.Ready) (now : ℤ) :
    JoinState (intOfUnsigned cfg.lUnlimit) (accountAnalyzeLimit cfg now ac g).1
      (accountAnalyzeLimit cfg now ac g).2 := by
  have ho := accountAnalyzeLimit_outcome he.useLve he.allLve now ac g
  generalize DbGovernor.accountAnalyzeLimit cfg now ac g = r at ho ⊢
  cases ho with
  | ignored _ => exact h
  | stuck _ _ => exact h
  | kept _ _ _ => exact h
  | released _ _ _ _ => exact .idle rfl rfl
  | restricted cur period field _ _ _ =>
      have hq := restrictPeriodLimit_enqueues he now cur period field ac hg
      refine .active (by simp [restrictPeriodLimit]) rfl ?_
      intro hne
      cases h with
      | idle hr _ =>
          rw [restrictCommands, if_pos hr] at hq
          exact hq.frozen
      | active hr _ hf =>
          rw [restrictCommands, if_neg hr] at hq
          exact hq.frozen_of_nil (hf hne)

theorem JoinState.withUsage (h : JoinState limit ac g) (u : Usage) :
    JoinState limit (ac.withUsage u) g := by
  cases h with
  | idle hr ht => exact .idle hr ht
  | active hr ht hf => exact .active hr ht hf

theorem JoinInv.tick (h : JoinInv cfg w) (he : cfg.Enforcing) (a : Username) (now : ℤ)
    (usage : Usage) : JoinInv cfg (JoinOp.apply w (.tick a now usage)) := by
  rw [JoinOp.apply]
  cases ha : w.accounts.lookup a with
  | none => simpa [World.onAccount, ha] using h
  | some ac =>
      rw [World.onAccount_of_lookup ha, h.cfg_eq]
      have hk : Keeps ac w.globals
          (accountAnalyzeLimit cfg now (ac.withUsage usage) w.globals) := by
        obtain ⟨hid, husers, haddr⟩ :=
          accountAnalyzeLimit_keeps h.owned.ready cfg now (ac.withUsage usage)
        exact ⟨hid, husers, haddr⟩
      refine ⟨h.cfg_eq, h.owned.setAccount ha hk, ?_⟩
      intro b bc hb
      rcases lookup_insert_cases hb with ⟨rfl, rfl⟩ | ⟨hba, hb⟩
      · exact ((h.state b ac ha).withUsage usage).accountAnalyzeLimit he h.owned.ready now
      · refine (h.state b bc hb).congr ?_
        intro u hu
        exact hk.addresses.lastCommand (h.owned.disjoint hb ha hba hu)

theorem JoinInv.register (h : JoinInv cfg w) (u : Username)
    (hjoin : ¬ JoinsRestricted w (.register u)) :
    JoinInv cfg (JoinOp.apply w (.register u)) := by
  rw [JoinOp.apply]
  cases hu : w.users.lookup u with
  | some us => simpa [addEmptyStatsForUid, hu] using h
  | none =>
      have howned := h.owned.addUserStats hu
      obtain ⟨t, ac, hac, heq⟩ := addUserStats_spec u w
      simp only [addEmptyStatsForUid, hu]
      rw [heq] at howned ⊢
      refine ⟨h.cfg_eq, howned, ?_⟩
      intro b bc hb
      rcases lookup_insert_cases hb with ⟨rfl, rfl⟩ | ⟨-, hb⟩
      · rcases hac with hl | ⟨-, rfl⟩
        · have ht : ac.timeout = 0 := by
            by_contra hne
            exact hjoin ⟨hu, ac, hl, hne⟩
          cases h.state _ ac hl with
          | idle hr h0 => exact .idle hr h0
          | active hr hlimit _ =>
              exact .active hr hlimit fun hne => absurd (hlimit.symm.trans ht) hne
        · exact .idle rfl rfl
      · exact h.state b bc hb

theorem JoinInv.step (h : JoinInv cfg w) (he : cfg.Enforcing) (op : JoinOp)
    (hjoin : ¬ JoinsRestricted w op) : JoinInv cfg (op.apply w) := by
  cases op with
  | tick a now usage => exact h.tick he a now usage
  | register u => exact h.register u hjoin
  | newMap userMap => exact ⟨h.cfg_eq, ⟨h.owned.ready, h.owned.owns, h.owned.logged⟩, h.state⟩

end Steps

/-! ### Every user of a restricted account is frozen -/

/-- In every run from start-up in which no user joins a restricted account, all users of
restricted accounts are frozen. -/
theorem all_frozen_of_no_join (cfg : GovernorConfig) (hcfg : cfg.Enforcing) (ops : List JoinOp)
    (h : Runs.Meets JoinOp.apply (fun w op => ¬ JoinsRestricted w op) (World.init cfg) ops) :
    AllFrozen (ops.foldl JoinOp.apply (World.init cfg)) :=
  (h.invariant (fun _ op hw hop => hw.step hcfg op hop) (JoinInv.init cfg)).allFrozen

/-- A second user of the same account, by the prefix of its name. -/
def joiningUser : Username := strlcpy [117, 95, 98]

/-- Two users that are there when the account is restricted. -/
theorem all_frozen_of_no_join_sample :
    AllFrozen ([.register sampleUser, .register joiningUser,
      .tick sampleUser 1000000 (cpuUsage 5)].foldl JoinOp.apply
        (World.init (shippedConfig true))) :=
  all_frozen_of_no_join (shippedConfig true) (shippedConfig_enforcing true) _
    (by decide +kernel)

/-- A user that joins a restricted account is not frozen, even after the next tick. -/
theorem join_not_frozen :
    ¬ ∀ (cfg : GovernorConfig) (ops : List JoinOp), cfg.Enforcing → cfg.restrictMode = true →
      AllFrozen (ops.foldl JoinOp.apply (World.init cfg)) := by
  intro h
  let ops : List JoinOp := [.register sampleUser, .tick sampleUser 1000000 (cpuUsage 5),
    .register joiningUser, .tick sampleUser 1000001 (cpuUsage 5)]
  let w := ops.foldl JoinOp.apply (World.init (shippedConfig true))
  have hloose : ∃ ac ∈ w.accounts.lookup sampleUser, ac.timeout ≠ 0 ∧
      joiningUser ∈ ac.users ∧ lastCommand joiningUser w.globals.enqueued ≠ some .freeze := by
    decide +kernel
  obtain ⟨ac, hac, ht, hu, hlast⟩ := hloose
  exact hlast (h (shippedConfig true) ops (shippedConfig_enforcing true) rfl _ ac hac ht _ hu)

end DbGovernor
