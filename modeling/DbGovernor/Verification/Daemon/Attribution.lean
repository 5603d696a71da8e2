import DbGovernor.Verification.Daemon.MapRefresh
import DbGovernor.Verification.Daemon.Partition
import DbGovernor.Verification.Daemon.Registration
import DbGovernor.Verification.SharedMemory.Names

/-!
# The account of a user

`get_user_account` asks the dbuser map once for each user, and `set_dbuser_map` passes over the
users that are known. A user keeps the account that the map of its first sight gave it.
-/

namespace DbGovernor

/-! ### What a map says about a user -/

/-- The account that is due to a user under a map: the one of its entry, or else the part of its
name before the first separator. -/
inductive ClaimedAccount (cfg : GovernorConfig) (userMap : Option (HashTable UserMap))
    (u : Username) : Username → Prop where
  | mapped (a : Username) : getAccount userMap u = some a → ClaimedAccount cfg userMap u a
  | prefixed (a : Username) (front back : List UInt8) : getAccount userMap u = none →
      u.bytes = front ++ cfg.separator :: back → cfg.separator ∉ front → front ≠ [] →
      a.bytes = front → ClaimedAccount cfg userMap u a
  | whole : getAccount userMap u = none →
      (cfg.separator ∉ u.bytes ∨ ∃ back, u.bytes = cfg.separator :: back) →
      ClaimedAccount cfg userMap u u

section Claimed

variable {cfg : GovernorConfig} {userMap : Option (HashTable UserMap)} {u a : Username}

theorem findIdx?_eq_none_of_notMem {sep : UInt8} {bytes : List UInt8} (h : sep ∉ bytes) :
    bytes.findIdx? (· == sep) = none := by
  rw [List.findIdx?_eq_none_iff]
  intro b hb
  have hne : b ≠ sep := ne_of_mem_of_not_mem hb h
  simpa using hne

theorem findIdx?_separator {sep : UInt8} {front : List UInt8} (back : List UInt8)
    (h : sep ∉ front) :
    (front ++ sep :: back).findIdx? (· == sep) = some front.length := by
  simp [List.findIdx?_append, findIdx?_eq_none_of_notMem h, List.findIdx?_cons]

/-- A part of a name is copied whole. -/
theorem strlcpy_front {front back : List UInt8} (h : u.bytes = front ++ back) :
    (strlcpy front).bytes = front := by
  refine strlcpy_bytes_of_fits ?_ ?_
  · intro hzero
    exact u.noNul (by simp [h, hzero])
  · have hfits := u.fits
    simp only [h, List.length_append] at hfits
    omega

/-- `get_user_account` gives a user that is not configured by `mysql_name` what is due to it. -/
theorem claimedAccount_iff (hflag : (configGetAccountLimit cfg u).accountFlag = true) :
    ClaimedAccount cfg userMap u a ↔ a = assignAccount cfg userMap u := by
  constructor
  · intro h
    cases h with
    | mapped _ hmap => simp [assignAccount, hflag, hmap]
    | prefixed _ front back hnone hbytes hsep hne ha =>
        have hidx := findIdx?_separator back hsep
        obtain ⟨n, hn⟩ := Nat.exists_eq_succ_of_ne_zero (List.length_pos_iff.mpr hne).ne'
        have htake : u.bytes.take (n + 1) = front := by
          rw [hbytes, ← Nat.succ_eq_add_one, ← hn, List.take_left]
        rw [← hbytes, hn] at hidx
        simp only [assignAccount, hflag, hnone, hidx, if_true, Nat.succ_eq_add_one, htake]
        exact Username.ext (ha.trans (strlcpy_front hbytes).symm)
    | whole hnone hsep =>
        rcases hsep with hmem | ⟨back, hbytes⟩
        · simp [assignAccount, hflag, hnone, findIdx?_eq_none_of_notMem hmem]
        · have hidx := findIdx?_separator back
            (List.not_mem_nil : cfg.separator ∉ [])
          rw [List.nil_append, ← hbytes] at hidx
          simp [assignAccount, hflag, hnone, hidx]
  · rintro rfl
    cases hmap : getAccount userMap u with
    | some a =>
        have heq : assignAccount cfg userMap u = a := by simp [assignAccount, hflag, hmap]
        rw [heq]
        exact .mapped a hmap
    | none =>
        by_cases hmem : cfg.separator ∈ u.bytes
        · obtain ⟨front, back, hbytes, hsep⟩ := List.eq_append_cons_of_mem hmem
          have hidx := findIdx?_separator back hsep
          rw [← hbytes] at hidx
          cases front with
          | nil =>
              have heq : assignAccount cfg userMap u = u := by
                simp [assignAccount, hflag, hmap, hidx]
              rw [heq]
              exact .whole hmap (.inr ⟨back, hbytes⟩)
          | cons b front =>
              refine .prefixed _ (b :: front) back hmap hbytes hsep (by simp) ?_
              have htake : u.bytes.take (front.length + 1) = b :: front := by
                rw [hbytes, ← List.length_cons (a := b), List.take_left]
              rw [List.length_cons] at hidx
              simp only [assignAccount, hflag, hmap, hidx, if_true, htake]
              exact strlcpy_front hbytes
        · have heq : assignAccount cfg userMap u = u := by
            simp [assignAccount, hflag, hmap, findIdx?_eq_none_of_notMem hmem]
          rw [heq]
          exact .whole hmap (.inl hmem)

end Claimed

/-! ### Registrations -/

/-- The account under which a user is registered. -/
def World.attribution (w : World) (u : Username) : Option Username :=
  (w.users.lookup u).map UserStats.account

/-- The two tables remember the same accounts, and each user is listed once, by its own. -/
structure Attributed (w : World) : Prop where
  memo : ∀ u, w.userAccountTable.lookup u = w.attribution u
  partition : Partitioned w

/-- From `w` to `w'` the users `names` were registered as far as they were new. -/
structure Registers (names : List Username) (w w' : World) : Prop where
  attributed : Attributed w'
  cfg : w'.cfg = w.cfg
  userMap : w'.userMap = w.userMap
  attribution : ∀ u, w'.attribution u =
    (w.attribution u).or (if u ∈ names then some (assignAccount w.cfg w.userMap u) else none)

section Registers

variable {w w' w'' : World} {u : Username} {names more : List Username}

theorem Attributed.init (cfg : GovernorConfig) : Attributed (World.init cfg) :=
  ⟨fun _ => rfl, .init cfg⟩

theorem Attributed.refl (h : Attributed w) : Registers [] w w := ⟨h, rfl, rfl, by simp⟩

theorem Registers.trans (h : Registers names w w') (h' : Registers more w' w'') :
    Registers (names ++ more) w w'' := by
  refine ⟨h'.attributed, h'.cfg.trans h.cfg, h'.userMap.trans h.userMap, ?_⟩
  intro u
  rw [h'.attribution, h.attribution, h.cfg, h.userMap, Option.or_assoc]
  congr 1
  by_cases hu : u ∈ names <;> simp [hu]

theorem Attributed.addEmptyStatsForUid (h : Attributed w) (u : Username) :
    Registers [u] w (addEmptyStatsForUid u w) := by
  rw [DbGovernor.addEmptyStatsForUid]
  cases hu : w.users.lookup u with
  | some us =>
      refine ⟨h, rfl, rfl, ?_⟩
      intro v
      by_cases hv : v = u
      · subst hv
        simp [World.attribution, hu]
      · simp [hv]
  | none =>
      have hreg := registered_addUserStats u w
      have hhome : w.homeAccount u = assignAccount w.cfg w.userMap u := by
        have hmemo : w.userAccountTable.lookup u = none := by
          rw [h.memo, World.attribution, hu, Option.map_none]
        rw [World.homeAccount, getUserAccount, hmemo]
      have hattr : ∀ v, (DbGovernor.addUserStats u w).attribution v =
          if v = u then some (w.homeAccount u) else w.attribution v := by
        intro v
        rw [World.attribution, hreg.users]
        by_cases hv : v = u
        · subst hv
          simp [initUserStats]
        · simp [hv, World.attribution]
      refine ⟨⟨?_, h.partition.addUserStats hu⟩, hreg.frame.cfg, hreg.frame.userMap, ?_⟩
      · intro v
        rw [hreg.homes, hattr, h.memo]
      · intro v
        rw [hattr, hhome]
        by_cases hv : v = u
        · subst hv
          simp [World.attribution, hu]
        · simp [hv]

theorem Attributed.foldl_addEmptyStatsForUid (h : Attributed w) (names : List Username) :
    Registers names w (names.foldl (fun w u => DbGovernor.addEmptyStatsForUid u w) w) := by
  induction names generalizing w with
  | nil => exact h.refl
  | cons u names ih =>
      have hu := h.addEmptyStatsForUid u
      exact hu.trans (ih hu.attributed)

/-- The users that the traversal of `set_dbuser_map` meets. -/
def mapUsers (ord : IterOrder) (userMap : Option (HashTable UserMap)) : List Username :=
  match userMap with
  | none => []
  | some t => (ord.order t.keys).filterMap fun key => (t.lookup key).map UserMap.username

theorem setDbuserMap_eq (ord : IterOrder) (w : World) :
    setDbuserMap ord w =
      (mapUsers ord w.userMap).foldl (fun w u => DbGovernor.addEmptyStatsForUid u w) w := by
  cases hmap : w.userMap with
  | none => simp only [setDbuserMap, mapUsers, hmap, List.foldl_nil]
  | some t =>
      simp only [setDbuserMap, mapUsers, hmap]
      rw [List.foldl_filterMap]
      refine List.foldl_ext _ _ w ?_
      intro v key _
      cases t.lookup key <;> rfl

theorem Attributed.setDbuserMap (h : Attributed w) (ord : IterOrder) :
    Registers (mapUsers ord w.userMap) w (setDbuserMap ord w) := by
  rw [setDbuserMap_eq]
  exact h.foldl_addEmptyStatsForUid _

/-- A user is listed by the account under which it is registered, and by no other. -/
theorem Attributed.holds_iff (h : Attributed w) {a : Username} :
    (∃ ac, w.accounts.lookup a = some ac ∧ u ∈ ac.users) ↔ w.attribution u = some a := by
  constructor
  · rintro ⟨ac, hac, hmem⟩
    obtain ⟨us, hus, rfl⟩ := (h.partition.owns a ac hac).member u hmem
    simp [World.attribution, hus]
  · intro hattr
    obtain ⟨us, hus, rfl⟩ := Option.map_eq_some_iff.mp hattr
    obtain ⟨ac, hac, hcount⟩ := h.partition.listed u us hus
    exact ⟨ac, hac, List.count_pos_iff.mp (by omega)⟩

end Registers

/-! ### Runs -/

/-- A map is loaded, a user is registered, or the users of the map are. -/
inductive MapEvent where
  | load (file : Option (List UInt8))
  | register (u : Username)
  | setMap (ord : IterOrder)

def MapEvent.apply (w : World) : MapEvent → World
  | .load file => { w with userMap := some (getMapFile w.cfg file).2 }
  | .register u => addEmptyStatsForUid u w
  | .setMap ord => setDbuserMap ord w

/-- The map after an event. -/
def MapEvent.map (cfg : GovernorConfig) (userMap : Option (HashTable UserMap)) :
    MapEvent → Option (HashTable UserMap)
  | .load file => some (getMapFile cfg file).2
  | _ => userMap

/-- The users that an event looks up, under the map in force. -/
def MapEvent.names (userMap : Option (HashTable UserMap)) : MapEvent → List Username
  | .load _ => []
  | .register u => [u]
  | .setMap ord => mapUsers ord userMap

/-- The map that is in force when a user is looked up for the first time, if it ever is. -/
def mapAtFirstSight (cfg : GovernorConfig) (u : Username) :
    Option (HashTable UserMap) → List MapEvent → Option (Option (HashTable UserMap))
  | _, [] => none
  | userMap, e :: events =>
      if u ∈ e.names userMap then some userMap
      else mapAtFirstSight cfg u (e.map cfg userMap) events

/-- The map in force at the end. -/
def currentMap (cfg : GovernorConfig) (userMap : Option (HashTable UserMap))
    (events : List MapEvent) : Option (HashTable UserMap) :=
  events.foldl (fun userMap e => e.map cfg userMap) userMap

section Runs

variable {w : World} {cfg : GovernorConfig} {u : Username}

/-- One event of a run. -/
theorem Attributed.event (h : Attributed w) (e : MapEvent) :
    Attributed (e.apply w) ∧ (e.apply w).cfg = w.cfg ∧
      (e.apply w).userMap = e.map w.cfg w.userMap ∧
      ∀ u, (e.apply w).attribution u = (w.attribution u).or
        (if u ∈ e.names w.userMap then some (assignAccount w.cfg w.userMap u) else none) := by
  cases e with
  | load file => exact ⟨⟨h.memo, h.partition.frame rfl rfl⟩, rfl, rfl, by simp [MapEvent.names,
      MapEvent.apply, World.attribution]⟩
  | register u =>
      obtain ⟨hattr, hcfg, hmap, heq⟩ := h.addEmptyStatsForUid u
      exact ⟨hattr, hcfg, hmap, heq⟩
  | setMap ord =>
      obtain ⟨hattr, hcfg, hmap, heq⟩ := h.setDbuserMap ord
      exact ⟨hattr, hcfg, hmap, heq⟩

/-- A run gives each new user the account of its first sight. -/
theorem Attributed.run (h : Attributed w) (events : List MapEvent) :
    Attributed (events.foldl MapEvent.apply w) ∧
      (events.foldl MapEvent.apply w).cfg = w.cfg ∧
      (events.foldl MapEvent.apply w).userMap = currentMap w.cfg w.userMap events ∧
      ∀ u, (events.foldl MapEvent.apply w).attribution u = (w.attribution u).or
        ((mapAtFirstSight w.cfg u w.userMap events).map fun m => assignAccount w.cfg m u) := by
  induction events generalizing w with
  | nil => exact ⟨h, rfl, rfl, by simp [mapAtFirstSight]⟩
  | cons e events ih =>
      obtain ⟨hattr, hcfg, hmap, heq⟩ := h.event e
      obtain ⟨hattr', hcfg', hmap', heq'⟩ := ih hattr
      rw [hcfg, hmap] at hmap'
      refine ⟨hattr', hcfg'.trans hcfg, hmap', ?_⟩
      intro u
      rw [List.foldl_cons, heq', heq, hcfg, hmap, Option.or_assoc, mapAtFirstSight]
      congr 1
      split <;> simp

end Runs

/-! ### Attribution and the current map -/

/-- The one account that lists the user is the one that is due to it under the current map. -/
def FollowsMap (u : Username) (w : World) : Prop :=
  (∃ a ac, w.accounts.lookup a = some ac ∧ u ∈ ac.users) ∧
    ∀ a ac, w.accounts.lookup a = some ac → u ∈ ac.users → ClaimedAccount w.cfg w.userMap u a

/-- After a round of `set_dbuser_map` a known user is in the account that the current map gives it
exactly if the map of its first sight gave it the same. -/
theorem follows_map_iff_first_sight (cfg : GovernorConfig) (events : List MapEvent)
    (ord : IterOrder) (u : Username) (hflag : (configGetAccountLimit cfg u).accountFlag = true)
    (hknown : (((events ++ [MapEvent.setMap ord]).foldl MapEvent.apply
      (World.init cfg)).users.lookup u).isSome) :
    FollowsMap u ((events ++ [MapEvent.setMap ord]).foldl MapEvent.apply (World.init cfg)) ↔
      ∃ m ∈ mapAtFirstSight cfg u none (events ++ [MapEvent.setMap ord]),
        ∃ a, ClaimedAccount cfg m u a ∧
          ClaimedAccount cfg (currentMap cfg none (events ++ [MapEvent.setMap ord])) u a := by
  obtain ⟨hattr, hcfg, hmap, heq⟩ := (Attributed.init cfg).run (events ++ [MapEvent.setMap ord])
  change ((events ++ [MapEvent.setMap ord]).foldl MapEvent.apply (World.init cfg)).cfg = cfg at hcfg
  change _ = currentMap cfg none (events ++ [MapEvent.setMap ord]) at hmap
  have hsight : ((events ++ [MapEvent.setMap ord]).foldl MapEvent.apply (World.init cfg)).attribution u =
      (mapAtFirstSight cfg u none (events ++ [MapEvent.setMap ord])).map fun m => assignAccount cfg m u :=
    heq u
  generalize (events ++ [MapEvent.setMap ord]).foldl MapEvent.apply (World.init cfg) = w at *
  generalize mapAtFirstSight cfg u none (events ++ [MapEvent.setMap ord]) = first at *
  generalize currentMap cfg none (events ++ [MapEvent.setMap ord]) = current at *
  cases first with
  | none =>
      rw [World.attribution, Option.map_none, Option.map_eq_none_iff] at hsight
      rw [hsight] at hknown
      cases hknown
  | some m =>
      rw [Option.map_some] at hsight
      have hholds : ∀ a, (∃ ac, w.accounts.lookup a = some ac ∧ u ∈ ac.users) ↔
          a = assignAccount cfg m u := by
        intro a
        rw [hattr.holds_iff, hsight, Option.some.injEq, eq_comm]
      rw [FollowsMap, hcfg, hmap]
      constructor
      · rintro ⟨-, hclaim⟩
        obtain ⟨ac, hac, hmem⟩ := (hholds _).mpr rfl
        exact ⟨m, rfl, _, (claimedAccount_iff hflag).mpr rfl, hclaim _ ac hac hmem⟩
      · rintro ⟨m', hm', a, hfirst, hcurrent⟩
        obtain rfl := Option.some.inj hm'
        obtain rfl := (claimedAccount_iff hflag).mp hfirst
        refine ⟨⟨_, (hholds _).mpr rfl⟩, ?_⟩
        intro b ac hac hmem
        rw [(hholds b).mp ⟨ac, hac, hmem⟩]
        exact hcurrent

/-- A map file with one line: the user `u_b` belongs to the account `w`. -/
def joiningMapFile : List UInt8 := [117, 95, 98, 32, 119, 32, 55, 10]

/-- A user whose first sight is the traversal of the map. -/
theorem follows_map_iff_first_sight_sample :
    FollowsMap joiningUser ([.load (some joiningMapFile), .setMap .asListed].foldl MapEvent.apply
      (World.init (shippedConfig true))) := by
  refine (follows_map_iff_first_sight (shippedConfig true) [.load (some joiningMapFile)] .asListed
    joiningUser (by decide) (by decide +kernel)).mpr ?_
  exact ⟨_, rfl, strlcpy [119], .mapped _ (by decide +kernel), .mapped _ (by decide +kernel)⟩

/-- A user that is seen before the map is loaded keeps the account of its prefix. -/
theorem first_sight_keeps_prefix :
    ¬ ∀ (cfg : GovernorConfig) (events : List MapEvent) (ord : IterOrder) (u : Username),
      (configGetAccountLimit cfg u).accountFlag = true →
      (((events ++ [MapEvent.setMap ord]).foldl MapEvent.apply (World.init cfg)).users.lookup u).isSome →
      FollowsMap u ((events ++ [MapEvent.setMap ord]).foldl MapEvent.apply (World.init cfg)) := by
  intro h
  have hfollows := h (shippedConfig true) [.register joiningUser, .load (some joiningMapFile)]
    .asListed joiningUser (by decide) (by decide +kernel)
  have hheld : ∃ ac ∈ ([.register joiningUser, .load (some joiningMapFile),
      .setMap .asListed].foldl MapEvent.apply
        (World.init (shippedConfig true))).accounts.lookup sampleUser,
      joiningUser ∈ ac.users := by
    decide +kernel
  obtain ⟨ac, hac, hmem⟩ := hheld
  have hclaim := (claimedAccount_iff (by decide +kernel)).mp (hfollows.2 sampleUser ac hac hmem)
  exact absurd hclaim (by decide +kernel)

end DbGovernor
