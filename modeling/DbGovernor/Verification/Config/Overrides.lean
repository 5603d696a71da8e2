import DbGovernor.Verification.Config.Reading
import DbGovernor.Verification.Daemon.TimeLimit

/-!
# What start-up puts over the file

The mode of the daemon's own user and the switch that turns LVE off are written into the
structure in force, and a reread puts the file in its place.
-/

namespace DbGovernor

open Results

/-- A message that rereads the configuration, with what the daemon then finds. `usersList` is
the file of the user map when the message is `REINIT_USERS_LIST`. -/
structure Reread where
  liblve : Bool
  root : XmlNode
  usersList : Option (Option (List UInt8))
  now : ℤ
  ord : IterOrder

def Reread.message (r : Reread) (cfg : GovernorConfig) : DbctlMessage :=
  match r.usersList with
  | none => .rereadCfg cfg
  | some file => .reinitUsersList cfg file

def Reread.apply (w : World) (r : Reread) : ConfigM World := do
  let cfg ← rereadConfig r.liblve r.root w.cfg
  return runDbctlCommand (r.message cfg) r.now r.ord w

def rereadAll (w : World) (rereads : List Reread) : ConfigM World := rereads.foldlM Reread.apply w

/-- No user element of the file is for the user. -/
def LacksUser (root : XmlNode) (u : Username) : Prop :=
  ∀ node ∈ childrenNamed root "user",
    getElemAttr node "name" ≠ some u.bytes ∧ getElemAttr node "mysql_name" ≠ some u.bytes

instance (root : XmlNode) (u : Username) : Decidable (LacksUser root u) :=
  inferInstanceAs (Decidable (∀ node ∈ childrenNamed root "user",
    getElemAttr node "name" ≠ some u.bytes ∧ getElemAttr node "mysql_name" ≠ some u.bytes))

/-- The file is read without an exit, and says nothing of the user. -/
structure Reread.Valid (u : Username) (r : Reread) : Prop where
  accepted : Succeeds (configInit r.liblve r.root)
  lacks : LacksUser r.root u

/-- The file turns LVE on. -/
def usesLve (root : XmlNode) : Bool := attrIs root "lve" "use" ["On", "Single", "AbUsers", "All"]

/-- The daemon after start-up on a file. -/
def startWorld (workUser : Username) (badList : Bool) (cfg : GovernorConfig) : World :=
  .init (startConfig workUser badList cfg)

/-- The work user is ignored, and LVE is off if the list of bad users could not be made. -/
structure Overridden (workUser : Username) (lveOff : Bool) (cfg : GovernorConfig) : Prop where
  ignored : (configGetAccountLimit cfg workUser).mode = .ignoreMode
  off : lveOff = true → cfg.useLve = false

/-- The overrides hold after start-up and after each reread of a sequence. -/
def OverridesKept (workUser : Username) (badList : Bool) (cfg : GovernorConfig)
    (rereads : List Reread) : Prop :=
  ∀ done, done <+: rereads → ∀ w, rereadAll (startWorld workUser badList cfg) done = .ok w →
    Overridden workUser (!cfg.isGpl && !badList) w.cfg

section Reading

variable {liblve : Bool} {root : XmlNode} {cfg : GovernorConfig} {u : Username}

/-- A user without an element has no entry of its own. -/
theorem configInit_lookup_eq_none (h : configInit liblve root = .ok cfg)
    (hlacks : LacksUser root u) : cfg.accountLimits.lookup u = none := by
  obtain ⟨settings, defaultLimit, entries, -, -, hentries, rfl⟩ := configInit_eq_ok_iff.mp h
  have hnone : KeyedLog.last Prod.fst u.bytes entries = none := by
    rw [KeyedLog.last, List.find?_eq_none]
    intro entry hentry
    have hmem : some entry.1 ∈ (childrenNamed root "user").map userKey := by
      rw [readUsers_keys hentries]
      exact List.mem_map.mpr ⟨entry, List.mem_reverse.mp hentry, rfl⟩
    obtain ⟨node, hnode, hkey⟩ := List.mem_map.mp hmem
    obtain ⟨hname, hmysql⟩ := hlacks node hnode
    rw [userKey, Option.or_eq_some_iff] at hkey
    rw [decide_eq_true_eq]
    rintro heq
    rw [heq] at hkey
    rcases hkey with hkey | ⟨-, hkey⟩
    · exact hname hkey
    · exact hmysql hkey
  rw [lookup_accountLimitsOf, hnone, Option.map_none]

/-- The limits in force for a user that the file says nothing of are the default ones. -/
theorem configInit_mode (h : configInit liblve root = .ok cfg) (hlacks : LacksUser root u) :
    (configGetAccountLimit cfg u).mode = .restrictMode := by
  rw [configGetAccountLimit, configInit_lookup_eq_none h hlacks, Option.getD_none]
  obtain ⟨settings, defaultLimit, entries, -, hdefault, -, rfl⟩ := configInit_eq_ok_iff.mp h
  exact readDefault_mode hdefault

theorem configInit_useLve (h : configInit liblve root = .ok cfg) : cfg.useLve = usesLve root := by
  obtain ⟨settings, defaultLimit, entries, hsettings, -, -, rfl⟩ := configInit_eq_ok_iff.mp h
  have huse := readSettings_useLve hsettings
  exact huse

/-- Start-up on a file that says nothing of the work user. -/
theorem overridden_startConfig (h : configInit liblve root = .ok cfg) (hu : u.bytes ≠ [])
    (hlacks : LacksUser root u) (badList : Bool) :
    Overridden u (!cfg.isGpl && !badList) (startConfig u badList cfg) := by
  have hadd : configAddWorkUser u cfg = { cfg with
      accountLimits := cfg.accountLimits.insert u (workUserLimit cfg.defaultLimit) } := by
    rw [configAddWorkUser, if_pos ⟨hu, configInit_lookup_eq_none h hlacks⟩]
  rw [startConfig, hadd]
  dsimp only
  constructor
  · split <;> simp [configGetAccountLimit, workUserLimit]
  · intro hoff
    rw [if_pos hoff]

end Reading

section Rereads

variable {u : Username} {w w' : World} {r : Reread} {rereads : List Reread}

theorem Reread.message_config (r : Reread) (cfg : GovernorConfig) :
    (r.message cfg).config = some cfg := by
  rw [Reread.message]
  split <;> rfl

/-- After a reread the file is in force, whatever was before. -/
theorem Reread.apply_eq_ok (h : r.apply w = .ok w') : configInit r.liblve r.root = .ok w'.cfg := by
  rw [Reread.apply, bind_eq_ok] at h
  obtain ⟨cfg, hcfg, hw⟩ := h
  rw [← pure_eq_ok.mp hw, runDbctlCommand_cfg, r.message_config]
  exact hcfg

theorem Reread.Valid.apply_succeeds (h : r.Valid u) (w : World) : Succeeds (r.apply w) := by
  obtain ⟨cfg, hcfg⟩ := h.accepted
  exact ⟨_, bind_eq_ok.mpr ⟨cfg, hcfg, rfl⟩⟩

theorem rereadAll_append_singleton :
    rereadAll w (rereads ++ [r]) = .ok w' ↔ ∃ v, rereadAll w rereads = .ok v ∧ r.apply v = .ok w' := by
  rw [rereadAll, List.foldlM_append, bind_eq_ok]
  simp only [List.foldlM_cons, List.foldlM_nil, bind_eq_ok, pure_eq_ok, exists_eq_right]
  rfl

theorem rereadAll_succeeds (h : ∀ r ∈ rereads, r.Valid u) (w : World) :
    Succeeds (rereadAll w rereads) := by
  induction rereads using List.reverseRecOn with
  | nil => exact ⟨w, rfl⟩
  | append_singleton rereads r ih =>
      obtain ⟨v, hv⟩ := ih fun s hs => h s (List.mem_append_left _ hs)
      obtain ⟨w', hw'⟩ := (h r (by simp)).apply_succeeds v
      exact ⟨w', rereadAll_append_singleton.mpr ⟨v, hv, hw'⟩⟩

/-- What holds of the state after each part of a sequence: of the start, and of the file of
each reread. -/
theorem forall_rereadAll_iff (h : ∀ r ∈ rereads, r.Valid u) (P : GovernorConfig → Prop) :
    (∀ done, done <+: rereads → ∀ w', rereadAll w done = .ok w' → P w'.cfg) ↔
      P w.cfg ∧ ∀ r ∈ rereads, ∀ cfg, configInit r.liblve r.root = .ok cfg → P cfg := by
  constructor
  · intro hall
    refine ⟨hall [] List.nil_prefix w rfl, ?_⟩
    intro r hr cfg hcfg
    obtain ⟨before, after, rfl⟩ := List.append_of_mem hr
    have hbefore : Succeeds (rereadAll w before) :=
      rereadAll_succeeds (fun s hs => h s (by simp [hs])) w
    obtain ⟨v, hv⟩ := hbefore
    obtain ⟨w', hw'⟩ := (h r hr).apply_succeeds v
    have hlast := hall (before ++ [r]) ⟨after, by simp⟩ w'
      (rereadAll_append_singleton.mpr ⟨v, hv, hw'⟩)
    have hsame := hcfg.symm.trans (Reread.apply_eq_ok hw')
    cases hsame
    exact hlast
  · rintro ⟨hstart, hfiles⟩ done hdone w' hw'
    induction done using List.reverseRecOn with
    | nil =>
        cases hw'
        exact hstart
    | append_singleton done r _ =>
        obtain ⟨v, -, hr⟩ := rereadAll_append_singleton.mp hw'
        exact hfiles r (hdone.subset (by simp)) _ (Reread.apply_eq_ok hr)

end Rereads

/-- Every reread loses the mode of the work user, and takes LVE from the file. -/
theorem overrides_kept_iff_never_reread {liblve : Bool} {root : XmlNode} {cfg : GovernorConfig}
    {u : Username} {rereads : List Reread} (hstart : configInit liblve root = .ok cfg)
    (hu : u.bytes ≠ []) (hlacks : LacksUser root u) (badList : Bool)
    (hvalid : ∀ r ∈ rereads, r.Valid u) :
    (OverridesKept u badList cfg rereads ↔ rereads = []) ∧
      (cfg.isGpl = false → badList = false →
        ((∀ done, done <+: rereads → ∀ w, rereadAll (startWorld u badList cfg) done = .ok w →
            w.cfg.useLve = false) ↔ ∀ r ∈ rereads, usesLve r.root = false)) := by
  have hover := overridden_startConfig hstart hu hlacks badList
  constructor
  · rw [OverridesKept, forall_rereadAll_iff hvalid]
    constructor
    · rintro ⟨-, hfiles⟩
      rw [List.eq_nil_iff_forall_not_mem]
      intro r hr
      obtain ⟨file, hfile⟩ := (hvalid r hr).accepted
      have hignored := (hfiles r hr file hfile).ignored
      rw [configInit_mode hfile (hvalid r hr).lacks] at hignored
      cases hignored
    · rintro rfl
      exact ⟨hover, fun r hr => absurd hr List.not_mem_nil⟩
  · intro hgpl hbad
    rw [forall_rereadAll_iff hvalid fun file => file.useLve = false]
    constructor
    · rintro ⟨-, hfiles⟩ r hr
      obtain ⟨file, hfile⟩ := (hvalid r hr).accepted
      rw [← configInit_useLve hfile]
      exact hfiles r hr file hfile
    · intro hoff
      refine ⟨hover.off (by simp [hgpl, hbad]), ?_⟩
      intro r hr file hfile
      rw [configInit_useLve hfile]
      exact hoff r hr

/-- One `REREAD_CFG` on the shipped file. -/
def shippedReread : Reread := ⟨true, shippedRoot [], none, 0, .asListed⟩

theorem shippedReread_valid : ∀ r ∈ [shippedReread], r.Valid sampleUser := by
  intro r hr
  rw [List.mem_singleton.mp hr]
  exact ⟨⟨_, configInit_shippedRoot⟩, by decide⟩

theorem overrides_kept_iff_never_reread_sample :
    ¬ OverridesKept sampleUser false (shippedConfig true) [shippedReread] := by
  rw [(overrides_kept_iff_never_reread configInit_shippedRoot (by decide) (by decide) false
    shippedReread_valid).1]
  exact List.cons_ne_nil _ _

/-- One reread puts the work user under the default limits. -/
theorem override_lost_on_reread :
    ¬ ∀ (liblve : Bool) (root : XmlNode) (cfg : GovernorConfig) (u : Username) (badList : Bool)
      (rereads : List Reread), configInit liblve root = .ok cfg → u.bytes ≠ [] →
      LacksUser root u → (∀ r ∈ rereads, r.Valid u) → OverridesKept u badList cfg rereads := by
  intro hkept
  have hall := hkept true _ _ sampleUser true [shippedReread] configInit_shippedRoot (by decide)
    (by decide) shippedReread_valid
  have hreread : rereadAll (startWorld sampleUser true (shippedConfig true)) [shippedReread] =
      .ok { startWorld sampleUser true (shippedConfig true) with cfg := shippedConfig true } := by
    rw [rereadAll, List.foldlM_cons, Reread.apply, rereadConfig, shippedReread,
      configInit_shippedRoot]
    rfl
  have hlast := hall [shippedReread] List.prefix_rfl _ hreread
  exact absurd hlast.ignored (by decide +kernel)

end DbGovernor
