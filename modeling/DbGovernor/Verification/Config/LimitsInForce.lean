import DbGovernor.Model.DbctlList
import DbGovernor.Verification.Config.Reading

/-!
# The limits in force

What `config_init` stores for a name is the last limit of a resource in the last user element for
the name, and without one the last limit of the resource in the default element.
-/

namespace DbGovernor

open Results

/-! ## Stored numbers -/

def TLong.value (l : TLong) : Period → ℤ
  | .current => l.current
  | .short => l.short
  | .mid => l.mid
  | .long => l.long

def StatsCfg.limit (st : StatsCfg) : Resource → TLong
  | .cpu => st.cpu
  | .read => st.read
  | .write => st.write

/-- The number that is stored for a resource and a period. -/
def StatsCfg.value (st : StatsCfg) (resource : Resource) (period : Period) : ℤ :=
  (st.limit resource).value period

@[simp] theorem StatsCfg.value_zero (resource : Resource) (period : Period) :
    StatsCfg.zero.value resource period = 0 := by
  cases resource <;> cases period <;> rfl

theorem name_ne_slow (r : Resource) : ascii r.name ≠ ascii "slow" := by
  cases r <;> decide

theorem setVal_limit (st : StatsCfg) (ptr : CString) (value : TLong) (resource : Resource) :
    (setVal st ptr value).limit resource =
      if ptr = ascii resource.name then value else st.limit resource := by
  rw [setVal]
  by_cases hcpu : ptr = ascii "cpu"
  · subst hcpu
    cases resource <;> rfl
  · by_cases hwrite : ptr = ascii "write"
    · subst hwrite
      cases resource <;> rfl
    · by_cases hread : ptr = ascii "read"
      · subst hread
        cases resource <;> rfl
      · rw [if_neg hcpu, if_neg hwrite, if_neg hread]
        have hname : ptr ≠ ascii resource.name := by
          cases resource
          · exact hcpu
          · exact hread
          · exact hwrite
        rw [if_neg hname]
        split
        · cases resource <;> rfl
        · rfl

/-! ## One element -/

/-- The limit of a resource that an element has last. -/
def lastLimit (resource : Resource) (node : XmlNode) : Option XmlNode :=
  KeyedLog.last (getElemAttr · "name") (some (ascii resource.name)) (childrenNamed node "limit")

theorem setStatsLimit_value {st st' : StatsCfg} {limit : XmlNode}
    (h : setStatsLimit st limit = .ok st') (resource : Resource) (period : Period) :
    st'.value resource period =
      if getElemAttr limit "name" = some (ascii resource.name) then periodValue limit period.name
      else st.value resource period := by
  rw [setStatsLimit] at h
  split at h
  · cases h
  · cases h
  · rename_i current name hcurrent hname
    simp only [hname, Option.some_inj]
    split at h
    · rename_i hslow
      obtain ⟨seconds, -, hst⟩ := bind_eq_ok.mp h
      rw [← pure_eq_ok.mp hst, StatsCfg.value, setVal_limit, hslow, if_neg (name_ne_slow _).symm,
        if_neg (name_ne_slow _).symm]
      rfl
    · cases h
      rw [StatsCfg.value, setVal_limit]
      split
      · cases period
        · have hvalue : periodValue limit "current" = longOfDouble (atof current) := by
            rw [periodValue, hcurrent]
          exact hvalue.symm
        all_goals rfl
      · rfl

theorem setStatsLimits_value {st st' : StatsCfg} {node : XmlNode}
    (h : setStatsLimits st node = .ok st') (resource : Resource) (period : Period) :
    st'.value resource period =
      ((lastLimit resource node).map (periodValue · period.name)).getD (st.value resource period) := by
  rw [setStatsLimits] at h
  rw [lastLimit]
  generalize childrenNamed node "limit" = limits at h ⊢
  induction limits using List.reverseRecOn generalizing st' with
  | nil =>
      cases h
      rfl
  | append_singleton limits limit ih =>
      rw [List.foldlM_append] at h
      obtain ⟨before, hbefore, hlimit⟩ := bind_eq_ok.mp h
      obtain ⟨after, hafter, hst⟩ := bind_eq_ok.mp hlimit
      cases hst
      rw [setStatsLimit_value hafter, ih hbefore, KeyedLog.last_append_singleton]
      split
      · rfl
      · rfl

/-! ## The file -/

/-- The number that a limit gives for a period; without a limit it is that of a cleared
structure. -/
def storedValue (limit : Option XmlNode) (period : Period) : ℤ :=
  (limit.map (periodValue · period.name)).getD 0

theorem readDefault_value {root : XmlNode} {defaultLimit : StatsCfg}
    (h : readDefault root = .ok defaultLimit) (resource : Resource) (period : Period) :
    defaultLimit.value resource period =
      storedValue ((findElementWithName "default" root).bind (lastLimit resource)) period := by
  simp only [readDefault, bind_eq_ok, pure_eq_ok] at h
  obtain ⟨node, hnode, st, hst, rfl⟩ := h
  have hfind : findElementWithName "default" root = some node := by
    rw [findRequired] at hnode
    split at hnode
    · cases hnode
    · rename_i found hfound
      cases hnode
      exact hfound
  have hvalue := setStatsLimits_value hst resource period
  rw [hfind, Option.bind_some, storedValue]
  cases resource <;> cases period <;> exact hvalue

theorem readUser_value {defaultLimit : StatsCfg} {node : XmlNode} {entry : CString × StatsCfg}
    (h : readUser defaultLimit node = .ok entry) (resource : Resource) (period : Period) :
    entry.2.value resource period = ((lastLimit resource node).map (periodValue · period.name)).getD
      (defaultLimit.value resource period) := by
  have hread : ∃ key flag, readUser.readLimits defaultLimit node key flag = .ok entry := by
    rw [readUser] at h
    split at h
    · cases h
    · cases h
    · exact ⟨_, _, h⟩
    · exact ⟨_, _, h⟩
  obtain ⟨key, flag, hlimits⟩ := hread
  simp only [readUser.readLimits, bind_eq_ok, pure_eq_ok] at hlimits
  obtain ⟨mode, -, l, hl, rfl⟩ := hlimits
  rw [setStatsLimits_value hl]
  rfl

/-- The limits that `config_init` gives a name of the file, or the default. -/
def effectiveLimit (root : XmlNode) (key : CString) : ConfigM StatsCfg := do
  let defaultLimit ← readDefault root
  let entries ← readUsers defaultLimit root
  return ((replaceAll entries).lookup key).getD defaultLimit

/-- For a name that the daemon can hold these are the limits it finds. -/
theorem effectiveLimit_eq {liblve : Bool} {root : XmlNode} {cfg : GovernorConfig}
    (h : configInit liblve root = .ok cfg) (u : Username) :
    effectiveLimit root u.bytes = .ok (configGetAccountLimit cfg u) := by
  obtain ⟨settings, defaultLimit, entries, -, hdefault, hentries, rfl⟩ := configInit_eq_ok_iff.mp h
  rw [effectiveLimit, hdefault, configGetAccountLimit, lookup_accountLimitsOf]
  simp only [bind, Except.bind, hentries, pure, Except.pure, lookup_replaceAll]

/-- The limit element that decides for a name. -/
def limitInForce (root : XmlNode) (key : CString) (resource : Resource) : Option XmlNode :=
  ((KeyedLog.last userKey (some key) (childrenNamed root "user")).bind (lastLimit resource)).or
    ((findElementWithName "default" root).bind (lastLimit resource))

theorem effectiveLimit_value {liblve : Bool} {root : XmlNode} {cfg : GovernorConfig}
    (h : configInit liblve root = .ok cfg) (key : CString) :
    ∃ limit, effectiveLimit root key = .ok limit ∧ ∀ resource period,
      limit.value resource period = storedValue (limitInForce root key resource) period := by
  obtain ⟨settings, defaultLimit, entries, -, hdefault, hentries, rfl⟩ := configInit_eq_ok_iff.mp h
  refine ⟨((replaceAll entries).lookup key).getD defaultLimit, ?_, fun resource period => ?_⟩
  · rw [effectiveLimit, hdefault]
    simp only [bind, Except.bind, hentries, pure, Except.pure]
  · have hread := (mapM_eq_ok_iff.mp hentries)
    have hlast : Option.Rel (fun node entry => readUser defaultLimit node = .ok entry)
        (KeyedLog.last userKey (some key) (childrenNamed root "user"))
        (KeyedLog.last Prod.fst key entries) :=
      KeyedLog.last_forall₂ userKey Prod.fst hread fun node entry hentry => by
        rw [readUser_key hentry, Option.some_inj]
    rw [lookup_replaceAll, limitInForce]
    generalize KeyedLog.last userKey (some key) (childrenNamed root "user") = node,
      KeyedLog.last Prod.fst key entries = entry at hlast ⊢
    cases hlast with
    | none => exact readDefault_value hdefault resource period
    | @some node entry hentry =>
        rw [Option.map_some, Option.getD_some, readUser_value hentry, Option.bind_some,
          readDefault_value hdefault]
        cases lastLimit resource node with
        | none => rfl
        | some limit => rfl

end DbGovernor
