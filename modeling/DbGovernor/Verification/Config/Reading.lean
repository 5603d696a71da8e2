import DbGovernor.Model.ConfigInit
import DbGovernor.Verification.Shared.KeyedLog
import DbGovernor.Verification.Shared.Results

/-! # What `config_init` reads -/

namespace DbGovernor

open Results

/-! ## The parts of a configuration -/

theorem configInit_eq_ok_iff {liblve : Bool} {root : XmlNode} {cfg : GovernorConfig} :
    configInit liblve root = .ok cfg ↔ ∃ settings defaultLimit entries,
      readSettings liblve root = .ok settings ∧ readDefault root = .ok defaultLimit ∧
      readUsers defaultLimit root = .ok entries ∧
      { settings with defaultLimit, accountLimits := accountLimitsOf entries } = cfg := by
  rw [configInit]
  simp only [bind_eq_ok, pure_eq_ok]
  constructor
  · rintro ⟨settings, hsettings, defaultLimit, hdefault, entries, hentries, hcfg⟩
    exact ⟨settings, defaultLimit, entries, hsettings, hdefault, hentries, hcfg⟩
  · rintro ⟨settings, defaultLimit, entries, hsettings, hdefault, hentries, hcfg⟩
    exact ⟨settings, hsettings, defaultLimit, hdefault, entries, hentries, hcfg⟩

theorem readDefault_mode {root : XmlNode} {defaultLimit : StatsCfg}
    (h : readDefault root = .ok defaultLimit) : defaultLimit.mode = .restrictMode := by
  simp only [readDefault, bind_eq_ok, pure_eq_ok] at h
  obtain ⟨node, -, st, -, rfl⟩ := h
  rfl

/-- LVE is used as the file says. -/
theorem readSettings_useLve {liblve : Bool} {root : XmlNode} {cfg : GovernorConfig}
    (h : readSettings liblve root = .ok cfg) :
    cfg.useLve = attrIs root "lve" "use" ["On", "Single", "AbUsers", "All"] := by
  simp only [readSettings, bind_eq_ok, pure_eq_ok] at h
  obtain ⟨log, -, mode, -, intervals, -, lUnlimit, -, restrict, -, level1, -, level2, -, level3, -,
    level4, -, timeout, -, connector, -, rfl⟩ := h
  rfl

/-! ## The table of limits -/

theorem lookup_foldl_insert {κ ν : Type} [DecidableEq κ] (entries : List (κ × ν)) (k : κ)
    (table : AList fun _ : κ => ν) :
    (entries.foldl (fun table entry => table.insert entry.1 entry.2) table).lookup k =
      ((KeyedLog.last Prod.fst k entries).map Prod.snd).or (table.lookup k) := by
  induction entries using List.reverseRecOn with
  | nil => simp
  | append_singleton entries entry ih =>
      rw [List.foldl_append, List.foldl_cons, List.foldl_nil, KeyedLog.last_append_singleton]
      by_cases hk : entry.1 = k
      · subst hk
        simp
      · rw [AList.lookup_insert_ne (Ne.symm hk), ih, if_neg hk]

/-- The newest entry under a name stays. -/
theorem lookup_replaceAll {κ ν : Type} [DecidableEq κ] (entries : List (κ × ν)) (k : κ) :
    (replaceAll entries).lookup k = (KeyedLog.last Prod.fst k entries).map Prod.snd := by
  rw [replaceAll, lookup_foldl_insert]
  simp

theorem Username.ofBytes?_eq_some_iff {bytes : CString} {u : Username} :
    Username.ofBytes? bytes = some u ↔ bytes = u.bytes := by
  rw [Username.ofBytes?]
  constructor
  · intro h
    split at h
    · cases h
      rfl
    · cases h
  · rintro rfl
    rw [dif_pos ⟨u.noNul, u.fits⟩]

/-- The daemon finds the limits that the file gives last under a name. -/
theorem lookup_accountLimitsOf (entries : List (CString × StatsCfg)) (u : Username) :
    (accountLimitsOf entries).lookup u =
      (KeyedLog.last Prod.fst u.bytes entries).map Prod.snd := by
  rw [accountLimitsOf, lookup_replaceAll]
  induction entries using List.reverseRecOn with
  | nil => rfl
  | append_singleton entries entry ih =>
      rw [List.filterMap_append, KeyedLog.last_append_singleton]
      by_cases hkey : entry.1 = u.bytes
      · have hfits := Username.ofBytes?_eq_some_iff.mpr hkey
        rw [if_pos hkey, List.filterMap_cons, hfits]
        simp
      · rw [if_neg hkey, ← ih, KeyedLog.last_append_of_ne]
        intro e he hu
        obtain ⟨entry', hmem, hsome⟩ := List.mem_filterMap.mp he
        obtain ⟨v, hv, rfl⟩ := Option.map_eq_some_iff.mp hsome
        rw [List.mem_singleton.mp hmem] at hv
        exact hkey (Username.ofBytes?_eq_some_iff.mp (hv.trans (congrArg some hu)))

/-! ## User elements -/

/-- The name that a user element is for. -/
def userKey (node : XmlNode) : Option CString :=
  (getElemAttr node "name").or (getElemAttr node "mysql_name")

theorem readUser_key {defaultLimit : StatsCfg} {node : XmlNode} {entry : CString × StatsCfg}
    (h : readUser defaultLimit node = .ok entry) : userKey node = some entry.1 := by
  rw [readUser] at h
  split at h
  · cases h
  · cases h
  all_goals
    rename_i hname hmysql
    simp only [readUser.readLimits, bind_eq_ok, pure_eq_ok] at h
    obtain ⟨mode, -, l, -, rfl⟩ := h
    simp [userKey, hname, hmysql]

/-- The keys of the table are the names of the user elements, in their order. -/
theorem readUsers_keys {defaultLimit : StatsCfg} {root : XmlNode}
    {entries : List (CString × StatsCfg)} (h : readUsers defaultLimit root = .ok entries) :
    (childrenNamed root "user").map userKey = entries.map fun entry => some entry.1 := by
  rw [readUsers, mapM_eq_ok_iff] at h
  generalize childrenNamed root "user" = users at h
  induction h with
  | nil => rfl
  | cons huser _ ih => simp [readUser_key huser, ih]

/-! ## The shipped file -/

/-- An element with literal attribute values. -/
def element (name : String) (attrs : List (String × String)) (children : List XmlNode) : XmlNode :=
  ⟨name, attrs.map fun attr => (attr.1, ascii attr.2), children⟩

/-- The four limits of a resource. -/
def limitElement (name current short mid long : String) : XmlNode :=
  element "limit"
    [("name", name), ("current", current), ("short", short), ("mid", mid), ("long", long)] []

/-- The shipped file, with some user elements in place of its list of ignored users. -/
def shippedRoot (users : List XmlNode) : XmlNode :=
  element "governor" [] ([
    element "lve" [("use", "abusers")] [],
    element "connector" [("prefix_separator", "_")] [],
    element "intervals" [("short", "15"), ("mid", "60"), ("long", "300")] [],
    element "log" [("file", "/var/log/dbgovernor-error.log"), ("mode", "ERROR")] [],
    element "restrict" [("level1", "60s"), ("level2", "15m"), ("level3", "1h"), ("level4", "1d"),
      ("timeout", "1h"), ("log", "/var/log/dbgovernor-restrict.log"),
      ("user_max_connections", "30")] [],
    element "statistic" [("mode", "on")] [],
    element "default" [] [
      limitElement "cpu" "400" "380" "350" "300",
      limitElement "read" "1000000000" "830000000" "760000000" "590000000",
      limitElement "write" "1000000000" "830000000" "760000000" "590000000"]] ++ users)

/-- The shipped configuration is what the shipped file says. -/
theorem configInit_shippedRoot : configInit true (shippedRoot []) = .ok (shippedConfig true) := by
  have hdefault : readDefault (shippedRoot []) = .ok (shippedConfig true).defaultLimit :=
    eq_ok_of_toOption (by decide +kernel)
  refine configInit_eq_ok_iff.mpr ⟨_, _, [], rfl, hdefault, rfl, ?_⟩
  rfl

end DbGovernor
