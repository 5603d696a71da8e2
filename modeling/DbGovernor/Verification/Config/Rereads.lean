import DbGovernor.Model.Reread
import DbGovernor.Verification.Config.Acceptance

/-!
# A reread installs a configuration or ends the process

`reread_config` frees the structure in force before it reads the file, and every failure of
`config_init` ends the process. So it returns only with the new configuration, and the lock keeps
readers from the stages in between.
-/

namespace DbGovernor

open Results

/-! ## Settings -/

/-- The settings that `config_init` reads without an exit. -/
structure SettingsAccepted (root : XmlNode) : Prop where
  log : ∃ log, findElementWithName "log" root = some log ∧
    ∀ mode ∈ getElemAttr log "mode", Succeeds (modeTypeStrToEnum mode)
  intervals : (findElementWithName "intervals" root).isSome
  unlimit : ∀ period ∈ (findElementWithName "restrict_mode" root).bind (getElemAttr · "unlimit"),
    Succeeds (parsePeriod period)
  restrict : ∃ restrict, findElementWithName "restrict" root = some restrict ∧
    ∀ attrName ∈ ["level1", "level2", "level3", "level4", "timeout"],
      ∀ period ∈ getElemAttr restrict attrName, Succeeds (parsePeriod period)
  connector : (findElementWithName "connector" root).isSome

theorem succeeds_parsePeriod_getD {period : Option CString} {default : CString}
    (hdefault : Succeeds (parsePeriod default)) :
    Succeeds (parsePeriod (period.getD default)) ↔ ∀ text ∈ period, Succeeds (parsePeriod text) := by
  cases period with
  | none => simpa using hdefault
  | some text => simp

theorem periodAttr_succeeds {node : XmlNode} {attrName : String} {default : CString}
    (hdefault : Succeeds (parsePeriod default)) :
    Succeeds (periodAttr node attrName default) ↔
      ∀ period ∈ getElemAttr node attrName, Succeeds (parsePeriod period) :=
  succeeds_parsePeriod_getD hdefault

/-- The periods that stand for absent attributes. -/
theorem default_periods : ∀ text ∈ ["60s", "15m", "1h", "1d"], Succeeds (parsePeriod (ascii text)) := by
  have hread : ∀ text ∈ ["60s", "15m", "1h", "1d"],
      (parsePeriod (ascii text)).toOption.isSome := by
    decide +kernel
  intro text htext
  obtain ⟨seconds, hseconds⟩ := Option.isSome_iff_exists.mp (hread text htext)
  exact ⟨seconds, eq_ok_of_toOption hseconds⟩

/-- The reads of `readSettings` that can end in an exit, in their order. -/
theorem readSettings_succeeds_steps (liblve : Bool) (root : XmlNode) :
    Succeeds (readSettings liblve root) ↔
      ∃ log, findElementWithName "log" root = some log ∧ Succeeds (modeAttr log .errorMode) ∧
        ∃ intervals, findElementWithName "intervals" root = some intervals ∧
          Succeeds (parsePeriod (((findElementWithName "restrict_mode" root).bind
            (getElemAttr · "unlimit")).getD (ascii "60s"))) ∧
          ∃ restrict, findElementWithName "restrict" root = some restrict ∧
            Succeeds (periodAttr restrict "level1" (ascii "60s")) ∧
            Succeeds (periodAttr restrict "level2" (ascii "15m")) ∧
            Succeeds (periodAttr restrict "level3" (ascii "1h")) ∧
            Succeeds (periodAttr restrict "level4" (ascii "1d")) ∧
            Succeeds (periodAttr restrict "timeout" (ascii "1h")) ∧
            (findElementWithName "connector" root).isSome := by
  rw [readSettings, findRequired_succeeds]
  refine exists_congr fun log => and_congr_right fun _ => ?_
  refine succeeds_bind_of_forall fun mode => ?_
  rw [findRequired_succeeds]
  refine exists_congr fun intervals => and_congr_right fun _ => ?_
  refine succeeds_bind_of_forall fun lUnlimit => ?_
  rw [findRequired_succeeds]
  refine exists_congr fun restrict => and_congr_right fun _ => ?_
  refine succeeds_bind_of_forall fun level1 => ?_
  refine succeeds_bind_of_forall fun level2 => ?_
  refine succeeds_bind_of_forall fun level3 => ?_
  refine succeeds_bind_of_forall fun level4 => ?_
  refine succeeds_bind_of_forall fun timeout => ?_
  rw [findRequired_succeeds, Option.isSome_iff_exists]
  exact exists_congr fun connector => and_iff_left succeeds_ok

theorem readSettings_succeeds (liblve : Bool) (root : XmlNode) :
    Succeeds (readSettings liblve root) ↔ SettingsAccepted root := by
  have h60s := default_periods "60s" (by decide)
  have h15m := default_periods "15m" (by decide)
  have h1h := default_periods "1h" (by decide)
  have h1d := default_periods "1d" (by decide)
  simp only [readSettings_succeeds_steps, modeAttr_succeeds, succeeds_parsePeriod_getD h60s,
    periodAttr_succeeds h60s, periodAttr_succeeds h15m, periodAttr_succeeds h1h,
    periodAttr_succeeds h1d]
  constructor
  · rintro ⟨log, hlog, hmode, intervals, hintervals, hunlimit, restrict, hrestrict, hlevel1,
      hlevel2, hlevel3, hlevel4, htimeout, hconnector⟩
    refine ⟨⟨log, hlog, hmode⟩, Option.isSome_iff_exists.mpr ⟨intervals, hintervals⟩, hunlimit,
      ⟨restrict, hrestrict, ?_⟩, hconnector⟩
    simp only [List.forall_mem_cons, List.not_mem_nil, false_imp_iff, implies_true, and_true]
    exact ⟨hlevel1, hlevel2, hlevel3, hlevel4, htimeout⟩
  · rintro ⟨⟨log, hlog, hmode⟩, hintervals, hunlimit, ⟨restrict, hrestrict, hperiods⟩, hconnector⟩
    obtain ⟨intervals, hintervals⟩ := Option.isSome_iff_exists.mp hintervals
    exact ⟨log, hlog, hmode, intervals, hintervals, hunlimit, restrict, hrestrict,
      hperiods "level1" (by simp), hperiods "level2" (by simp), hperiods "level3" (by simp),
      hperiods "level4" (by simp), hperiods "timeout" (by simp), hconnector⟩

/-! ## Exits -/

/-- A failure that ends the process with a message. -/
def IsExit (stop : ConfigStop) : Prop := ∃ message, stop = .exit message

/-- The limits of an element that have a value have a name. -/
def LimitsNamed (node : XmlNode) : Prop :=
  ∀ limit ∈ childrenNamed node "limit",
    (getElemAttr limit "current").isSome → (getElemAttr limit "name").isSome

/-- The limits that `config_init` comes to have names. -/
structure AllLimitsNamed (root : XmlNode) : Prop where
  default : ∀ node ∈ findElementWithName "default" root, LimitsNamed node
  users : ∀ node ∈ childrenNamed root "user", LimitsNamed node

theorem failsWith_exit {α : Type} (message : CString) :
    FailsWith IsExit (exitWith message : ConfigM α) :=
  failsWith_error ⟨message, rfl⟩

theorem getSeconds_exit (value : CString) (unit : UInt8) :
    FailsWith IsExit (getSeconds value unit) := by
  rw [getSeconds]
  split
  · exact failsWith_exit _
  · dsimp only
    split_ifs <;> exact failsWith_ok _

theorem parsePeriodLoop_exit (text value : CString) (result : UInt32) :
    FailsWith IsExit (parsePeriodLoop text value result) := by
  induction text generalizing value result with
  | nil => exact failsWith_ok result
  | cons c rest ih =>
      rw [parsePeriodLoop]
      split
      · split
        · exact failsWith_exit _
        · exact ih _ _
      · have hseconds := getSeconds_exit value c
        cases hunit : getSeconds value c with
        | error e => exact failsWith_error (hseconds e hunit)
        | ok seconds => exact ih _ _

theorem parsePeriod_exit (period : CString) : FailsWith IsExit (parsePeriod period) :=
  (parsePeriodLoop_exit period [] 0).bind fun _ => failsWith_ok _

theorem modeAttr_exit (node : XmlNode) (default : ModeType) :
    FailsWith IsExit (modeAttr node default) := by
  rw [modeAttr]
  split
  · exact failsWith_ok _
  · rw [modeTypeStrToEnum]
    split
    · exact failsWith_ok _
    · exact failsWith_exit _

theorem findRequired_exit (root : XmlNode) (nodeName : String) (message : CString) :
    FailsWith IsExit (findRequired root nodeName message) := by
  rw [findRequired]
  split
  · exact failsWith_exit _
  · exact failsWith_ok _

theorem setStatsLimits_exit (st : StatsCfg) {node : XmlNode} (hnames : LimitsNamed node) :
    FailsWith IsExit (setStatsLimits st node) := by
  refine FailsWith.foldlM ?_ st
  intro limit hlimit st
  rw [setStatsLimit]
  cases hcurrent : getElemAttr limit "current" with
  | none => exact failsWith_exit _
  | some current =>
      obtain ⟨name, hname⟩ :=
        Option.isSome_iff_exists.mp (hnames limit hlimit (by simp [hcurrent]))
      rw [hname]
      dsimp only
      split
      · exact (parsePeriod_exit current).bind fun _ => failsWith_ok _
      · exact failsWith_ok _

theorem readSettings_exit (liblve : Bool) (root : XmlNode) :
    FailsWith IsExit (readSettings liblve root) := by
  refine (findRequired_exit root _ _).bind fun log => (modeAttr_exit log _).bind fun _ => ?_
  refine (findRequired_exit root _ _).bind fun intervals => (parsePeriod_exit _).bind fun _ => ?_
  refine (findRequired_exit root _ _).bind fun restrict => (parsePeriod_exit _).bind fun _ => ?_
  refine (parsePeriod_exit _).bind fun _ => (parsePeriod_exit _).bind fun _ => ?_
  refine (parsePeriod_exit _).bind fun _ => (parsePeriod_exit _).bind fun _ => ?_
  exact (findRequired_exit root _ _).bind fun connector => failsWith_ok _

theorem readDefault_exit {root : XmlNode}
    (hnames : ∀ node ∈ findElementWithName "default" root, LimitsNamed node) :
    FailsWith IsExit (readDefault root) := by
  rw [readDefault, findRequired]
  cases hnode : findElementWithName "default" root with
  | none => exact failsWith_exit _
  | some node =>
      exact (setStatsLimits_exit _ (hnames node hnode)).bind fun _ => failsWith_ok _

theorem readUser_exit (defaultLimit : StatsCfg) {node : XmlNode} (hnames : LimitsNamed node) :
    FailsWith IsExit (readUser defaultLimit node) := by
  have hlimits : ∀ key flag, FailsWith IsExit (readUser.readLimits defaultLimit node key flag) :=
    fun key flag => (modeAttr_exit node _).bind fun mode =>
      (setStatsLimits_exit _ hnames).bind fun _ => failsWith_ok _
  rw [readUser]
  split
  · exact failsWith_exit _
  · exact failsWith_exit _
  · exact hlimits _ _
  · exact hlimits _ _

/-- A file whose limits all have names is read, or ends the process with a message. -/
theorem configInit_exit (liblve : Bool) {root : XmlNode} (hnames : AllLimitsNamed root) :
    FailsWith IsExit (configInit liblve root) := by
  have husers : ∀ defaultLimit, FailsWith IsExit (readUsers defaultLimit root) :=
    fun defaultLimit => FailsWith.mapM fun node hnode =>
      readUser_exit defaultLimit (hnames.users node hnode)
  exact (readSettings_exit liblve root).bind fun _ => (readDefault_exit hnames.default).bind
    fun defaultLimit => (husers defaultLimit).bind fun _ => failsWith_ok _

/-! ## The stages of a reread -/

/-- A content that `config_init` accepts. -/
def FileAccepted : ConfigFile → Prop
  | .root root => SettingsAccepted root ∧ DefaultAccepted root ∧
      ∀ node ∈ childrenNamed root "user", UserAccepted node
  | .unparsable | .empty => False

/-- A content whose limits all have names. -/
def FileNamed : ConfigFile → Prop
  | .root root => AllLimitsNamed root
  | .unparsable | .empty => True

/-- The configuration that is in force after a content is read. -/
def Installs (liblve : Bool) (file : ConfigFile) (cfg : GovernorConfig) : Prop :=
  ∃ root, file = .root root ∧ configInit liblve root = .ok cfg

/-- The states that a reread goes through. The structure that a reader could find freed or
unfinished is behind the lock. -/
inductive RereadReaches (liblve : Bool) (file : ConfigFile) (cfg : GovernorConfig) :
    RereadState → Prop where
  | called : RereadReaches liblve file cfg ⟨.inForce cfg, .called⟩
  | locked : RereadReaches liblve file cfg ⟨.inForce cfg, .locked⟩
  | freed : RereadReaches liblve file cfg ⟨.freed, .freed⟩
  | parsed (root) : file = .root root →
      RereadReaches liblve file cfg ⟨.unfinished, .parsed root⟩
  | built (new) : Installs liblve file new →
      RereadReaches liblve file cfg ⟨.inForce new, .built⟩
  | returned (new) : Installs liblve file new →
      RereadReaches liblve file cfg ⟨.inForce new, .returned⟩

section Stages

variable {liblve : Bool} {file : ConfigFile} {cfg : GovernorConfig} {s s' : RereadState}

theorem RereadReaches.stage (h : RereadReaches liblve file cfg s)
    (hstage : rereadStage liblve file s = .ok s') : RereadReaches liblve file cfg s' := by
  cases h with
  | called =>
      cases hstage
      exact .locked
  | locked =>
      cases hstage
      exact .freed
  | freed =>
      cases file with
      | unparsable => cases hstage
      | empty => cases hstage
      | root root =>
          cases hstage
          exact .parsed root rfl
  | parsed root hfile =>
      obtain ⟨new, hnew, hs⟩ := bind_eq_ok.mp hstage
      cases hs
      exact .built new ⟨root, hfile, hnew⟩
  | built new hnew =>
      cases hstage
      exact .returned new hnew
  | returned new hnew =>
      cases hstage
      exact .returned new hnew

theorem RereadReaches.of_stages {n : ℕ} (h : rereadStages liblve file cfg n = .ok s) :
    RereadReaches liblve file cfg s := by
  induction n generalizing s with
  | zero =>
      cases h
      exact .called
  | succ n ih =>
      obtain ⟨before, hbefore, hstage⟩ := bind_eq_ok.mp h
      exact (ih hbefore).stage hstage

/-- A reader waits, or reads the configuration before or after the reread. -/
theorem RereadReaches.read {α : Type} (h : RereadReaches liblve file cfg s)
    (read : GovernorConfig → α) :
    readLocked read s = .waits ∨ readLocked read s = .reads (read cfg) ∨
      ∃ new, Installs liblve file new ∧ readLocked read s = .reads (read new) := by
  cases h with
  | called => exact .inr (.inl rfl)
  | locked => exact .inl rfl
  | freed => exact .inl rfl
  | parsed _ _ => exact .inl rfl
  | built _ _ => exact .inl rfl
  | returned new hnew => exact .inr (.inr ⟨new, hnew, rfl⟩)

theorem rereadConfigFile_root (liblve : Bool) (root : XmlNode) (cfg : GovernorConfig) :
    rereadConfigFile liblve (.root root) cfg =
      (configInit liblve root >>= fun new => pure ⟨.inForce new, .returned⟩) := by
  cases hnew : configInit liblve root <;>
    simp [rereadConfigFile, rereadStages, rereadStage, parseConfigData, hnew, bind, Except.bind,
      pure, Except.pure]

theorem rereadConfigFile_succeeds :
    Succeeds (rereadConfigFile liblve file cfg) ↔ FileAccepted file := by
  cases file with
  | unparsable => exact iff_of_false not_succeeds_error id
  | empty => exact iff_of_false not_succeeds_error id
  | root root =>
      rw [rereadConfigFile_root, succeeds_bind_pure, configInit_succeeds, readSettings_succeeds,
        FileAccepted]

theorem rereadConfigFile_eq_ok (h : rereadConfigFile liblve file cfg = .ok s) :
    ∃ new, Installs liblve file new ∧ s = ⟨.inForce new, .returned⟩ := by
  cases file with
  | unparsable => cases h
  | empty => cases h
  | root root =>
      rw [rereadConfigFile_root] at h
      obtain ⟨new, hnew, hs⟩ := bind_eq_ok.mp h
      exact ⟨new, ⟨root, rfl, hnew⟩, (pure_eq_ok.mp hs).symm⟩

theorem rereadConfigFile_exit (hnames : FileNamed file) :
    FailsWith IsExit (rereadConfigFile liblve file cfg) := by
  cases file with
  | unparsable => exact failsWith_exit _
  | empty => exact failsWith_exit _
  | root root =>
      rw [rereadConfigFile_root]
      exact (configInit_exit liblve hnames).bind fun _ => failsWith_ok _

end Stages

/-- A reread returns exactly for the contents that are accepted, with the new configuration in
force. For the others it ends the process with a message. At no stage does a reader come to a
structure that is freed or unfinished. -/
theorem reread_installs_or_exits (liblve : Bool) (file : ConfigFile) (cfg : GovernorConfig) :
    (Succeeds (rereadConfigFile liblve file cfg) ↔ FileAccepted file) ∧
    (∀ s, rereadConfigFile liblve file cfg = .ok s → ∃ new, Installs liblve file new ∧
      getConfigData s = .reads new ∧
      ∀ u, readAccountLimit u s = .reads (configGetAccountLimit new u)) ∧
    (FileNamed file → ¬ FileAccepted file →
      ∃ message, rereadConfigFile liblve file cfg = exitWith message) ∧
    ∀ n s, rereadStages liblve file cfg n = .ok s → ∀ (α : Type) (read : GovernorConfig → α),
      readLocked read s = .waits ∨ readLocked read s = .reads (read cfg) ∨
        ∃ new, Installs liblve file new ∧ readLocked read s = .reads (read new) := by
  refine ⟨rereadConfigFile_succeeds, ?_, ?_, ?_⟩
  · intro s hs
    obtain ⟨new, hnew, rfl⟩ := rereadConfigFile_eq_ok hs
    exact ⟨new, hnew, rfl, fun _ => rfl⟩
  · intro hnames hrejected
    cases hresult : rereadConfigFile liblve file cfg with
    | ok s => exact absurd (rereadConfigFile_succeeds.mp ⟨s, hresult⟩) hrejected
    | error stop =>
        obtain ⟨message, rfl⟩ := rereadConfigFile_exit hnames stop hresult
        exact ⟨message, rfl⟩
  · intro n s hs α read
    exact (RereadReaches.of_stages hs).read read

/-- A reread of a file that does not parse neither installs a configuration nor leaves the one
in force: it does not return. -/
theorem failed_reread_does_not_return :
    ¬ ∀ (liblve : Bool) (file : ConfigFile) (cfg : GovernorConfig),
      ∃ s, rereadConfigFile liblve file cfg = .ok s ∧
        ((∃ new, Installs liblve file new ∧ getConfigData s = .reads new) ∨
          getConfigData s = .reads cfg) := by
  intro h
  obtain ⟨s, hs, -⟩ := h true .unparsable (shippedConfig true)
  cases hs

end DbGovernor
