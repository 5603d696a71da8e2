import DbGovernor.Verification.Config.Reading

/-!
# What `config_init` accepts

A file is read without an exit exactly when its parts are in order: the settings, the default
element, and each user element with its limits.
-/

namespace DbGovernor

open Results

/-! ## Limits -/

/-- A limit that `set_stats_limit` reads to its end. -/
structure LimitAccepted (limit : XmlNode) : Prop where
  current : (getElemAttr limit "current").isSome
  name : (getElemAttr limit "name").isSome
  slow : getElemAttr limit "name" = some (ascii "slow") →
    ∀ period ∈ getElemAttr limit "current", Succeeds (parsePeriod period)

theorem setStatsLimit_succeeds (st : StatsCfg) (limit : XmlNode) :
    Succeeds (setStatsLimit st limit) ↔ LimitAccepted limit := by
  rw [setStatsLimit]
  cases hcurrent : getElemAttr limit "current" with
  | none => exact iff_of_false not_succeeds_error fun h => by simpa [hcurrent] using h.current
  | some current =>
      cases hname : getElemAttr limit "name" with
      | none => exact iff_of_false not_succeeds_error fun h => by simpa [hname] using h.name
      | some name =>
          dsimp only
          by_cases hslow : name = ascii "slow"
          · rw [if_pos hslow, succeeds_bind_pure]
            constructor
            · intro hperiod
              refine ⟨by simp [hcurrent], by simp [hname], fun _ period hmem => ?_⟩
              rw [hcurrent, Option.mem_some] at hmem
              exact hmem ▸ hperiod
            · intro h
              exact h.slow (by rw [hname, hslow]) current (by rw [hcurrent]; rfl)
          · rw [if_neg hslow]
            refine iff_of_true succeeds_ok ⟨by simp [hcurrent], by simp [hname], ?_⟩
            intro heq
            exact absurd (Option.some.inj (hname.symm.trans heq)) hslow

/-- The limits of an element are in order. -/
def LimitsAccepted (node : XmlNode) : Prop := ∀ limit ∈ childrenNamed node "limit", LimitAccepted limit

theorem setStatsLimits_succeeds (st : StatsCfg) (node : XmlNode) :
    Succeeds (setStatsLimits st node) ↔ LimitsAccepted node :=
  succeeds_foldlM setStatsLimit_succeeds _ _

/-! ## Elements -/

/-- A user element has one of the two names, a mode that exists and limits in order. -/
structure UserAccepted (node : XmlNode) : Prop where
  name : (getElemAttr node "name").isSome ≠ (getElemAttr node "mysql_name").isSome
  mode : ∀ mode ∈ getElemAttr node "mode", Succeeds (modeTypeStrToEnum mode)
  limits : LimitsAccepted node

theorem modeAttr_succeeds (node : XmlNode) (default : ModeType) :
    Succeeds (modeAttr node default) ↔
      ∀ mode ∈ getElemAttr node "mode", Succeeds (modeTypeStrToEnum mode) := by
  rw [modeAttr]
  cases getElemAttr node "mode" <;> simp

theorem readUser_succeeds (defaultLimit : StatsCfg) (node : XmlNode) :
    Succeeds (readUser defaultLimit node) ↔ UserAccepted node := by
  have hlimits : ∀ key flag, Succeeds (readUser.readLimits defaultLimit node key flag) ↔
      (∀ mode ∈ getElemAttr node "mode", Succeeds (modeTypeStrToEnum mode)) ∧
        LimitsAccepted node := by
    intro key flag
    rw [readUser.readLimits, ← modeAttr_succeeds node .restrictMode]
    refine succeeds_bind_of_forall fun mode => ?_
    rw [succeeds_bind_pure]
    exact setStatsLimits_succeeds _ node
  rw [readUser]
  cases hname : getElemAttr node "name" <;> cases hmysql : getElemAttr node "mysql_name"
  · exact iff_of_false not_succeeds_error fun h => h.name (by simp [hname, hmysql])
  · exact (hlimits _ _).trans
      ⟨fun h => ⟨by simp [hname, hmysql], h.1, h.2⟩, fun h => ⟨h.mode, h.limits⟩⟩
  · exact (hlimits _ _).trans
      ⟨fun h => ⟨by simp [hname, hmysql], h.1, h.2⟩, fun h => ⟨h.mode, h.limits⟩⟩
  · exact iff_of_false not_succeeds_error fun h => h.name (by simp [hname, hmysql])

/-- The default element is there and its limits are in order. -/
def DefaultAccepted (root : XmlNode) : Prop :=
  ∃ node, findElementWithName "default" root = some node ∧ LimitsAccepted node

theorem findRequired_succeeds {α : Type} (root : XmlNode) (nodeName : String) (message : CString)
    (f : XmlNode → ConfigM α) :
    Succeeds (findRequired root nodeName message >>= f) ↔
      ∃ node, findElementWithName nodeName root = some node ∧ Succeeds (f node) := by
  rw [succeeds_bind, findRequired]
  cases findElementWithName nodeName root <;> simp [exitWith]

theorem readDefault_succeeds (root : XmlNode) :
    Succeeds (readDefault root) ↔ DefaultAccepted root := by
  rw [readDefault, findRequired_succeeds]
  refine exists_congr fun node => and_congr_right fun _ => ?_
  rw [succeeds_bind_pure]
  exact setStatsLimits_succeeds _ node

/-- A file is accepted when its settings, its default element and its user elements are. -/
theorem configInit_succeeds (liblve : Bool) (root : XmlNode) :
    Succeeds (configInit liblve root) ↔ Succeeds (readSettings liblve root) ∧
      DefaultAccepted root ∧ ∀ node ∈ childrenNamed root "user", UserAccepted node := by
  rw [configInit, ← readDefault_succeeds]
  refine succeeds_bind_of_forall fun settings => succeeds_bind_of_forall fun defaultLimit => ?_
  rw [succeeds_bind_pure, readUsers, succeeds_mapM]
  exact forall₂_congr fun node _ => readUser_succeeds defaultLimit node

/-! ## Settings -/

/-- The elements whose attributes are settings. -/
def settingNames : List String :=
  ["log", "intervals", "lve", "statistic", "restrict_mode", "restrict", "connector"]

/-- The settings are read from the elements that are found under their names. -/
theorem readSettings_congr (liblve : Bool) {root root' : XmlNode}
    (h : ∀ name ∈ settingNames, findElementWithName name root = findElementWithName name root') :
    readSettings liblve root = readSettings liblve root' := by
  simp only [readSettings, findRequired, attrIs, h "log" (by decide), h "intervals" (by decide),
    h "lve" (by decide), h "statistic" (by decide), h "restrict_mode" (by decide),
    h "restrict" (by decide), h "connector" (by decide)]

end DbGovernor
