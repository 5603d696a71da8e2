import DbGovernor.Model.CStrings
import DbGovernor.Model.Daemon

/-!
# Reading the configuration

`config_init` on a parsed tree, the work user of start-up, and `reread_config`. The settings
that no modelled function reads, and the check that the script exists, are left out.
-/

namespace DbGovernor

/-- How reading a configuration ends the process. -/
inductive ConfigStop where
  | exit (message : CString)
  | crash

abbrev ConfigM := Except ConfigStop

def exitWith {α : Type} (message : CString) : ConfigM α := .error (.exit message)

/-- The names `mode_type_str_to_enum` knows, in its order. -/
def modeNames : List (String × ModeType) :=
  [("TEST", .testMode), ("PRODUCTION", .productionMode), ("DEBUG", .debugMode),
    ("ERROR", .errorMode), ("RESTRICT", .restrictMode), ("NORESTRICT", .norestrictMode),
    ("IGNORE", .ignoreMode), ("OLD", .oldRestrictMode), ("NEW", .newRestrictMode)]

/-- `mode_type_str_to_enum` of a string that is not NULL. -/
def modeTypeStrToEnum (modeStr : CString) : ConfigM ModeType :=
  match modeNames.find? fun m => strcaseEq modeStr m.1 with
  | some m => .ok m.2
  | none => exitWith (ascii "Error: invalid mode " ++ modeStr ++ ascii "\n")

/-- The mode of an element, or its default. -/
def modeAttr (node : XmlNode) (default : ModeType) : ConfigM ModeType :=
  match getElemAttr node "mode" with
  | none => .ok default
  | some ptr => modeTypeStrToEnum ptr

/-- `MAX_VAL_LEN`. -/
def maxValLen : ℕ := 10

/-- `get_seconds` of the digits collected before a unit. -/
def getSeconds (value : CString) (unit : UInt8) : ConfigM UInt32 :=
  if value = [] then exitWith (ascii "Error while parsing period\n")
  else
    let val := UInt32.ofNat (decimal value)
    if toLower unit = 109 then .ok (val * 60)
    else if toLower unit = 104 then .ok (val * 60 * 60)
    else if toLower unit = 100 then .ok (val * 60 * 60 * 24)
    else .ok val

/-- The loop of `parse_period`, with the digits collected since the last unit. -/
def parsePeriodLoop : CString → CString → UInt32 → ConfigM UInt32
  | [], _, result => .ok result
  | c :: rest, value, result =>
      if isDigit c then
        if value.length ≥ maxValLen then exitWith (ascii "Error: value of period is too large\n")
        else parsePeriodLoop rest (value ++ [c]) result
      else
        match getSeconds value c with
        | .error e => .error e
        | .ok seconds => parsePeriodLoop rest [] (result + seconds)

/-- `parse_period`. -/
def parsePeriod (period : CString) : ConfigM UInt32 := do
  let result ← parsePeriodLoop period [] 0
  return if result = 0 then UInt32.ofInt (atoi period) else result

/-- The four calls of `_set_val`: a limit of another name changes nothing. -/
def setVal (st : StatsCfg) (ptr : CString) (value : TLong) : StatsCfg :=
  if ptr = ascii "cpu" then { st with cpu := value }
  else if ptr = ascii "write" then { st with write := value }
  else if ptr = ascii "read" then { st with read := value }
  else if ptr = ascii "slow" then { st with slow := value }
  else st

/-- The value of a period of a limit that may be absent. -/
def periodValue (innerXml : XmlNode) (period : String) : ℤ :=
  match getElemAttr innerXml period with
  | none => -1
  | some ptrPeriods => longOfDouble (atof ptrPeriods)

/-- `set_stats_limit`. A limit without a name is passed to `strcmp` as NULL. -/
def setStatsLimit (st : StatsCfg) (innerXml : XmlNode) : ConfigM StatsCfg :=
  match getElemAttr innerXml "current", getElemAttr innerXml "name" with
  | none, _ => exitWith (ascii "Error: attribute 'current' is absent\n")
  | some _, none => .error .crash
  | some valPtr, some ptr =>
      if ptr = ascii "slow" then do
        let seconds ← parsePeriod valPtr
        return setVal st ptr ⟨seconds.toNat, -1, -1, -1⟩
      else
        .ok (setVal st ptr ⟨longOfDouble (atof valPtr), periodValue innerXml "short",
          periodValue innerXml "mid", periodValue innerXml "long"⟩)

/-- The loop over the limits of an element. -/
def setStatsLimits (st : StatsCfg) (node : XmlNode) : ConfigM StatsCfg :=
  (childrenNamed node "limit").foldlM setStatsLimit st

/-- An element that `config_init` does not start without. -/
def findRequired (root : XmlNode) (nodeName : String) (message : CString) : ConfigM XmlNode :=
  match findElementWithName nodeName root with
  | none => exitWith message
  | some node => .ok node

/-- The period of an attribute of `restrict`, or its default. -/
def periodAttr (node : XmlNode) (attrName : String) (default : CString) : ConfigM UInt32 :=
  parsePeriod ((getElemAttr node attrName).getD default)

/-- The seconds of an interval, or its default. -/
def intervalAttr (node : XmlNode) (attrName : String) (default : UInt32) : UInt32 :=
  match getElemAttr node attrName with
  | none => default
  | some ptr => UInt32.ofInt (atoi ptr)

/-- Whether an element is there and an attribute of it has one of some values. -/
def attrIs (root : XmlNode) (nodeName attrName : String) (values : List String) : Bool :=
  match (findElementWithName nodeName root).bind (getElemAttr · attrName) with
  | none => false
  | some ptr => values.any (strcaseEq ptr)

/-- `user_max_connections` of `restrict`. -/
def maxConnectionsAttr (node : XmlNode) : ℕ :=
  match getElemAttr node "user_max_connections" with
  | none => 30
  | some ptr => if atoi ptr < 0 then 30 else (atoi ptr).toNat

/-- The limits of a structure that `calloc` has cleared. -/
def StatsCfg.zero : StatsCfg :=
  ⟨⟨0, 0, 0, 0⟩, ⟨0, 0, 0, 0⟩, ⟨0, 0, 0, 0⟩, ⟨0, 0, 0, 0⟩, false, .testMode⟩

/-- `config_init` up to the connector. `liblve` says whether the library can be loaded. -/
def readSettings (liblve : Bool) (root : XmlNode) : ConfigM GovernorConfig := do
  let log ← findRequired root "log" (ascii "No log path\n")
  let _logMode ← modeAttr log .errorMode
  let intervals ← findRequired root "intervals" (ascii "No 'intervals' parameter\n")
  let lUnlimit ← parsePeriod (((findElementWithName "restrict_mode" root).bind
    (getElemAttr · "unlimit")).getD (ascii "60s"))
  let restrict ← findRequired root "restrict" (ascii "No 'restrict' parameter\n")
  let level1 ← periodAttr restrict "level1" (ascii "60s")
  let level2 ← periodAttr restrict "level2" (ascii "15m")
  let level3 ← periodAttr restrict "level3" (ascii "1h")
  let level4 ← periodAttr restrict "level4" (ascii "1d")
  let timeout ← periodAttr restrict "timeout" (ascii "1h")
  let connector ← findRequired root "connector" (ascii "No connector parameter")
  return {
    defaultLimit := .zero
    accountLimits := ∅
    separator := match getElemAttr connector "prefix_separator" with
      | none => 95
      | some ptr => ptr.headD 0
    level1, level2, level3, level4, timeout
    intervalShort := intervalAttr intervals "short" 5
    intervalMid := intervalAttr intervals "mid" 15
    intervalLong := intervalAttr intervals "long" 30
    useLve := attrIs root "lve" "use" ["On", "Single", "AbUsers", "All"]
    statisticMode := !attrIs root "statistic" "mode" ["Off"]
    maxUserConnections := maxConnectionsAttr restrict
    isGpl := !liblve
    separateLve := attrIs root "lve" "use" ["AbUsers", "All"]
    allLve := attrIs root "lve" "use" ["All"]
    restrictMode := !attrIs root "restrict_mode" "use" ["period"]
    lUnlimit }

/-- The limits of the default element. -/
def readDefault (root : XmlNode) : ConfigM StatsCfg := do
  let node ← findRequired root "default" (ascii "No default limits")
  let st ← setStatsLimits { StatsCfg.zero with mode := .restrictMode } node
  return { st with mode := .restrictMode, accountFlag := true }

/-- One user element: the name its limits are stored under, and the limits. -/
def readUser (defaultLimit : StatsCfg) (node : XmlNode) : ConfigM (CString × StatsCfg) :=
  match getElemAttr node "name", getElemAttr node "mysql_name" with
  | none, none =>
      exitWith (ascii "Error: both 'name' and 'mysql_name' attributes are absent\n")
  | some _, some _ =>
      exitWith (ascii "Error: both 'name' and 'mysql_name' attributes are present\n")
  | some account, none => readLimits account true
  | none, some mysqlName => readLimits mysqlName false
where
  readLimits (key : CString) (accountFlag : Bool) : ConfigM (CString × StatsCfg) := do
    let mode ← modeAttr node .restrictMode
    let l ← setStatsLimits { defaultLimit with accountFlag, mode } node
    return (key, l)

/-- The loop over the user elements of the root. -/
def readUsers (defaultLimit : StatsCfg) (root : XmlNode) : ConfigM (List (CString × StatsCfg)) :=
  (childrenNamed root "user").mapM (readUser defaultLimit)

/-- `g_hash_table_replace` of a sequence of entries. -/
def replaceAll {κ ν : Type} [DecidableEq κ] (entries : List (κ × ν)) : AList (fun _ : κ => ν) :=
  entries.foldl (fun table entry => table.insert entry.1 entry.2) ∅

/-- A string as the `username_t` that it fits. -/
def Username.ofBytes? (bytes : CString) : Option Username :=
  if h : 0 ∉ bytes ∧ bytes.length < usernamemaxlen then some ⟨bytes, h.1, h.2⟩ else none

/-- `account_limits` as the daemon can look it up: a longer name is no `username_t`. -/
def accountLimitsOf (entries : List (CString × StatsCfg)) : HashTable StatsCfg :=
  replaceAll (entries.filterMap fun entry =>
    (Username.ofBytes? entry.1).map fun name => (name, entry.2))

/-- `config_init`. -/
def configInit (liblve : Bool) (root : XmlNode) : ConfigM GovernorConfig := do
  let cfg ← readSettings liblve root
  let defaultLimit ← readDefault root
  let entries ← readUsers defaultLimit root
  return { cfg with defaultLimit, accountLimits := accountLimitsOf entries }

/-- The limits that `config_add_work_user` allocates: it copies the bytes of a `Stats`, which
are three of the four limits for the CPU. -/
def workUserLimit (defaultLimit : StatsCfg) : StatsCfg :=
  { StatsCfg.zero with
    cpu := { defaultLimit.cpu with long := 0 }
    accountFlag := false
    mode := .ignoreMode }

/-- `config_add_work_user`. -/
def configAddWorkUser (userName : Username) (cfg : GovernorConfig) : GovernorConfig :=
  if userName.bytes ≠ [] ∧ cfg.accountLimits.lookup userName = none then
    { cfg with
      accountLimits := cfg.accountLimits.insert userName (workUserLimit cfg.defaultLimit) }
  else cfg

/-- What `main` does to the configuration before the threads start. `badList` says whether
`init_bad_users_list` succeeds. -/
def startConfig (workUser : Username) (badList : Bool) (cfg : GovernorConfig) : GovernorConfig :=
  let cfg := configAddWorkUser workUser cfg
  if !cfg.isGpl && !badList then { cfg with useLve := false } else cfg

/-- `reread_config`: the structure in force is freed and the file read again. -/
def rereadConfig (liblve : Bool) (root : XmlNode) (_cfg : GovernorConfig) :
    ConfigM GovernorConfig :=
  configInit liblve root

end DbGovernor
