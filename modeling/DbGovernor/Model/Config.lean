import DbGovernor.Model.Data

/-! # The configuration in force -/

namespace DbGovernor

/-- The fields of `struct governor_config` that the modelled functions read. -/
structure GovernorConfig where
  defaultLimit : StatsCfg
  accountLimits : HashTable StatsCfg
  separator : UInt8
  level1 : UInt32
  level2 : UInt32
  level3 : UInt32
  level4 : UInt32
  timeout : UInt32
  intervalShort : UInt32
  intervalMid : UInt32
  intervalLong : UInt32
  useLve : Bool
  statisticMode : Bool
  maxUserConnections : ℕ
  isGpl : Bool
  separateLve : Bool
  allLve : Bool
  restrictMode : Bool
  lUnlimit : UInt32

/-- `config_get_account_limit`. -/
def configGetAccountLimit (cfg : GovernorConfig) (accountId : Username) : StatsCfg :=
  (cfg.accountLimits.lookup accountId).getD cfg.defaultLimit

/-- The configuration that `config_init` reads from `db-governor.xml`, less its list of
ignored users; the file does not say which restrict mode is used. -/
def shippedConfig (restrictMode : Bool) : GovernorConfig where
  defaultLimit := {
    cpu := ⟨400, 380, 350, 300⟩
    write := ⟨1000000000, 830000000, 760000000, 590000000⟩
    read := ⟨1000000000, 830000000, 760000000, 590000000⟩
    slow := ⟨0, 0, 0, 0⟩
    accountFlag := true
    mode := .restrictMode }
  accountLimits := ∅
  separator := 95
  level1 := 60
  level2 := 900
  level3 := 3600
  level4 := 86400
  timeout := 3600
  intervalShort := 15
  intervalMid := 60
  intervalLong := 300
  useLve := true
  statisticMode := true
  maxUserConnections := 30
  isGpl := false
  separateLve := true
  allLve := false
  restrictMode := restrictMode
  lUnlimit := 60

end DbGovernor
