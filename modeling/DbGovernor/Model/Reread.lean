import DbGovernor.Model.ConfigInit

/-!
# Rereading the configuration

`reread_config` stage by stage, as the readers of the configuration meet it. They wait while the
lock is held for writing, which is from its first stage to its last.
-/

namespace DbGovernor

/-- `CONFIG_PATH`. -/
def configPath : CString := ascii "/etc/container/mysql-governor.xml"

/-- What `xmlReadFile` and `xmlDocGetRootElement` make of the file. -/
inductive ConfigFile where
  | unparsable
  | empty
  | root (node : XmlNode)

/-- `parseConfigData` of `CONFIG_PATH`: the root, or the text of the error. -/
def parseConfigData : ConfigFile → Except CString XmlNode
  | .unparsable => .error (ascii "Can't parse file " ++ configPath)
  | .empty => .error (ascii "Document is empty " ++ configPath)
  | .root node => .ok node

/-- What `cfg` points to. -/
inductive CfgPointer where
  | inForce (cfg : GovernorConfig)
  | freed
  | unfinished

/-- `config_free`: the pointer keeps its value. -/
def configFree : CfgPointer → CfgPointer := fun _ => .freed

/-- What `reread_config` has done. -/
inductive RereadPc where
  | called
  | locked
  | freed
  | parsed (root : XmlNode)
  | built
  | returned

structure RereadState where
  cfg : CfgPointer
  pc : RereadPc

/-- The next stage of `reread_config`. The new structure is allocated once the file is parsed. -/
def rereadStage (liblve : Bool) (file : ConfigFile) (s : RereadState) : ConfigM RereadState :=
  match s.pc with
  | .called => .ok { s with pc := .locked }
  | .locked => .ok ⟨configFree s.cfg, .freed⟩
  | .freed =>
      match parseConfigData file with
      | .error message =>
          exitWith (ascii "Error reading config file " ++ message ++ ascii "\n")
      | .ok root => .ok ⟨.unfinished, .parsed root⟩
  | .parsed root => return ⟨.inForce (← configInit liblve root), .built⟩
  | .built => .ok { s with pc := .returned }
  | .returned => .ok s

/-- The first stages of a call under a configuration. -/
def rereadStages (liblve : Bool) (file : ConfigFile) (cfg : GovernorConfig) :
    ℕ → ConfigM RereadState
  | 0 => .ok ⟨.inForce cfg, .called⟩
  | n + 1 => rereadStages liblve file cfg n >>= rereadStage liblve file

/-- A call of `reread_config`, which has five stages. -/
def rereadConfigFile (liblve : Bool) (file : ConfigFile) (cfg : GovernorConfig) :
    ConfigM RereadState :=
  rereadStages liblve file cfg 5

/-- What a thread gets that reads the configuration under `pthread_rwlock_rdlock`. -/
inductive ReadResult (α : Type) where
  | waits
  | reads (value : α)
  | undefined

/-- A read under the lock between two stages. -/
def readLocked {α : Type} (read : GovernorConfig → α) (s : RereadState) : ReadResult α :=
  match s.pc, s.cfg with
  | .called, .inForce cfg | .returned, .inForce cfg => .reads (read cfg)
  | .called, _ | .returned, _ => .undefined
  | _, _ => .waits

/-- `get_config_data`. -/
def getConfigData (s : RereadState) : ReadResult GovernorConfig := readLocked id s

/-- `config_get_account_limit`, as it reads the structure that `cfg` points to. -/
def readAccountLimit (accountId : Username) (s : RereadState) : ReadResult StatsCfg :=
  readLocked (configGetAccountLimit · accountId) s

end DbGovernor
