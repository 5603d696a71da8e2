import DbGovernor.Model.DbuserMap
import DbGovernor.Model.FifoStats
import DbGovernor.Model.Restrict
import DbGovernor.Model.SharedMemory

/-! # The state of the daemon, and the registration of users -/

namespace DbGovernor

/-- `Stat_counters`. -/
structure StatCounters where
  s : Stats
  tm : ℚ
deriving DecidableEq

/-- What `send_commands` writes. `userLimits` holds the `max_user_connections` that
`update_user_limit_no_flush` last wrote for a user. -/
structure MysqlSide where
  badList : ShmStructure
  userLimits : Username → ℕ

def MysqlSide.init : MysqlSide := ⟨clearBadUsersList, fun _ => 0⟩

/-- The statics of the daemon's modules. -/
structure World where
  cfg : GovernorConfig
  tickId : ℕ
  accounts : HashTable Account
  users : HashTable UserStats
  userAccountTable : HashTable Username
  counters : HashTable StatCounters
  userMap : Option (HashTable UserMap)
  globals : Globals
  sender : Sender
  mysql : MysqlSide

/-- The state when the threads start. -/
def World.init (cfg : GovernorConfig) : World where
  cfg := cfg
  tickId := 0
  accounts := ∅
  users := ∅
  userAccountTable := ∅
  counters := ∅
  userMap := none
  globals := .init
  sender := .init
  mysql := .init

/-- The account pointer of a table entry is written through. -/
def World.setAccount (w : World) (a : Username) (r : Account × Globals) : World :=
  { w with accounts := w.accounts.insert a r.1, globals := r.2 }

/-- Run a function of one account on the entry of `accounts` under `a`. -/
def World.onAccount (f : GovernorConfig → Account → Globals → Account × Globals)
    (w : World) (a : Username) : World :=
  match w.accounts.lookup a with
  | none => w
  | some ac => w.setAccount a (f w.cfg ac w.globals)

/-- The account that `get_user_account` gives a user it does not know yet. -/
def assignAccount (cfg : GovernorConfig) (userMap : Option (HashTable UserMap))
    (username : Username) : Username :=
  if (configGetAccountLimit cfg username).accountFlag then
    match getAccount userMap username with
    | some account => account
    | none =>
        match username.bytes.findIdx? (· == cfg.separator) with
        | none => username
        | some 0 => username
        | some (i + 1) => strlcpy (username.bytes.take (i + 1))
  else username

/-- `get_user_account`: an account once given is remembered. -/
def getUserAccount (w : World) (username : Username) : Username × World :=
  match w.userAccountTable.lookup username with
  | some account => (account, w)
  | none =>
      let account := assignAccount w.cfg w.userMap username
      (account, { w with userAccountTable := w.userAccountTable.insert username account })

/-- `add_user_stats`. -/
def addUserStats (username : Username) (w : World) : World :=
  let r := getUserAccount w username
  let w := r.2
  let ac := (w.accounts.lookup r.1).getD (initAccount r.1)
  { w with
    accounts := w.accounts.insert r.1 { ac with users := ac.users ++ [username] }
    users := w.users.insert username (initUserStats w.cfg username r.1) }

/-- `add_empty_stats_for_uid`. -/
def addEmptyStatsForUid (username : Username) (w : World) : World :=
  match w.users.lookup username with
  | some _ => w
  | none => addUserStats username w

/-- `increment_counters`. The CPU counter is a sum of whole clock ticks, which a `double` holds
exactly up to `2 ^ 53`. -/
def incrementCounters (username : Username) (cpu read write : ℤ) (tm : ℚ) (w : World) : World :=
  match w.counters.lookup username with
  | some item =>
      let s := ⟨item.s.cpu + cpu, item.s.write + write, item.s.read + read⟩
      { w with counters := w.counters.insert username { item with s := s } }
  | none =>
      { w with counters := w.counters.insert username ⟨⟨cpu, write, read⟩, tm⟩ }

end DbGovernor
