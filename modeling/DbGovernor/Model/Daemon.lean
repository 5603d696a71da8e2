import DbGovernor.Model.CalcStats

/-!
# Commands, map refreshes and the threads of the daemon

Locks are taken, and `sem_wait` of the daemon succeeds. A `DaemonStep` is one section that
its locks make atomic.
-/

namespace DbGovernor

variable [Rounding]

/-- `update_user_limit_no_flush`, if a limit is configured. -/
def updateUserLimit (cfg : GovernorConfig) (username : Username) (limit : ℕ) (m : MysqlSide) :
    MysqlSide :=
  if cfg.maxUserConnections ≠ 0 then
    { m with userLimits := Function.update m.userLimits username limit }
  else m

/-- `send_commands`, without the query log. -/
def sendCommands (cfg : GovernorConfig) (userMap : Option (HashTable UserMap)) (m : MysqlSide) :
    Option Command → MysqlSide
  | none => m
  | some cmd =>
      match cmd.command with
      | .freeze =>
          if cfg.useLve then
            let r := addUserToList true m.badList cmd.username cfg.allLve
              (getUid userMap cmd.username)
            let m := { m with badList := r.2 }
            if r.1 < 0 then m
            else updateUserLimit cfg cmd.username cfg.maxUserConnections m
          else m
      | .unfreeze =>
          let m := if cfg.useLve then
              { m with badList := (deleteUserFromList true m.badList cmd.username).2 }
            else m
          updateUserLimit cfg cmd.username 0 m
      | _ => m

/-- `comapre_users_name`. -/
def comapreUsersName (username : Username) (ac : Account) : ℤ :=
  if username ∈ ac.users then 0 else 1

/-- `dbctl_restrict_set` on an account, once the named user is registered. -/
def dbctlRestrictNamed (now : ℤ) (command : DbCtlCommand) (w : World) (a : Username) : World :=
  match w.accounts.lookup a with
  | none => w
  | some ac =>
      if ac.id = command.username ∨ comapreUsersName command.username ac = 0 then
        w.setAccount a (dbctlRestrictAccount w.cfg now command ac w.globals)
      else w

/-- `dbctl_restrict_set`. A command that names an unknown user registers it, and the call
goes on with the account of that user in place of its own. -/
def dbctlRestrictSet (now : ℤ) (command : DbCtlCommand) (w : World) (key : Username) : World :=
  match w.users.lookup command.username with
  | some _ => dbctlRestrictNamed now command w key
  | none =>
      let w := addUserStats command.username w
      match w.users.lookup command.username with
      | some us => dbctlRestrictNamed now command w us.account
      | none => dbctlRestrictNamed now command w key

/-- `list_uid` over the map, in `set_dbuser_map`. -/
def setDbuserMap (ord : IterOrder) (w : World) : World :=
  match w.userMap with
  | none => w
  | some t => (ord.order t.keys).foldl (fun w key =>
      match t.lookup key with
      | none => w
      | some um => addEmptyStatsForUid um.username w) w

/-- `add_all_users_to_list`. -/
def addAllUsersToList (w : World) (key : Username) : World :=
  match w.accounts.lookup key with
  | none => w
  | some ac => ac.users.foldl (fun w id =>
      { w with mysql := { w.mysql with
          badList := (addUserToList true w.mysql.badList id true (getUid w.userMap id)).2 } }) w

/-- `reinit_users_list`. -/
def reinitUsersList (file : Option (List UInt8)) (ord : IterOrder) (w : World) : World :=
  let w := { w with
    userMap := some (getMapFile w.cfg file).2
    mysql := { w.mysql with badList := (deleteAllusersFromList true w.mysql.badList).2 } }
  if w.cfg.allLve then (ord.order w.accounts.keys).foldl addAllUsersToList w else w

/-- One round of `parse_map_file_every_hour` that finds the file changed. The thread keeps
the configuration it read when it started; the file is read twice. -/
def parseMapFileEveryHour (dataCfg : GovernorConfig) (file file' : Option (List UInt8))
    (ordMap ordAccounts : IterOrder) (w : World) : World :=
  let w := { w with userMap := some (getMapFile dataCfg file).2 }
  reinitUsersList file' ordAccounts (setDbuserMap ordMap w)

/-- The messages of `run_dbctl_command` that write the state. A reread brings the
configuration that `config_init` builds from the file. -/
inductive DbctlMessage where
  | rereadCfg (cfg : GovernorConfig)
  | reinitUsersList (cfg : GovernorConfig) (file : Option (List UInt8))
  | restrict (command : DbCtlCommand)
  | unrestrict (command : DbCtlCommand)
  | unrestrictA

/-- `g_hash_table_foreach` over the accounts with a function of one account. -/
def foreachAccount (ord : IterOrder)
    (f : GovernorConfig → Account → Globals → Account × Globals) (w : World) : World :=
  (ord.order w.accounts.keys).foldl (World.onAccount f) w

/-- `run_dbctl_command`. The guards use the configuration read before the message is
carried out. -/
def runDbctlCommand (msg : DbctlMessage) (now : ℤ) (ord : IterOrder) (w : World) : World :=
  match msg with
  | .rereadCfg cfg => { w with cfg := cfg }
  | .reinitUsersList cfg file =>
      let isGpl := w.cfg.isGpl
      let w := { w with cfg := cfg }
      let w := if isGpl then w else foreachAccount ord dbctlUnrestrictAllSet w
      reinitUsersList file ord w
  | .restrict command =>
      if w.cfg.isGpl || w.cfg.allLve || !w.cfg.useLve then w
      else (ord.order w.accounts.keys).foldl (dbctlRestrictSet now command) w
  | .unrestrict command =>
      if w.cfg.isGpl || w.cfg.allLve || !w.cfg.useLve then w
      else foreachAccount ord (fun cfg => dbctlUnrestrictSet cfg now command) w
  | .unrestrictA =>
      if w.cfg.isGpl || w.cfg.allLve || !w.cfg.useLve then w
      else foreachAccount ord dbctlUnrestrictAllSet w

/-- One visit of the worker, with its call of `send_commands`. -/
def workOn (cmd : Option Command) (rest : GList) (w : World) : World :=
  { w with
    mysql := sendCommands w.cfg w.userMap w.mysql cmd
    sender := visitCommand cmd rest w.sender }

/-- The steps of the daemon's threads. -/
inductive DaemonStep : World → World → Prop where
  | increment (u cpu read write tm w) : DaemonStep w (incrementCounters u cpu read write tm w)
  | tick (t w) : DaemonStep w (proceedAccounts t w)
  | dbctl (msg now ord w) : DaemonStep w (runDbctlCommand msg now ord w)
  | mapRefresh (dataCfg file file' ordMap ordAccounts w) :
      DaemonStep w (parseMapFileEveryHour dataCfg file file' ordMap ordAccounts w)
  | copy (w) : w.cfg.isGpl = false → w.sender.pc = .idle → w.sender.isSendCommandCycle = false →
      DaemonStep w { w with sender := copySection w.globals w.sender }
  | reinit (w) : w.sender.pc = .copied →
      DaemonStep w { w with
        globals := reinitCommandList w.globals
        sender := { w.sender with pc := .reinited } }
  | spawn (w) : w.sender.pc = .reinited → DaemonStep w { w with sender := spawnWorker w.sender }
  | work (cmd rest w) : w.sender.worker = some (cmd :: rest) → DaemonStep w (workOn cmd rest w)
  | finish (w) : w.sender.worker = some [] →
      DaemonStep w { w with sender := finishWorker w.sender }

/-- The states of a daemon that started with some configuration. -/
inductive Reachable : World → Prop where
  | start (cfg) : Reachable (World.init cfg)
  | step {w w'} : Reachable w → DaemonStep w w' → Reachable w'

end DbGovernor
