import DbGovernor.Verification.Shared.Locking

/-!
# The threads of the daemon at their locks

Each function as the requests it makes for locks and its accesses to the tables that threads
share, from the start of the threads on. Which branch is taken is left open. A `lock_write_map`
or `lock_read_map` that fails skips its section.
-/

namespace DbGovernor

/-- `mtx_tid`, `mtx_counters`, `mtx_account`, `mtx_commands`, `map_rw_lock`, the `rwlock` of the
configuration and the semaphore of the bad list. -/
inductive DaemonLock where
  | tid | counters | account | commands | map | rwlock | sem
deriving DecidableEq, Repr

inductive LockMode where
  | read | write
deriving DecidableEq, Repr

/-- A request for a lock; a mutex is only asked for in the mode `write`. -/
structure LockRequest where
  lock : DaemonLock
  mode : LockMode
deriving DecidableEq, Repr

/-- The tables, lists and structures that threads share. The records of `userMap` are freed with it
and belong to it; those behind the pointers of `accounts` and `users` do not belong to these
tables. -/
inductive SharedTable where
  | threadsList | userCountersList | accounts | users | userAccountTable | userMap
  | dbGovStatitrics | dbGovNumberOfRestricts | cfg | commandList | badList | mysqlDoCommand
deriving DecidableEq, Repr

structure TableAccess where
  table : SharedTable
  mode : LockMode
deriving DecidableEq, Repr

abbrev LockProg := Locking.Prog LockRequest TableAccess

namespace LockProg

open Locking.Prog

def mutex (lock : DaemonLock) (body : List LockProg) : LockProg :=
  locked ⟨lock, .write⟩ (block body)

def rdlock (lock : DaemonLock) (body : List LockProg) : LockProg :=
  locked ⟨lock, .read⟩ (block body)

def wrlock (lock : DaemonLock) (body : List LockProg) : LockProg :=
  locked ⟨lock, .write⟩ (block body)

def reads (table : SharedTable) : LockProg := access ⟨table, .read⟩

def writes (table : SharedTable) : LockProg := access ⟨table, .write⟩

/-! ### `governor_config.c` and `log.c` -/

def getConfigData : LockProg := rdlock .rwlock [reads .cfg]

def configGetAccountLimit : LockProg := rdlock .rwlock [reads .cfg]

def rereadConfig : LockProg := wrlock .rwlock [writes .cfg]

def writeRestrictLog : LockProg := maybe getConfigData

def writeSlowQueriesLog : LockProg := maybe getConfigData

/-! ### `tid_table.c` -/

def addNewTidData : LockProg := mutex .tid [reads .threadsList, writes .threadsList]

def getTidData : LockProg := mutex .tid [reads .threadsList]

def removeTidData : LockProg := mutex .tid [writes .threadsList]

def removeTidDataByFd : LockProg := mutex .tid [reads .threadsList, loop (writes .threadsList)]

def proceedTidData (func : LockProg) : LockProg :=
  block [mutex .tid [reads .threadsList, loop func], loop removeTidData]

def getTidSize : LockProg := mutex .tid [reads .threadsList]

def getCntThreads : LockProg := mutex .tid [reads .threadsList]

def incrementCounters : LockProg := block [reads .userCountersList, writes .userCountersList]

def resetCounters : LockProg := block [reads .userCountersList, writes .userCountersList]

/-! ### `user_account.c` and `stats.c` -/

/-- What `get_account` returns points into a record of the map, from which the name is copied after
`unlock_rdwr_map`. -/
def getUserAccount : LockProg :=
  block [reads .userAccountTable, getConfigData,
    maybe (block [writes .userAccountTable, configGetAccountLimit,
      maybe (maybe (block [rdlock .map [reads .userMap], maybe (reads .userMap)]))])]

def addUserStats : LockProg :=
  block [getUserAccount, reads .accounts, maybe (writes .accounts), getConfigData, writes .users]

def pushStats : LockProg := getConfigData

def refreshStats : LockProg := getConfigData

/-! ### `mysql_connector_common.c` -/

/-- `db_mysql_exec_query`, with `local_reconnect`, on the connection `accesses`. -/
def dbMysqlExecQuery (accesses : LockProg) : LockProg :=
  block [getConfigData, accesses, loop (block [getConfigData, accesses])]

/-- A function that sends a query on `mysql_do_command`. -/
def doCommand : LockProg :=
  block [getConfigData, reads .mysqlDoCommand,
    maybe (block [dbMysqlExecQuery (writes .mysqlDoCommand), writes .mysqlDoCommand])]

def updateUserLimitNoFlush : LockProg := doCommand

def flushUserPriv : LockProg := doCommand

def logUserQueries : LockProg := doCommand

def killQueryById : LockProg := block [getConfigData, maybe (dbMysqlExecQuery skip)]

def governorEnable : LockProg := block [getConfigData, dbMysqlExecQuery skip]

def governorEnableLve : LockProg := block [getConfigData, dbMysqlExecQuery skip]

/-! ### `shared_memory.c` -/

def isUserInList : LockProg := reads .badList

def addUserToList : LockProg :=
  maybe (block [maybe (rdlock .map [reads .userMap]), isUserInList,
    maybe (block [reads .badList, maybe (mutex .sem [writes .badList])])])

def deleteUserFromList : LockProg :=
  loop (block [reads .badList, maybe (mutex .sem [reads .badList, writes .badList])])

def deleteAllusersFromList : LockProg := maybe (mutex .sem [writes .badList])

/-! ### `commands.c` -/

def reinitCommandList : LockProg := mutex .commands [writes .commandList]

/-- One command of `account_restrict` or `account_unrestrict`. -/
def appendCommand (log : LockProg) : LockProg :=
  block [reads .commandList, maybe (block [mutex .commands [writes .commandList], log])]

def accountUnrestrict : LockProg := block [getConfigData, maybe (loop (appendCommand skip))]

def accountRestrict : LockProg :=
  block [getConfigData, maybe (loop (appendCommand (maybe logUserQueries)))]

def sendCommands : LockProg :=
  block [getConfigData,
    choice
      (block [maybe (block [addUserToList, maybe updateUserLimitNoFlush]), maybe logUserQueries])
      (block [maybe deleteUserFromList, maybe updateUserLimitNoFlush])]

def sendCommandsCycleIn : LockProg :=
  block [getConfigData, loop sendCommands, maybe flushUserPriv]

def sendCommandCopyList : LockProg :=
  block [mutex .commands [reads .commandList], reinitCommandList]

def sendCommandsCycle : LockProg := block [getConfigData, maybe sendCommandCopyList]

def sendGovernor : LockProg :=
  block [getConfigData, loop (choice governorEnableLve governorEnable)]

/-! ### `calc_stats.c` and `log-decoder.c` -/

/-- `prepareRestrictDescription` and `prepareRestrictDescriptionLimit` read `cfg` themselves. -/
def prepareRestrictDescription : LockProg := reads .cfg

def addNewStats : LockProg :=
  block [reads .users, getConfigData, maybe addUserStats, choice refreshStats pushStats]

def addUserStatsFromCounter : LockProg :=
  block [maybe writeRestrictLog, addNewStats, resetCounters]

def addEmptyStatsForUid : LockProg := mutex .account [reads .users, maybe addUserStats]

def tickEmptyUsers : LockProg := maybe pushStats

def getTimeout : LockProg := getConfigData

def incNumberOfRestricts : LockProg :=
  block [reads .dbGovNumberOfRestricts, writes .dbGovNumberOfRestricts]

/-- `check_restrict` and `check_restrict_limit` do the same for each of the four periods, but for
the call of `get_timeout` that only `check_restrict` makes. -/
def checkRestrictWith (timeout : LockProg) : LockProg :=
  block [configGetAccountLimit, getConfigData,
    maybe (block [timeout, maybe incNumberOfRestricts, maybe accountRestrict,
      maybe (block [prepareRestrictDescription, writeRestrictLog])])]

def checkRestrict : LockProg := checkRestrictWith getTimeout

def checkRestrictLimit : LockProg := checkRestrictWith skip

def accountAnalyzeLimit : LockProg :=
  block [configGetAccountLimit, getConfigData,
    maybe (block [maybe checkRestrictLimit,
      maybe (block [checkRestrictLimit, maybe (block [accountUnrestrict, writeRestrictLog])])])]

def accountAnalyze : LockProg :=
  block [configGetAccountLimit, getConfigData,
    maybe (block [maybe checkRestrict,
      maybe (choice (block [checkRestrict, choice accountUnrestrict writeRestrictLog])
        writeRestrictLog)])]

def calcAccStats : LockProg := loop writeRestrictLog

def dbstatAddToTable : LockProg :=
  block [reads .dbGovStatitrics, configGetAccountLimit, getCntThreads,
    reads .dbGovNumberOfRestricts, writes .dbGovStatitrics]

def dbstatPrintTable : LockProg := getConfigData

def writeDbGovStatitrics : LockProg := block [reads .dbGovStatitrics, loop dbstatPrintTable]

def addDbGovStatitrics : LockProg :=
  block [
    maybe (block [writes .dbGovStatitrics, reads .accounts, loop dbstatAddToTable]),
    maybe (block [writeDbGovStatitrics,
      maybe (block [writes .dbGovStatitrics, writes .dbGovNumberOfRestricts])])]

def proceedAccounts : LockProg :=
  block [getConfigData,
    mutex .account [
      mutex .counters [reads .userCountersList, loop addUserStatsFromCounter],
      reads .users, loop tickEmptyUsers,
      reads .accounts, loop calcAccStats,
      reads .accounts, choice (loop accountAnalyzeLimit) (loop accountAnalyze),
      maybe addDbGovStatitrics]]

def clacStatsDifferenceInnerAddToCounters : LockProg := mutex .counters [incrementCounters]

def printToRestrictLogStats : LockProg :=
  block [getConfigData, writeRestrictLog, reads .accounts,
    loop (block [getConfigData, writeRestrictLog]), writeRestrictLog]

def isUserIgnored : LockProg := block [mutex .account [reads .accounts], configGetAccountLimit]

def reinitUsersList : LockProg :=
  block [getConfigData, maybe (wrlock .map [writes .userMap]), deleteAllusersFromList,
    maybe (block [reads .accounts, loop addUserToList])]

def dbctlRestrictSet : LockProg :=
  block [getConfigData, reads .users, maybe addUserStats,
    maybe (block [configGetAccountLimit, maybe getTimeout, maybe incNumberOfRestricts,
      accountRestrict, maybe (block [prepareRestrictDescription, writeRestrictLog])])]

def dbctlUnrestrictSet : LockProg :=
  block [getConfigData,
    maybe (block [checkRestrict, choice accountUnrestrict writeRestrictLog])]

def dbctlUnrestrictAllSet : LockProg := block [getConfigData, maybe accountUnrestrict]

/-! ### `dbuser_map.c` -/

def setDbuserMap : LockProg := block [reads .userMap, loop addEmptyStatsForUid]

def parseMapFileEveryHour : LockProg :=
  block [getConfigData,
    loop (maybe (block [maybe (wrlock .map [writes .userMap]),
      maybe (rdlock .map [setDbuserMap]), reinitUsersList]))]

/-! ### `governor_server.c` -/

def chekUserPerf : LockProg :=
  block [getConfigData, maybe writeRestrictLog,
    maybe (block [maybe writeRestrictLog, clacStatsDifferenceInnerAddToCounters,
      writes .threadsList])]

def monitorDataFromClient : LockProg :=
  block [getConfigData, maybe (block [getTidSize, writeRestrictLog]),
    maybe (proceedTidData chekUserPerf)]

def proceedDataEverySecond : LockProg :=
  loop (block [monitorDataFromClient, maybe proceedAccounts, sendCommandsCycle, getConfigData,
    maybe printToRestrictLogStats])

def createSocket : LockProg := getConfigData

/-- What `get_data_from_client` does with a descriptor. -/
def proceedDescriptor : LockProg :=
  choice removeTidDataByFd
    (block [maybe writeRestrictLog, getTidData,
      choice addNewTidData
        (maybe (block [clacStatsDifferenceInnerAddToCounters, removeTidData]))])

def getDataFromClient : LockProg :=
  block [reinitCommandList,
    loop (block [getConfigData, maybe createSocket, loop (maybe proceedDescriptor)])]

/-! ### `dbtop_server.c` and `slow_queries.c` -/

def sendAccount : LockProg := block [configGetAccountLimit, maybe (mutex .account [])]

/-- `g_hash_table_foreach` over the accounts. -/
def foreachAccount (func : LockProg) : LockProg := block [reads .accounts, loop func]

def runDbtopCommand : LockProg := maybe (foreachAccount sendAccount)

def runWriter : LockProg := maybe (loop (foreachAccount sendAccount))

def runServer : LockProg := block [getConfigData, getConfigData]

def renewMapOnRequest : LockProg := block [getConfigData]

/-- `run_dbctl_command`, a branch for each of the commands that take a lock. -/
def runDbctlCommand : LockProg :=
  block [getConfigData,
    maybe (choice rereadConfig
      (choice
        (block [rereadConfig, maybe (mutex .account [foreachAccount dbctlUnrestrictAllSet]),
          reinitUsersList])
        (choice (mutex .account [foreachAccount dbctlRestrictSet])
          (choice (mutex .account [foreachAccount dbctlUnrestrictSet])
            (choice (mutex .account [foreachAccount dbctlUnrestrictAllSet])
              (loop (foreachAccount sendAccount)))))))]

def parseSlowQuery : LockProg :=
  block [getConfigData,
    loop (maybe (block [dbMysqlExecQuery skip,
      loop (block [isUserIgnored, maybe (block [killQueryById, writeSlowQueriesLog])])]))]

end LockProg

/-- The threads that `main` starts, and those that are started for each command cycle and for
each connection. -/
inductive DaemonThread where
  | getDataFromClient | sendGovernor | runServer | proceedDataEverySecond
  | parseMapFileEveryHour | parseSlowQuery | renewMapOnRequest
  | sendCommandsCycleIn (cycle : ℕ)
  | runWriter (ns : ℕ)
  | runDbtopCommand (ns : ℕ)
  | runDbctlCommand (ns : ℕ)
deriving DecidableEq, Repr

/-- The start routine of a thread. -/
def DaemonThread.routine : DaemonThread → LockProg
  | .getDataFromClient => LockProg.getDataFromClient
  | .sendGovernor => LockProg.sendGovernor
  | .runServer => LockProg.runServer
  | .proceedDataEverySecond => LockProg.proceedDataEverySecond
  | .parseMapFileEveryHour => LockProg.parseMapFileEveryHour
  | .parseSlowQuery => LockProg.parseSlowQuery
  | .renewMapOnRequest => LockProg.renewMapOnRequest
  | .sendCommandsCycleIn _ => LockProg.sendCommandsCycleIn
  | .runWriter _ => LockProg.runWriter
  | .runDbtopCommand _ => LockProg.runDbtopCommand
  | .runDbctlCommand _ => LockProg.runDbctlCommand

/-- Whether a waiting `pthread_rwlock_wrlock` holds up later calls of `pthread_rwlock_rdlock`. -/
inductive RwlockKind where
  | preferReader | preferWriter
deriving DecidableEq, Repr

/-- Two requests for one lock conflict unless both are to read. -/
def LockRequest.Conflicts (r r' : LockRequest) : Prop :=
  r.lock = r'.lock ∧ (r.mode = .write ∨ r'.mode = .write)

instance (r r' : LockRequest) : Decidable (r.Conflicts r') := inferInstanceAs (Decidable (_ ∧ _))

/-- A request to read waits behind a request to write if the locks prefer writers. -/
def LockRequest.Yields (kind : RwlockKind) (r r' : LockRequest) : Prop :=
  kind = .preferWriter ∧ r.lock = r'.lock ∧ r.mode = .read ∧ r'.mode = .write

instance (kind : RwlockKind) (r r' : LockRequest) : Decidable (r.Yields kind r') :=
  inferInstanceAs (Decidable (_ ∧ _))

def daemonLocks (kind : RwlockKind) : Locking.Discipline LockRequest where
  conflicts := LockRequest.Conflicts
  yields := LockRequest.Yields kind

/-- What a thread still has to do. -/
abbrev ThreadWork := List (Locking.Item LockRequest TableAccess)

/-- The states of the threads of the daemon. -/
def LocksReachable (kind : RwlockKind) : (DaemonThread → ThreadWork) → Prop :=
  Locking.Reachable (daemonLocks kind) DaemonThread.routine

/-- Two accesses to one table, one of which writes. -/
def TableAccess.Clash (table : SharedTable) (a a' : TableAccess) : Prop :=
  a.table = table ∧ a'.table = table ∧ (a.mode = .write ∨ a'.mode = .write)

/-- Two threads are about to access the table, one of them to write it. -/
def DataRace (table : SharedTable) (s : DaemonThread → ThreadWork) : Prop :=
  Locking.Racing (TableAccess.Clash table) s

end DbGovernor
