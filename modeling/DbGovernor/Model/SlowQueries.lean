import DbGovernor.Model.ConfigInit
import DbGovernor.Model.MysqlStrings

/-!
# Long queries

One pass of `parse_slow_query` over the rows of `SHOW FULL PROCESSLIST`, with the statements that it
sends. The daemon does not call `setlocale`.
-/

namespace DbGovernor

def toUpper (c : UInt8) : UInt8 := if 97 ≤ c && c ≤ 122 then c - 32 else c

/-- `upper`. -/
def upper (s : CString) : CString := s.map toUpper

/-- The conversion of a `long` to `int`. -/
def intOfLong (n : ℤ) : ℤ := n.bmod (2 ^ 32)

/-- `find_acount_cmp`. -/
def findAcountCmp (ac : Account) (data : CString) : Bool :=
  ac.users.any fun id => sameName id data

/-- `g_hash_table_find (accounts, find_acount_cmp, user_name)`. -/
def findAccount (ord : IterOrder) (w : World) (userName : CString) : Option Account :=
  (ord.order w.accounts.keys).findSome? fun key =>
    (w.accounts.lookup key).filter fun ac => findAcountCmp ac userName

/-- `config_get_account_limit` under a string, which may be no `username_t`. -/
def configGetStringLimit (cfg : GovernorConfig) (accountId : CString) : StatsCfg :=
  ((Username.ofBytes? accountId).map (configGetAccountLimit cfg)).getD cfg.defaultLimit

/-- `is_user_ignored`. -/
def isUserIgnored (ord : IterOrder) (w : World) (userName : CString) : ℤ :=
  let sl := match findAccount ord w userName with
    | some ac => configGetAccountLimit w.cfg ac.id
    | none => configGetStringLimit w.cfg userName
  if sl.mode ≠ .ignoreMode then intOfLong sl.slow.current else 0

/-- What stands on the stack behind the bytes that `strncpy` writes to a buffer. -/
structure SlowQueryStack where
  id : CString
  user : CString
  time : CString
  info : CString
  infoCopy : CString

/-- The string in a buffer after `strncpy (.., src, n)`, which writes no NUL when it is full. -/
def strncpyString (behind : CString) (src : Memory) (n : ℕ) : CString :=
  let bytes := ((List.range n).map src).takeWhile (· ≠ 0)
  if bytes.length < n then bytes else bytes ++ behind

/-- The same of a string. -/
def strncpyOf (behind src : CString) (n : ℕ) : CString :=
  if src.length < n then src else src.take n ++ behind

/-- `QUERY_KILL_USER_QUERY_ID`, as `kill_query_by_id` fills it in. -/
def killQueryById (id : ℤ) : CString := ascii "KILL CONNECTION " ++ lldText id

/-- What `vsnprintf` makes of a format without arguments; one that asks for an argument has no
meaning. -/
def formatted : CString → Option CString
  | [] => some []
  | b :: rest =>
      if b ≠ 37 then (formatted rest).map (b :: ·)
      else
        match rest with
        | [] => none
        | c :: rest => if c = 37 then (formatted rest).map (37 :: ·) else none

/-- `prepare_output` without arguments. -/
def prepareOutput (size : ℕ) (fmt : CString) : Option CString :=
  (formatted fmt).map fun text => text.take (size - 1)

/-- A row, with the state in which its user is looked up and the stack at that time. -/
structure SlowVisit where
  world : World
  ord : IterOrder
  stack : SlowQueryStack
  row : MysqlRow

/-- A pass over the rows: the buffer, the statements sent, and the texts that
`write_slow_queries_log` gets. Once the code has done what has no meaning in C the pass is not
`defined`, and nothing is said about its further rows. -/
structure SlowPass where
  buffer : Memory
  sent : List CString
  logged : List CString
  defined : Bool

def SlowPass.init (buffer : Memory) : SlowPass := ⟨buffer, [], [], true⟩

/-- The copies of a row stay in the buffer. -/
def CopiesInside (row : MysqlRow) : Prop :=
  ∀ copy ∈ ColumnCaller.parseSlowQuery.copies row, stringEnd (row copy.1).length copy.2 < copy.2

instance (row : MysqlRow) : Decidable (CopiesInside row) :=
  inferInstanceAs (Decidable (∀ _ ∈ _, _))

/-- The loop body of `parse_slow_query`. A column may be copied to behind the buffer, `upper` may
write behind `Info`, and `sprintf` behind `log_buffer`; the text of the query is part of the format
of the log line. -/
def slowQueryRow (s : SlowPass) (v : SlowVisit) : SlowPass :=
  let buffer := dbMysqlGetString s.buffer (v.row 0) dbgovernorBuffer8192
  let id := strncpyString v.stack.id buffer (dbgovernorBuffer2048 - 1)
  let buffer := dbMysqlGetString buffer (v.row 1) dbgovernorBuffer8192
  let user := strncpyString v.stack.user buffer (usernamemaxlen - 1)
  let buffer := dbMysqlGetString buffer (v.row 5) dbgovernorBuffer8192
  let time := strncpyString v.stack.time buffer (dbgovernorBuffer2048 - 1)
  let buffer := dbMysqlGetString buffer (v.row 6) dbgovernorBuffer8192
  let buffer := dbMysqlGetString buffer (v.row 7) dbgovernorBuffer8192
  let info := upper (strncpyString v.stack.info buffer (dbgovernorBuffer2048 - 1))
  let slowTime := isUserIgnored v.ord v.world user
  let logBuffer := ascii "Query killed - " ++ user ++ ascii " : " ++
    strncpyOf v.stack.infoCopy info 600
  if ¬ s.defined then s
  else if ¬ (CopiesInside v.row ∧ info.length < dbgovernorBuffer2048) then
    { s with buffer := buffer, defined := false }
  else if slowTime > 0 ∧ info.take 6 = ascii "SELECT" ∧ atoi time > slowTime then
    let sent := s.sent ++ [killQueryById (atoi id)]
    if logBuffer.length < dbgovernorBuffer8192 then
      match prepareOutput dbgovernorBuffer2048 logBuffer with
      | some message =>
          { s with
            buffer := buffer.store (storesAt 0 message ++ [(message.length, 0)])
            sent := sent
            logged := s.logged ++ [message] }
      | none => { s with buffer := buffer, sent := sent, defined := false }
    else { s with buffer := buffer, sent := sent, defined := false }
  else { s with buffer := buffer }

/-- One pass of `parse_slow_query` over the rows of a result. -/
def parseSlowQuery (buffer : Memory) (visits : List SlowVisit) : SlowPass :=
  visits.foldl slowQueryRow (.init buffer)

end DbGovernor
