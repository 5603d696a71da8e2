import DbGovernor.Model.ClientMessage
import DbGovernor.Model.Config
import DbGovernor.Model.ThreadCounts
import DbGovernor.Verification.Shared.FrameReader

/-!
# The list of accounts on the socket

`run_writer` and the `LIST` command of the daemon send the accounts in rounds, one after the other
while the client answers; `read_info` of `dbtop` and of `dbctl` takes them. Bytes that were written
come in their order, and at any time only some of them have come. A `double` is its bit pattern.
-/

namespace DbGovernor

def GovernorsPeriodName.code : GovernorsPeriodName → ℤ
  | .noPeriod => 0
  | .currentPeriod => 1
  | .shortPeriod => 2
  | .midPeriod => 3
  | .longPeriod => 4

def GovernorsFieldName.code : GovernorsFieldName → ℤ
  | .norestrictParam2 => 0
  | .cpuParam => 4
  | .readParam => 5
  | .writeParam => 6
  | .norestrictParam => 100

/-- A `Stats` on the socket. -/
structure ExchStats where
  cpu : ℤ
  write : ℤ
  read : ℤ
deriving DecidableEq

/-- The figures of a `dbtop_exch`. -/
structure ExchFigures where
  current : ExchStats
  shortAverage : ExchStats
  midAverage : ExchStats
  longAverage : ExchStats
  restricted : ℤ
  timeout : ℤ
  fieldRestrict : ℤ
  fieldLevelRestrict : ℤ
  startCount : ℤ
deriving DecidableEq

/-- A `dbtop_exch`. -/
structure DbtopExch extends ExchFigures where
  id : Username
deriving DecidableEq

/-- The `Account` that `read_info` makes of a `dbtop_exch`, with the bytes of its name before the
first NUL of the record. -/
structure RecvAccount extends ExchFigures where
  id : List UInt8
deriving DecidableEq

/-- `sizeof (dbtop_exch)`. -/
def dbtopExchSize : ℕ := 184

def ExchStats.encode (st : ExchStats) : List UInt8 :=
  leBytes 8 st.cpu ++ leBytes 8 st.write ++ leBytes 8 st.read

/-- The bytes of the record on the stack of `send_account`, whose last byte of the name is not
written. -/
def DbtopExch.encode (unset : UInt8) (dt : DbtopExch) : List UInt8 :=
  cntUserThreadsUsername dt.id unset ++ dt.current.encode ++ dt.shortAverage.encode ++
    dt.midAverage.encode ++ dt.longAverage.encode ++ leBytes 4 dt.restricted ++
    leBytes 4 dt.timeout ++ leBytes 4 dt.fieldRestrict ++ leBytes 4 dt.fieldLevelRestrict ++
    leBytes 8 dt.startCount

def ExchStats.decode (bytes : List UInt8) : ExchStats where
  cpu := leInt (bytesAt 0 8 bytes)
  write := leInt (bytesAt 8 8 bytes)
  read := leInt (bytesAt 16 8 bytes)

/-- What `read_info` keeps of the bytes of a record. -/
def RecvAccount.decode (bytes : List UInt8) : RecvAccount where
  id := (bytesAt 0 usernamemaxlen bytes).takeWhile (· ≠ 0)
  current := .decode (bytesAt 64 24 bytes)
  shortAverage := .decode (bytesAt 88 24 bytes)
  midAverage := .decode (bytesAt 112 24 bytes)
  longAverage := .decode (bytesAt 136 24 bytes)
  restricted := leInt (bytesAt 160 4 bytes)
  timeout := leInt (bytesAt 164 4 bytes)
  fieldRestrict := leInt (bytesAt 168 4 bytes)
  fieldLevelRestrict := leInt (bytesAt 172 4 bytes)
  startCount := leInt (bytesAt 176 8 bytes)

/-! ### The daemon -/

/-- What the daemon sends with: its configuration, the bit patterns of the doubles, and the byte
that is on the stack where the record of an account leaves one out. -/
structure ListSender where
  cfg : GovernorConfig
  bits : ℚ → ℤ
  unset : Username → UInt8

section Sender

variable (p : ListSender)

def ListSender.stats (st : Stats) : ExchStats := ⟨p.bits st.cpu, st.write, st.read⟩

/-- The record of an account. -/
def ListSender.exch (ac : Account) : DbtopExch where
  id := ac.id
  current := p.stats ac.current
  shortAverage := p.stats ac.shortAverage
  midAverage := p.stats ac.midAverage
  longAverage := p.stats ac.longAverage
  restricted := ac.restricted
  timeout := ac.timeout
  fieldRestrict := ac.info.fieldRestrict.code
  fieldLevelRestrict := ac.info.fieldLevelRestrict.code
  startCount := ac.startCount

/-- The accounts that `send_account` does not leave out. -/
def ListSender.listed (ac : Account) : Bool :=
  (configGetAccountLimit p.cfg ac.id).mode ≠ .ignoreMode

/-- `send_account`: the writes it makes. -/
def ListSender.sendAccount (ac : Account) : List (List UInt8) :=
  if p.listed ac then [leBytes 4 0, (p.exch ac).encode (p.unset ac.id)] else []

/-- What follows in a round after the answer of the client. -/
def ListSender.answer (accounts : List Account) : List (List UInt8) :=
  accounts.flatMap p.sendAccount ++ [leBytes 4 2]

end Sender

/-! ### The clients -/

/-- The two programs that take the list. -/
inductive ListClient where
  | dbtop | dbctl
deriving DecidableEq

/-- What `read_info` reads next; `returned` is its return in `dbctl`. -/
inductive ReadPhase where
  | newRecord | exch | returned
deriving DecidableEq

/-- `read_info`. `accounts` are those that `dbtop` shows, and `testers` is a history: how often the
client wrote its answer. -/
structure ReadInfo where
  phase : ReadPhase
  recvAccounts : List RecvAccount
  accounts : List DbtopExch
  testers : ℕ
deriving DecidableEq

def ReadInfo.init : ReadInfo := ⟨.newRecord, [], [], 0⟩

/-- The size of the next `fread_wrapper`. -/
def ReadInfo.need (s : ReadInfo) : ℕ :=
  match s.phase with
  | .newRecord => 4
  | .exch => dbtopExchSize
  | .returned => 0

/-- `_copy_to_showed_accounts`. -/
def copyToShowedAccounts (ac : RecvAccount) : DbtopExch :=
  { ac.toExchFigures with id := strlcpy ac.id }

/-- What `read_info` does with the bytes of a `fread_wrapper`, where `sort` is `sort_accounts`. -/
def ReadInfo.take (client : ListClient) (sort : List DbtopExch → List DbtopExch) (s : ReadInfo)
    (bytes : List UInt8) : ReadInfo :=
  match s.phase with
  | .newRecord =>
      if leInt bytes = 1 then
        match client with
        | .dbtop => { s with recvAccounts := [], testers := s.testers + 1 }
        | .dbctl => { s with testers := s.testers + 1 }
      else if leInt bytes = 0 then { s with phase := .exch }
      else
        match client with
        | .dbtop => { s with accounts := sort (s.recvAccounts.map copyToShowedAccounts) }
        | .dbctl => { s with phase := .returned }
  | .exch =>
      { s with
        phase := .newRecord
        recvAccounts := s.recvAccounts ++ [RecvAccount.decode bytes] }
  | .returned => s

/-! ### The order of `dbtop` -/

/-- `sort_type`. -/
inductive SortType where
  | cpu | read | write | username | restrict | tte
deriving DecidableEq

/-- The sign of `strncmp (a->id, b->id, USERNAMEMAXLEN)`. -/
def compareId (a b : DbtopExch) : Ordering := compare a.id.bytes b.id.bytes

/-- `GINT_COMPARE_FUNCTION (x)`. -/
def gintCompareBy {κ : Type} [LT κ] [DecidableLT κ] [DecidableEq κ] (x : DbtopExch → κ)
    (a b : DbtopExch) : Ordering :=
  if x b < x a then .lt else if x a = x b then compareId a b else .gt

/-- What `gint_compare_by_restrict` and `gint_compare_by_tte` do with their figure. -/
def gintCompareByFigure (x : DbtopExch → ℤ) (a b : DbtopExch) : Ordering :=
  if x b < x a then .lt else if x a = x b then .eq else .gt

/-- `getTimeToEnd` of `dbtop` and `get_time_to_end` of `dbctl`, an `int`. -/
def getTimeToEnd (now : ℤ) (ac : ExchFigures) : ℤ :=
  if ac.startCount + ac.timeout - now < 0 then 0
  else (ac.startCount + ac.timeout - now).bmod (2 ^ 32)

/-- The comparison that `sort_accounts` passes to `g_list_sort`, where `value` is the number of a
`double`. -/
def SortType.compare (value : ℤ → ℚ) (now : ℤ) : SortType → DbtopExch → DbtopExch → Ordering
  | .cpu => gintCompareBy fun ac => value ac.current.cpu
  | .read => gintCompareBy fun ac => ac.current.read
  | .write => gintCompareBy fun ac => ac.current.write
  | .username => compareId
  | .restrict => gintCompareByFigure fun ac => ac.timeout
  | .tte => gintCompareByFigure fun ac => getTimeToEnd now ac.toExchFigures

/-- `sort_accounts`. `g_list_sort` is a stable merge sort. -/
def sortAccounts (value : ℤ → ℚ) (now : ℤ) (sortType : SortType) (accounts : List DbtopExch) :
    List DbtopExch :=
  accounts.mergeSort fun a b => (sortType.compare value now a b).isLE

/-! ### A session -/

/-- Where the thread of the daemon stands: before the `1` of a round, at the `fread_wrapper` for
the answer, or at its end. -/
inductive SenderPc where
  | announcing | waiting | closed
deriving DecidableEq

/-- A connection. `outgoing` are the bytes that are on their way to the client, and `taken` the
answers of the client that the daemon has read, each of which led to a round. -/
structure ListSession where
  server : SenderPc
  outgoing : List UInt8
  taken : ℕ
  reader : ReadInfo × List UInt8

def ListSession.init : ListSession := ⟨.announcing, [], 0, .init, []⟩

/-- The steps of the two sides and of the socket, where `rounds i` are the accounts as the walk of
the round `i` finds them. `run_writer` goes on for as long as the client answers; a client that has
returned closes the connection, and the read of the daemon fails. -/
inductive ListStep (p : ListSender) (client : ListClient)
    (sort : List DbtopExch → List DbtopExch) (rounds : ℕ → List Account) :
    ListSession → ListSession → Prop where
  | announce (s) (hserver : s.server = .announcing) :
      ListStep p client sort rounds s
        { s with server := .waiting, outgoing := s.outgoing ++ leBytes 4 1 }
  | answer (s) (hserver : s.server = .waiting) (htester : s.taken < s.reader.1.testers) :
      ListStep p client sort rounds s
        { s with
          server := .announcing
          outgoing := s.outgoing ++ (p.answer (rounds s.taken)).flatten
          taken := s.taken + 1 }
  | hangup (s) (hserver : s.server = .waiting) (hclient : s.reader.1.phase = .returned) :
      ListStep p client sort rounds s { s with server := .closed }
  | deliver (s b outgoing) (houtgoing : s.outgoing = b :: outgoing) :
      ListStep p client sort rounds s
        { s with
          outgoing := outgoing
          reader := FrameReader.feed ReadInfo.need (ReadInfo.take client sort) s.reader b }

end DbGovernor
