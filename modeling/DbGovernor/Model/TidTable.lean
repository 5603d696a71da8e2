import DbGovernor.Model.Data

/-!
# The table of threads

What the clients report about a thread and how the daemon charges it. A message that begins a
statement sets the baseline of the thread; the monitor charges what was used since and moves the
baseline; the message that ends the statement is charged against a copy of the baseline. The
steps of one thread id are cut at the locks of `mtx_tid` and `mtx_counters`.
-/

namespace DbGovernor

/-- The cumulative counters of a thread. -/
@[ext]
structure ThreadUsage where
  cpu : ℤ
  read : ℤ
  write : ℤ
deriving DecidableEq

/-- A `client_data` message. -/
structure ClientData extends ThreadUsage where
  type : ℤ
  tid : ℤ
  pid : ℤ
  username : Username
  updateTime : ℤ
  naoseconds : ℤ
deriving DecidableEq

/-- An entry of `threads_list`. -/
structure TidTable extends ThreadUsage where
  username : Username
  updateTime : ℤ
  naoseconds : ℤ
  pid : ℤ
  fd : ℤ
deriving DecidableEq

/-- The message of `send_info` for a name of any length. -/
def sendInfo (username : List UInt8) (type pid tid : ℤ) (usage : ThreadUsage)
    (tvSec tvNsec : ℤ) : ClientData :=
  { usage with
    type := type
    tid := tid
    pid := pid
    username := strlcpy username
    updateTime := tvSec
    naoseconds := tvNsec }

/-- `SEC2NANO`. -/
def sec2Nano : ℚ := 1000000000

/-- A time in seconds. -/
def timeOf (sec nsec : ℤ) : ℚ := sec + nsec / sec2Nano

/-- The time of the baseline. -/
def TidTable.tm (item : TidTable) : ℚ := timeOf item.updateTime item.naoseconds

/-- `LOAD_NEW_TID_STATS`. -/
def loadNewTidStats (tbl newData : ℤ) : ℤ := if tbl < newData then newData else tbl

/-- `add_new_tid_data`: the entry of the thread afterwards. -/
def addNewTidData (tbl : ClientData) (fd : ℤ) (item : Option TidTable) : TidTable where
  username := strlcpy tbl.username.bytes
  cpu := match item with
    | none => tbl.cpu
    | some newData => loadNewTidStats tbl.cpu newData.cpu
  read := match item with
    | none => tbl.read
    | some newData => loadNewTidStats tbl.read newData.read
  write := match item with
    | none => tbl.write
    | some newData => loadNewTidStats tbl.write newData.write
  updateTime := tbl.updateTime
  naoseconds := tbl.naoseconds
  pid := tbl.pid
  fd := fd

/-- The arguments of a call of `increment_counters`. -/
structure CounterIncrement extends ThreadUsage where
  username : Username
  tm : ℚ
deriving DecidableEq

/-- The amount charged for one counter over the time `dt`; time is rational. -/
def chargedAmount (new old : ℤ) (dt : ℚ) : ℤ :=
  let tmp := if new ≥ old then new - old else 0
  if dt > 1 then ⌊(tmp : ℚ) / dt⌋ else tmp

/-- `clac_stats_difference_inner_add_to_counters` at the time `newTm`: the call of
`increment_counters` it makes. -/
def clacStatsDifferenceInnerAddToCounters (usage : ThreadUsage) (old : TidTable) (newTm : ℚ) :
    CounterIncrement :=
  let dt := newTm - old.tm
  if newTm > old.tm then
    { username := old.username
      cpu := chargedAmount usage.cpu old.cpu dt
      read := chargedAmount usage.read old.read dt
      write := chargedAmount usage.write old.write dt
      tm := old.tm }
  else ⟨⟨0, 0, 0⟩, old.username, old.tm⟩

/-- `clac_stats_difference_add_to_counters`. -/
def clacStatsDifferenceAddToCounters (new : ClientData) (old : TidTable) (newTm : ℚ) :
    CounterIncrement :=
  clacStatsDifferenceInnerAddToCounters new.toThreadUsage old newTm

/-- Where the server thread stands between a begin and its end. -/
inductive EndPc where
  | begun | copied | charged | removed
deriving DecidableEq, Repr

/-- What the daemon knows of one thread id. `entry` is its place in `threads_list`, `tblBuff` the
server's copy (nothing if it found no entry), and `bad` its place in `bad_tid_list`. The other
fields are histories: the calls of `increment_counters` since the begin, and the last reading of
the monitor, at first the one of the begin. No code reads them. -/
structure TidState where
  entry : Option TidTable
  tblBuff : Option TidTable
  pc : EndPc
  bad : Bool
  increments : List CounterIncrement
  lastReading : ThreadUsage
deriving DecidableEq

/-- The state when `get_data_from_client` has handled a message of type 0. -/
def TidState.begin (message : ClientData) (fd : ℤ) (item : Option TidTable) : TidState :=
  ⟨some (addNewTidData message fd item), none, .begun, false, [], message.toThreadUsage⟩

/-- A visit of the monitor: the time at which its pass began, what `/proc` tells about the
thread, nothing if it is gone, and the clock while it charges. -/
structure MonitorVisit where
  tvSec : ℤ
  tvNsec : ℤ
  reading : Option ThreadUsage
  newTm : ℚ
deriving DecidableEq

/-- The guard of `chek_user_perf`. -/
def MonitorVisit.due (v : MonitorVisit) (item : TidTable) : Bool :=
  timeOf v.tvSec v.tvNsec - item.tm > 1

/-- `chek_user_perf`, on the entry of the thread if there is one. -/
def chekUserPerf (v : MonitorVisit) (s : TidState) : TidState :=
  match s.entry with
  | none => s
  | some item =>
      if v.due item then
        match v.reading with
        | none => { s with bad := true }
        | some usage =>
            { s with
              entry := some { item with
                toThreadUsage := usage
                updateTime := v.tvSec
                naoseconds := v.tvNsec }
              increments :=
                s.increments ++ [clacStatsDifferenceInnerAddToCounters usage item v.newTm]
              lastReading := usage }
      else s

/-- The steps of the monitor and of the server that gets the message that ends the statement.
`removeBad` is the end of a pass of the monitor. -/
inductive TidStep where
  | visit (v : MonitorVisit)
  | removeBad
  | getTidData
  | addToCounters (newTm : ℚ)
  | removeTidData
deriving DecidableEq

/-- One step, with `message` the one that ends the statement; where the server stands elsewhere,
its steps do nothing. -/
def TidStep.apply (message : ClientData) (s : TidState) : TidStep → TidState
  | .visit v => chekUserPerf v s
  | .removeBad => if s.bad then { s with entry := none, bad := false } else s
  | .getTidData => if s.pc = .begun then { s with tblBuff := s.entry, pc := .copied } else s
  | .addToCounters newTm =>
      if s.pc = .copied then
        match s.tblBuff with
        | none => { s with pc := .removed }
        | some old =>
            { s with
              increments := s.increments ++ [clacStatsDifferenceAddToCounters message old newTm]
              pc := .charged }
      else s
  | .removeTidData => if s.pc = .charged then { s with entry := none, pc := .removed } else s

end DbGovernor
