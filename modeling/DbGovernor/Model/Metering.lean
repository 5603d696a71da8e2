import DbGovernor.Model.Daemon
import DbGovernor.Model.ThreadCounts

/-!
# From the messages to the counters

`get_data_from_client` and the monitor on the whole of `threads_list`, with the counters that they
fill and the tick that empties them. The steps are cut where `mtx_tid` and `mtx_counters` are not
held, so the visits of one pass of the monitor are steps of their own.
-/

namespace DbGovernor

/-- What `get_data_from_client` has in hand. -/
inductive ServerWork where
  | idle
  | copied (message : ClientData) (tblBuff : Option TidTable)
  | charged (message : ClientData)
deriving DecidableEq

/-- The first and the highest reading of a thread. -/
structure Seen where
  first : ThreadUsage
  last : ThreadUsage

/-- `threads_list`, `bad_tid_list`, the server thread and the rest of the daemon. The other fields
are histories: the calls of `increment_counters` with their threads, the ticks with the state that
each began in, and the readings of each thread. No code reads them. -/
structure Metering where
  threadsList : ThreadsList
  badTidList : List ℤ
  server : ServerWork
  world : World
  increments : List (ℤ × CounterIncrement)
  ticks : List (TickInput × World)
  seen : ℤ → Option Seen

def Metering.init (cfg : GovernorConfig) : Metering where
  threadsList := ∅
  badTidList := []
  server := .idle
  world := .init cfg
  increments := []
  ticks := []
  seen := fun _ => none

/-- The higher of two readings, counter by counter. -/
def ThreadUsage.max (a b : ThreadUsage) : ThreadUsage :=
  ⟨Max.max a.cpu b.cpu, Max.max a.read b.read, Max.max a.write b.write⟩

/-- A reading is added to the history of its thread. -/
def Metering.see (s : Metering) (tid : ℤ) (usage : ThreadUsage) : Metering :=
  let seen : Seen := match s.seen tid with
    | none => ⟨usage, usage⟩
    | some old => ⟨old.first, old.last.max usage⟩
  { s with seen := Function.update s.seen tid (some seen) }

/-- A call of `increment_counters` for a thread. -/
def Metering.increment (s : Metering) (tid : ℤ) (i : CounterIncrement) : Metering :=
  { s with
    world := incrementCounters i.username i.cpu i.read i.write i.tm s.world
    increments := s.increments ++ [(tid, i)] }

/-- A message of type 0, which begins a statement. -/
def Metering.beginStatement (s : Metering) (message : ClientData) (fd : ℤ) : Metering :=
  let item := addNewTidData message fd (s.threadsList.lookup message.tid)
  let s := s.see message.tid message.toThreadUsage
  { s with threadsList := s.threadsList.insert message.tid item }

/-- `chek_user_perf` on the entry of a thread, if it has one. -/
def Metering.visit (s : Metering) (tid : ℤ) (v : MonitorVisit) : Metering :=
  match s.threadsList.lookup tid with
  | none => s
  | some item =>
      if v.due item then
        match v.reading with
        | none => { s with badTidList := s.badTidList ++ [tid] }
        | some usage =>
            let s := s.increment tid (clacStatsDifferenceInnerAddToCounters usage item v.newTm)
            let s := s.see tid usage
            { s with
              threadsList := s.threadsList.insert tid { item with
                toThreadUsage := usage
                updateTime := v.tvSec
                naoseconds := v.tvNsec } }
      else s

/-- The steps. `visited` are the entries that the traversal of `remove_tid_data_by_fd` gets to,
since it removes entries of the table it traverses. -/
inductive MeterInput where
  | message (message : ClientData) (fd : ℤ)
  | addToCounters (newTm : ℚ)
  | removeTidData
  | removeTidDataByFd (fd : ℤ) (visited : List ℤ)
  | visit (tid : ℤ) (v : MonitorVisit)
  | removeBad
  | tick (t : TickInput)
  | daemon (w : World)

/-- `func_remove`. -/
def funcRemove (fd : ℤ) (threads : ThreadsList) (tid : ℤ) : ThreadsList :=
  match threads.lookup tid with
  | none => threads
  | some item => if item.fd = fd then threads.erase tid else threads

/-- One step; a step of the server that does not fit what it has in hand does nothing. -/
def Metering.apply (s : Metering) : MeterInput → Metering
  | .message message fd =>
      if s.server = .idle then
        if message.type = 0 then s.beginStatement message fd
        else { s with server := .copied message (s.threadsList.lookup message.tid) }
      else s
  | .addToCounters newTm =>
      match s.server with
      | .copied message (some old) =>
          let s := s.increment message.tid (clacStatsDifferenceAddToCounters message old newTm)
          let s := s.see message.tid message.toThreadUsage
          { s with server := .charged message }
      | .copied _ none => { s with server := .idle }
      | _ => s
  | .removeTidData =>
      match s.server with
      | .charged message =>
          { s with threadsList := s.threadsList.erase message.tid, server := .idle }
      | _ => s
  | .removeTidDataByFd fd visited =>
      if s.server = .idle then
        { s with threadsList := visited.foldl (funcRemove fd) s.threadsList }
      else s
  | .visit tid v => s.visit tid v
  | .removeBad =>
      match s.badTidList with
      | [] => s
      | tid :: rest => { s with threadsList := s.threadsList.erase tid, badTidList := rest }
  | .tick t => { s with world := proceedAccounts t s.world, ticks := s.ticks ++ [(t, s.world)] }
  | .daemon w => { s with world := w }

end DbGovernor
