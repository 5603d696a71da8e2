import DbGovernor.Model.World

/-!
# One tick

`proceed_accounts` in its passes: counters to samples, samples for users without traffic,
sums over each account, decisions. Of the export of statistics that closes the tick only
what it does to the numbers of restricts is modelled.
-/

namespace DbGovernor

open Rounding (fl)

variable [Rounding]

/-- `sysconf (_SC_CLK_TCK)` on Linux. -/
def scClkTck : ℚ := 100

/-- The conversion of a `double` to `long long`. -/
def truncate (x : ℚ) : ℤ := if x < 0 then ⌈x⌉ else ⌊x⌋

/-- `clac_stats_difference_inner_from_counter`. -/
def clacStatsDifferenceInnerFromCounter (cpu read write : ℤ) (tmIn newTm : ℚ) : Stats :=
  let tm := fl (newTm - tmIn)
  if tm > 0 then
    let tm := if tm < 1 then 1 else tm
    { cpu := if cpu > 0 then fl (fl (fl cpu / tm) / scClkTck) else 0
      read := if read ≥ 0 then ⌈fl (fl read / tm)⌉ else 0
      write := if write ≥ 0 then ⌈fl (fl write / tm)⌉ else 0 }
  else resetStats

/-- What one tick takes from outside: the time of the tick, the clock at each
`reset_counters`, the clock of the decisions, the order of the four traversals, and whether
a file of statistics is complete at its end. -/
structure TickInput where
  tm : ℚ
  resetTm : Username → ℚ
  now : ℤ
  ordCounters : IterOrder
  ordUsers : IterOrder
  ordSums : IterOrder
  ordAnalyze : IterOrder
  statsWritten : Bool

/-- `add_new_stats`. -/
def addNewStats (username : Username) (st : Stats) (tickId : ℕ) (w : World) : World :=
  let w := addEmptyStatsForUid username w
  match w.users.lookup username with
  | none => w
  | some us =>
      let us := if us.tick = tickId then refreshStats w.cfg st us
        else pushStats w.cfg st { us with tick := w.tickId }
      { w with users := w.users.insert username us }

/-- `reset_counters`. -/
def resetCounters (username : Username) (newTm : ℚ) (w : World) : World :=
  match w.counters.lookup username with
  | none => w
  | some _ => { w with counters := w.counters.insert username ⟨resetStats, newTm⟩ }

/-- `add_user_stats_from_counter`. -/
def addUserStatsFromCounter (t : TickInput) (w : World) (key : Username) : World :=
  match w.counters.lookup key with
  | none => w
  | some item =>
      let st := clacStatsDifferenceInnerFromCounter (truncate item.s.cpu) item.s.read item.s.write
        item.tm t.tm
      resetCounters key (t.resetTm key) (addNewStats key st w.tickId w)

/-- `tick_empty_users`. -/
def tickEmptyUsers (w : World) (key : Username) : World :=
  match w.users.lookup key with
  | none => w
  | some us =>
      if us.tick ≠ w.tickId then
        { w with users := w.users.insert key (pushStats w.cfg resetStats { us with tick := w.tickId }) }
      else w

/-- The sample and the averages that `calc_acc_stats` takes from one user. -/
@[ext]
structure Usage where
  current : Stats
  longAverage : Stats
  midAverage : Stats
  shortAverage : Stats

def Usage.zero : Usage := ⟨resetStats, resetStats, resetStats, resetStats⟩

def Usage.add (a b : Usage) : Usage :=
  ⟨sumStats a.current b.current, sumStats a.longAverage b.longAverage,
    sumStats a.midAverage b.midAverage, sumStats a.shortAverage b.shortAverage⟩

def UserStats.usage (us : UserStats) : Usage :=
  ⟨fifoStatsGet us.stats 0, us.longAverage, us.midAverage, us.shortAverage⟩

def Account.withUsage (ac : Account) (u : Usage) : Account :=
  { ac with
    current := u.current
    longAverage := u.longAverage
    midAverage := u.midAverage
    shortAverage := u.shortAverage }

/-- What `calc_acc_stats` reads behind a pointer of `ac->users`. -/
def userUsage (users : HashTable UserStats) (id : Username) : Usage :=
  match users.lookup id with
  | some us => us.usage
  | none => .zero

/-- `calc_acc_stats`: the first user is copied and the others are added. -/
def calcAccStats (users : HashTable UserStats) (ac : Account) : Account :=
  match ac.users with
  | [] => ac
  | id :: ids =>
      ac.withUsage (ids.foldl (fun sum id => sum.add (userUsage users id)) (userUsage users id))

/-- `proceed_accounts` up to the decisions. -/
def gatherStats (t : TickInput) (w : World) : World :=
  let w := { w with tickId := w.tickId + 1 }
  let w := (t.ordCounters.order w.counters.keys).foldl (addUserStatsFromCounter t) w
  let w := (t.ordUsers.order w.users.keys).foldl tickEmptyUsers w
  (t.ordSums.order w.accounts.keys).foldl
    (World.onAccount fun _ ac g => (calcAccStats w.users ac, g)) w

/-- The decision pass of `proceed_accounts`. -/
def analyzeAccounts (t : TickInput) (w : World) : World :=
  (t.ordAnalyze.order w.accounts.keys).foldl
    (World.onAccount fun cfg =>
      if w.cfg.restrictMode then accountAnalyzeLimit cfg t.now else accountAnalyze cfg t.now) w

/-- `AddDbGovStatitrics`: once a file is complete, `DbGovNumberOfRestricts` is emptied. -/
def addDbGovStatitrics (statsWritten : Bool) (g : Globals) : Globals :=
  if statsWritten then
    { g with dbGovNumberOfRestricts := g.dbGovNumberOfRestricts.map fun _ => ∅ }
  else g

/-- `proceed_accounts`. -/
def proceedAccounts (t : TickInput) (w : World) : World :=
  let w := analyzeAccounts t (gatherStats t w)
  if w.cfg.statisticMode then { w with globals := addDbGovStatitrics t.statsWritten w.globals }
  else w

end DbGovernor
