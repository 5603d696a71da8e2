import DbGovernor.Model.Config

/-! # Sample rings and the averages of a user -/

namespace DbGovernor

variable [Rounding]

/-- `struct fifo_stats`. -/
structure FifoStats where
  size : ℤ
  first : ℤ
  ar : List Stats
deriving DecidableEq

/-- `fifo_stats_init`, with allocation succeeding. -/
def fifoStatsInit (size : ℤ) : FifoStats :=
  ⟨size, 0, List.replicate size.toNat resetStats⟩

/-- `fifo_stats_push`. -/
def fifoStatsPush (fifo : FifoStats) (x : Stats) : FifoStats :=
  let first := if fifo.first - 1 < 0 then fifo.size - 1 else fifo.first - 1
  { fifo with first := first, ar := fifo.ar.set first.toNat x }

/-- `fifo_stats_get`. -/
def fifoStatsGet (fifo : FifoStats) (i : ℤ) : Stats :=
  let index := if fifo.first + i ≥ fifo.size then fifo.first + i - fifo.size else fifo.first + i
  fifo.ar.getD index.toNat resetStats

/-- `fifo_stats_refresh_last`. -/
def fifoStatsRefreshLast (fifo : FifoStats) (x : Stats) : FifoStats :=
  { fifo with
    ar := fifo.ar.set fifo.first.toNat (sumStats (fifo.ar.getD fifo.first.toNat resetStats) x) }

/-- The loop of `fifo_stats_sum` and `fifo_stats_avg`: it stops after `size` samples, or
earlier at `length`. -/
def fifoStatsSum (fifo : FifoStats) (length : ℤ) : Stats :=
  (List.range (min fifo.size length).toNat).foldl
    (fun sum (i : ℕ) => sumStats sum (fifoStatsGet fifo i)) resetStats

/-- `fifo_stats_avg`. The integer quotients truncate, as C's do. -/
def fifoStatsAvg (fifo : FifoStats) (length : ℤ) : Stats :=
  let sum := fifoStatsSum fifo length
  let length := if length > fifo.size then fifo.size else length
  ⟨Rounding.fl (sum.cpu / length), sum.write.tdiv length, sum.read.tdiv length⟩

/-- `User_stats`; the pointer to its account is the account's id. -/
structure UserStats where
  id : Username
  account : Username
  stats : FifoStats
  longAverage : Stats
  midAverage : Stats
  shortAverage : Stats
  tick : ℕ
deriving DecidableEq

/-- `COMPARE_MAX_3`. -/
def compareMax3 (x y z : UInt32) : UInt32 :=
  if x > y then (if x > z then x else z) else (if y > z then y else z)

/-- `init_user_stats`. -/
def initUserStats (cfg : GovernorConfig) (id account : Username) : UserStats where
  id := id
  account := account
  stats := fifoStatsInit
    (intOfUnsigned (compareMax3 cfg.intervalLong cfg.intervalMid cfg.intervalShort))
  longAverage := resetStats
  midAverage := resetStats
  shortAverage := resetStats
  tick := 0

/-- The three averages that `push_stats` and `refresh_stats` take from the ring. -/
def avgStats (cfg : GovernorConfig) (us : UserStats) : UserStats :=
  { us with
    longAverage := fifoStatsAvg us.stats (intOfUnsigned cfg.intervalLong)
    midAverage := fifoStatsAvg us.stats (intOfUnsigned cfg.intervalMid)
    shortAverage := fifoStatsAvg us.stats (intOfUnsigned cfg.intervalShort) }

/-- `push_stats`. -/
def pushStats (cfg : GovernorConfig) (st : Stats) (us : UserStats) : UserStats :=
  avgStats cfg { us with stats := fifoStatsPush us.stats st }

/-- `refresh_stats`. -/
def refreshStats (cfg : GovernorConfig) (st : Stats) (us : UserStats) : UserStats :=
  avgStats cfg { us with stats := fifoStatsRefreshLast us.stats st }

/-- `init_account`. -/
def initAccount (id : Username) : Account where
  id := id
  users := []
  current := resetStats
  longAverage := resetStats
  midAverage := resetStats
  shortAverage := resetStats
  restricted := 0
  timeout := 0
  startCount := 0
  info := ⟨.noPeriod, .norestrictParam2⟩

end DbGovernor
