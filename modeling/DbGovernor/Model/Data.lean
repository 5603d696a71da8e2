import DbGovernor.Verification.Shared.Rounding
import Mathlib.Data.List.AList
import Mathlib.Data.List.TakeWhile

/-!
# Data of the daemon

Names, statistics, limits, accounts and commands, as `data.h` and `stats.h` declare
them. A `double` is a rational, and what is computed with CPU figures is rounded by the
`Rounding` in force: that of a `double`, or none where exact figures are meant. A `time_t`, a
`long` or a `long long` is an integer; an `unsigned` of the configuration keeps its 32 bits,
because the code stores it in an `int`.
-/

namespace DbGovernor

/-- `USERNAMEMAXLEN`, the size of a `username_t` with its terminator. -/
def usernamemaxlen : ℕ := 64

/-- `BAD_LVE`, the shared container of restricted users. -/
def badLve : ℤ := 3

/-- A `username_t`: the bytes before the terminating NUL. -/
@[ext]
structure Username where
  bytes : List UInt8
  noNul : 0 ∉ bytes
  fits : bytes.length < usernamemaxlen
deriving DecidableEq

/-- `strlcpy (dst, src, USERNAMEMAXLEN)` of the C string at the front of `src`. -/
def strlcpy (src : List UInt8) : Username where
  bytes := (src.takeWhile (· ≠ 0)).take (usernamemaxlen - 1)
  noNul := fun h => by
    simpa using List.mem_takeWhile_imp (List.mem_of_mem_take h)
  fits := by
    simp only [List.length_take, usernamemaxlen]
    omega

/-- The conversion of an `unsigned` to `int` on a two's complement machine. -/
def intOfUnsigned (u : UInt32) : ℤ :=
  if u.toNat < 2 ^ 31 then u.toNat else u.toNat - 2 ^ 32

/-- A `GHashTable` keyed by strings. -/
abbrev HashTable (ν : Type) := AList (fun _ : Username => ν)

/-- The order in which one `g_hash_table_foreach` visits the keys of a table. -/
structure IterOrder where
  order : List Username → List Username
  perm : ∀ keys, (order keys).Perm keys

/-- The order in which the model's table lists its keys. -/
def IterOrder.asListed : IterOrder := ⟨id, fun _ => .refl _⟩

inductive ModeType where
  | testMode | productionMode | debugMode | errorMode | restrictMode | norestrictMode
  | ignoreMode | oldRestrictMode | newRestrictMode
deriving DecidableEq, Repr

/-- `GOVERNORS_FIELD_NAME`. -/
inductive GovernorsFieldName where
  | norestrictParam2 | cpuParam | readParam | writeParam | norestrictParam
deriving DecidableEq, Repr

/-- `GOVERNORS_PERIOD_NAME`. -/
inductive GovernorsPeriodName where
  | noPeriod | currentPeriod | shortPeriod | midPeriod | longPeriod
deriving DecidableEq, Repr

/-- One limit for each of the four periods. -/
structure TLong where
  current : ℤ
  short : ℤ
  mid : ℤ
  long : ℤ
deriving DecidableEq

/-- `Stats_cfg`. -/
structure StatsCfg where
  cpu : TLong
  write : TLong
  read : TLong
  slow : TLong
  accountFlag : Bool
  mode : ModeType
deriving DecidableEq

@[ext]
structure Stats where
  cpu : ℚ
  write : ℤ
  read : ℤ
deriving DecidableEq

structure RestrictInfo where
  fieldRestrict : GovernorsPeriodName
  fieldLevelRestrict : GovernorsFieldName
deriving DecidableEq

/-- An `Account`. The array of `User_stats` pointers is the list of the users' ids. -/
structure Account where
  id : Username
  users : List Username
  current : Stats
  longAverage : Stats
  midAverage : Stats
  shortAverage : Stats
  restricted : ℤ
  timeout : ℤ
  startCount : ℤ
  info : RestrictInfo
deriving DecidableEq

/-- `command_t`. -/
inductive CommandT where
  | exit | freeze | unfreeze | slowquery
deriving DecidableEq, Repr

/-- The fields of `Command` that the daemon fills. -/
structure Command where
  username : Username
  command : CommandT
deriving DecidableEq

/-- The fields of `DbCtlCommand` that the restriction commands read. -/
structure DbCtlCommand where
  username : Username
  level : ℤ
deriving DecidableEq

/-- `reset_stats`. -/
def resetStats : Stats := ⟨0, 0, 0⟩

/-- `sum_stats`. -/
def sumStats [Rounding] (dest nr : Stats) : Stats :=
  ⟨Rounding.fl (dest.cpu + nr.cpu), dest.write + nr.write, dest.read + nr.read⟩

end DbGovernor
