import Mathlib.Data.Int.Order.Basic
import Mathlib.Logic.Relation

/-!
# Renewing the map on request

The thread of `renew_map_on_request`, and the `DBUSER_MAP_CMD` of `run_dbctl_command` that other
threads carry out at any time. The clock of `time` does not go back, and `sleep` is not interrupted.
-/

namespace DbGovernor

/-- `DBMAPHOOK_RECHECK`. -/
def dbmaphookRecheck : ℤ := 5

/-- `DBMAPHOOK_ANTIDDOS`. -/
def dbmaphookAntiddos : ℤ := 60

/-- Where the thread stands, with its `current_check`; `sleeping` has the time it began at. -/
inductive RenewPc where
  | starting
  | flagTest
  | clockRead
  | ageTest (currentCheck : ℤ)
  | clearing (currentCheck : ℤ)
  | saving (currentCheck : ℤ)
  | forking
  | sleeping (since : ℤ)
deriving DecidableEq

/-- What has become of a request: it waits, the thread has taken it on to a `fork`, the
script was forked for it, or it was forgotten. -/
inductive RequestFate where
  | waiting | taken | forked | lost
deriving DecidableEq

/-- A request, with the rounds of the loop that began while it waited. -/
structure DbmapRequest where
  rounds : ℕ
  fate : RequestFate
deriving DecidableEq

/-- The thread and what it shares. `requests` is the history of the requests, and `renewals` has the
`last_renew` of each `fork`, also of one that failed. -/
structure RenewState where
  flagNeedToRenewDbmap : Bool
  lastRenew : ℤ
  pc : RenewPc
  clock : ℤ
  requests : List DbmapRequest
  renewals : List ℤ
deriving DecidableEq

def RenewState.init (clock : ℤ) : RenewState := ⟨false, 0, .starting, clock, [], []⟩

/-- What a step makes of the requests of one fate. -/
def onFate (fate : RequestFate) (f : DbmapRequest → DbmapRequest) (requests : List DbmapRequest) :
    List DbmapRequest :=
  requests.map fun r => if r.fate = fate then f r else r

/-- The steps. Requests may come before the thread starts, and its first assignment forgets them;
where `fork` fails, the flag and `last_renew` are as after a `fork`. -/
inductive RenewStep : RenewState → RenewState → Prop where
  | request (s : RenewState) :
      RenewStep s { s with
        flagNeedToRenewDbmap := true
        requests := s.requests ++ [⟨0, .waiting⟩] }
  | time (s : RenewState) (clock : ℤ) (hclock : s.clock ≤ clock) :
      RenewStep s { s with clock := clock }
  | start (s : RenewState) (hpc : s.pc = .starting) :
      RenewStep s { s with
        flagNeedToRenewDbmap := false
        pc := .flagTest
        requests := onFate .waiting (fun r => { r with fate := .lost }) s.requests }
  | flagTest (s : RenewState) (hpc : s.pc = .flagTest) :
      RenewStep s { s with
        pc := if s.flagNeedToRenewDbmap then .clockRead else .sleeping s.clock
        requests := onFate .waiting (fun r => { r with rounds := r.rounds + 1 }) s.requests }
  | clockRead (s : RenewState) (hpc : s.pc = .clockRead) :
      RenewStep s { s with pc := .ageTest s.clock }
  | ageTest (s : RenewState) (currentCheck : ℤ) (hpc : s.pc = .ageTest currentCheck) :
      RenewStep s { s with
        pc := if s.lastRenew + dbmaphookAntiddos < currentCheck then .clearing currentCheck
          else .sleeping s.clock }
  | clear (s : RenewState) (currentCheck : ℤ) (hpc : s.pc = .clearing currentCheck) :
      RenewStep s { s with
        flagNeedToRenewDbmap := false
        pc := .saving currentCheck
        requests := onFate .waiting (fun r => { r with fate := .taken }) s.requests }
  | save (s : RenewState) (currentCheck : ℤ) (hpc : s.pc = .saving currentCheck) :
      RenewStep s { s with lastRenew := currentCheck, pc := .forking }
  | fork (s : RenewState) (hpc : s.pc = .forking) :
      RenewStep s { s with
        pc := .sleeping s.clock
        requests := onFate .taken (fun r => { r with fate := .forked }) s.requests
        renewals := s.renewals ++ [s.lastRenew] }
  | forkFails (s : RenewState) (hpc : s.pc = .forking) :
      RenewStep s { s with
        pc := .sleeping s.clock
        requests := onFate .taken (fun r => { r with fate := .lost }) s.requests
        renewals := s.renewals ++ [s.lastRenew] }
  | wake (s : RenewState) (since : ℤ) (hpc : s.pc = .sleeping since)
      (hslept : since + dbmaphookRecheck ≤ s.clock) : RenewStep s { s with pc := .flagTest }

/-- The states of the thread. -/
def RenewReachable (s : RenewState) : Prop :=
  ∃ clock, 0 ≤ clock ∧ Relation.ReflTransGen RenewStep (.init clock) s

end DbGovernor
