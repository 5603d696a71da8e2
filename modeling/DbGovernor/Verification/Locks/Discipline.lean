import DbGovernor.Model.Locks
import Mathlib.Data.Finset.Insert
import Mathlib.Data.Fintype.Prod
import Mathlib.Order.Fin.Basic

/-!
# Deadlocks and data races of the daemon

The threads never wait for one another in a circle, but only because `map_rw_lock` lets a reader in
while a writer waits. Six of the tables that threads share have a lock that every access holds.
-/

namespace DbGovernor

open Locking

/-! ### The order of the requests -/

instance : Fintype DaemonLock :=
  ⟨{.tid, .counters, .account, .commands, .map, .rwlock, .sem}, fun lock => by cases lock <;> simp⟩

instance : Fintype LockMode := ⟨{.read, .write}, fun mode => by cases mode <;> simp⟩

instance : Fintype LockRequest :=
  .ofEquiv (DaemonLock × LockMode)
    ⟨fun p => ⟨p.1, p.2⟩, fun r => (r.lock, r.mode), fun _ => rfl, fun _ => rfl⟩

/-- The rank of a request: what is requested while a lock is held that keeps this request waiting
has a higher one. -/
def LockRequest.rank (r : LockRequest) : Fin 7 :=
  match r.lock with
  | .map => if r.mode = .write then 0 else 4
  | .account => 1
  | .tid => 2
  | .counters => 3
  | .commands => 5
  | .rwlock => 6
  | .sem => 6

/-- Every request is ranked above those that the held locks keep waiting. -/
def rankedRequests : Check LockRequest TableAccess := ranked LockRequest.Conflicts LockRequest.rank

instance (hs : List LockRequest) (r : LockRequest) : Decidable (rankedRequests.request hs r) :=
  inferInstanceAs (Decidable (∀ h ∈ hs, ∀ r' : LockRequest, r'.Conflicts h → r'.rank < r.rank))

instance (hs : List LockRequest) (a : TableAccess) : Decidable (rankedRequests.access hs a) :=
  inferInstanceAs (Decidable True)

theorem routine_ranked (t : DaemonThread) : t.routine.Meets rankedRequests [] := by
  cases t <;> simp only [DaemonThread.routine] <;> decide +kernel

theorem not_deadlocked_of_preferReader {s : DaemonThread → ThreadWork}
    (hs : LocksReachable .preferReader s) : ¬ Deadlocked (daemonLocks .preferReader) s :=
  hs.not_deadlocked LockRequest.rank (fun r r' h => by cases h.1) routine_ranked

/-! ### Two threads -/

instance (kind : RwlockKind) : DecidableRel (daemonLocks kind).conflicts :=
  fun r r' => inferInstanceAs (Decidable (r.Conflicts r'))

instance (kind : RwlockKind) : DecidableRel (daemonLocks kind).yields :=
  fun r r' => inferInstanceAs (Decidable (r.Yields kind r'))

/-- A thread that takes the second branch at these steps and the first one at the others. -/
def branches (steps : ℕ) (seconds : List ℕ) : List Bool :=
  (List.range steps).map fun i => decide (i ∉ seconds)

theorem requested_routine (t : DaemonThread) : requested [Item.run t.routine] = none := by
  cases t <;> rfl

/-- One thread runs alone, then another. -/
theorem exists_locksReachable_pair (kind : RwlockKind) (t t' : DaemonThread) (hne : t ≠ t')
    (bs bs' : List Bool) (hown : OwnClear (daemonLocks kind) bs [.run t.routine])
    (hown' : OwnClear (daemonLocks kind) bs' [.run t'.routine])
    (hheld : ∀ r ∈ requests bs' [.run t'.routine], ∀ h ∈ held (alone bs t.routine),
      ¬ (daemonLocks kind).conflicts r h)
    (hyield : ∀ r ∈ requests bs' [.run t'.routine], ∀ r' ∈ requested (alone bs t.routine),
      ¬ (daemonLocks kind).yields r r') :
    ∃ s, LocksReachable kind s ∧ s t = alone bs t.routine ∧ s t' = alone bs' t'.routine :=
  exists_reachable_pair requested_routine hne hown hown' hheld hyield

/-- `parse_map_file_every_hour` holds the map and the accounts and asks for the map again, where
`get_user_account` looks up the account of a new user, while `reinit_users_list` waits to write the
map. -/
theorem exists_deadlocked_of_preferWriter :
    ∃ s, LocksReachable .preferWriter s ∧ Deadlocked (daemonLocks .preferWriter) s := by
  obtain ⟨s, hs, hreader, hwriter⟩ := exists_locksReachable_pair .preferWriter
    .parseMapFileEveryHour (.runDbctlCommand 0) (by decide) (branches 48 [10])
    (branches 28 [8, 17]) (by decide +kernel) (by decide +kernel) (by decide +kernel)
    (by decide +kernel)
  refine ⟨s, hs, {.parseMapFileEveryHour, .runDbctlCommand 0}, ⟨_, .inl rfl⟩, ?_⟩
  rintro t (rfl | rfl)
  · refine ⟨_, .inr rfl, ⟨.map, .read⟩, ?_, .inr ⟨by decide, ⟨.map, .write⟩, ?_, ?_⟩⟩
    · rw [hreader]; decide +kernel
    · rw [hwriter]; decide +kernel
    · decide
  · refine ⟨_, .inl rfl, ⟨.map, .write⟩, ?_, .inl ⟨⟨.map, .read⟩, ?_, ?_⟩⟩
    · rw [hwriter]; decide +kernel
    · rw [hreader]; decide +kernel
    · decide

/-- No run of the threads reaches a state in which some of them wait for one another, exactly if
a waiting writer of a `pthread_rwlock_t` does not hold up readers. -/
theorem never_deadlocked_iff (kind : RwlockKind) :
    (∀ s, LocksReachable kind s → ¬ Deadlocked (daemonLocks kind) s) ↔ kind = .preferReader := by
  cases kind with
  | preferReader => exact iff_of_true (fun _ hs => not_deadlocked_of_preferReader hs) rfl
  | preferWriter =>
      obtain ⟨s, hs, hdead⟩ := exists_deadlocked_of_preferWriter
      exact iff_of_false (fun h => h s hs hdead) (by decide)

/-! ### The tables and their locks -/

/-- The lock that is held at every access to a table, if there is one. -/
def SharedTable.guard : SharedTable → Option DaemonLock
  | .threadsList => some .tid
  | .userCountersList => some .counters
  | .users => some .account
  | .userAccountTable => some .account
  | .dbGovStatitrics => some .account
  | .dbGovNumberOfRestricts => some .account
  | .userMap | .accounts | .cfg | .commandList | .badList | .mysqlDoCommand => none

/-- A request that guards an access: who writes has the lock to write. -/
def TableAccess.GuardedBy (a : TableAccess) (r : LockRequest) : Prop :=
  a.table.guard = some r.lock ∧ (a.mode = .write → r.mode = .write)

instance (a : TableAccess) (r : LockRequest) : Decidable (a.GuardedBy r) :=
  inferInstanceAs (Decidable (_ ∧ _))

/-- Every access to a table that has a lock is made under it. -/
def guardedAccesses : Check LockRequest TableAccess :=
  guarded (fun a => a.table.guard.isSome) TableAccess.GuardedBy

instance (hs : List LockRequest) (r : LockRequest) : Decidable (guardedAccesses.request hs r) :=
  inferInstanceAs (Decidable True)

instance (hs : List LockRequest) (a : TableAccess) : Decidable (guardedAccesses.access hs a) :=
  inferInstanceAs (Decidable (a.table.guard.isSome → ∃ r ∈ hs, a.GuardedBy r))

theorem routine_guarded (t : DaemonThread) : t.routine.Meets guardedAccesses [] := by
  cases t <;> simp only [DaemonThread.routine] <;> decide +kernel

theorem conflicts_symm {r r' : LockRequest} (h : r.Conflicts r') : r'.Conflicts r :=
  ⟨h.1.symm, h.2.symm⟩

theorem not_dataRace_of_guard {kind : RwlockKind} {table : SharedTable}
    (hguard : table.guard.isSome) {s : DaemonThread → ThreadWork} (hs : LocksReachable kind s) :
    ¬ DataRace table s := by
  refine hs.not_racing (fun _ _ => conflicts_symm) ?_ ?_ routine_guarded
  · rintro a a' ⟨rfl, ha', -⟩
    rw [ha']
    exact ⟨hguard, hguard⟩
  · rintro a a' r r' ⟨rfl, ha', hwrite⟩ ⟨hr, hmode⟩ ⟨hr', hmode'⟩
    rw [ha', hr] at hr'
    exact ⟨Option.some.inj hr', hwrite.imp hmode hmode'⟩

/-- Two threads that reach accesses to a table, where one of them writes. -/
theorem exists_dataRace (kind : RwlockKind) {table : SharedTable} (t t' : DaemonThread)
    (hne : t ≠ t') (bs bs' : List Bool) (mode : LockMode)
    (hown : OwnClear (daemonLocks kind) bs [.run t.routine])
    (hown' : OwnClear (daemonLocks kind) bs' [.run t'.routine])
    (hheld : ∀ r ∈ requests bs' [.run t'.routine], ∀ h ∈ held (alone bs t.routine),
      ¬ (daemonLocks kind).conflicts r h)
    (hyield : ∀ r ∈ requests bs' [.run t'.routine], ∀ r' ∈ requested (alone bs t.routine),
      ¬ (daemonLocks kind).yields r r')
    (hfirst : accessed (alone bs t.routine) = some ⟨table, mode⟩)
    (hsecond : accessed (alone bs' t'.routine) = some ⟨table, .write⟩) :
    ∃ s, LocksReachable kind s ∧ DataRace table s := by
  obtain ⟨s, hs, hst, hst'⟩ :=
    exists_locksReachable_pair kind t t' hne bs bs' hown hown' hheld hyield
  refine ⟨s, hs, t, t', hne, ⟨table, mode⟩, ?_, ⟨table, .write⟩, ?_, rfl, rfl, .inr rfl⟩
  · rw [hst]; exact hfirst
  · rw [hst']; exact hsecond

theorem exists_dataRace_of_no_guard (kind : RwlockKind) {table : SharedTable}
    (hguard : table.guard = none) : ∃ s, LocksReachable kind s ∧ DataRace table s := by
  cases table with
  | threadsList | userCountersList | users | userAccountTable | dbGovStatitrics
  | dbGovNumberOfRestricts => cases hguard
  | userMap =>
      -- `get_user_account` copies a name out of the map, `get_map_file` frees the map
      exact exists_dataRace kind (.runDbctlCommand 0) .parseMapFileEveryHour (by decide)
        (branches 57 [8, 9]) (branches 13 []) .read (by cases kind <;> decide +kernel)
        (by cases kind <;> decide +kernel) (by cases kind <;> decide +kernel)
        (by cases kind <;> decide +kernel) (by decide +kernel) (by decide +kernel)
  | accounts =>
      -- `run_writer` walks the table, a command adds an account
      exact exists_dataRace kind (.runWriter 0) (.runDbctlCommand 0) (by decide)
        (branches 3 []) (branches 44 [8, 9, 37]) .read (by cases kind <;> decide +kernel)
        (by cases kind <;> decide +kernel) (by cases kind <;> decide +kernel)
        (by cases kind <;> decide +kernel) (by decide +kernel) (by decide +kernel)
  | cfg =>
      -- `prepareRestrictDescription` reads `cfg`, another command rereads the file
      exact exists_dataRace kind (.runDbctlCommand 0) (.runDbctlCommand 1) (by decide)
        (branches 56 [8, 9, 10, 48, 51]) (branches 11 []) .read (by cases kind <;> decide +kernel)
        (by cases kind <;> decide +kernel) (by cases kind <;> decide +kernel)
        (by cases kind <;> decide +kernel) (by decide +kernel) (by decide +kernel)
  | commandList =>
      -- `account_restrict` tests the list, `send_command_copy_list` replaces it
      exact exists_dataRace kind (.runDbctlCommand 0) .proceedDataEverySecond
        (by decide) (branches 37 [8, 9, 10, 11]) (branches 36 [9, 12, 16]) .read
        (by cases kind <;> decide +kernel) (by cases kind <;> decide +kernel)
        (by cases kind <;> decide +kernel) (by cases kind <;> decide +kernel) (by decide +kernel)
        (by decide +kernel)
  | badList =>
      -- `is_user_in_list` searches the list, `reinit_users_list` empties it
      exact exists_dataRace kind (.sendCommandsCycleIn 0) (.runDbctlCommand 0)
        (by decide) (branches 20 [15]) (branches 33 [8, 17, 27]) .read
        (by cases kind <;> decide +kernel) (by cases kind <;> decide +kernel)
        (by cases kind <;> decide +kernel) (by cases kind <;> decide +kernel) (by decide +kernel)
        (by decide +kernel)
  | mysqlDoCommand =>
      -- the worker and `log_user_queries` send on one connection
      exact exists_dataRace kind (.sendCommandsCycleIn 0) (.runDbctlCommand 0)
        (by decide) (branches 28 [7]) (branches 82 [8, 9, 26, 37, 40]) .write
        (by cases kind <;> decide +kernel) (by cases kind <;> decide +kernel)
        (by cases kind <;> decide +kernel) (by cases kind <;> decide +kernel) (by decide +kernel)
        (by decide +kernel)

/-- The tables to which every access is made under one lock. -/
def guardedTables : List SharedTable :=
  [.threadsList, .userCountersList, .users, .userAccountTable, .dbGovStatitrics,
    .dbGovNumberOfRestricts]

theorem mem_guardedTables_iff (table : SharedTable) :
    table ∈ guardedTables ↔ table.guard.isSome := by
  cases table <;> decide

end DbGovernor
