import DbGovernor.Verification.Daemon.TickTrace
import DbGovernor.Verification.Daemon.Usage
import DbGovernor.Verification.Shared.KeyedPartition

/-!
# Users are partitioned over accounts

Every registered user is in the array of one account, once, so that the sums of a tick over the
accounts are sums over the users.
-/

namespace DbGovernor

/-- Each user is listed once, by its own account. Each account is stored under its id, has users,
and lists only those that have it. -/
structure Partitioned (w : World) : Prop where
  owns : Owning w
  user_id : ∀ u us, w.users.lookup u = some us → us.id = u
  listed : ∀ u us, w.users.lookup u = some us →
    ∃ ac, w.accounts.lookup us.account = some ac ∧ ac.users.count u = 1

theorem Partitioned.init (cfg : GovernorConfig) : Partitioned (World.init cfg) :=
  ⟨fun _ _ h => by simp [World.init] at h, fun _ _ h => by simp [World.init] at h,
    fun _ _ h => by simp [World.init] at h⟩

section Partitioned

variable {w : World}

theorem Partitioned.frame (h : Partitioned w) {w' : World} (husers : w'.users = w.users)
    (haccounts : w'.accounts = w.accounts) : Partitioned w' := by
  refine ⟨?_, ?_, ?_⟩
  · rw [Owning, husers, haccounts]
    exact h.owns
  · rw [husers]
    exact h.user_id
  · rw [husers, haccounts]
    exact h.listed

theorem Partitioned.setAccount (h : Partitioned w) {a : Username} {ac : Account}
    {r : Account × Globals} (ha : w.accounts.lookup a = some ac) (hid : r.1.id = ac.id)
    (husers : r.1.users = ac.users) : Partitioned (w.setAccount a r) := by
  refine ⟨h.owns.setAccount ha hid husers, h.user_id, ?_⟩
  intro u us hus
  obtain ⟨bc, hb, hcount⟩ := h.listed u us hus
  by_cases hba : us.account = a
  · obtain rfl : ac = bc := by
      rw [hba] at hb
      exact Option.some.inj (ha.symm.trans hb)
    refine ⟨r.1, ?_, by rw [husers, hcount]⟩
    rw [hba]
    exact AList.lookup_insert _
  · exact ⟨bc, by simpa [World.setAccount, hba] using hb, hcount⟩

theorem Partitioned.addUserStats (h : Partitioned w) {u : Username}
    (hnew : w.users.lookup u = none) : Partitioned (addUserStats u w) := by
  have howns := h.owns.addUserStats hnew
  obtain ⟨t, ac, hac, heq⟩ := addUserStats_spec u w
  generalize (getUserAccount w u).1 = a at hac heq
  rw [heq] at howns ⊢
  have hfresh : ac.users.count u = 0 := by
    rw [List.count_eq_zero]
    intro hmem
    rcases hac with hl | ⟨-, rfl⟩
    · obtain ⟨vs, hv, -⟩ := (h.owns a ac hl).member u hmem
      simp [hnew] at hv
    · cases hmem
  refine ⟨howns, ?_, ?_⟩
  · intro v vs hv
    rcases lookup_insert_cases hv with ⟨rfl, rfl⟩ | ⟨-, hv⟩
    · rfl
    · exact h.user_id v vs hv
  · intro v vs hv
    rcases lookup_insert_cases hv with ⟨rfl, rfl⟩ | ⟨hvu, hv⟩
    · exact ⟨_, AList.lookup_insert _, by simp [hfresh]⟩
    · obtain ⟨bc, hb, hcount⟩ := h.listed v vs hv
      by_cases hba : vs.account = a
      · rw [hba] at hb
        have hsame : ac = bc := by
          rcases hac with hl | ⟨hnone, -⟩
          · exact Option.some.inj (hl.symm.trans hb)
          · simp [hnone] at hb
        subst hsame
        refine ⟨{ ac with users := ac.users ++ [u] }, ?_, ?_⟩
        · rw [hba]
          exact AList.lookup_insert _
        · simp [hcount, Ne.symm hvu]
      · exact ⟨bc, (AList.lookup_insert_ne hba).trans hb, hcount⟩

theorem Partitioned.setUser (h : Partitioned w) {u : Username} {us us' : UserStats}
    (hus : w.users.lookup u = some us) (hid : us'.id = us.id) (hacc : us'.account = us.account) :
    Partitioned { w with users := w.users.insert u us' } := by
  refine ⟨h.owns.setUser hus hacc, ?_, ?_⟩
  · intro v vs hv
    rcases lookup_insert_cases hv with ⟨rfl, rfl⟩ | ⟨-, hv⟩
    · exact hid.trans (h.user_id v us hus)
    · exact h.user_id v vs hv
  · intro v vs hv
    rcases lookup_insert_cases hv with ⟨rfl, rfl⟩ | ⟨-, hv⟩
    · rw [hacc]
      exact h.listed v us hus
    · exact h.listed v vs hv

theorem Partitioned.edit {ticking : Prop} {w' : World} (h : Partitioned w)
    (hedit : Edit ticking w w') : Partitioned w' := by
  cases hedit with
  | frame _ husers haccounts _ _ => exact h.frame husers haccounts
  | account a ac r ha hid husers => exact h.setAccount ha hid husers
  | register u hnew => exact h.addUserStats hnew
  | newTick _ => exact h.frame rfl rfl
  | sample u us us' _ hus hid hacc => exact h.setUser hus hid hacc

theorem Reachable.partitioned [Rounding] (h : Reachable w) : Partitioned w :=
  h.of_edits .init fun _ _ hv he => hv.edit he

end Partitioned

/-! ### Totals -/

section Exact

/- The sums over the tables are compared as exact numbers, so nothing is rounded from here on. -/
attribute [local instance] Rounding.exact

/-- The sum of a figure over the entries of a table. -/
def tableSum {ν : Type} (table : HashTable ν) (f : ν → Usage) : Usage :=
  (table.entries.map fun e => f e.2).sum

/-- The figures that `calc_acc_stats` writes. -/
def Account.usage (ac : Account) : Usage :=
  ⟨ac.current, ac.longAverage, ac.midAverage, ac.shortAverage⟩

section Totals

variable {w : World}

theorem Partitioned.covers (h : Partitioned w) :
    KeyedPartition.Covers w.accounts Account.users w.users := by
  refine ⟨?_, ?_, ?_⟩
  · intro a ac ha
    refine List.nodup_iff_count_le_one.mpr ?_
    intro u
    by_cases hu : u ∈ ac.users
    · obtain ⟨us, hus, hacc⟩ := (h.owns a ac ha).member u hu
      obtain ⟨bc, hb, hcount⟩ := h.listed u us hus
      rw [hacc] at hb
      obtain rfl : ac = bc := Option.some.inj (ha.symm.trans hb)
      exact hcount.le
    · rw [List.count_eq_zero.mpr hu]
      exact Nat.zero_le 1
  · intro a b ac bc ha hb hne u hu hu'
    obtain ⟨us, hus, hacc⟩ := (h.owns a ac ha).member u hu
    obtain ⟨us', hus', hacc'⟩ := (h.owns b bc hb).member u hu'
    obtain rfl : us = us' := Option.some.inj (hus.symm.trans hus')
    exact hne (hacc.symm.trans hacc')
  · intro u
    constructor
    · intro hu
      obtain ⟨us, hus⟩ := Option.isSome_iff_exists.mp hu
      obtain ⟨ac, ha, hcount⟩ := h.listed u us hus
      exact ⟨us.account, ac, ha, List.count_pos_iff.mp (by omega)⟩
    · rintro ⟨a, ac, ha, hu⟩
      obtain ⟨us, hus, -⟩ := (h.owns a ac ha).member u hu
      exact Option.isSome_of_mem hus

theorem tableSum_users (users : HashTable UserStats) :
    tableSum users UserStats.usage = (users.keys.map (userUsage users)).sum := by
  rw [tableSum, AList.keys, List.keys, List.map_map]
  refine congrArg List.sum (List.map_congr_left ?_)
  intro e he
  have hlookup := KeyedPartition.lookup_of_mem_entries he
  simp [userUsage, hlookup]

/-- After the sums of a tick the figures of all accounts together are those of all users. -/
theorem tableSum_gatherStats (h : DaemonInv w) (hpartitioned : Partitioned w) (t : TickInput) :
    tableSum (gatherStats t w).accounts Account.usage =
      tableSum (gatherStats t w).users UserStats.usage := by
  have hpart : Partitioned (gatherStats t w) :=
    (edits_gatherStats h t).invariant (fun _ _ hv he => hv.edit he) hpartitioned
  have husers : (gatherStats t w).users = (sampleUsers t w).users := by
    rw [gatherStats_eq]
    exact (foldl_onAccount_base _ _ _).users
  have hsums : tableSum (gatherStats t w).accounts Account.usage =
      ((gatherStats t w).accounts.entries.map fun e =>
        (e.2.users.map (userUsage (gatherStats t w).users)).sum).sum := by
    refine congrArg List.sum (List.map_congr_left ?_)
    intro e he
    have hlookup := KeyedPartition.lookup_of_mem_entries he
    rw [gatherStats_accounts] at hlookup
    obtain ⟨ac, hac, heq⟩ := Option.map_eq_some_iff.mp hlookup
    have hne := ((h.sampleUsers t).owns e.1 ac hac).users_ne
    rw [← heq, calcAccStats_eq_total _ hne, Usage.total_exact, husers]
    rfl
  rw [hsums, tableSum_users, hpart.covers.sum_eq]

end Totals

/-- In every reachable state, however the run before rounds, the users are partitioned over the
accounts, and the sums of a tick lose nothing and count nothing twice. -/
theorem users_partitioned {w : World} (h : ∃ _ : Rounding, Reachable w) :
    Partitioned w ∧ ∀ t, tableSum (gatherStats t w).accounts Account.usage =
      tableSum (gatherStats t w).users UserStats.usage := by
  obtain ⟨_, h⟩ := h
  exact ⟨h.partitioned, tableSum_gatherStats h.daemonInv h.partitioned⟩

theorem users_partitioned_sample :
    Partitioned tickedWorld ∧ ∀ t, tableSum (gatherStats t tickedWorld).accounts Account.usage =
      tableSum (gatherStats t tickedWorld).users UserStats.usage :=
  users_partitioned ⟨_, tickedWorld_reachable⟩

end Exact

end DbGovernor
