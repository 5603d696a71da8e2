import DbGovernor.Model.ThreadCounts
import DbGovernor.Model.Xml
import DbGovernor.Verification.Daemon.Partition
import DbGovernor.Verification.Daemon.StatExport
import DbGovernor.Verification.Shared.Segments
import DbGovernor.Verification.SharedMemory.Names
import Mathlib.Algebra.BigOperators.Ring.Finset

/-!
# The concurrency figure

`dbstat_add_to_table` adds the threads that carry the name of the account, while the other figures
of the record are sums over its users.
-/

namespace DbGovernor

section Counting

variable {threads : ThreadsList} {username : Username} {unset : UInt8}

/-- The number of threads whose user has a property. -/
def threadCount (threads : ThreadsList) (p : Username → Prop) [DecidablePred p] : ℕ :=
  threads.entries.countP fun entry => p entry.2.username

/-- A name that is terminated in the buffer of `get_cnt_threads`. -/
def Terminated (username : Username) (unset : UInt8) : Prop :=
  username.bytes.length < usernamemaxlen - 1 ∨ unset = 0

instance (username : Username) (unset : UInt8) : Decidable (Terminated username unset) :=
  inferInstanceAs (Decidable (_ ∨ _))

theorem takeWhile_cntUserThreadsUsername (username : Username) (unset : UInt8) :
    (cntUserThreadsUsername username unset).takeWhile (· ≠ 0) =
      if Terminated username unset then username.bytes else username.bytes ++ [unset] := by
  have hfits := username.fits
  have hwhole : username.bytes.take (usernamemaxlen - 1) = username.bytes :=
    List.take_of_length_le (by omega)
  rw [cntUserThreadsUsername, hwhole, List.append_assoc,
    Segments.takeWhile_ne_append username.noNul]
  obtain hshort | hfull : username.bytes.length < usernamemaxlen - 1 ∨
      usernamemaxlen - 1 - username.bytes.length = 0 := by omega
  · obtain ⟨k, hk⟩ := Nat.exists_eq_succ_of_ne_zero
      (show usernamemaxlen - 1 - username.bytes.length ≠ 0 by omega)
    rw [if_pos (.inl hshort), hk, List.replicate_succ, List.cons_append,
      List.takeWhile_cons_of_neg (by simp), List.append_nil]
  · rw [hfull, List.replicate_zero, List.nil_append]
    by_cases hunset : unset = 0
    · rw [if_pos (.inr hunset), hunset, List.takeWhile_cons_of_neg (by simp), List.append_nil]
    · have hopen : ¬ Terminated username unset := by
        rintro (hlt | heq)
        · omega
        · exact hunset heq
      rw [if_neg hopen, List.takeWhile_cons_of_pos (by simpa using hunset), List.takeWhile_nil]

theorem compares_iff (item : TidTable) :
    item.username.bytes = (cntUserThreadsUsername username unset).takeWhile (· ≠ 0) ↔
      item.username = username ∧ Terminated username unset := by
  rw [takeWhile_cntUserThreadsUsername]
  split
  case isTrue h => simp only [Username.ext_iff, h, and_true]
  case isFalse h =>
    refine iff_of_false ?_ fun hand => h hand.2
    intro heq
    have hfits := item.username.fits
    have hlength : ¬ username.bytes.length < usernamemaxlen - 1 := fun hlt => h (.inl hlt)
    rw [heq, List.length_append, List.length_singleton] at hfits
    omega

/-- `get_cnt_threads` counts the threads of exactly that name, or nothing. -/
theorem getCntThreads_eq (threads : ThreadsList) (unset : UInt8) (username : Username) :
    getCntThreads threads unset username =
      threadCount threads fun u => u = username ∧ Terminated username unset := by
  rw [getCntThreads, threadCount]
  suffices hfold : ∀ (entries : List (Sigma fun _ : ℤ => TidTable)) (count : ℤ),
      entries.foldl (fun count entry =>
        funcCalcThreads (cntUserThreadsUsername username unset) count entry.2) count =
      count + entries.countP fun entry =>
        decide (entry.2.username = username ∧ Terminated username unset) by
    rw [hfold, zero_add]
  intro entries
  induction entries with
  | nil => simp
  | cons entry entries ih =>
      intro count
      rw [List.foldl_cons, ih, funcCalcThreads, List.countP_cons]
      simp only [compares_iff, decide_eq_true_eq]
      split
      · push_cast
        omega
      · push_cast
        omega

theorem threadCount_congr {p q : Username → Prop} [DecidablePred p] [DecidablePred q]
    (h : ∀ u, p u ↔ q u) : threadCount threads p = threadCount threads q :=
  List.countP_congr fun entry _ => by simpa using h entry.2.username

theorem threadCount_or {p q : Username → Prop} [DecidablePred p] [DecidablePred q]
    (h : ∀ u, p u → ¬ q u) :
    threadCount threads (fun u => p u ∨ q u) = threadCount threads p + threadCount threads q := by
  rw [threadCount, threadCount, threadCount]
  induction threads.entries with
  | nil => rfl
  | cons entry entries ih =>
      have hdisjoint := h entry.2.username
      rw [List.countP_cons, List.countP_cons, List.countP_cons, ih]
      by_cases hp : p entry.2.username
      · simp [hp, hdisjoint hp]
        omega
      · by_cases hq : q entry.2.username
        · simp [hp, hq]
          omega
        · simp [hp, hq]

/-- The threads with one property are those that have a second one and those that do not. -/
theorem threadCount_split (threads : ThreadsList) (p q : Username → Prop) [DecidablePred p]
    [DecidablePred q] :
    threadCount threads p =
      threadCount threads (fun u => p u ∧ q u) + threadCount threads fun u => p u ∧ ¬ q u := by
  rw [← threadCount_or fun u hu hnot => hnot.2 hu.2]
  exact threadCount_congr fun u => by tauto

/-- The threads of some users are counted user by user. -/
theorem threadCount_mem_eq_sum (threads : ThreadsList) {names : List Username} (h : names.Nodup) :
    threadCount threads (· ∈ names) =
      (names.map fun name => threadCount threads (· = name)).sum := by
  induction names with
  | nil => simp [threadCount]
  | cons name names ih =>
      obtain ⟨hnew, hrest⟩ := List.nodup_cons.mp h
      have hdisjoint : ∀ u, u = name → u ∉ names := by
        rintro u rfl
        exact hnew
      rw [List.map_cons, List.sum_cons, ← ih hrest, ← threadCount_or hdisjoint]
      exact threadCount_congr fun u => List.mem_cons

end Counting

/-! ### The figure of an account -/

/-- The requests in the record of an account. -/
def requestsOf (t : HashTable DbgovStatitrics) (a : Username) : ℤ :=
  ((t.lookup a).map DbgovStatitrics.maxSimultaneousRequests).getD 0

/-- The number that `dbstat_add_to_table` adds to the requests of an account. -/
def requestsAdded (cntThreads : Username → ℤ) (w : World) (t : HashTable DbgovStatitrics)
    (a : Username) : ℤ :=
  requestsOf (dbstatAddToTable cntThreads w t a) a - requestsOf t a

/-- The figures of the accounts cover the threads of their users. `unset` is the byte that each
call of `get_cnt_threads` finds on its stack. -/
structure CoversThreads (threads : ThreadsList) (unset : Username → UInt8) (w : World)
    (t : HashTable DbgovStatitrics) : Prop where
  account : ∀ a ac, w.accounts.lookup a = some ac →
    requestsAdded (fun u => getCntThreads threads (unset u) u) w t a =
      threadCount threads (· ∈ ac.users)
  total : (w.accounts.keys.map fun a =>
      requestsAdded (fun u => getCntThreads threads (unset u) u) w t a).sum =
    threadCount threads fun u => (w.users.lookup u).isSome

/-- The threads of the users of an account that are not counted for it. -/
def missedThreads (threads : ThreadsList) (unset : Username → UInt8) (ac : Account) : ℕ :=
  threadCount threads fun u => u ∈ ac.users ∧ ¬ (u = ac.id ∧ Terminated ac.id (unset ac.id))

/-- The threads that are counted for an account although their user is none of its users. -/
def strayThreads (threads : ThreadsList) (unset : Username → UInt8) (ac : Account) : ℕ :=
  threadCount threads fun u => (u = ac.id ∧ Terminated ac.id (unset ac.id)) ∧ u ∉ ac.users

section Figure

variable {w : World} {threads : ThreadsList} {unset : Username → UInt8}
  {t : HashTable DbgovStatitrics} {a : Username} {ac : Account}

theorem requestsAdded_eq (howns : Owning w) (cntThreads : Username → ℤ)
    (hac : w.accounts.lookup a = some ac) : requestsAdded cntThreads w t a = cntThreads ac.id := by
  have hid : ac.id = a := (howns a ac hac).id_eq
  rw [requestsAdded, dbstatAddToTable, hac]
  dsimp only
  rw [hid, requestsOf, requestsOf, AList.lookup_insert]
  cases t.lookup a with
  | none => simp [dbstatRecord, DbgovStatitrics.atPeriodEnd, hid]
  | some r => simp [dbstatRecord, DbgovStatitrics.atPeriodEnd, hid]

/-- The counted threads are those of the users, less the missed and with the stray ones. -/
theorem getCntThreads_balance (threads : ThreadsList) (unset : Username → UInt8) (ac : Account) :
    getCntThreads threads (unset ac.id) ac.id + missedThreads threads unset ac =
      threadCount threads (· ∈ ac.users) + strayThreads threads unset ac := by
  have hcounted := threadCount_split threads
    (fun u => u = ac.id ∧ Terminated ac.id (unset ac.id)) (· ∈ ac.users)
  have husers := threadCount_split threads (· ∈ ac.users)
    (fun u => u = ac.id ∧ Terminated ac.id (unset ac.id))
  have hboth : threadCount threads
      (fun u => (u = ac.id ∧ Terminated ac.id (unset ac.id)) ∧ u ∈ ac.users) =
      threadCount threads
      fun u => u ∈ ac.users ∧ (u = ac.id ∧ Terminated ac.id (unset ac.id)) :=
    threadCount_congr fun u => and_comm
  rw [getCntThreads_eq, missedThreads, strayThreads]
  omega

theorem account_covered_iff (howns : Owning w) (hac : w.accounts.lookup a = some ac) :
    requestsAdded (fun u => getCntThreads threads (unset u) u) w t a =
        threadCount threads (· ∈ ac.users) ↔
      missedThreads threads unset ac = strayThreads threads unset ac := by
  have hbalance := getCntThreads_balance threads unset ac
  rw [requestsAdded_eq howns _ hac]
  omega

/-- The threads of registered users are those of the users of all accounts. -/
theorem sum_threadCount_users (hpart : Partitioned w) (threads : ThreadsList) :
    (w.accounts.entries.map fun e => threadCount threads (· ∈ e.2.users)).sum =
      threadCount threads fun u => (w.users.lookup u).isSome := by
  have hsums : (w.accounts.entries.map fun e => threadCount threads (· ∈ e.2.users)) =
      w.accounts.entries.map fun e =>
        (e.2.users.map fun name => threadCount threads (· = name)).sum := by
    refine List.map_congr_left fun e he => ?_
    have hlookup := KeyedPartition.lookup_of_mem_entries he
    exact threadCount_mem_eq_sum threads (hpart.covers.nodup e.1 e.2 hlookup)
  rw [hsums, hpart.covers.sum_eq, ← threadCount_mem_eq_sum threads w.users.keys_nodup]
  refine threadCount_congr fun u => ?_
  rw [← AList.mem_keys, AList.lookup_isSome]

theorem covers_iff_of_partitioned (hpart : Partitioned w) :
    CoversThreads threads unset w t ↔ ∀ a ac, w.accounts.lookup a = some ac →
      missedThreads threads unset ac = strayThreads threads unset ac := by
  constructor
  · intro hcovers a ac hac
    exact (account_covered_iff hpart.owns hac).mp (hcovers.account a ac hac)
  · intro hsame
    have haccount : ∀ a ac, w.accounts.lookup a = some ac →
        requestsAdded (fun u => getCntThreads threads (unset u) u) w t a =
          threadCount threads (· ∈ ac.users) :=
      fun a ac hac => (account_covered_iff hpart.owns hac).mpr (hsame a ac hac)
    refine ⟨haccount, ?_⟩
    rw [← sum_threadCount_users hpart, AList.keys, List.keys, List.map_map, Nat.cast_list_sum,
      List.map_map]
    refine congrArg List.sum (List.map_congr_left fun e he => ?_)
    exact haccount e.1 e.2 (KeyedPartition.lookup_of_mem_entries he)

/-- The state in which a tick adds its figures to the records. -/
def exportWorld (tick : TickInput) (w : World) : World := analyzeAccounts tick (gatherStats tick w)

theorem partitioned_exportWorld (h : Reachable w) (tick : TickInput) :
    Partitioned (exportWorld tick w) := by
  have hafter : Partitioned (proceedAccounts tick w) := (h.step (.tick tick w)).partitioned
  obtain ⟨g, -, -, heq⟩ := proceedAccounts_spec tick w
  rw [heq] at hafter
  exact hafter.frame rfl rfl

end Figure

/-- A thread of a user enters the table. -/
def addThread (threads : ThreadsList) (tid : ℤ) (username : Username) : ThreadsList :=
  threads.insert tid (addNewTidData ⟨⟨0, 0, 0⟩, 0, 1, 1, username, 0, 0⟩ 3 none)

/-- A thread of one user. -/
def oneThread (username : Username) : ThreadsList := addThread ∅ 1 username

theorem threadCount_oneThread (username : Username) (p : Username → Prop) [DecidablePred p] :
    threadCount (oneThread username) p = if p username then 1 else 0 := by
  have hname : (addNewTidData ⟨⟨0, 0, 0⟩, 0, 1, 1, username, 0, 0⟩ 3 none).username = username :=
    copyName_eq username
  rw [threadCount, oneThread, addThread, AList.entries_insert, List.countP_cons]
  simp [hname]

section Always

variable {w : World} {a : Username} {ac : Account}

/-- An account whose users all have its name has one user. -/
theorem users_eq_of_forall (hpart : Partitioned w) (hac : w.accounts.lookup a = some ac)
    (hall : ∀ u ∈ ac.users, u = ac.id) : ac.users = [ac.id] := by
  have hnodup := hpart.covers.nodup a ac hac
  have hne := (hpart.owns a ac hac).users_ne
  have hreplicate := List.eq_replicate_of_mem hall
  rw [hreplicate, List.nodup_replicate] at hnodup
  have hlength : ac.users.length = 1 := by
    have hpos := List.length_pos_iff.mpr hne
    omega
  rw [hreplicate, hlength, List.replicate_one]

/-- No thread of such an account is missed, and no other is counted. -/
theorem missed_eq_stray_of_alone (threads : ThreadsList) (unset : Username → UInt8)
    (husers : ac.users = [ac.id]) (hlength : ac.id.bytes.length < usernamemaxlen - 1) :
    missedThreads threads unset ac = strayThreads threads unset ac := by
  have hsame : ∀ u, u ∈ ac.users ↔ u = ac.id ∧ Terminated ac.id (unset ac.id) := by
    intro u
    rw [husers, List.mem_singleton]
    exact (and_iff_left (.inl hlength)).symm
  refine threadCount_congr fun u => ?_
  simp only [hsame, and_not_self]

/-- The figures cover the threads in every table exactly when each account has one user, which has
the name of the account, and this name leaves room for a second NUL. -/
theorem coversThreads_iff_alone (h : Reachable w) (tick : TickInput) :
    (∀ threads unset t, CoversThreads threads unset (exportWorld tick w) t) ↔
      ∀ a ac, (exportWorld tick w).accounts.lookup a = some ac →
        ac.users = [ac.id] ∧ ac.id.bytes.length < usernamemaxlen - 1 := by
  have hpart := partitioned_exportWorld h tick
  constructor
  · intro hcovers a ac hac
    have hcounted : ∀ u ∈ ac.users, ∀ unset : Username → UInt8,
        u = ac.id ∧ Terminated ac.id (unset ac.id) := by
      intro u hu unset
      by_contra hnot
      have hsame := (covers_iff_of_partitioned hpart).mp (hcovers (oneThread u) unset ∅) a ac hac
      rw [missedThreads, strayThreads, threadCount_oneThread, threadCount_oneThread,
        if_pos ⟨hu, hnot⟩, if_neg fun hstray => hnot hstray.1] at hsame
      cases hsame
    constructor
    · exact users_eq_of_forall hpart hac fun u hu => (hcounted u hu fun _ => 0).1
    · obtain ⟨u, hu⟩ := List.exists_mem_of_ne_nil _ (hpart.owns a ac hac).users_ne
      rcases (hcounted u hu fun _ => 1).2 with hlength | hunset
      · exact hlength
      · cases hunset
  · intro hone threads unset t
    refine (covers_iff_of_partitioned hpart).mpr fun a ac hac => ?_
    obtain ⟨husers, hlength⟩ := hone a ac hac
    exact missed_eq_stray_of_alone threads unset husers hlength

end Always

/-- Two threads of the user `u`, whose account has this name, and one of a user without any. -/
def threeThreads : ThreadsList :=
  addThread (addThread (addThread ∅ 1 sampleUser) 2 (strlcpy (ascii "other"))) 3 sampleUser

/-- Both threads of the user are added to the requests of the account, and no other. -/
theorem coversThreads_iff_alone_sample :
    CoversThreads threeThreads (fun _ => 7) (exportWorld plainTick tickedWorld) ∅ ∧
      requestsAdded (fun u => getCntThreads threeThreads 7 u) (exportWorld plainTick tickedWorld) ∅
        sampleUser = 2 := by
  have halone : ∀ e ∈ (exportWorld plainTick tickedWorld).accounts.entries,
      e.2.users = [e.2.id] ∧ e.2.id.bytes.length < usernamemaxlen - 1 := by
    decide +kernel
  refine ⟨(coversThreads_iff_alone tickedWorld_reachable plainTick).mpr ?_ _ _ _, by decide +kernel⟩
  intro a ac hac
  exact halone _ (AList.mem_lookup_iff.mp hac)

/-- A user of the account `joe` that has another name. -/
def prefixedUser : Username := strlcpy (ascii "joe_a")

/-- A daemon that has counted some traffic of this user. -/
def trafficWorld : World := incrementCounters prefixedUser 500 0 0 0 (.init (shippedConfig true))

theorem trafficWorld_reachable : Reachable trafficWorld :=
  .step (.start _) (.increment prefixedUser 500 0 0 0 _)

/-- The thread of the user is not counted for the account. -/
theorem prefixed_user_not_covered :
    Reachable trafficWorld ∧
      ¬ CoversThreads (oneThread prefixedUser) (fun _ => 0) (exportWorld plainTick trafficWorld)
        ∅ := by
  refine ⟨trafficWorld_reachable, fun hcovers => ?_⟩
  have husers : ((exportWorld plainTick trafficWorld).accounts.lookup
      (strlcpy (ascii "joe"))).map Account.users = some [prefixedUser] := by
    decide +kernel
  obtain ⟨ac, hac, hlisted⟩ := Option.map_eq_some_iff.mp husers
  have hcovered := hcovers.account _ ac hac
  rw [hlisted] at hcovered
  revert hcovered
  decide +kernel

end DbGovernor
