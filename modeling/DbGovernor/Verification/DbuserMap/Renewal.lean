import DbGovernor.Model.RenewMap
import Mathlib.Data.List.Pairwise
import Mathlib.Tactic.Common

/-!
# Requests for a new map

However often a new map is asked for, the script is forked at most once a minute. A request waits
for no more than fourteen rounds of the thread; it is lost only if it came before the thread
started or if `fork` fails.
-/

namespace DbGovernor

/-- The rounds that a request can wait. -/
def longestWait : ℕ := 14

/-- The thread has gone on to a `fork`. -/
def RenewPc.Forks : RenewPc → Prop
  | .saving _ | .forking => True
  | _ => False

/-- The thread has seen the flag. -/
def RenewPc.Checks : RenewPc → Prop
  | .clockRead | .ageTest _ | .clearing _ => True
  | _ => False

/-- What holds of the times at each place. -/
def RenewState.TimesAt (s : RenewState) : RenewPc → Prop
  | .starting | .flagTest | .clockRead => s.lastRenew ≤ s.clock
  | .ageTest currentCheck => s.lastRenew ≤ currentCheck ∧ currentCheck ≤ s.clock
  | .clearing currentCheck | .saving currentCheck =>
      s.lastRenew + dbmaphookAntiddos < currentCheck ∧ currentCheck ≤ s.clock
  | .forking => s.lastRenew ≤ s.clock
  | .sleeping since => s.lastRenew ≤ since ∧ since ≤ s.clock

/-- How long a request has waited at each place, when `k` rounds have begun. -/
def RenewState.WaitedAt (s : RenewState) (k : ℕ) : RenewPc → Prop
  | .starting | .saving _ | .forking => k = 0
  | .flagTest => s.lastRenew + dbmaphookRecheck * k ≤ s.clock ∧ k < longestWait
  | .clockRead => s.lastRenew + dbmaphookRecheck * k ≤ s.clock + dbmaphookRecheck ∧ k ≤ longestWait
  | .ageTest currentCheck =>
      s.lastRenew + dbmaphookRecheck * k ≤ currentCheck + dbmaphookRecheck ∧ k ≤ longestWait
  | .clearing _ => k ≤ longestWait
  | .sleeping since =>
      s.lastRenew + dbmaphookRecheck * k ≤ since + dbmaphookRecheck ∧ k < longestWait

/-- What the steps keep. -/
structure RenewInv (s : RenewState) : Prop where
  times : s.TimesAt s.pc
  apart : s.renewals.Pairwise fun a b => a + dbmaphookAntiddos < b
  before : ∀ t ∈ s.renewals, t ≤ s.lastRenew ∧
    (s.pc = .forking → t + dbmaphookAntiddos < s.lastRenew)
  waiting : ∀ r ∈ s.requests, r.fate = .waiting → s.flagNeedToRenewDbmap ∧ s.WaitedAt r.rounds s.pc
  taken : ∀ r ∈ s.requests, r.fate = .taken → s.pc.Forks ∧ r.rounds ≤ longestWait
  asked : s.flagNeedToRenewDbmap → ∃ r ∈ s.requests, r.fate = .waiting
  checks : s.pc.Checks → s.flagNeedToRenewDbmap
  forks : s.pc.Forks → ∃ r ∈ s.requests, r.fate = .taken

/-! ### The requests of one fate -/

section OnFate

variable {fate : RequestFate} {f : DbmapRequest → DbmapRequest} {requests : List DbmapRequest}
  {r : DbmapRequest}

theorem mem_onFate (hr : r ∈ onFate fate f requests) :
    (∃ before ∈ requests, before.fate = fate ∧ f before = r) ∨ r ∈ requests ∧ r.fate ≠ fate := by
  obtain ⟨before, hbefore, heq⟩ := List.mem_map.mp hr
  by_cases hfate : before.fate = fate
  · rw [if_pos hfate] at heq
    exact .inl ⟨before, hbefore, hfate, heq⟩
  · rw [if_neg hfate] at heq
    subst heq
    exact .inr ⟨hbefore, hfate⟩

/-- What has the fate still was changed. -/
theorem mem_onFate_of_fate (hr : r ∈ onFate fate f requests) (hfate : r.fate = fate) :
    ∃ before ∈ requests, before.fate = fate ∧ f before = r :=
  (mem_onFate hr).resolve_right fun h => h.2 hfate

theorem onFate_mem (hr : r ∈ requests) (hfate : r.fate = fate) : f r ∈ onFate fate f requests :=
  List.mem_map.mpr ⟨r, hr, if_pos hfate⟩

theorem onFate_mem_of_ne (hr : r ∈ requests) (hfate : r.fate ≠ fate) :
    r ∈ onFate fate f requests :=
  List.mem_map.mpr ⟨r, hr, if_neg hfate⟩

end OnFate

variable {s s' : RenewState}

/-! ### The steps -/

theorem RenewInv.init {clock : ℤ} (hclock : 0 ≤ clock) : RenewInv (.init clock) where
  times := hclock
  apart := .nil
  before := by simp [RenewState.init]
  waiting := by simp [RenewState.init]
  taken := by simp [RenewState.init]
  asked := by simp [RenewState.init]
  checks := by simp [RenewState.init, RenewPc.Checks]
  forks := by simp [RenewState.init, RenewPc.Forks]

/-- A request comes at any place. -/
theorem RenewState.waitedAt_zero (h : s.TimesAt s.pc) : s.WaitedAt 0 s.pc := by
  cases hpc : s.pc <;> rw [hpc] at h <;>
    simp only [TimesAt, WaitedAt, longestWait, dbmaphookRecheck] at h ⊢ <;> omega

theorem RenewInv.request (hs : RenewInv s) : RenewInv { s with
    flagNeedToRenewDbmap := true
    requests := s.requests ++ [⟨0, .waiting⟩] } := by
  refine ⟨hs.times, hs.apart, hs.before, fun r hr hfate => ⟨rfl, ?_⟩, fun r hr hfate => ?_,
    fun _ => ⟨⟨0, .waiting⟩, by simp, rfl⟩, fun _ => rfl, fun hpc => ?_⟩
  · rcases List.mem_append.mp hr with hr | hr
    · exact (hs.waiting r hr hfate).2
    · rw [List.mem_singleton.mp hr]
      exact RenewState.waitedAt_zero hs.times
  · rcases List.mem_append.mp hr with hr | hr
    · exact hs.taken r hr hfate
    · rw [List.mem_singleton.mp hr] at hfate
      cases hfate
  · obtain ⟨r, hr, hfate⟩ := hs.forks hpc
    exact ⟨r, List.mem_append_left _ hr, hfate⟩

theorem RenewInv.time (hs : RenewInv s) {clock : ℤ} (hclock : s.clock ≤ clock) :
    RenewInv { s with clock := clock } := by
  obtain ⟨htimes, hapart, hbefore, hwaiting, htaken, hasked, hchecks, hforks⟩ := hs
  refine ⟨?_, hapart, hbefore, fun r hr hfate => ⟨(hwaiting r hr hfate).1, ?_⟩, htaken, hasked,
    hchecks, hforks⟩
  · cases hpc : s.pc <;> rw [hpc] at htimes <;> simp only [RenewState.TimesAt] at htimes ⊢ <;> omega
  · have hwait := (hwaiting r hr hfate).2
    cases hpc : s.pc <;> rw [hpc] at hwait <;> simp only [RenewState.WaitedAt] at hwait ⊢ <;> omega

/-- Where no `fork` is decided, no request is taken. -/
theorem RenewInv.not_taken (hs : RenewInv s) (hpc : ¬ s.pc.Forks) {r : DbmapRequest}
    (hr : r ∈ s.requests) : r.fate ≠ .taken := fun hfate => hpc (hs.taken r hr hfate).1

/-- The thread goes on between two `fork`s. -/
theorem RenewInv.goto (hs : RenewInv s) (hbefore : ¬ s.pc.Forks) {pc : RenewPc}
    (hafter : ¬ pc.Forks) (htimes : s.TimesAt pc) (hchecks : pc.Checks → s.flagNeedToRenewDbmap)
    (hwaited : ∀ k, s.WaitedAt k s.pc → s.WaitedAt k pc) : RenewInv { s with pc := pc } := by
  refine ⟨htimes, hs.apart, fun t ht => ⟨(hs.before t ht).1, fun hpc => ?_⟩, fun r hr hfate => ?_,
    fun r hr hfate => (hs.not_taken hbefore hr hfate).elim, hs.asked, hchecks,
    fun hpc => (hafter hpc).elim⟩
  · exact (hafter (by rw [show pc = .forking from hpc]; trivial)).elim
  · obtain ⟨hflag, hwait⟩ := hs.waiting r hr hfate
    exact ⟨hflag, hwaited _ hwait⟩

theorem RenewInv.start (hs : RenewInv s) (hpc : s.pc = .starting) : RenewInv { s with
    flagNeedToRenewDbmap := false
    pc := .flagTest
    requests := onFate .waiting (fun r => { r with fate := .lost }) s.requests } := by
  have htimes := hs.times
  have hnone : ∀ r ∈ s.requests, r.fate ≠ .taken := fun r hr =>
    hs.not_taken (by simp [hpc, RenewPc.Forks]) hr
  rw [hpc] at htimes
  refine ⟨htimes, hs.apart, fun t ht => ⟨(hs.before t ht).1, by simp⟩, fun r hr hfate => ?_,
    fun r hr hfate => ?_, by simp, by simp [RenewPc.Checks], by simp [RenewPc.Forks]⟩
  · obtain ⟨before, -, -, rfl⟩ := mem_onFate_of_fate hr hfate
    cases hfate
  · obtain ⟨before, -, -, rfl⟩ | ⟨hr, -⟩ := mem_onFate hr
    · cases hfate
    · exact (hnone r hr hfate).elim

theorem RenewInv.flagTest (hs : RenewInv s) (hpc : s.pc = .flagTest) : RenewInv { s with
    pc := if s.flagNeedToRenewDbmap then .clockRead else .sleeping s.clock
    requests := onFate .waiting (fun r => { r with rounds := r.rounds + 1 }) s.requests } := by
  have htimes : s.lastRenew ≤ s.clock := by simpa [hpc, RenewState.TimesAt] using hs.times
  have hnone : ∀ r ∈ s.requests, r.fate ≠ .taken := fun r hr =>
    hs.not_taken (by simp [hpc, RenewPc.Forks]) hr
  have htaken : ∀ r ∈ onFate .waiting (fun r => { r with rounds := r.rounds + 1 }) s.requests,
      r.fate ≠ .taken := by
    intro r hr hfate
    obtain ⟨before, hbefore, -, rfl⟩ | ⟨hr, -⟩ := mem_onFate hr
    · exact hnone before hbefore hfate
    · exact hnone r hr hfate
  split
  case isTrue hflag =>
    refine ⟨htimes, hs.apart, fun t ht => ⟨(hs.before t ht).1, by simp⟩, fun r hr hfate => ?_,
      fun r hr hfate => (htaken r hr hfate).elim, fun _ => ?_, fun _ => hflag,
      by simp [RenewPc.Forks]⟩
    · obtain ⟨before, hbefore, hwaits, rfl⟩ := mem_onFate_of_fate hr hfate
      have hwait := (hs.waiting before hbefore hwaits).2
      rw [hpc] at hwait
      refine ⟨hflag, ?_⟩
      simp only [RenewState.WaitedAt, dbmaphookRecheck] at hwait ⊢
      omega
    · obtain ⟨r, hr, hfate⟩ := hs.asked hflag
      exact ⟨_, onFate_mem hr hfate, hfate⟩
  case isFalse hflag =>
    refine ⟨⟨htimes, le_refl _⟩, hs.apart, fun t ht => ⟨(hs.before t ht).1, by simp⟩,
      fun r hr hfate => ?_, fun r hr hfate => (htaken r hr hfate).elim,
      fun hset => (hflag hset).elim, by simp [RenewPc.Checks], by simp [RenewPc.Forks]⟩
    obtain ⟨before, hbefore, hwaits, -⟩ := mem_onFate_of_fate hr hfate
    exact (hflag (hs.waiting before hbefore hwaits).1).elim

theorem RenewInv.ageTest (hs : RenewInv s) {currentCheck : ℤ} (hpc : s.pc = .ageTest currentCheck) :
    RenewInv { s with
      pc := if s.lastRenew + dbmaphookAntiddos < currentCheck then .clearing currentCheck
        else .sleeping s.clock } := by
  obtain ⟨hlast, hclock⟩ : s.lastRenew ≤ currentCheck ∧ currentCheck ≤ s.clock := by
    simpa [hpc, RenewState.TimesAt] using hs.times
  have hflag : s.flagNeedToRenewDbmap := hs.checks (by simp [hpc, RenewPc.Checks])
  have hbefore : ¬ s.pc.Forks := by simp [hpc, RenewPc.Forks]
  split
  case isTrue hold =>
    refine hs.goto hbefore (by simp [RenewPc.Forks]) ⟨hold, hclock⟩ (fun _ => hflag) fun k hk => ?_
    rw [hpc] at hk
    exact hk.2
  case isFalse hnew =>
    refine hs.goto hbefore (by simp [RenewPc.Forks]) ⟨by omega, le_refl _⟩ (fun _ => hflag)
      fun k hk => ?_
    rw [hpc] at hk
    -- Thirteen pauses take more than the minute since the last run.
    simp only [RenewState.WaitedAt, longestWait, dbmaphookRecheck, dbmaphookAntiddos] at hnew hk ⊢
    omega

theorem RenewInv.clear (hs : RenewInv s) {currentCheck : ℤ} (hpc : s.pc = .clearing currentCheck) :
    RenewInv { s with
      flagNeedToRenewDbmap := false
      pc := .saving currentCheck
      requests := onFate .waiting (fun r => { r with fate := .taken }) s.requests } := by
  have htimes := hs.times
  have hnone : ∀ r ∈ s.requests, r.fate ≠ .taken := fun r hr =>
    hs.not_taken (by simp [hpc, RenewPc.Forks]) hr
  rw [hpc] at htimes
  refine ⟨htimes, hs.apart, fun t ht => ⟨(hs.before t ht).1, by simp⟩, fun r hr hfate => ?_,
    fun r hr hfate => ⟨trivial, ?_⟩, by simp, by simp [RenewPc.Checks], fun _ => ?_⟩
  · obtain ⟨before, -, -, rfl⟩ := mem_onFate_of_fate hr hfate
    cases hfate
  · obtain ⟨before, hbefore, hwaits, rfl⟩ | ⟨hr, -⟩ := mem_onFate hr
    · have hwait := (hs.waiting before hbefore hwaits).2
      rw [hpc] at hwait
      exact hwait
    · exact (hnone r hr hfate).elim
  · obtain ⟨r, hr, hfate⟩ := hs.asked (hs.checks (by simp [hpc, RenewPc.Checks]))
    exact ⟨_, onFate_mem hr hfate, rfl⟩

theorem RenewInv.save (hs : RenewInv s) {currentCheck : ℤ} (hpc : s.pc = .saving currentCheck) :
    RenewInv { s with lastRenew := currentCheck, pc := .forking } := by
  obtain ⟨hold, hclock⟩ :
      s.lastRenew + dbmaphookAntiddos < currentCheck ∧ currentCheck ≤ s.clock := by
    simpa [hpc, RenewState.TimesAt] using hs.times
  refine ⟨hclock, hs.apart, fun t ht => ?_, fun r hr hfate => ?_, fun r hr hfate => ?_, hs.asked,
    by simp [RenewPc.Checks], fun _ => hs.forks (by simp [hpc, RenewPc.Forks])⟩
  · have hbefore := (hs.before t ht).1
    simp only [dbmaphookAntiddos] at hold ⊢
    omega
  · obtain ⟨hflag, hwait⟩ := hs.waiting r hr hfate
    rw [hpc] at hwait
    exact ⟨hflag, hwait⟩
  · exact ⟨trivial, (hs.taken r hr hfate).2⟩

/-- A `fork`, whatever becomes of the requests that were taken. -/
theorem RenewInv.fork (hs : RenewInv s) (hpc : s.pc = .forking) {fate : RequestFate}
    (hfate : fate ≠ .waiting ∧ fate ≠ .taken) : RenewInv { s with
      pc := .sleeping s.clock
      requests := onFate .taken (fun r => { r with fate := fate }) s.requests
      renewals := s.renewals ++ [s.lastRenew] } := by
  have htimes : s.lastRenew ≤ s.clock := by simpa [hpc, RenewState.TimesAt] using hs.times
  refine ⟨⟨htimes, le_refl _⟩, ?_, fun t ht => ?_, fun r hr hwaits => ?_, fun r hr htaken => ?_,
    fun hset => ?_, by simp [RenewPc.Checks], by simp [RenewPc.Forks]⟩
  · rw [List.pairwise_append]
    refine ⟨hs.apart, List.pairwise_singleton _ _, fun t ht last hlast => ?_⟩
    rw [List.mem_singleton.mp hlast]
    exact (hs.before t ht).2 hpc
  · refine ⟨?_, by simp⟩
    rcases List.mem_append.mp ht with ht | ht
    · exact (hs.before t ht).1
    · rw [List.mem_singleton.mp ht]
  · obtain ⟨before, -, -, rfl⟩ | ⟨hr, -⟩ := mem_onFate hr
    · exact (hfate.1 hwaits).elim
    · obtain ⟨hflag, hwait⟩ := hs.waiting r hr hwaits
      rw [hpc] at hwait
      refine ⟨hflag, ?_⟩
      simp only [RenewState.WaitedAt, longestWait, dbmaphookRecheck] at hwait ⊢
      omega
  · obtain ⟨before, -, -, rfl⟩ := mem_onFate_of_fate hr htaken
    exact (hfate.2 htaken).elim
  · obtain ⟨r, hr, hwaits⟩ := hs.asked hset
    exact ⟨r, onFate_mem_of_ne hr (by simp [hwaits]), hwaits⟩

theorem RenewStep.inv (h : RenewStep s s') (hs : RenewInv s) : RenewInv s' := by
  have htimes := hs.times
  cases h with
  | request => exact hs.request
  | time clock hclock => exact hs.time hclock
  | start hpc => exact hs.start hpc
  | flagTest hpc => exact hs.flagTest hpc
  | clockRead hpc =>
      rw [hpc] at htimes
      refine hs.goto (by simp [hpc, RenewPc.Forks]) (by simp [RenewPc.Forks]) ⟨htimes, le_refl _⟩
        (fun _ => hs.checks (by simp [hpc, RenewPc.Checks])) fun k hk => ?_
      rwa [hpc] at hk
  | ageTest currentCheck hpc => exact hs.ageTest hpc
  | clear currentCheck hpc => exact hs.clear hpc
  | save currentCheck hpc => exact hs.save hpc
  | fork hpc => exact hs.fork hpc (by decide)
  | forkFails hpc => exact hs.fork hpc (by decide)
  | wake since hpc hslept =>
      rw [hpc] at htimes
      refine hs.goto (by simp [hpc, RenewPc.Forks]) (by simp [RenewPc.Forks])
        (Int.le_trans htimes.1 htimes.2) (by simp [RenewPc.Checks]) fun k hk => ?_
      rw [hpc] at hk
      simp only [RenewState.WaitedAt, dbmaphookRecheck] at hk hslept ⊢
      omega

theorem RenewReachable.inv (h : RenewReachable s) : RenewInv s := by
  obtain ⟨clock, hclock, hrun⟩ := h
  induction hrun with
  | refl => exact .init hclock
  | tail _ hstep ih => exact hstep.inv ih

/-- How a step can lose a request: the start forgets one that waits, and a `fork` that fails one
that was taken. -/
def LosesAt (pc : RenewPc) (r : DbmapRequest) : Prop :=
  pc = .starting ∧ r.fate = .waiting ∨ pc = .forking ∧ r.fate = .taken

theorem lost_onFate {requests : List DbmapRequest} {fate : RequestFate} {pc : RenewPc}
    {f : DbmapRequest → DbmapRequest} {i : ℕ} {r : DbmapRequest} (hr : requests[i]? = some r)
    (hf : r.fate = fate → (f r).fate = .lost → LosesAt pc r) :
    ∃ r', (onFate fate f requests)[i]? = some r' ∧
      (r'.fate = .lost → r.fate = .lost ∨ LosesAt pc r) := by
  refine ⟨if r.fate = fate then f r else r, by rw [onFate, List.getElem?_map, hr]; rfl, ?_⟩
  split
  case isTrue hfate => exact fun hlost => .inr (hf hfate hlost)
  case isFalse => exact .inl

theorem RenewStep.lost (h : RenewStep s s') {i : ℕ} {r : DbmapRequest}
    (hr : s.requests[i]? = some r) :
    ∃ r', s'.requests[i]? = some r' ∧
      (r'.fate = .lost → r.fate = .lost ∨ LosesAt s.pc r) := by
  have hkept : ∃ r', s.requests[i]? = some r' ∧
      (r'.fate = .lost → r.fate = .lost ∨ LosesAt s.pc r) := ⟨r, hr, .inl⟩
  cases h with
  | request =>
      exact ⟨r, List.getElem?_append_left (List.getElem?_eq_some_iff.mp hr).1 ▸ hr, .inl⟩
  | start hpc => exact lost_onFate hr fun hfate _ => .inl ⟨hpc, hfate⟩
  | flagTest hpc => exact lost_onFate hr fun hfate hlost => by simp [hfate] at hlost
  | clear currentCheck hpc => exact lost_onFate hr fun _ hlost => by simp at hlost
  | fork hpc => exact lost_onFate hr fun _ hlost => by simp at hlost
  | forkFails hpc => exact lost_onFate hr fun hfate _ => .inr ⟨hpc, hfate⟩
  | time clock hclock => exact hkept
  | clockRead hpc => exact hkept
  | ageTest currentCheck hpc => exact hkept
  | save currentCheck hpc => exact hkept
  | wake since hpc hslept => exact hkept

/-- A request from before the start was forgotten. A map is asked for while the thread is about to
fork the script for another request. -/
def askedAgain : RenewState where
  flagNeedToRenewDbmap := true
  lastRenew := 1000
  pc := .forking
  clock := 1000
  requests := [⟨0, .lost⟩, ⟨1, .taken⟩, ⟨0, .waiting⟩]
  renewals := []

theorem askedAgain_reachable : RenewReachable askedAgain := by
  refine ⟨1000, by decide, ?_⟩
  have hstart : Relation.ReflTransGen RenewStep (.init 1000)
      ⟨false, 0, .flagTest, 1000, [⟨0, .lost⟩], []⟩ :=
    (Relation.ReflTransGen.single (.request _)).tail (.start _ rfl)
  have hasked := (hstart.tail (.request _)).tail (.flagTest _ rfl)
  have hread := (hasked.tail (.clockRead _ rfl)).tail (.ageTest _ 1000 rfl)
  have hsaved := (hread.tail (.clear _ 1000 rfl)).tail (.save _ 1000 rfl)
  exact hsaved.tail (.request _)

end DbGovernor
