import DbGovernor.Verification.Config.Intervals
import DbGovernor.Verification.Daemon.Partition
import DbGovernor.Verification.Daemon.RestrictLevel
import DbGovernor.Verification.Restrict.OverLimit

/-!
# Decisions on windows

A tick decides about an account on means of what its users used in the last ticks. The rings of
the users hold enough samples for these means as long as no reread lengthens the longest interval.
-/

namespace DbGovernor

/-! ### Windows -/

/-- The samples of a user in the ticks of a run, newest first. A tick that finds no counter of
the user samples zero. -/
def samplesOf (past : List (TickInput × World)) (u : Username) : List Stats :=
  past.map fun tick => tickSample tick.1 tick.2 u

/-- The mean of the last `length` samples, added up from the newest on, where the ticks before the
first count as zero. -/
def windowMean (length : ℤ) (samples : List Stats) : Stats :=
  (totalStats (samples.take length.toNat)).divide length

/-- The newest sample and the means over the three intervals. -/
def windowUsage (cfg : GovernorConfig) (samples : List Stats) : Usage where
  current := samples.headD 0
  longAverage := windowMean (intOfUnsigned cfg.intervalLong) samples
  midAverage := windowMean (intOfUnsigned cfg.intervalMid) samples
  shortAverage := windowMean (intOfUnsigned cfg.intervalShort) samples

/-- The usage of some users together, added up in their order. -/
def windowsOf (cfg : GovernorConfig) (past : List (TickInput × World)) (users : List Username) :
    Usage :=
  Usage.total (users.map fun u => windowUsage cfg (samplesOf past u))

/-- The size of the ring that a user registered under a configuration gets. -/
def GovernorConfig.ringSize (cfg : GovernorConfig) : ℤ :=
  intOfUnsigned (compareMax3 cfg.intervalLong cfg.intervalMid cfg.intervalShort)

/-- A run with its ticks in which no reread lengthens the longest interval. -/
inductive CoveredHistory : List (TickInput × World) → World → Prop where
  | start (cfg) : CoveredHistory [] (World.init cfg)
  | tick {past w} (t) : CoveredHistory past w → CoveredHistory ((t, w) :: past) (proceedAccounts t w)
  | other {past w w'} : CoveredHistory past w → DaemonStep w w' → w'.tickId = w.tickId →
      w'.cfg.ringSize ≤ w.cfg.ringSize → CoveredHistory past w'

theorem CoveredHistory.history {past : List (TickInput × World)} {w : World}
    (h : CoveredHistory past w) : History past w := by
  induction h with
  | start cfg => exact .start cfg
  | tick t _ ih => exact ih.tick t
  | other _ hs htick _ ih => exact ih.other hs htick

/-- A positive interval is not longer than the ring. -/
theorem length_le_ringSize {cfg : GovernorConfig} (hpos : ∀ n ∈ averagedLengths cfg, 1 ≤ n) :
    ∀ n ∈ averagedLengths cfg, n ≤ cfg.ringSize := by
  have hlong := cfg.intervalLong.toNat_lt
  have hmid := cfg.intervalMid.toNat_lt
  have hshort := cfg.intervalShort.toNat_lt
  simp only [averagedLengths, List.forall_mem_cons, List.not_mem_nil, IsEmpty.forall_iff,
    implies_true, and_true] at hpos ⊢
  simp only [GovernorConfig.ringSize, compareMax3, intOfUnsigned, gt_iff_lt,
    UInt32.lt_iff_toNat_lt] at hpos ⊢
  split_ifs at hpos ⊢ <;> omega

/-! ### Users that a step registers -/

/-- Besides the records of `w₀` there are only new ones, made under the configuration. -/
structure NewUsers (cfg : GovernorConfig) (w₀ w : World) : Prop where
  cfg_eq : w.cfg = cfg
  users : ∀ u us, w.users.lookup u = some us →
    w₀.users.lookup u = some us ∨ ∃ a, us = initUserStats cfg u a

section NewUsers

variable {cfg : GovernorConfig} {w₀ w : World}

theorem NewUsers.start (w : World) : NewUsers w.cfg w w := ⟨rfl, fun _ _ hus => .inl hus⟩

theorem NewUsers.frame (h : NewUsers cfg w₀ w) {w' : World} (hcfg : w'.cfg = w.cfg)
    (husers : w'.users = w.users) : NewUsers cfg w₀ w' :=
  ⟨hcfg.trans h.cfg_eq, husers ▸ h.users⟩

theorem NewUsers.addUserStats (h : NewUsers cfg w₀ w) (u : Username) :
    NewUsers cfg w₀ (addUserStats u w) := by
  obtain ⟨_, _, -, heq⟩ := addUserStats_spec u w
  rw [heq]
  refine ⟨h.cfg_eq, fun v us hus => ?_⟩
  rcases lookup_insert_cases hus with ⟨rfl, rfl⟩ | ⟨-, hus⟩
  · rw [h.cfg_eq]
    exact .inr ⟨_, rfl⟩
  · exact h.users v us hus

theorem NewUsers.addEmptyStatsForUid (h : NewUsers cfg w₀ w) (u : Username) :
    NewUsers cfg w₀ (addEmptyStatsForUid u w) := by
  rw [DbGovernor.addEmptyStatsForUid]
  split
  · exact h
  · exact h.addUserStats u

theorem NewUsers.dbctlRestrictSet (h : NewUsers cfg w₀ w) (now : ℤ) (command : DbCtlCommand)
    (key : Username) : NewUsers cfg w₀ (dbctlRestrictSet now command w key) := by
  have hnamed : ∀ {v : World} a, NewUsers cfg w₀ v →
      NewUsers cfg w₀ (dbctlRestrictNamed now command v a) := by
    intro v a hv
    have hbase := dbctlRestrictNamed_base now command v a
    exact hv.frame hbase.cfg hbase.users
  rw [DbGovernor.dbctlRestrictSet]
  split
  · exact hnamed key h
  · have hadd := h.addUserStats command.username
    dsimp only
    split
    · exact hnamed _ hadd
    · exact hnamed key hadd

theorem NewUsers.reinitUsersList (h : NewUsers cfg w₀ w) (file : Option (List UInt8))
    (ord : IterOrder) : NewUsers cfg w₀ (reinitUsersList file ord w) := by
  obtain ⟨_, _, heq⟩ := reinitUsersList_frame file ord w
  rw [heq]
  exact h.frame rfl rfl

theorem NewUsers.foreachAccount (h : NewUsers cfg w₀ w) (ord : IterOrder)
    (f : GovernorConfig → Account → Globals → Account × Globals) :
    NewUsers cfg w₀ (foreachAccount ord f w) := by
  have hbase := foldl_onAccount_base f (ord.order w.accounts.keys) w
  exact h.frame hbase.cfg hbase.users

theorem NewUsers.setDbuserMap (h : NewUsers cfg w₀ w) (ord : IterOrder) :
    NewUsers cfg w₀ (setDbuserMap ord w) := by
  rw [DbGovernor.setDbuserMap]
  split
  · exact h
  · refine List.foldlRecOn _ _ h fun _ hw key _ => ?_
    split
    · exact hw
    · exact hw.addEmptyStatsForUid _

theorem newUsers_runDbctlCommand (w : World) (msg : DbctlMessage) (now : ℤ) (ord : IterOrder) :
    NewUsers (runDbctlCommand msg now ord w).cfg w (runDbctlCommand msg now ord w) := by
  have hsame : ∀ {cfg v}, NewUsers cfg w v → NewUsers v.cfg w v := fun hv =>
    ⟨rfl, hv.cfg_eq.symm ▸ hv.users⟩
  have hw := NewUsers.start w
  cases msg with
  | rereadCfg cfg => exact ⟨rfl, fun _ _ hus => .inl hus⟩
  | reinitUsersList cfg file =>
      have hreread : NewUsers cfg w { w with cfg := cfg } := ⟨rfl, fun _ _ hus => .inl hus⟩
      simp only [runDbctlCommand]
      split
      · exact hsame (hreread.reinitUsersList file ord)
      · exact hsame ((hreread.foreachAccount ord _).reinitUsersList file ord)
  | restrict command =>
      simp only [runDbctlCommand]
      split
      · exact hw
      · exact hsame (List.foldlRecOn _ _ hw fun _ hv key _ => hv.dbctlRestrictSet now command key)
  | unrestrict command =>
      simp only [runDbctlCommand]
      split
      · exact hw
      · exact hsame (hw.foreachAccount ord _)
  | unrestrictA =>
      simp only [runDbctlCommand]
      split
      · exact hw
      · exact hsame (hw.foreachAccount ord _)

/-- Outside a tick a user is registered under the configuration that the step leaves. -/
theorem DaemonStep.newUsers {w' : World} (hs : DaemonStep w w') (htick : w'.tickId = w.tickId)
    (hinv : DaemonInv w) : NewUsers w'.cfg w w' := by
  have hsame : ∀ {cfg v}, NewUsers cfg w v → NewUsers v.cfg w v := fun hv =>
    ⟨rfl, hv.cfg_eq.symm ▸ hv.users⟩
  have hw := NewUsers.start w
  cases hs with
  | increment u cpu read write tm =>
      rw [incrementCounters]
      split <;> exact hw.frame rfl rfl
  | tick t =>
      rw [proceedAccounts_tickId t hinv] at htick
      omega
  | dbctl msg now ord => exact newUsers_runDbctlCommand w msg now ord
  | mapRefresh dataCfg file file' ordMap ordAccounts =>
      have hmap : NewUsers w.cfg w { w with userMap := some (getMapFile dataCfg file).2 } :=
        hw.frame rfl rfl
      exact hsame ((hmap.setDbuserMap ordMap).reinitUsersList file' ordAccounts)
  | copy _ _ _ => exact hw.frame rfl rfl
  | reinit _ => exact hw.frame rfl rfl
  | spawn _ => exact hw.frame rfl rfl
  | work _ _ _ => exact hw.frame rfl rfl
  | finish _ => exact hw.frame rfl rfl

end NewUsers

/-! ### Rings -/

section Rings

variable {past : List (TickInput × World)} {w : World} {u : Username}

/-- Outside a tick the record of a registered user is left alone. -/
theorem DaemonStep.lookup_eq {w' : World} (hs : DaemonStep w w') (htick : w'.tickId = w.tickId)
    (hinv : DaemonInv w) {us : UserStats} (hus : w.users.lookup u = some us) :
    w'.users.lookup u = some us := by
  rcases hs.tick_or_edits hinv with ⟨t, rfl⟩ | hedits
  · rw [proceedAccounts_tickId t hinv] at htick
    omega
  · exact hedits.lookup_eq hus

/-- A user that is not there yet has used nothing. -/
theorem History.samplesOf_of_none (h : History past w) (hnew : w.users.lookup u = none) :
    samplesOf past u = List.replicate past.length 0 := by
  induction h with
  | start cfg => rfl
  | @tick past v t hv ih =>
      have habsent : ¬ ((v.users.lookup u).isSome ∨ (v.counters.lookup u).isSome) := by
        intro hsome
        have hpresent := ((oneSample hv.reachable.daemonInv t).present u).mpr hsome
        simp [hnew] at hpresent
      obtain ⟨hu, hcounter⟩ := not_or.mp habsent
      have hzero : tickSample t v u = 0 := by
        rw [tickSample, Option.not_isSome_iff_eq_none.mp hcounter]
        rfl
      have hrest := ih (Option.not_isSome_iff_eq_none.mp hu)
      rw [samplesOf] at hrest ⊢
      rw [List.map_cons, hrest, hzero, List.length_cons, List.replicate_succ]
  | other hv hs htick ih =>
      refine ih (Option.eq_none_iff_forall_ne_some.mpr fun us hus => ?_)
      rw [hs.lookup_eq htick hv.reachable.daemonInv hus] at hnew
      cases hnew

/-- A ring holds samples if they are its front part, above zeros. -/
def FifoStats.Holds (fifo : FifoStats) (samples : List Stats) : Prop :=
  fifo.samples = (samples ++ List.replicate fifo.size.toNat 0).take fifo.size.toNat

theorem holds_fifoStatsInit (size : ℤ) (n : ℕ) :
    (fifoStatsInit size).Holds (List.replicate n 0) := by
  have hsize : (fifoStatsInit size).size = size := rfl
  rw [FifoStats.Holds, samples_fifoStatsInit, hsize, ← List.replicate_add, List.take_replicate]
  congr 1
  omega

theorem FifoStats.Holds.push {fifo : FifoStats} {samples : List Stats} (h : fifo.Holds samples)
    (hwf : fifo.WellFormed) (x : Stats) : (fifoStatsPush fifo x).Holds (x :: samples) := by
  have hsize : (fifoStatsPush fifo x).size = fifo.size := rfl
  rw [FifoStats.Holds, samples_fifoStatsPush hwf, hsize, h]
  cases fifo.size.toNat with
  | zero => rfl
  | succ n =>
      rw [List.cons_append, List.take_succ_cons, List.take_succ_cons, List.take_take,
        min_eq_left (Nat.le_succ n)]

theorem World.ring_of_some {us : UserStats} (hus : w.users.lookup u = some us) :
    w.ring u = us.stats := by
  simp [World.ring, World.userOrNew, hus]

theorem World.ring_of_none (hnew : w.users.lookup u = none) :
    w.ring u = fifoStatsInit w.cfg.ringSize := by
  simp [World.ring, World.userOrNew, hnew, initUserStats, GovernorConfig.ringSize]

/-- The rings hold the samples of the run. -/
theorem History.ring_holds (h : History past w) (u : Username) :
    (w.ring u).Holds (samplesOf past u) := by
  have hnone : ∀ {past w}, History past w → w.users.lookup u = none →
      (w.ring u).Holds (samplesOf past u) := by
    intro past w hpast hnew
    rw [World.ring_of_none hnew, hpast.samplesOf_of_none hnew]
    exact holds_fifoStatsInit _ _
  induction h with
  | start cfg => exact hnone (.start cfg) rfl
  | @tick past v t hv ih =>
      have hinv := hv.reachable.daemonInv
      cases hus : (proceedAccounts t v).users.lookup u with
      | none => exact hnone (hv.tick t) hus
      | some us =>
          rw [World.ring_of_some hus, (oneSample hinv t).ring u us hus]
          exact ih.push (hinv.ring_wellFormed u) _
  | @other past v w' hv hs htick ih =>
      have hinv := hv.reachable.daemonInv
      cases hus : w'.users.lookup u with
      | none => exact hnone (hv.other hs htick) hus
      | some us =>
          rw [World.ring_of_some hus]
          cases hold : v.users.lookup u with
          | none =>
              rcases (hs.newUsers htick hinv).users u us hus with hsame | ⟨a, rfl⟩
              · simp [hold] at hsame
              · rw [hv.samplesOf_of_none hold]
                exact holds_fifoStatsInit _ _
          | some old =>
              rw [World.ring_of_some hold] at ih
              obtain rfl : old = us :=
                Option.some.inj ((hs.lookup_eq htick hinv hold).symm.trans hus)
              exact ih

/-- As long as the longest interval does not grow, it fits into every ring. -/
theorem CoveredHistory.ringSize_le (h : CoveredHistory past w) (u : Username) :
    w.cfg.ringSize ≤ (w.ring u).size := by
  have hnone : ∀ {w : World}, w.users.lookup u = none → w.cfg.ringSize ≤ (w.ring u).size := by
    intro w hnew
    rw [World.ring_of_none hnew]
    exact le_refl _
  induction h with
  | start cfg => exact hnone rfl
  | @tick past v t hv ih =>
      have hinv := hv.history.reachable.daemonInv
      have hcfg : (proceedAccounts t v).cfg = v.cfg :=
        (proceedAccounts_base t v).cfg.trans (sampled_sampleUsers hinv t).frame.cfg
      cases hus : (proceedAccounts t v).users.lookup u with
      | none => exact hnone hus
      | some us =>
          rw [World.ring_of_some hus, (oneSample hinv t).ring u us hus, hcfg]
          exact ih
  | @other past v w' hv hs htick hcfg ih =>
      have hinv := hv.history.reachable.daemonInv
      cases hus : w'.users.lookup u with
      | none => exact hnone hus
      | some us =>
          rw [World.ring_of_some hus]
          rcases (hs.newUsers htick hinv).users u us hus with hsame | ⟨a, rfl⟩
          · rw [World.ring_of_some hsame] at ih
            exact hcfg.trans ih
          · exact le_refl _

end Rings

/-! ### The figures of a tick -/

section Figures

variable {past : List (TickInput × World)} {w : World} {u : Username}

/-- An average over a length that fits into the ring is a mean over a window. -/
theorem FifoStats.Holds.avg {fifo : FifoStats} {samples : List Stats} (h : fifo.Holds samples)
    {length : ℤ} (hfits : length ≤ fifo.size) :
    fifoStatsAvg fifo length = windowMean length samples := by
  rw [fifoStatsAvg_eq, h, min_eq_right hfits, windowMean, List.take_take,
    min_eq_left (Int.toNat_le_toNat hfits), List.take_append, List.take_replicate,
    totalStats_append_zeros]

theorem FifoStats.Holds.newest {fifo : FifoStats} {samples : List Stats} (h : fifo.Holds samples)
    (hsize : 0 < fifo.size) : fifoStatsGet fifo 0 = samples.headD 0 := by
  have hget := fifo.samples_getElem? (i := 0) hsize
  rw [h, List.getElem?_take_of_lt (by omega)] at hget
  cases samples with
  | nil =>
      rw [List.nil_append, List.getElem?_replicate, if_pos (by omega)] at hget
      exact (Option.some.inj hget).symm
  | cons x samples => exact (Option.some.inj hget).symm

theorem windowMean_replicate (length : ℤ) (n : ℕ) :
    windowMean length (List.replicate n 0) = 0 := by
  rw [windowMean, List.take_replicate, totalStats_replicate_zero]
  ext <;> simp [Stats.divide]

theorem windowUsage_replicate (cfg : GovernorConfig) (n : ℕ) :
    windowUsage cfg (List.replicate n 0) = 0 := by
  ext1
  · cases n <;> rfl
  · exact windowMean_replicate _ n
  · exact windowMean_replicate _ n
  · exact windowMean_replicate _ n

/-- The figures of a user in a tick are those of the windows. -/
theorem CoveredHistory.userUsage_eq (h : CoveredHistory past w)
    (hpos : ∀ n ∈ averagedLengths w.cfg, 1 ≤ n) (t : TickInput) (u : Username) :
    userUsage (sampleUsers t w).users u = windowUsage w.cfg (samplesOf ((t, w) :: past) u) := by
  have hinv := h.history.reachable.daemonInv
  have hlookup : (sampleUsers t w).users.lookup u = (proceedAccounts t w).users.lookup u := by
    rw [(proceedAccounts_base t w).users]
  rw [userUsage, hlookup]
  cases hus : (proceedAccounts t w).users.lookup u with
  | none =>
      rw [(h.history.tick t).samplesOf_of_none hus, windowUsage_replicate]
      rfl
  | some us =>
      have hsampled : us = sampledUser t { w with tickId := w.tickId + 1 } u := by
        rw [proceedAccounts_lookup hinv] at hus
        split at hus
        · exact (Option.some.inj hus).symm
        · cases hus
      have hstats := (oneSample hinv t).ring u us hus
      have hholds : us.stats.Holds (samplesOf ((t, w) :: past) u) := by
        rw [hstats]
        exact (h.history.ring_holds u).push (hinv.ring_wellFormed u) _
      have hfits : ∀ n ∈ averagedLengths w.cfg, n ≤ us.stats.size := by
        intro n hn
        rw [hstats]
        exact (length_le_ringSize hpos n hn).trans (h.ringSize_le u)
      have havg : ∀ n ∈ averagedLengths w.cfg, fifoStatsAvg us.stats n =
          windowMean n (samplesOf ((t, w) :: past) u) := fun n hn => hholds.avg (hfits n hn)
      have hlong : intOfUnsigned w.cfg.intervalLong ∈ averagedLengths w.cfg := by
        simp [averagedLengths]
      have hsize := (hpos _ hlong).trans (hfits _ hlong)
      subst hsampled
      ext1
      · exact hholds.newest hsize
      · exact havg _ hlong
      · exact havg _ (by simp [averagedLengths])
      · exact havg _ (by simp [averagedLengths])

/-- The figures of an account in a tick are the sums of the windows of its users. -/
theorem CoveredHistory.accountUsage_eq (h : CoveredHistory past w)
    (hpos : ∀ n ∈ averagedLengths w.cfg, 1 ≤ n) (t : TickInput) {a : Username} {ac : Account}
    (hac : (gatherStats t w).accounts.lookup a = some ac) :
    ac.usage = windowsOf w.cfg ((t, w) :: past) ac.users := by
  have hinv := h.history.reachable.daemonInv
  rw [gatherStats_accounts] at hac
  obtain ⟨bc, hbc, rfl⟩ := Option.map_eq_some_iff.mp hac
  have hne := ((hinv.sampleUsers t).owns a bc hbc).users_ne
  rw [calcAccStats_eq_total _ hne]
  refine congrArg Usage.total (List.map_congr_left fun u _ => ?_)
  exact h.userUsage_eq hpos t u

end Figures

/-! ### The decision -/

/-- A tick compares the account with its limits: it is not restricted, or in limit mode it is, or
in period mode its restriction has run out. -/
def Due (cfg : GovernorConfig) (now : ℤ) (ac : Account) : Prop :=
  ac.timeout = 0 ∨
    0 < ac.startCount ∧ (cfg.restrictMode = true ∨ ac.startCount + ac.timeout ≤ now)

/-- What a tick makes of an account, by the first limit that it is over. -/
structure Verdict (cfg : GovernorConfig) (now : ℤ) (ac : Account) (g : Globals)
    (r : Account × Globals) : Prop where
  restricts : Watched cfg ac → Due cfg now ac →
    ∀ pair, firstOverLimit (configGetAccountLimit cfg ac.id) ac = some pair →
      RestrictedAt now pair ac r.1 ∧ Enqueues g (restrictCommands ac) r.2
  spares : ¬ (Watched cfg ac ∧ Due cfg now ac ∧ Exceeds cfg ac) →
    r.1.usage = ac.usage ∧
      (r.1.timeout = 0 ∨ r.1.timeout = ac.timeout ∧ r.1.startCount = ac.startCount ∧
        r.1.info = ac.info) ∧
      ∃ cmds, Enqueues g cmds r.2 ∧ ∀ c ∈ cmds, c.command ≠ .freeze

section Verdict

variable {cfg : GovernorConfig} {now : ℤ} {ac : Account} {g : Globals}

theorem Due.out_of_period (h : Due cfg now ac) (hmode : cfg.restrictMode = false)
    (ht : ac.timeout ≠ 0) : 0 < ac.startCount ∧ ac.startCount + ac.timeout ≤ now := by
  simpa [Due, hmode, ht] using h

theorem exceeds_iff_isSome (cfg : GovernorConfig) (ac : Account) :
    Exceeds cfg ac ↔ (firstOverLimit (configGetAccountLimit cfg ac.id) ac).isSome = true := by
  have hspec := (check_restrict_spec cfg 0 ac .init).1
  rw [← checkRestrict_fst 0 .init, hspec.returns_iff, firstOverLimit_isSome]

theorem verdict_same (hg : g.Ready)
    (hdue : ¬ (Watched cfg ac ∧ Due cfg now ac ∧ Exceeds cfg ac)) :
    Verdict cfg now ac g (ac, g) := by
  refine ⟨fun hw hd pair hpair => ?_, fun _ => ⟨rfl, .inr ⟨rfl, rfl, rfl⟩, [], ⟨hg, by simp⟩, by simp⟩⟩
  have he : Exceeds cfg ac := by
    rw [exceeds_iff_isSome, hpair]
    rfl
  exact absurd ⟨hw, hd, he⟩ hdue

/-- A restriction that is lifted. -/
theorem verdict_lifted (he : cfg.Enforcing) (hg : g.Ready) (hover : ¬ Exceeds cfg ac)
    {ac' : Account} (husage : ac'.usage = ac.usage) (ht : ac'.timeout = 0) :
    Verdict cfg now ac g (ac', accountUnrestrict cfg ac' g) := by
  refine ⟨fun _ _ pair hpair => ?_, fun _ => ⟨husage, .inl ht, _, accountUnrestrict_enqueues he ac' hg, ?_⟩⟩
  · rw [exceeds_iff_isSome, hpair] at hover
    simp at hover
  · intro c hc
    rw [(mem_broadcast.mp hc).2]
    simp

theorem accountAnalyzeLimit_verdict (he : cfg.Enforcing) (hmode : cfg.restrictMode = true)
    (hg : g.Ready) (now : ℤ) (ac : Account) :
    Verdict cfg now ac g (accountAnalyzeLimit cfg now ac g) := by
  by_cases hw : Watched cfg ac
  · by_cases hd : ac.timeout = 0 ∨ 0 < ac.startCount
    · by_cases hover : Exceeds cfg ac
      · obtain ⟨pair, hpair⟩ := Option.isSome_iff_exists.mp ((exceeds_iff_isSome cfg ac).mp hover)
        have hcheck : checkRestrictLimit cfg now ac g = (true, restrictPeriodLimit cfg now
            (isStatOverlimitCurrent ac.current (configGetAccountLimit cfg ac.id)) pair.1 pair.2
            ac g) := by
          rw [checkRestrictLimit, checkPeriods_eq, hpair]
        rw [accountAnalyzeLimit_restricts he.useLve he.allLve hw hd hcheck]
        have hdue : Due cfg now ac := hd.imp_right fun hs => ⟨hs, .inl hmode⟩
        refine ⟨fun _ _ pair' hpair' => ?_, fun hnot => absurd ⟨hw, hdue, hover⟩ hnot⟩
        obtain rfl := Option.some.inj (hpair.symm.trans hpair')
        exact ⟨⟨rfl, rfl, rfl, rfl, rfl, rfl, rfl, rfl⟩, restrictPeriodLimit_enqueues he _ _ _ _ _ hg⟩
      · by_cases hx : ac.timeout = 0 ∨ now < ac.startCount + ac.timeout
        · rw [accountAnalyzeLimit_keeps_on he.useLve he.allLve hw hover hx]
          exact verdict_same hg fun hall => hover hall.2.2
        · obtain ⟨ht, hlate⟩ := not_or.mp hx
          rw [accountAnalyzeLimit_releases he.useLve he.allLve hw hover ht (hd.resolve_left ht)
            (not_lt.mp hlate)]
          exact verdict_lifted he hg hover rfl rfl
    · obtain ⟨ht, hs⟩ := not_or.mp hd
      rw [accountAnalyzeLimit_stuck he.useLve he.allLve hw ht hs]
      refine verdict_same hg fun hall => hd ?_
      exact hall.2.1.imp_right And.left
  · rw [accountAnalyzeLimit_ignored hw]
    exact verdict_same hg fun hall => hw hall.1

theorem checkRestrict_of_first {pair : GovernorsPeriodName × GovernorsFieldName}
    (hpair : firstOverLimit (configGetAccountLimit cfg ac.id) ac = some pair) (now : ℤ)
    (g : Globals) :
    checkRestrict cfg now ac g = (true, restrictPeriod cfg now
      (isStatOverlimitCurrent ac.current (configGetAccountLimit cfg ac.id)) pair.1 pair.2 ac g) := by
  rw [checkRestrict, checkPeriods_eq, hpair]

theorem accountAnalyze_verdict (he : cfg.Enforcing) (hmode : cfg.restrictMode = false)
    (hg : g.Ready) (now : ℤ) (ac : Account) :
    Verdict cfg now ac g (accountAnalyze cfg now ac g) := by
  by_cases hw : Watched cfg ac
  · by_cases hd : Due cfg now ac
    · by_cases hover : Exceeds cfg ac
      · obtain ⟨pair, hpair⟩ := Option.isSome_iff_exists.mp ((exceeds_iff_isSome cfg ac).mp hover)
        refine ⟨fun _ _ pair' hpair' => ?_, fun hnot => absurd ⟨hw, hd, hover⟩ hnot⟩
        obtain rfl := Option.some.inj (hpair.symm.trans hpair')
        by_cases ht : ac.timeout = 0
        · rw [accountAnalyze_restricts he.useLve he.allLve hw ht (checkRestrict_of_first hpair now g)]
          exact ⟨⟨rfl, rfl, rfl, rfl, rfl, rfl, rfl, rfl⟩, restrictPeriod_enqueues he _ _ _ _ _ hg⟩
        · obtain ⟨hs, hx⟩ := hd.out_of_period hmode ht
          have hexpired : firstOverLimit (configGetAccountLimit cfg (expired now ac).id)
              (expired now ac) = some pair := hpair
          rw [accountAnalyze_expires he.useLve he.allLve hw ht hs hx,
            expireRestrict_restricts (checkRestrict_of_first hexpired now g)]
          exact ⟨⟨rfl, rfl, rfl, rfl, rfl, rfl, rfl, rfl⟩,
            restrictPeriod_enqueues he _ _ _ _ (expired now ac) hg⟩
      · by_cases ht : ac.timeout = 0
        · by_cases hs : 0 < ac.startCount ∧ ac.startCount + cfg.timeout.toNat ≤ now
          · rw [accountAnalyze_forgives he.useLve he.allLve hw ht hover hs.1 hs.2]
            refine ⟨fun _ _ pair hpair => ?_, fun _ => ⟨rfl, .inl rfl, [], ⟨hg, by simp⟩, by simp⟩⟩
            rw [exceeds_iff_isSome, hpair] at hover
            simp at hover
          · rw [accountAnalyze_quiet he.useLve he.allLve hw ht hover hs]
            exact verdict_same hg fun hall => hover hall.2.2
        · obtain ⟨hs, hx⟩ := hd.out_of_period hmode ht
          rw [accountAnalyze_expires he.useLve he.allLve hw ht hs hx, expireRestrict_releases hover]
          exact verdict_lifted he hg hover rfl rfl
    · obtain ⟨ht, hs⟩ := not_or.mp hd
      rw [accountAnalyze_runs_on he.useLve he.allLve hw ht fun hboth => hs ⟨hboth.1, .inr hboth.2⟩]
      exact verdict_same hg fun hall => hd hall.2.1
  · rw [accountAnalyze_ignored hw]
    exact verdict_same hg fun hall => hw hall.1

theorem analyzeMode_verdict (he : cfg.Enforcing) (hg : g.Ready) (now : ℤ) (ac : Account) :
    Verdict cfg now ac g (analyzeMode cfg now ac g) := by
  rw [analyzeMode]
  split
  · rename_i hmode
    exact accountAnalyzeLimit_verdict he hmode hg now ac
  · rename_i hmode
    exact accountAnalyze_verdict he (Bool.eq_false_iff.mpr hmode) hg now ac

theorem Verdict.usage {r : Account × Globals} (h : Verdict cfg now ac g r) :
    r.1.usage = ac.usage := by
  by_cases hall : Watched cfg ac ∧ Due cfg now ac ∧ Exceeds cfg ac
  · obtain ⟨hw, hd, hover⟩ := hall
    obtain ⟨pair, hpair⟩ := Option.isSome_iff_exists.mp ((exceeds_iff_isSome cfg ac).mp hover)
    have hmark := (h.restricts hw hd pair hpair).1
    rw [Account.usage, Account.usage, hmark.current, hmark.longAverage, hmark.midAverage,
      hmark.shortAverage]
  · exact (h.spares hall).1

/-- When a decision sends a FREEZE. -/
theorem Verdict.sends {r : Account × Globals} (h : Verdict cfg now ac g r) :
    ∃ cmds, Enqueues g cmds r.2 ∧ ∀ u ∈ ac.users, ⟨u, .freeze⟩ ∈ cmds ↔
      Watched cfg ac ∧ Due cfg now ac ∧ Exceeds cfg ac ∧ ac.restricted = 0 := by
  by_cases hall : Watched cfg ac ∧ Due cfg now ac ∧ Exceeds cfg ac
  · obtain ⟨hw, hd, hover⟩ := hall
    obtain ⟨pair, hpair⟩ := Option.isSome_iff_exists.mp ((exceeds_iff_isSome cfg ac).mp hover)
    refine ⟨restrictCommands ac, (h.restricts hw hd pair hpair).2, fun u hu => ?_⟩
    by_cases hlevel : ac.restricted = 0
    · simp [restrictCommands, hlevel, mem_broadcast, hu, hw, hd, hover]
    · simp [restrictCommands, hlevel]
  · obtain ⟨-, -, cmds, hcmds, hnone⟩ := h.spares hall
    refine ⟨cmds, hcmds, fun u _ => iff_of_false (fun hmem => hnone _ hmem rfl) ?_⟩
    rintro ⟨hw, hd, hover, -⟩
    exact hall ⟨hw, hd, hover⟩

end Verdict

/-! ### The run -/

/-- An account after a tick, by the windows of its users: the first limit they are over restricts
it, and only then a FREEZE is sent, if it was at level zero. -/
structure DecidedOnWindows (cfg : GovernorConfig) (now : ℤ) (past : List (TickInput × World))
    (old ac : Account) (cmds : List Command) : Prop where
  figures : ac.usage = windowsOf cfg past ac.users
  restricts : Watched cfg old → Due cfg now old →
    ∀ pair, firstOverLimit (configGetAccountLimit cfg old.id) ac = some pair →
      ac.info = ⟨pair.1, pair.2⟩ ∧ ac.startCount = now
  spares : ¬ (Watched cfg old ∧ Due cfg now old ∧
      (firstOverLimit (configGetAccountLimit cfg old.id) ac).isSome) →
    ac.timeout = 0 ∨ ac.timeout = old.timeout ∧ ac.startCount = old.startCount
  freezes : ∀ u ∈ ac.users, ⟨u, .freeze⟩ ∈ cmds ↔
    Watched cfg old ∧ Due cfg now old ∧
      (firstOverLimit (configGetAccountLimit cfg old.id) ac).isSome ∧ old.restricted = 0

theorem firstOverLimit_of_usage_eq (sl : StatsCfg) {ac bc : Account} (h : ac.usage = bc.usage) :
    firstOverLimit sl ac = firstOverLimit sl bc := by
  obtain ⟨hcurrent, hlong, hmid, hshort⟩ := Usage.mk.inj h
  rw [firstOverLimit_eq, firstOverLimit_eq, hcurrent, hlong, hmid, hshort]

section Run

variable {past : List (TickInput × World)} {w : World}

/-- The decision about the gathered account, told of the account before the tick. -/
theorem Gathered.watched_iff {old ac : Account} (h : Gathered w old ac) (cfg : GovernorConfig) :
    Watched cfg ac ↔ Watched cfg old := by
  rw [Watched, Watched, h.id_eq]

theorem Gathered.due_iff {old ac : Account} (h : Gathered w old ac) (cfg : GovernorConfig) (now : ℤ) :
    Due cfg now ac ↔ Due cfg now old := by
  rw [Due, Due, h.timeout_eq, h.startCount_eq]

/-- One tick decides about each account on the windows of its users. -/
theorem CoveredHistory.decided (h : CoveredHistory past w) (he : w.cfg.Enforcing)
    (hpos : ∀ n ∈ averagedLengths w.cfg, 1 ≤ n) (t : TickInput) {a : Username} {ac : Account}
    (hac : (proceedAccounts t w).accounts.lookup a = some ac) :
    ∃ cmds, (proceedAccounts t w).globals.enqueued = w.globals.enqueued ++ cmds ∧
      DecidedOnWindows w.cfg t.now ((t, w) :: past) (w.accountOrNew a) ac cmds := by
  have hinv := h.history.reachable.daemonInv
  obtain ⟨gc, hgc⟩ := Option.isSome_iff_exists.mp (gatherStats_of_proceedAccounts t hac)
  have hgathered := gathered_gatherStats hinv t hgc
  obtain ⟨g, hg, ⟨before, hbefore, hothers⟩, hl, ⟨after, hafter, hothers'⟩⟩ :=
    proceedAccounts_visit hinv t hgc
  have hverdict := analyzeMode_verdict he hg t.now gc
  have husers : (analyzeMode w.cfg t.now gc g).1.users = gc.users := by
    rw [← analyzeMode_apply]
    exact (analyzeMode_keeps _ t.now w.cfg gc hg).users_eq
  obtain rfl : (analyzeMode w.cfg t.now gc g).1 = ac := Option.some.inj (hl.symm.trans hac)
  generalize analyzeMode w.cfg t.now gc g = r at hverdict husers hafter ⊢
  obtain ⟨sent, hsent, hfreezes⟩ := hverdict.sends
  have hfirst : firstOverLimit (configGetAccountLimit w.cfg (w.accountOrNew a).id) r.1 =
      firstOverLimit (configGetAccountLimit w.cfg gc.id) gc := by
    rw [hgathered.id_eq, firstOverLimit_of_usage_eq _ hverdict.usage]
  refine ⟨before ++ sent ++ after, ?_, ?_, ?_, ?_, ?_⟩
  · rw [hafter, hsent.enqueued, hbefore]
    simp
  · rw [hverdict.usage, husers]
    exact h.accountUsage_eq hpos t hgc
  · intro hw hd pair hpair
    have hmark := (hverdict.restricts ((hgathered.watched_iff _).mpr hw)
      ((hgathered.due_iff _ _).mpr hd) pair (hfirst ▸ hpair)).1
    exact ⟨hmark.info, hmark.startCount⟩
  · intro hnot
    rw [hfirst, ← exceeds_iff_isSome, ← hgathered.watched_iff, ← hgathered.due_iff] at hnot
    obtain ⟨-, hmark, -⟩ := hverdict.spares hnot
    rw [hgathered.timeout_eq, hgathered.startCount_eq] at hmark
    exact hmark.imp_right fun hsame => ⟨hsame.1, hsame.2.1⟩
  · intro u hu
    rw [husers] at hu
    have houter : ⟨u, .freeze⟩ ∈ before ++ sent ++ after ↔ ⟨u, .freeze⟩ ∈ sent := by
      have hnot : (⟨u, .freeze⟩ : Command) ∉ before := fun hmem => hothers _ hmem hu
      have hnot' : (⟨u, .freeze⟩ : Command) ∉ after := fun hmem => hothers' _ hmem hu
      simp [hnot, hnot']
    rw [houter, hfreezes u hu, hgathered.watched_iff, hgathered.due_iff, exceeds_iff_isSome, hfirst,
      hgathered.restricted_eq]

/-- A tick of a run with the run that led to it. -/
theorem CoveredHistory.drop (h : CoveredHistory past w) {i : ℕ} {t : TickInput} {v : World}
    (hi : past[i]? = some (t, v)) :
    CoveredHistory (past.drop (i + 1)) v ∧ past.drop i = (t, v) :: past.drop (i + 1) := by
  induction h generalizing i with
  | start cfg => simp at hi
  | tick t' hv ih =>
      cases i with
      | zero =>
          obtain ⟨rfl, rfl⟩ := Prod.mk.inj (Option.some.inj hi)
          exact ⟨hv, rfl⟩
      | succ i => exact ih hi
  | other _ _ _ _ ih => exact ih hi

/-- In every run in which no reread lengthens the longest interval, each tick decides about each
account on the windows of its users. -/
theorem ticks_decide_on_windows (h : CoveredHistory past w) {i : ℕ} {t : TickInput} {v : World}
    (hi : past[i]? = some (t, v)) (he : v.cfg.Enforcing) (hpos : ∀ n ∈ averagedLengths v.cfg, 1 ≤ n)
    {a : Username} {ac : Account} (hac : (proceedAccounts t v).accounts.lookup a = some ac) :
    ∃ cmds, (proceedAccounts t v).globals.enqueued = v.globals.enqueued ++ cmds ∧
      DecidedOnWindows v.cfg t.now (past.drop i) (v.accountOrNew a) ac cmds := by
  obtain ⟨hv, hpast⟩ := h.drop hi
  rw [hpast]
  exact hv.decided he hpos t hac

end Run

/-- A daemon that has counted a burst of a new user after a tick without traffic. -/
def burstWorld : World :=
  incrementCounters sampleUser 500 0 0 0 (proceedAccounts plainTick (.init (shippedConfig true)))

/-- The run that decides about the burst. -/
def burstPast : List (TickInput × World) :=
  [(plainTick, burstWorld), (plainTick, .init (shippedConfig true))]

theorem burstPast_covered : CoveredHistory burstPast (proceedAccounts plainTick burstWorld) :=
  .tick plainTick (.other (.tick plainTick (.start _)) (.increment sampleUser 500 0 0 0 _) rfl
    (le_refl _))

theorem burstWorld_lengths : ∀ n ∈ averagedLengths burstWorld.cfg, 1 ≤ n := by
  decide +kernel

theorem burstWorld_decides :
    ((proceedAccounts plainTick burstWorld).accounts.lookup sampleUser).isSome = true := by
  decide +kernel

theorem ticks_decide_on_windows_burst :
    ∃ ac cmds, (proceedAccounts plainTick burstWorld).accounts.lookup sampleUser = some ac ∧
      (proceedAccounts plainTick burstWorld).globals.enqueued = burstWorld.globals.enqueued ++ cmds ∧
      DecidedOnWindows burstWorld.cfg plainTick.now burstPast (burstWorld.accountOrNew sampleUser)
        ac cmds := by
  obtain ⟨ac, hac⟩ := Option.isSome_iff_exists.mp burstWorld_decides
  obtain ⟨cmds, hcmds, hdecided⟩ := ticks_decide_on_windows (i := 0) burstPast_covered rfl
    (shippedConfig_enforcing true) burstWorld_lengths hac
  exact ⟨ac, cmds, hac, hcmds, hdecided⟩

end DbGovernor
