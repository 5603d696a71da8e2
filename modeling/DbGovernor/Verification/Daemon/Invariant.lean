import DbGovernor.Verification.Daemon.Ownership
import DbGovernor.Verification.FifoStats.Samples

/-!
# What holds in every reachable state

Besides the ownership of users: the ring of every user is well formed, its samples are not
negative, and no user was sampled in a later tick than the current one.
-/

namespace DbGovernor

open Rounding (fl)

structure UserInv (tickId : ℕ) (us : UserStats) : Prop where
  tick_le : us.tick ≤ tickId
  wellFormed : us.stats.WellFormed
  nonneg : us.stats.Nonneg

structure DaemonInv (w : World) : Prop extends Owned w where
  user : ∀ u us, w.users.lookup u = some us → UserInv w.tickId us

theorem DaemonInv.init (cfg : GovernorConfig) : DaemonInv (World.init cfg) :=
  ⟨.init cfg, fun u us h => by simp [World.init] at h⟩

/-! ### Users -/

theorem UserInv.init (cfg : GovernorConfig) (u a : Username) (tickId : ℕ) :
    UserInv tickId (initUserStats cfg u a) := by
  refine ⟨Nat.zero_le _, fifoStatsInit_wellFormed _, ?_⟩
  intro s hs
  rw [initUserStats, samples_fifoStatsInit] at hs
  rw [List.eq_of_mem_replicate hs]

section User

variable {tickId : ℕ} {us : UserStats} {st : Stats}

theorem UserInv.pushStats [Rounding] (h : UserInv tickId us) (cfg : GovernorConfig) (hst : 0 ≤ st) :
    UserInv tickId (pushStats cfg st { us with tick := tickId }) := by
  refine ⟨le_refl _, fifoStatsPush_wellFormed h.wellFormed st, ?_⟩
  intro s hs
  rw [DbGovernor.pushStats, avgStats, samples_fifoStatsPush h.wellFormed] at hs
  rcases List.mem_cons.mp (List.mem_of_mem_take hs) with rfl | hmem
  · exact hst
  · exact h.nonneg s hmem

theorem UserInv.refreshStats [Rounding] (h : UserInv tickId us) (cfg : GovernorConfig)
    (hst : 0 ≤ st) :
    UserInv tickId (refreshStats cfg st us) := by
  refine ⟨h.tick_le, fifoStatsRefreshLast_wellFormed h.wellFormed st, ?_⟩
  intro s hs
  rcases mem_samples_fifoStatsRefreshLast h.wellFormed hs with hmem | ⟨t, ht, rfl⟩
  · exact h.nonneg s hmem
  · exact sumStats_nonneg (h.nonneg t ht) hst

end User

/-- A sample taken from a counter is not negative. -/
theorem clacStatsDifferenceInnerFromCounter_nonneg [Rounding] (cpu read write : ℤ)
    (tmIn newTm : ℚ) :
    0 ≤ clacStatsDifferenceInnerFromCounter cpu read write tmIn newTm := by
  have hquotient : ∀ {n : ℤ} {tm : ℚ}, 0 < tm → 0 ≤ n → 0 ≤ fl (fl n / tm) := by
    intro n tm htm hn
    have hfl : 0 ≤ fl (n : ℚ) := Rounding.fl_nonneg (by exact_mod_cast hn)
    exact Rounding.fl_nonneg (by positivity)
  have hceil : ∀ (n : ℤ) (tm : ℚ), 0 < tm → 0 ≤ if n ≥ 0 then ⌈fl (fl n / tm)⌉ else 0 := by
    intro n tm htm
    split
    · rename_i hn
      exact Int.ceil_nonneg (hquotient htm hn)
    · exact le_refl 0
  rw [clacStatsDifferenceInnerFromCounter]
  dsimp only
  split
  · have htm : (0 : ℚ) < if fl (newTm - tmIn) < 1 then 1 else fl (newTm - tmIn) := by
      split
      · norm_num
      · assumption
    refine ⟨?_, hceil write _ htm, hceil read _ htm⟩
    dsimp only
    split
    · rename_i hcpu
      exact Rounding.fl_nonneg (div_nonneg (hquotient htm hcpu.le) (by norm_num [scClkTck]))
    · exact le_refl 0
  · exact le_refl 0

theorem clacStatsDifferenceInnerFromCounter_rounded [Rounding] (cpu read write : ℤ)
    (tmIn newTm : ℚ) : (clacStatsDifferenceInnerFromCounter cpu read write tmIn newTm).Rounded := by
  rw [clacStatsDifferenceInnerFromCounter, Stats.Rounded]
  dsimp only
  split
  · dsimp only
    split
    · exact Rounding.fl_fl _
    · exact Rounding.fl_zero
  · exact Rounding.fl_zero

/-! ### Parts of a step -/

section Parts

variable {w : World}

theorem DaemonInv.setUser (h : DaemonInv w) {u : Username} {us us' : UserStats}
    (hus : w.users.lookup u = some us) (hacc : us'.account = us.account)
    (hinv : UserInv w.tickId us') : DaemonInv { w with users := w.users.insert u us' } := by
  refine ⟨h.toOwned.setUser hus hacc, ?_⟩
  intro v vs hv
  rcases lookup_insert_cases hv with ⟨rfl, rfl⟩ | ⟨-, hv⟩
  · exact hinv
  · exact h.user v vs hv

theorem DaemonInv.addUserStats (h : DaemonInv w) {u : Username}
    (hnew : w.users.lookup u = none) : DaemonInv (addUserStats u w) := by
  refine ⟨h.toOwned.addUserStats hnew, ?_⟩
  intro v vs hv
  obtain ⟨t, ac, -, heq⟩ := addUserStats_spec u w
  rw [heq] at hv ⊢
  rcases lookup_insert_cases hv with ⟨rfl, rfl⟩ | ⟨-, hv⟩
  · exact .init w.cfg v _ w.tickId
  · exact h.user v vs hv

theorem DaemonInv.addEmptyStatsForUid (h : DaemonInv w) (u : Username) :
    DaemonInv (addEmptyStatsForUid u w) := by
  cases hu : w.users.lookup u with
  | none => simpa [DbGovernor.addEmptyStatsForUid, hu] using h.addUserStats hu
  | some us => simpa [DbGovernor.addEmptyStatsForUid, hu] using h

theorem DaemonInv.onAccount (h : DaemonInv w)
    {f : GovernorConfig → Account → Globals → Account × Globals}
    (hf : ∀ cfg ac g, g.Ready → Keeps ac g (f cfg ac g)) (a : Username) :
    DaemonInv (w.onAccount f a) := by
  refine ⟨h.toOwned.onAccount hf a, ?_⟩
  have husers : (w.onAccount f a).users = w.users ∧ (w.onAccount f a).tickId = w.tickId := by
    rw [World.onAccount]
    split <;> exact ⟨rfl, rfl⟩
  rw [husers.1, husers.2]
  exact h.user

theorem DaemonInv.foldl_onAccount (h : DaemonInv w)
    {f : GovernorConfig → Account → Globals → Account × Globals}
    (hf : ∀ cfg ac g, g.Ready → Keeps ac g (f cfg ac g)) (keys : List Username) :
    DaemonInv (keys.foldl (World.onAccount f) w) :=
  List.foldlRecOn keys _ h fun _ hw a _ => hw.onAccount hf a

end Parts

/-! ### A tick -/

/-- The state of a tick before the sums over the accounts. -/
def sampleUsers [Rounding] (t : TickInput) (w : World) : World :=
  let w := { w with tickId := w.tickId + 1 }
  let w := (t.ordCounters.order w.counters.keys).foldl (addUserStatsFromCounter t) w
  (t.ordUsers.order w.users.keys).foldl tickEmptyUsers w

theorem gatherStats_eq [Rounding] (t : TickInput) (w : World) :
    gatherStats t w = (t.ordSums.order (sampleUsers t w).accounts.keys).foldl
      (World.onAccount fun _ ac g => (calcAccStats (sampleUsers t w).users ac, g))
      (sampleUsers t w) := rfl

theorem calcAccStats_keeps [Rounding] (users : HashTable UserStats) (ac : Account) {g : Globals}
    (h : g.Ready) : Keeps ac g (calcAccStats users ac, g) := by
  have hid : (calcAccStats users ac).id = ac.id ∧ (calcAccStats users ac).users = ac.users := by
    rw [calcAccStats]
    split <;> exact ⟨rfl, rfl⟩
  exact ⟨hid.1, hid.2, .refl h⟩

theorem analyzeMode_keeps [Rounding] (mode : Bool) (now : ℤ) (cfg : GovernorConfig) (ac : Account)
    {g : Globals} (h : g.Ready) :
    Keeps ac g ((if mode then accountAnalyzeLimit cfg now else accountAnalyze cfg now) ac g) := by
  cases mode with
  | true => exact accountAnalyzeLimit_keeps h cfg now ac
  | false => exact accountAnalyze_keeps h cfg now ac

section Tick

variable {w : World}

theorem DaemonInv.addNewStats [Rounding] (h : DaemonInv w) (u : Username) {st : Stats}
    (hst : 0 ≤ st) :
    DaemonInv (addNewStats u st w.tickId w) := by
  have hw := h.addEmptyStatsForUid u
  have htick := (addEmptyStatsForUid_base u w).2
  rw [DbGovernor.addNewStats]
  generalize DbGovernor.addEmptyStatsForUid u w = w' at hw htick ⊢
  rw [← htick]
  cases hus : w'.users.lookup u with
  | none => simpa [hus] using hw
  | some us =>
      have hinv := hw.user u us hus
      simp only
      split
      · exact hw.setUser hus rfl (hinv.refreshStats w'.cfg hst)
      · exact hw.setUser hus rfl (hinv.pushStats w'.cfg hst)

theorem DaemonInv.resetCounters (h : DaemonInv w) (u : Username) (tm : ℚ) :
    DaemonInv (resetCounters u tm w) := by
  rw [DbGovernor.resetCounters]
  split
  · exact h
  · exact ⟨⟨h.ready, h.owns, h.logged⟩, h.user⟩

theorem DaemonInv.addUserStatsFromCounter [Rounding] (h : DaemonInv w) (t : TickInput)
    (key : Username) :
    DaemonInv (addUserStatsFromCounter t w key) := by
  rw [DbGovernor.addUserStatsFromCounter]
  split
  · exact h
  · refine DaemonInv.resetCounters ?_ key _
    exact h.addNewStats key (clacStatsDifferenceInnerFromCounter_nonneg _ _ _ _ _)

theorem DaemonInv.tickEmptyUsers [Rounding] (h : DaemonInv w) (key : Username) :
    DaemonInv (tickEmptyUsers w key) := by
  rw [DbGovernor.tickEmptyUsers]
  split
  · exact h
  · rename_i us hus
    split
    · exact h.setUser hus rfl ((h.user key us hus).pushStats w.cfg (le_refl _))
    · exact h

theorem DaemonInv.nextTick (h : DaemonInv w) : DaemonInv { w with tickId := w.tickId + 1 } := by
  refine ⟨⟨h.ready, h.owns, h.logged⟩, ?_⟩
  intro u us hus
  obtain ⟨ht, hwf, hn⟩ := h.user u us hus
  exact ⟨ht.trans (Nat.le_succ _), hwf, hn⟩

theorem DaemonInv.sampleUsers [Rounding] (h : DaemonInv w) (t : TickInput) : DaemonInv
    (sampleUsers t w) := by
  rw [DbGovernor.sampleUsers]
  refine List.foldlRecOn _ _ ?_ fun _ hw key _ => hw.tickEmptyUsers key
  exact List.foldlRecOn _ _ h.nextTick fun _ hw key _ => hw.addUserStatsFromCounter t key

theorem DaemonInv.gatherStats [Rounding] (h : DaemonInv w) (t : TickInput) : DaemonInv
    (gatherStats t w) := by
  rw [gatherStats_eq]
  exact (h.sampleUsers t).foldl_onAccount (fun _ ac _ hg => calcAccStats_keeps _ ac hg) _

theorem DaemonInv.analyzeAccounts [Rounding] (h : DaemonInv w) (t : TickInput) :
    DaemonInv (analyzeAccounts t w) :=
  h.foldl_onAccount (fun cfg ac _ hg => analyzeMode_keeps _ t.now cfg ac hg) _

/-- The numbers of restricts play no part in a command or a decision. -/
theorem addDbGovStatitrics_lists (statsWritten : Bool) (g : Globals) :
    (addDbGovStatitrics statsWritten g).commandList = g.commandList ∧
      (addDbGovStatitrics statsWritten g).enqueued = g.enqueued := by
  rw [addDbGovStatitrics]
  split <;> exact ⟨rfl, rfl⟩

/-- The end of a tick changes the numbers of restricts only. -/
theorem proceedAccounts_spec [Rounding] (t : TickInput) (w : World) :
    ∃ g, g.commandList = (analyzeAccounts t (gatherStats t w)).globals.commandList ∧
      g.enqueued = (analyzeAccounts t (gatherStats t w)).globals.enqueued ∧
      proceedAccounts t w = { analyzeAccounts t (gatherStats t w) with globals := g } := by
  rw [proceedAccounts]
  dsimp only
  split
  · obtain ⟨hlist, hlog⟩ := addDbGovStatitrics_lists t.statsWritten
      (analyzeAccounts t (gatherStats t w)).globals
    exact ⟨_, hlist, hlog, rfl⟩
  · exact ⟨_, rfl, rfl, rfl⟩

theorem DaemonInv.proceedAccounts [Rounding] (h : DaemonInv w) (t : TickInput) :
    DaemonInv (proceedAccounts t w) := by
  have hw := (h.gatherStats t).analyzeAccounts t
  obtain ⟨g, hlist, hlog, heq⟩ := proceedAccounts_spec t w
  rw [heq]
  refine ⟨⟨?_, hw.owns, ?_⟩, hw.user⟩
  · rw [Globals.Ready, hlist]
    exact hw.ready
  · rw [hlog]
    exact hw.logged

end Tick

/-! ### Commands and refreshes -/

section Commands

variable {w : World}

theorem DaemonInv.dbctlRestrictNamed [Rounding] (h : DaemonInv w) (now : ℤ) (command : DbCtlCommand)
    (a : Username) : DaemonInv (dbctlRestrictNamed now command w a) := by
  cases ha : w.accounts.lookup a with
  | none => simpa [DbGovernor.dbctlRestrictNamed, ha] using h
  | some ac =>
      simp only [DbGovernor.dbctlRestrictNamed, ha]
      split
      · exact ⟨h.toOwned.setAccount ha (dbctlRestrictAccount_keeps h.ready w.cfg now command ac),
          h.user⟩
      · exact h

theorem DaemonInv.dbctlRestrictSet [Rounding] (h : DaemonInv w) (now : ℤ) (command : DbCtlCommand)
    (key : Username) : DaemonInv (dbctlRestrictSet now command w key) := by
  rw [DbGovernor.dbctlRestrictSet]
  split
  · exact h.dbctlRestrictNamed now command key
  · rename_i hnew
    have hw := h.addUserStats hnew
    dsimp only
    split
    · exact hw.dbctlRestrictNamed now command _
    · exact hw.dbctlRestrictNamed now command key

theorem DaemonInv.addAllUsersToList (h : DaemonInv w) (key : Username) :
    DaemonInv (addAllUsersToList w key) := by
  rw [DbGovernor.addAllUsersToList]
  split
  · exact h
  · exact List.foldlRecOn _ _ h fun _ hw _ _ => ⟨⟨hw.ready, hw.owns, hw.logged⟩, hw.user⟩

theorem DaemonInv.reinitUsersList (h : DaemonInv w) (file : Option (List UInt8))
    (ord : IterOrder) : DaemonInv (reinitUsersList file ord w) := by
  have hw : DaemonInv { w with
      userMap := some (getMapFile w.cfg file).2
      mysql := { w.mysql with badList := (deleteAllusersFromList true w.mysql.badList).2 } } :=
    ⟨⟨h.ready, h.owns, h.logged⟩, h.user⟩
  rw [DbGovernor.reinitUsersList]
  dsimp only
  split
  · exact List.foldlRecOn _ _ hw fun _ hw key _ => hw.addAllUsersToList key
  · exact hw

theorem DaemonInv.setDbuserMap (h : DaemonInv w) (ord : IterOrder) :
    DaemonInv (setDbuserMap ord w) := by
  rw [DbGovernor.setDbuserMap]
  split
  · exact h
  · refine List.foldlRecOn _ _ h ?_
    intro _ hw key _
    split
    · exact hw
    · exact hw.addEmptyStatsForUid _

theorem DaemonInv.runDbctlCommand [Rounding] (h : DaemonInv w) (msg : DbctlMessage) (now : ℤ)
    (ord : IterOrder) : DaemonInv (runDbctlCommand msg now ord w) := by
  cases msg with
  | rereadCfg cfg => exact ⟨⟨h.ready, h.owns, h.logged⟩, h.user⟩
  | reinitUsersList cfg file =>
      have hw : DaemonInv { w with cfg := cfg } := ⟨⟨h.ready, h.owns, h.logged⟩, h.user⟩
      simp only [DbGovernor.runDbctlCommand]
      refine DaemonInv.reinitUsersList ?_ file ord
      split
      · exact hw
      · exact hw.foldl_onAccount (fun cfg ac _ hg => dbctlUnrestrictAllSet_keeps hg cfg ac) _
  | restrict command =>
      simp only [DbGovernor.runDbctlCommand]
      split
      · exact h
      · exact List.foldlRecOn _ _ h fun _ hw key _ => hw.dbctlRestrictSet now command key
  | unrestrict command =>
      simp only [DbGovernor.runDbctlCommand]
      split
      · exact h
      · exact h.foldl_onAccount (fun cfg ac _ hg => dbctlUnrestrictSet_keeps hg cfg now command ac) _
  | unrestrictA =>
      simp only [DbGovernor.runDbctlCommand]
      split
      · exact h
      · exact h.foldl_onAccount (fun cfg ac _ hg => dbctlUnrestrictAllSet_keeps hg cfg ac) _

theorem DaemonInv.parseMapFileEveryHour (h : DaemonInv w) (dataCfg : GovernorConfig)
    (file file' : Option (List UInt8)) (ordMap ordAccounts : IterOrder) :
    DaemonInv (parseMapFileEveryHour dataCfg file file' ordMap ordAccounts w) := by
  have hw : DaemonInv { w with userMap := some (getMapFile dataCfg file).2 } :=
    ⟨⟨h.ready, h.owns, h.logged⟩, h.user⟩
  exact (hw.setDbuserMap ordMap).reinitUsersList file' ordAccounts

end Commands

theorem DaemonInv.incrementCounters {w : World} (h : DaemonInv w) (u : Username)
    (cpu read write : ℤ) (tm : ℚ) : DaemonInv (incrementCounters u cpu read write tm w) := by
  rw [DbGovernor.incrementCounters]
  split <;> exact ⟨⟨h.ready, h.owns, h.logged⟩, h.user⟩

theorem DaemonInv.step [Rounding] {w w' : World} (h : DaemonInv w)
    (hs : DaemonStep w w') : DaemonInv w' := by
  cases hs with
  | increment u cpu read write tm => exact h.incrementCounters u cpu read write tm
  | tick t => exact h.proceedAccounts t
  | dbctl msg now ord => exact h.runDbctlCommand msg now ord
  | mapRefresh dataCfg file file' ordMap ordAccounts =>
      exact h.parseMapFileEveryHour dataCfg file file' ordMap ordAccounts
  | copy _ _ _ => exact ⟨⟨h.ready, h.owns, h.logged⟩, h.user⟩
  | reinit _ => exact ⟨⟨rfl, h.owns, h.logged⟩, h.user⟩
  | spawn _ => exact ⟨⟨h.ready, h.owns, h.logged⟩, h.user⟩
  | work _ _ _ => exact ⟨⟨h.ready, h.owns, h.logged⟩, h.user⟩
  | finish _ => exact ⟨⟨h.ready, h.owns, h.logged⟩, h.user⟩

theorem Reachable.daemonInv [Rounding] {w : World} (h : Reachable w) : DaemonInv w := by
  induction h with
  | start cfg => exact .init cfg
  | step _ hs ih => exact ih.step hs

end DbGovernor
