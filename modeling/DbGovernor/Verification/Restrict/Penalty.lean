import DbGovernor.Verification.Restrict.Period

/-!
# The penalty window

Two rules that one expects of period mode hold on exactly the runs that avoid a certain kind
of tick. Users of a restricted account are frozen unless an account relapses: FREEZE is sent
only from level zero, and the level survives the release. The level follows the penalty
window unless the first offence after the window is seen before its end is.
-/

namespace DbGovernor

/-- One call of `account_analyze`, with the statistics it finds. -/
structure PeriodTick where
  usage : Usage
  now : ℤ

def PeriodTick.apply (cfg : GovernorConfig) (s : Account × Globals) (t : PeriodTick) :
    Account × Globals :=
  accountAnalyze cfg t.now (s.1.withUsage t.usage) s.2

/-- The statistics of the tick are over a limit of the account. -/
def PeriodTick.Over (cfg : GovernorConfig) (ac : Account) (t : PeriodTick) : Prop :=
  Exceeds cfg (ac.withUsage t.usage)

/-! ### Every user of a restricted account is frozen -/

/-- A restricted account has FREEZE as the last command of each of its users. -/
def Enforced (s : Account × Globals) : Prop :=
  s.1.timeout ≠ 0 → ∀ u ∈ s.1.users, lastCommand u s.2.enqueued = some .freeze

/-- A tick over a limit on an account that was released but kept a level. -/
def Relapse (cfg : GovernorConfig) (s : Account × Globals) (t : PeriodTick) : Prop :=
  s.1.timeout = 0 ∧ s.1.restricted ≠ 0 ∧ t.Over cfg s.1

section

variable {cfg : GovernorConfig} {id : Username} {users : List Username} {s : Account × Globals}
  {t : PeriodTick}

/-- From a state that enforces, a tick leads to one that does not exactly when it is a relapse. -/
theorem enforced_apply_iff (h : PeriodInv cfg id users s.1 s.2) (hs : Enforced s)
    (he : cfg.Enforcing) (hlevels : cfg.Levels) (hne : users ≠ [])
    (hw : Watched cfg s.1) :
    Enforced (t.apply cfg s) ↔ ¬ Relapse cfg s t := by
  have hinv := h.withUsage t.usage
  have ho := accountAnalyze_outcome he.useLve he.allLve t.now (s.1.withUsage t.usage) s.2
  rw [PeriodTick.apply]
  generalize accountAnalyze cfg t.now (s.1.withUsage t.usage) s.2 = r at ho ⊢
  cases ho with
  | ignored hn => exact absurd hw hn
  | stuck ht hs' => exact absurd (h.startCount_pos ht) (not_lt.mpr hs')
  | running ht _ => exact ⟨fun _ hr => ht hr.1, fun _ => hs⟩
  | quiet _ hq => exact ⟨fun _ hr => hq hr.2.2, fun _ => hs⟩
  | forgiven _ hq _ => exact ⟨fun _ hr => hq hr.2.2, fun _ hr => absurd rfl hr⟩
  | released ht _ _ => exact ⟨fun _ hr => ht hr.1, fun _ hr => absurd rfl hr⟩
  | renewed cur period field ht _ _ _ =>
      refine ⟨fun _ hr => ht hr.1, ?_⟩
      intro _ _
      have hq := restrictPeriod_enqueues he t.now cur period field
        (expired t.now (s.1.withUsage t.usage)) h.ready
      have hf : Frozen (expired t.now (s.1.withUsage t.usage)) s.2 := hs ht
      rw [restrictPeriod_account]
      by_cases h0 : (expired t.now (s.1.withUsage t.usage)).restricted = 0
      · rw [restrictCommands, if_pos h0] at hq
        exact hq.frozen
      · rw [restrictCommands, if_neg h0] at hq
        exact hq.frozen_of_nil hf
  | restricted cur period field ht hx _ =>
      have hq := restrictPeriod_enqueues he t.now cur period field (s.1.withUsage t.usage) h.ready
      rw [Enforced, restrictPeriod_account]
      by_cases h0 : s.1.restricted = 0
      · refine ⟨fun _ hr => hr.2.1 h0, ?_⟩
        intro _ _
        rw [restrictCommands, if_pos (show (s.1.withUsage t.usage).restricted = 0 from h0)] at hq
        exact hq.frozen
      · rw [restrictCommands, if_neg (show (s.1.withUsage t.usage).restricted ≠ 0 from h0)] at hq
        have hf : Thawed (s.1.withUsage t.usage) _ := hq.thawed_of_nil (hinv.thawed hlevels ht)
        have hnf := hf.not_frozen (hinv.users_eq ▸ hne)
        have hpos := hlevels.levelPeriod_pos (nextLevel cfg t.now (s.1.withUsage t.usage))
        exact ⟨fun hall => absurd (hall hpos.ne') hnf, fun hr => absurd ⟨ht, h0, hx⟩ hr⟩

end

/-- In a run of ticks on a fresh account every tick leaves a restricted account with all its
users frozen if and only if no tick is a relapse. -/
theorem frozen_iff_no_relapse (cfg : GovernorConfig) (hcfg : cfg.Enforcing) (hlevels : cfg.Levels)
    (ac : Account) (g : Globals) (hfresh : Fresh ac g) (hwatched : Watched cfg ac)
    (ticks : List PeriodTick) (hclock : ∀ t ∈ ticks, 0 < t.now) :
    Runs.Meets (PeriodTick.apply cfg) (fun s t => Enforced (t.apply cfg s)) (ac, g) ticks ↔
      Runs.Meets (PeriodTick.apply cfg) (fun s t => ¬ Relapse cfg s t) (ac, g) ticks := by
  let inv : Account × Globals → Prop := fun s =>
    PeriodInv cfg ac.id ac.users s.1 s.2 ∧ Enforced s
  have hw : ∀ s, inv s → Watched cfg s.1 := by
    intro s hs
    simpa only [Watched, hs.1.id_eq] using hwatched
  have hiff : ∀ s (t : PeriodTick), inv s → 0 < t.now →
      (Enforced (t.apply cfg s) ↔ ¬ Relapse cfg s t) := fun s t hs _ =>
    enforced_apply_iff hs.1 hs.2 hcfg hlevels hfresh.users (hw s hs)
  have hstep : ∀ s (t : PeriodTick), inv s → 0 < t.now → Enforced (t.apply cfg s) →
      inv (t.apply cfg s) := fun s t hs hnow hgood =>
    ⟨(hs.1.withUsage t.usage).accountAnalyze hcfg hlevels hnow, hgood⟩
  have hstart : inv (ac, g) := ⟨hfresh.periodInv, fun hne => absurd hfresh.timeout hne⟩
  exact Runs.meets_congr hiff hstep (Runs.meets_of_forall _ _ fun i hi _ => hclock i hi) hstart

/-- An offence, a second one in the penalty window, and a third one in the next window. -/
def relapseTicks : List PeriodTick :=
  [⟨cpuUsage 5, 1000000⟩, ⟨.zero, 1000060⟩, ⟨cpuUsage 5, 1000100⟩, ⟨.zero, 1001000⟩,
    ⟨cpuUsage 5, 1001100⟩]

theorem frozen_iff_no_relapse_sample :
    Runs.Meets (PeriodTick.apply (shippedConfig false))
        (fun s t => Enforced (t.apply (shippedConfig false) s)) (sampleAccount, .init)
        relapseTicks ↔
      Runs.Meets (PeriodTick.apply (shippedConfig false))
        (fun s t => ¬ Relapse (shippedConfig false) s t) (sampleAccount, .init) relapseTicks :=
  frozen_iff_no_relapse (shippedConfig false) (shippedConfig_enforcing false)
    (shippedConfig_levels false) sampleAccount .init sampleAccount_fresh (by decide)
    relapseTicks (by simp [relapseTicks])

/-- The third offence restricts the account and leaves its user released. -/
theorem relapse_not_frozen :
    ¬ ∀ (cfg : GovernorConfig) (ac : Account) (g : Globals) (ticks : List PeriodTick),
      cfg.Enforcing → cfg.Levels → Fresh ac g → Watched cfg ac → (∀ t ∈ ticks, 0 < t.now) →
      ticks.Pairwise (fun t t' => t.now ≤ t'.now) →
      Enforced (ticks.foldl (PeriodTick.apply cfg) (ac, g)) := by
  intro h
  have hrun := h (shippedConfig false) sampleAccount .init relapseTicks
    (shippedConfig_enforcing false) (shippedConfig_levels false) sampleAccount_fresh (by decide)
    (by simp [relapseTicks]) (by simp [relapseTicks])
  revert hrun
  rw [Enforced]
  decide +kernel

/-! ### The level follows the penalty window -/

/-- The account as `check_restrict` finds it, if the tick calls it. -/
def checkedAccount (cfg : GovernorConfig) (now : ℤ) (ac : Account) : Option Account :=
  if Watched cfg ac then
    if ac.timeout = 0 then some ac
    else if 0 < ac.startCount ∧ ac.startCount + ac.timeout ≤ now then some (expired now ac)
    else none
  else none

/-- A tick that restricts the account raises the level inside the penalty window and starts
from the first level outside. -/
def FollowsWindow (cfg : GovernorConfig) (s : Account × Globals) (t : PeriodTick) : Prop :=
  ∀ pre, checkedAccount cfg t.now (s.1.withUsage t.usage) = some pre →
    (checkRestrict cfg t.now pre s.2).1 = true →
    (t.apply cfg s).1.restricted =
      if pre.startCount ≠ 0 ∧ t.now < pre.startCount + cfg.timeout.toNat then
        min 3 (pre.restricted + 1)
      else 0

/-- A tick over a limit that finds a released account with a level and its window over, or an
account without a window before the clock has reached the length of one. -/
def MissesWindow (cfg : GovernorConfig) (s : Account × Globals) (t : PeriodTick) : Prop :=
  Watched cfg s.1 ∧ s.1.timeout = 0 ∧ t.Over cfg s.1 ∧
    if s.1.startCount = 0 then t.now < cfg.timeout.toNat
    else s.1.restricted ≠ 0 ∧ s.1.startCount + cfg.timeout.toNat ≤ t.now

/-- The level is in range, and an account with a level has a window. -/
structure LevelInv (ac : Account) : Prop where
  nonneg : 0 ≤ ac.restricted
  le_three : ac.restricted ≤ 3
  started : ac.restricted ≠ 0 → ac.startCount ≠ 0

section

variable {cfg : GovernorConfig} {ac : Account} {g : Globals} {s : Account × Globals}
  {t : PeriodTick}

theorem LevelInv.withUsage (h : LevelInv ac) (u : Usage) : LevelInv (ac.withUsage u) :=
  ⟨h.nonneg, h.le_three, h.started⟩

theorem LevelInv.accountAnalyze (h : LevelInv ac) (hu : cfg.useLve = true)
    (ha : cfg.allLve = false) {now : ℤ} (hnow : 0 < now) :
    LevelInv (accountAnalyze cfg now ac g).1 := by
  have ho := accountAnalyze_outcome hu ha now ac g
  generalize DbGovernor.accountAnalyze cfg now ac g = r at ho ⊢
  cases ho with
  | ignored _ => exact h
  | stuck _ _ => exact h
  | running _ _ => exact h
  | quiet _ _ => exact h
  | restricted cur period field _ _ _ =>
      obtain ⟨h0, h3⟩ := nextLevel_bounds cfg now ac
      rw [restrictPeriod_account]
      exact ⟨h0, h3, fun _ => hnow.ne'⟩
  | renewed cur period field _ _ _ _ =>
      obtain ⟨h0, h3⟩ := nextLevel_bounds cfg now (expired now ac)
      rw [restrictPeriod_account]
      exact ⟨h0, h3, fun _ => hnow.ne'⟩
  | released _ _ _ => exact ⟨h.nonneg, h.le_three, fun _ => hnow.ne'⟩
  | forgiven _ _ _ => exact ⟨le_refl 0, by simp [endPenalty], fun hne => absurd rfl hne⟩

theorem nextLevel_ne_iff (h : LevelInv ac) (cfg : GovernorConfig) (now : ℤ) :
    nextLevel cfg now ac ≠
        (if ac.startCount ≠ 0 ∧ now < ac.startCount + cfg.timeout.toNat then
          min 3 (ac.restricted + 1)
        else 0) ↔
      if ac.startCount = 0 then now < cfg.timeout.toNat
      else ac.restricted ≠ 0 ∧ ac.startCount + cfg.timeout.toNat ≤ now := by
  have h0 := h.nonneg
  have h3 := h.le_three
  by_cases hs : ac.startCount = 0
  · have hr : ac.restricted = 0 := by
      by_contra hne
      exact h.started hne hs
    by_cases hwin : now < cfg.timeout.toNat <;> simp [nextLevel, hs, hr, hwin]
  · by_cases hwin : now < ac.startCount + cfg.timeout.toNat
    · simp only [nextLevel, hs, hwin, if_true, if_false, ne_eq, not_false_eq_true,
        true_and]
      omega
    · simp only [nextLevel, hs, hwin, if_false, and_false]
      omega

/-- The expiry of a restriction opens a window at once. -/
theorem nextLevel_expired (h0 : 0 ≤ ac.restricted) (hT : Seconds cfg.timeout) {now : ℤ}
    (hnow : 0 < now) :
    nextLevel cfg now (expired now ac) =
      if (expired now ac).startCount ≠ 0 ∧
          now < (expired now ac).startCount + cfg.timeout.toNat then
        min 3 ((expired now ac).restricted + 1)
      else 0 := by
  have hwin : now < now + cfg.timeout.toNat := by
    have := hT.1
    omega
  simp only [nextLevel, expired, hwin, hnow.ne', if_true, ne_eq, not_false_eq_true,
    true_and]
  omega

theorem checkedAccount_of_timeout {now : ℤ} {pre : Account} (ht : ac.timeout ≠ 0)
    (h : checkedAccount cfg now ac = some pre) : pre = expired now ac := by
  rw [checkedAccount] at h
  split_ifs at h
  exact (Option.some.inj h).symm

/-- A tick that does not restrict the account satisfies the rule for want of a case. -/
theorem followsWindow_of_not_over (hx : ¬ t.Over cfg s.1) : FollowsWindow cfg s t := by
  intro pre hpre hcheck
  have hover : Exceeds cfg pre := (checkRestrict_fst t.now s.2).mp hcheck
  rw [checkedAccount] at hpre
  split_ifs at hpre <;> cases hpre
  · exact absurd hover hx
  · exact absurd hover hx

theorem followsWindow_iff (h : LevelInv s.1) (hu : cfg.useLve = true) (ha : cfg.allLve = false)
    (hT : Seconds cfg.timeout) (hnow : 0 < t.now) :
    FollowsWindow cfg s t ↔ ¬ MissesWindow cfg s t := by
  by_cases hx : t.Over cfg s.1
  swap
  · exact ⟨fun _ hm => hx hm.2.2.1, fun _ => followsWindow_of_not_over hx⟩
  by_cases hw : Watched cfg s.1
  swap
  · have hnone : checkedAccount cfg t.now (s.1.withUsage t.usage) = none := if_neg hw
    exact ⟨fun _ hm => hw hm.1, fun _ pre hpre => by simp [hnone] at hpre⟩
  have ho := accountAnalyze_outcome hu ha t.now (s.1.withUsage t.usage) s.2
  have hw' : Watched cfg (s.1.withUsage t.usage) := hw
  rw [FollowsWindow, PeriodTick.apply]
  generalize accountAnalyze cfg t.now (s.1.withUsage t.usage) s.2 = r at ho ⊢
  cases ho with
  | ignored hn => exact absurd hw hn
  | quiet _ hq => exact absurd hx hq
  | released _ _ hq => exact absurd hx hq
  | forgiven _ hq _ => exact absurd hx hq
  | stuck ht hs =>
      have hnone : checkedAccount cfg t.now (s.1.withUsage t.usage) = none := by
        simp [checkedAccount, hw', ht, not_lt.mpr hs]
      exact ⟨fun _ hm => ht hm.2.1, fun _ pre hpre => by simp [hnone] at hpre⟩
  | running ht hlt =>
      have hnone : checkedAccount cfg t.now (s.1.withUsage t.usage) = none := by
        simp [checkedAccount, hw', ht, not_le.mpr hlt]
      exact ⟨fun _ hm => ht hm.2.1, fun _ pre hpre => by simp [hnone] at hpre⟩
  | renewed cur period field ht hle _ _ =>
      refine ⟨fun _ hm => ht hm.2.1, ?_⟩
      intro _ pre hpre _
      rw [checkedAccount_of_timeout ht hpre, restrictPeriod_account]
      exact nextLevel_expired h.nonneg hT hnow
  | restricted cur period field ht _ _ =>
      have hpre : checkedAccount cfg t.now (s.1.withUsage t.usage) =
          some (s.1.withUsage t.usage) := by
        simp [checkedAccount, hw', ht]
      have hcheck := (checkRestrict_fst t.now s.2).mpr hx
      have hlevel := nextLevel_ne_iff (h.withUsage t.usage) cfg t.now
      rw [restrictPeriod_account, hpre]
      constructor
      · intro hrule hm
        exact hlevel.mpr hm.2.2.2 (hrule _ rfl hcheck)
      · rintro hm _ ⟨rfl⟩ -
        by_contra hne
        exact hm ⟨hw, ht, hx, hlevel.mp hne⟩

end

/-- In a run of ticks on a fresh account every restriction gets the level of the penalty
window if and only if no tick misses the window. -/
theorem level_iff_no_missed_window (cfg : GovernorConfig) (hu : cfg.useLve = true)
    (ha : cfg.allLve = false) (hT : Seconds cfg.timeout) (ac : Account) (g : Globals)
    (hr : ac.restricted = 0) (ticks : List PeriodTick) (hclock : ∀ t ∈ ticks, 0 < t.now) :
    Runs.Meets (PeriodTick.apply cfg) (FollowsWindow cfg) (ac, g) ticks ↔
      Runs.Meets (PeriodTick.apply cfg) (fun s t => ¬ MissesWindow cfg s t) (ac, g) ticks := by
  have hiff : ∀ (s : Account × Globals) (t : PeriodTick), LevelInv s.1 → 0 < t.now →
      (FollowsWindow cfg s t ↔ ¬ MissesWindow cfg s t) := fun s t hs hnow =>
    followsWindow_iff hs hu ha hT hnow
  have hstep : ∀ (s : Account × Globals) (t : PeriodTick), LevelInv s.1 → 0 < t.now →
      FollowsWindow cfg s t → LevelInv (t.apply cfg s).1 := fun s t hs hnow _ =>
    (hs.withUsage t.usage).accountAnalyze hu ha hnow
  have hstart : LevelInv ac := ⟨by rw [hr], by rw [hr]; decide, fun hne => absurd hr hne⟩
  exact Runs.meets_congr hiff hstep (Runs.meets_of_forall _ _ fun i hi _ => hclock i hi) hstart

/-- Two offences, and a third one on the tick at which the second penalty window ends. -/
def windowTicks : List PeriodTick :=
  [⟨cpuUsage 5, 1000000⟩, ⟨.zero, 1000060⟩, ⟨cpuUsage 5, 1000100⟩, ⟨.zero, 1001000⟩,
    ⟨cpuUsage 5, 1004600⟩]

theorem level_iff_no_missed_window_sample :
    Runs.Meets (PeriodTick.apply (shippedConfig false)) (FollowsWindow (shippedConfig false))
        (sampleAccount, .init) windowTicks ↔
      Runs.Meets (PeriodTick.apply (shippedConfig false))
        (fun s t => ¬ MissesWindow (shippedConfig false) s t) (sampleAccount, .init)
        windowTicks :=
  level_iff_no_missed_window (shippedConfig false) rfl rfl (by decide : Seconds 3600)
    sampleAccount .init rfl windowTicks (by simp [windowTicks])

/-- The third offence keeps the level of the window that is over. -/
theorem missed_window_keeps_level :
    ¬ ∀ (cfg : GovernorConfig) (ac : Account) (g : Globals) (ticks : List PeriodTick)
      (t : PeriodTick), cfg.Enforcing → cfg.Levels → cfg.restrictMode = false → Fresh ac g →
      (∀ t' ∈ ticks ++ [t], 0 < t'.now) →
      (ticks ++ [t]).Pairwise (fun t t' => t.now ≤ t'.now) →
      FollowsWindow cfg (ticks.foldl (PeriodTick.apply cfg) (ac, g)) t := by
  intro h
  have hrule := h (shippedConfig false) sampleAccount .init (windowTicks.take 4)
    ⟨cpuUsage 5, 1004600⟩ (shippedConfig_enforcing false) (shippedConfig_levels false) rfl
    sampleAccount_fresh (by simp [windowTicks]) (by simp [windowTicks])
  have hlevel := hrule (((windowTicks.take 4).foldl (PeriodTick.apply (shippedConfig false))
    (sampleAccount, .init)).1.withUsage (cpuUsage 5)) (by decide +kernel) (by decide +kernel)
  revert hlevel
  decide +kernel

end DbGovernor
