import DbGovernor.Verification.Daemon.Sampling
import DbGovernor.Verification.Daemon.Usage

/-!
# A tick without traffic

When every counter is zero, a tick gives every user one sample of zero. Accounts keep their
users, and may get users that were not registered before; these bring no usage.
-/

namespace DbGovernor

/-- Every usage counter is zero. -/
def ZeroCounters (w : World) : Prop :=
  ∀ u item, w.counters.lookup u = some item → item.s = resetStats

theorem clacStatsDifferenceInnerFromCounter_zero (tmIn newTm : ℚ) :
    clacStatsDifferenceInnerFromCounter 0 0 0 tmIn newTm = resetStats := by
  rw [clacStatsDifferenceInnerFromCounter]
  dsimp only
  split
  · simp [resetStats]
  · rfl

theorem truncate_zero : truncate 0 = 0 := by
  simp [truncate]

/-! ### Samples of a tick -/

/-- A user during the sampling of a tick: it waits for its sample or has got a zero. -/
inductive UserStage (w₀ : World) (u : Username) (us : UserStats) : Prop where
  | waiting (tick : us.tick < w₀.tickId) (wellFormed : us.stats.WellFormed)
      (nonneg : us.stats.Nonneg) (next : us.next w₀.cfg = nextUsage w₀.cfg w₀.users u)
  | pushed (old : UserStats) (wellFormed : old.stats.WellFormed) (nonneg : old.stats.Nonneg)
      (next : old.next w₀.cfg = nextUsage w₀.cfg w₀.users u)
      (eq : us = pushStats w₀.cfg resetStats { old with tick := w₀.tickId })

/-- The state during the sampling of a tick that began in `w₀`. -/
structure QuietPass (w₀ w : World) : Prop where
  inv : DaemonInv w
  cfg_eq : w.cfg = w₀.cfg
  tickId_eq : w.tickId = w₀.tickId
  globals_eq : w.globals = w₀.globals
  counters : ZeroCounters w
  kept : ∀ u, (w₀.users.lookup u).isSome → (w.users.lookup u).isSome
  accounts : ∀ a ac, w₀.accounts.lookup a = some ac → ∃ joined,
    w.accounts.lookup a = some { ac with users := ac.users ++ joined } ∧
      ∀ v ∈ joined, w₀.users.lookup v = none
  users : ∀ u us, w.users.lookup u = some us → UserStage w₀ u us

section Pass

variable {w₀ w : World}

/-- A name that is not registered was not registered when the tick began. -/
theorem QuietPass.unregistered (h : QuietPass w₀ w) {u : Username}
    (hu : w.users.lookup u = none) : w₀.users.lookup u = none := by
  by_contra hne
  have hsome := h.kept u (Option.ne_none_iff_isSome.mp hne)
  simp [hu] at hsome

end Pass

/-! ### The end of the sampling -/

section Sampling

variable {w : World}

theorem tickSample_zero (hzero : ZeroCounters w) (t : TickInput) (u : Username) :
    tickSample t w u = resetStats := by
  cases hitem : w.counters.lookup u with
  | none => rw [tickSample, hitem]
  | some item =>
      have hs : item.s = resetStats := hzero u item hitem
      rw [tickSample, hitem]
      simpa [counterSample, hs, resetStats, truncate_zero] using
        clacStatsDifferenceInnerFromCounter_zero item.tm t.tm

/-- The record of a sampled user, if all counters were zero. -/
theorem userStage_sampledUser (h : DaemonInv w) (hzero : ZeroCounters w) (t : TickInput)
    (u : Username) : UserStage w u (sampledUser t w u) := by
  have hpush : sampledUser t w u =
      pushStats w.cfg resetStats { w.userOrNew u with tick := w.tickId } := by
    rw [sampledUser, tickSample_zero hzero]
  cases hus : w.users.lookup u with
  | none =>
      have hnew : w.userOrNew u = initUserStats w.cfg u (w.homeAccount u) := by
        simp [World.userOrNew, hus]
      have huser := UserInv.init w.cfg u (w.homeAccount u) 0
      rw [hnew] at hpush
      refine .pushed _ huser.wellFormed huser.nonneg ?_ hpush
      rw [next_initUserStats]
      simp [nextUsage, hus]
  | some us =>
      have hold : w.userOrNew u = us := by simp [World.userOrNew, hus]
      have huser := h.user u us hus
      rw [hold] at hpush
      refine .pushed us huser.wellFormed huser.nonneg ?_ hpush
      simp [nextUsage, hus]

theorem quietPass_sampleUsers (h : DaemonInv w) (hzero : ZeroCounters w) (t : TickInput) :
    QuietPass { w with tickId := w.tickId + 1 } (sampleUsers t w) := by
  have hs := sampled_sampleUsers h t
  refine ⟨h.sampleUsers t, hs.frame.cfg, hs.frame.tickId, hs.frame.globals, ?_, ?_, ?_, ?_⟩
  · intro u item hitem
    rw [hs.counters] at hitem
    obtain ⟨-, -, rfl⟩ := Option.map_eq_some_iff.mp hitem
    rfl
  · intro u hu
    rw [hs.users, if_pos (.inl hu)]
    rfl
  · intro a ac ha
    refine ⟨_, by rw [hs.accounts, ha, joinAccount_some], ?_⟩
    intro v hv
    have hnew := (List.mem_filter.mp hv).2
    simp only [Bool.and_eq_true, Option.isNone_iff_eq_none] at hnew
    exact hnew.1
  · intro u us hus
    rw [hs.users] at hus
    split at hus
    · rw [← Option.some.inj hus]
      exact userStage_sampledUser h.nextTick hzero t u
    · cases hus

/-- After the sampling every user has got its zero. -/
theorem sampleUsers_spec (h : DaemonInv w) (hzero : ZeroCounters w) (t : TickInput) :
    QuietPass { w with tickId := w.tickId + 1 } (sampleUsers t w) ∧
      ∀ u us, (sampleUsers t w).users.lookup u = some us → us.tick = w.tickId + 1 := by
  refine ⟨quietPass_sampleUsers h hzero t, ?_⟩
  intro u us hus
  rw [(sampled_sampleUsers h t).users] at hus
  split at hus
  · rw [← Option.some.inj hus]
    rfl
  · cases hus

end Sampling

section Sampled

variable {w : World}

/-- The usage of a user after the sampling is what its ring left over. -/
theorem userUsage_sampleUsers (h : DaemonInv w) (hzero : ZeroCounters w) (t : TickInput)
    (u : Username) : userUsage (sampleUsers t w).users u = nextUsage w.cfg w.users u := by
  obtain ⟨hpass, htick⟩ := sampleUsers_spec h hzero t
  cases hus : (sampleUsers t w).users.lookup u with
  | none =>
      have hnone : w.users.lookup u = none := hpass.unregistered hus
      simp only [userUsage, hus, nextUsage, hnone]
      rfl
  | some us =>
      simp only [userUsage, hus]
      cases hpass.users u us hus with
      | waiting hlt _ _ _ => exact absurd (htick u us hus) hlt.ne
      | pushed old hwf _ hnext heq =>
          rw [heq]
          exact (usage_pushStats_zero w.cfg _ hwf).trans hnext

/-- Another sample of zero leaves no more over. -/
theorem nextUsage_sampleUsers_le (h : DaemonInv w) (hzero : ZeroCounters w) (t : TickInput)
    (u : Username) :
    nextUsage w.cfg (sampleUsers t w).users u ≤ nextUsage w.cfg w.users u := by
  obtain ⟨hpass, htick⟩ := sampleUsers_spec h hzero t
  cases hus : (sampleUsers t w).users.lookup u with
  | none =>
      have hnone : w.users.lookup u = none := hpass.unregistered hus
      simp only [nextUsage, hus, hnone, le_refl]
  | some us =>
      cases hpass.users u us hus with
      | waiting hlt _ _ _ => exact absurd (htick u us hus) hlt.ne
      | pushed old hwf hn hnext heq =>
          have hle := next_pushStats_zero_le w.cfg (w.tickId + 1) hwf hn
          have hsame : nextUsage w.cfg (sampleUsers t w).users u = us.next w.cfg := by
            simp only [nextUsage, hus]
          rw [hsame, heq]
          exact hle.trans hnext.le

end Sampled

end DbGovernor
