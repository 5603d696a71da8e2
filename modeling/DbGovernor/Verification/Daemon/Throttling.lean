import DbGovernor.Verification.Daemon.AccountShape
import DbGovernor.Verification.Daemon.CatchUp
import DbGovernor.Verification.Daemon.SteadyLoad

/-!
# From the loads to the plugin

What the plugin is told of a user after a tick and its hand-over, by the loads of the account in the
windows before. The run before the tick is one of `EnforcementStep`, which leaves out rereads of the
configuration, joining users, refreshes of the map while somebody is restricted and a full list.
-/

namespace DbGovernor

variable {cfg : GovernorConfig} {past : List (TickInput × World)} {w v : World}

theorem EnforcementReachable.positiveReachable (h : EnforcementReachable cfg w)
    (hm : cfg.LimitMode) (hp : cfg.PositivePeriods) : PositiveReachable w := by
  induction h with
  | refl => exact .start cfg hp
  | @tail v x hrun hs ih =>
      have hcfg : v.cfg = cfg := (EnforcementReachable.inv hrun hm).cfg_eq
      have hcfg' : x.cfg = cfg := (EnforcementReachable.inv (hrun.tail hs) hm).cfg_eq
      exact .step ih (hs.daemonStep (hcfg ▸ hm.isGpl)) (hcfg' ▸ hp)

/-- The restriction of a user is that of the account that lists it. -/
theorem userRestricted_iff (h : Owned w) {a : Username} {ac : Account}
    (hac : w.accounts.lookup a = some ac) {u : Username} (hu : u ∈ ac.users) :
    UserRestricted w u ↔ ac.timeout ≠ 0 := by
  constructor
  · rintro ⟨b, bc, hbc, hmem, ht⟩
    by_cases hsame : a = b
    · subst hsame
      obtain rfl := Option.some.inj (hac.symm.trans hbc)
      exact ht
    · exact absurd hmem (h.disjoint hac hbc hsame hu)
  · exact fun ht => ⟨a, ac, hac, hu, ht⟩

end DbGovernor
