import DbGovernor.Model.Daemon
import DbGovernor.Verification.Restrict.Effects
import DbGovernor.Verification.Shared.Runs

/-!
# Operations on one account of the daemon

A tick gives the account arbitrary statistics and decides about it; the three commands are
the callbacks of `run_dbctl_command`. On an account whose users are all registered each
operation is a function of the account and of the command list alone.
-/

namespace DbGovernor

inductive AccountOp where
  | tick (now : ℤ) (usage : Usage)
  | restrict (now : ℤ) (command : DbCtlCommand)
  | unrestrict (now : ℤ) (command : DbCtlCommand)
  | unrestrictAll

/-- The decision of the configured mode. -/
def analyzeMode [Rounding] (cfg : GovernorConfig) (now : ℤ) (ac : Account) (g : Globals) :
    Account × Globals :=
  if cfg.restrictMode then accountAnalyzeLimit cfg now ac g else accountAnalyze cfg now ac g

/-- An operation as a step of the daemon, on the account under `a`. -/
def AccountOp.apply [Rounding] (a : Username) (w : World) : AccountOp → World
  | .tick now usage => w.onAccount (fun cfg ac => analyzeMode cfg now (ac.withUsage usage)) a
  | .restrict now command => dbctlRestrictSet now command w a
  | .unrestrict now command => w.onAccount (fun cfg => dbctlUnrestrictSet cfg now command) a
  | .unrestrictAll => w.onAccount dbctlUnrestrictAllSet a

/-- An operation as a function of the account. -/
def AccountOp.run [Rounding] (cfg : GovernorConfig) (ac : Account) (g : Globals) :
    AccountOp → Account × Globals
  | .tick now usage => analyzeMode cfg now (ac.withUsage usage) g
  | .restrict now command =>
      if ac.id = command.username ∨ command.username ∈ ac.users then
        dbctlRestrictAccount cfg now command ac g
      else (ac, g)
  | .unrestrict now command => dbctlUnrestrictSet cfg now command ac g
  | .unrestrictAll => dbctlUnrestrictAllSet cfg ac g

/-- The clock is positive, and a RESTRICT names a registered user, so that it leaves the
user set of the account alone. -/
def AccountOp.Admissible (users : HashTable UserStats) : AccountOp → Prop
  | .tick now _ => 0 < now
  | .restrict now command => 0 < now ∧ (users.lookup command.username).isSome
  | .unrestrict _ _ => True
  | .unrestrictAll => True

theorem World.onAccount_of_lookup {f : GovernorConfig → Account → Globals → Account × Globals}
    {w : World} {a : Username} {ac : Account} (h : w.accounts.lookup a = some ac) :
    w.onAccount f a = w.setAccount a (f w.cfg ac w.globals) := by
  simp [World.onAccount, h]

theorem comapreUsersName_eq_zero (username : Username) (ac : Account) :
    comapreUsersName username ac = 0 ↔ username ∈ ac.users := by
  simp [comapreUsersName]

theorem dbctlRestrictSet_of_known [Rounding] {now : ℤ} {command : DbCtlCommand} {w : World}
    {a : Username} {ac : Account} (hu : (w.users.lookup command.username).isSome)
    (hac : w.accounts.lookup a = some ac) :
    dbctlRestrictSet now command w a =
      if ac.id = command.username ∨ command.username ∈ ac.users then
        w.setAccount a (dbctlRestrictAccount w.cfg now command ac w.globals)
      else w := by
  obtain ⟨us, hus⟩ := Option.isSome_iff_exists.mp hu
  simp [dbctlRestrictSet, hus, dbctlRestrictNamed, hac, comapreUsersName_eq_zero]

/-- An admissible operation does to the daemon what `run` does to the account, and keeps the
configuration and the users. -/
theorem AccountOp.apply_spec [Rounding] {op : AccountOp} {w : World} {a : Username} {ac : Account}
    (hop : op.Admissible w.users) (hac : w.accounts.lookup a = some ac) :
    (op.apply a w).accounts.lookup a = some (op.run w.cfg ac w.globals).1 ∧
      (op.apply a w).globals = (op.run w.cfg ac w.globals).2 ∧
      (op.apply a w).cfg = w.cfg ∧ (op.apply a w).users = w.users := by
  cases op with
  | tick now usage =>
      simp [AccountOp.apply, AccountOp.run, World.onAccount_of_lookup hac, World.setAccount]
  | restrict now command =>
      rw [AccountOp.apply, dbctlRestrictSet_of_known hop.2 hac, AccountOp.run]
      split
      · simp [World.setAccount]
      · simp [hac]
  | unrestrict now command =>
      simp [AccountOp.apply, AccountOp.run, World.onAccount_of_lookup hac, World.setAccount]
  | unrestrictAll =>
      simp [AccountOp.apply, AccountOp.run, World.onAccount_of_lookup hac, World.setAccount]

/-- A property of the account and the command list that every admissible operation keeps
holds at the end of every run. -/
theorem AccountOp.run_invariant [Rounding] {a : Username} {cfg : GovernorConfig}
    {users : HashTable UserStats} {inv : Account → Globals → Prop}
    (hstep : ∀ op : AccountOp, op.Admissible users → ∀ ac g, inv ac g →
      inv (op.run cfg ac g).1 (op.run cfg ac g).2)
    {w : World} (hcfg : w.cfg = cfg) (husers : w.users = users) {ac : Account}
    (hac : w.accounts.lookup a = some ac) (hinv : inv ac w.globals) {ops : List AccountOp}
    (hops : ∀ op ∈ ops, op.Admissible users) :
    (ops.foldl (AccountOp.apply a) w).cfg = cfg ∧
      (ops.foldl (AccountOp.apply a) w).users = users ∧
      ∃ ac', (ops.foldl (AccountOp.apply a) w).accounts.lookup a = some ac' ∧
        inv ac' (ops.foldl (AccountOp.apply a) w).globals := by
  have hmeets : Runs.Meets (AccountOp.apply a) (fun _ op => op.Admissible users) w ops :=
    Runs.meets_of_forall w ops fun op hop _ => hops op hop
  let inv' : World → Prop := fun w =>
    w.cfg = cfg ∧ w.users = users ∧ ∃ ac, w.accounts.lookup a = some ac ∧ inv ac w.globals
  have hkeep : ∀ w op, inv' w → op.Admissible users → inv' (AccountOp.apply a w op) := by
    rintro w op ⟨hc, hu, ac, hac, hinv⟩ hop
    obtain ⟨hl, hg, hc', hu'⟩ := AccountOp.apply_spec (hu ▸ hop) hac
    refine ⟨hc'.trans hc, hu'.trans hu, _, hl, ?_⟩
    rw [hg, hc]
    exact hstep op hop ac w.globals hinv
  exact hmeets.invariant hkeep ⟨hcfg, husers, ac, hac, hinv⟩

/-! ### A daemon with one user -/

def sampleWorld (restrictMode : Bool) : World :=
  addUserStats sampleUser (World.init (shippedConfig restrictMode))

/-- An offence, a release and a manual restriction. -/
def sampleOps : List AccountOp :=
  [.tick 100 (cpuUsage 5), .unrestrict 110 ⟨sampleUser, 0⟩, .restrict 120 ⟨sampleUser, 3⟩]

theorem sampleWorld_lookup (restrictMode : Bool) :
    (sampleWorld restrictMode).accounts.lookup sampleUser = some sampleAccount := by
  cases restrictMode <;> decide

theorem sampleOps_admissible (restrictMode : Bool) :
    ∀ op ∈ sampleOps, op.Admissible (sampleWorld restrictMode).users := by
  have hknown : ((sampleWorld restrictMode).users.lookup sampleUser).isSome := by
    cases restrictMode <;> decide
  simp [sampleOps, AccountOp.Admissible, hknown]

end DbGovernor
