import DbGovernor.Verification.Restrict.Decision

/-!
# Verdicts

A decision about an account writes the account, may count a restriction and may enqueue one
broadcast. All of it depends on the account alone, and on its users only through the broadcast.
-/

namespace DbGovernor

/-! ### What is observed of the statics -/

/-- The commands for one user in a sequence of commands. -/
def commandsFor (u : Username) (cmds : List Command) : List Command :=
  cmds.filter (·.username = u)

/-- The commands that wait on `command_list`. -/
def Globals.queue (g : Globals) : List Command := (g.commandList.getD []).filterMap id

/-- The entry of an account in `DbGovNumberOfRestricts`. -/
def Globals.restrictsOf (g : Globals) (id : Username) : Option StatisticsRestrictInfo :=
  (g.dbGovNumberOfRestricts.getD ∅).lookup id

theorem commandsFor_append (u : Username) (cmds more : List Command) :
    commandsFor u (cmds ++ more) = commandsFor u cmds ++ commandsFor u more :=
  List.filter_append ..

theorem commandsFor_broadcast (u : Username) (command : CommandT) (users : List Username) :
    commandsFor u (broadcast command users) = List.replicate (users.count u) ⟨u, command⟩ := by
  have hfilter : commandsFor u (broadcast command users) =
      broadcast command (users.filter (· = u)) := by
    rw [commandsFor, broadcast, List.filter_map]
    rfl
  rw [hfilter, List.filter_eq, broadcast, List.map_replicate]

theorem gListAppend_queue (cmd : Command) (g : Globals) (h : g.Ready) :
    (gListAppend cmd g).queue = g.queue ++ [cmd] := by
  obtain ⟨l, hl⟩ := Option.isSome_iff_exists.mp h
  simp [gListAppend, Globals.queue, hl]

theorem enqueueUsers_queue (command : CommandT) (users : List Username) (g : Globals)
    (h : g.Ready) : (enqueueUsers command users g).queue = g.queue ++ broadcast command users := by
  induction users generalizing g with
  | nil => simp [enqueueUsers, broadcast]
  | cons id users ih =>
      change (enqueueUsers command users (gListAppend ⟨id, command⟩ g)).queue = _
      rw [ih _ (gListAppend_ready _ g h), gListAppend_queue _ g h]
      simp [broadcast]

theorem enqueueUsers_restricts (command : CommandT) (users : List Username) (g : Globals) :
    (enqueueUsers command users g).dbGovNumberOfRestricts = g.dbGovNumberOfRestricts := by
  induction users generalizing g with
  | nil => rfl
  | cons id users ih =>
      refine (ih (gListAppend ⟨id, command⟩ g)).trans ?_
      rw [gListAppend]
      split <;> rfl

/-! ### Effects -/

/-- What a decision does besides writing the account: a cause that is counted, and a command
that is sent to every user. -/
structure Effect where
  cause : Option ℕ
  command : Option CommandT

def Effect.count (e : Effect) (id : Username) (g : Globals) : Globals :=
  match e.cause with
  | none => g
  | some cause => incNumberOfRestricts id cause g

def Effect.run (e : Effect) (id : Username) (users : List Username) (g : Globals) : Globals :=
  match e.command with
  | none => e.count id g
  | some command => enqueueUsers command users (e.count id g)

/-- The commands of an effect. -/
def Effect.commands (e : Effect) (users : List Username) : List Command :=
  match e.command with
  | none => []
  | some command => broadcast command users

/-- What an effect makes of the entry of its account. -/
def Effect.tally (e : Effect) (old : Option StatisticsRestrictInfo) :
    Option StatisticsRestrictInfo :=
  match e.cause with
  | none => old
  | some cause => some ((old.map fun r =>
      ⟨r.numberOfRestricts + 1, r.causeOfRestricts ||| cause⟩).getD ⟨1, cause⟩)

section Effect

variable {e : Effect} {id : Username} {users : List Username} {g : Globals}

theorem Effect.count_lists (e : Effect) (id : Username) (g : Globals) :
    (e.count id g).commandList = g.commandList ∧ (e.count id g).enqueued = g.enqueued := by
  rw [Effect.count]
  split <;> exact ⟨rfl, rfl⟩

theorem Effect.count_ready (h : g.Ready) : (e.count id g).Ready := by
  rw [Globals.Ready, (e.count_lists id g).1]
  exact h

theorem Effect.run_ready (h : g.Ready) : (e.run id users g).Ready := by
  rw [Effect.run]
  split
  · exact Effect.count_ready h
  · exact (enqueueUsers_spec _ users _ (Effect.count_ready h)).1

theorem Effect.run_enqueued (h : g.Ready) :
    (e.run id users g).enqueued = g.enqueued ++ e.commands users := by
  obtain ⟨-, hlog⟩ := e.count_lists id g
  rw [Effect.run, Effect.commands]
  split
  · rw [hlog, List.append_nil]
  · rw [(enqueueUsers_spec _ users _ (Effect.count_ready h)).2, hlog]

theorem Effect.run_queue (h : g.Ready) :
    (e.run id users g).queue = g.queue ++ e.commands users := by
  have hqueue : (e.count id g).queue = g.queue := by
    rw [Globals.queue, (e.count_lists id g).1, Globals.queue]
  rw [Effect.run, Effect.commands]
  split
  · rw [hqueue, List.append_nil]
  · rw [enqueueUsers_queue _ users _ (Effect.count_ready h), hqueue]

theorem Effect.run_restricts (e : Effect) (id : Username) (users : List Username) (g : Globals) :
    (e.run id users g).dbGovNumberOfRestricts = (e.count id g).dbGovNumberOfRestricts := by
  rw [Effect.run]
  split
  · rfl
  · exact enqueueUsers_restricts _ users _

theorem Effect.run_restrictsOf (e : Effect) (id : Username) (users : List Username) (g : Globals)
    (a : Username) :
    (e.run id users g).restrictsOf a = if a = id then e.tally (g.restrictsOf a)
      else g.restrictsOf a := by
  rw [Globals.restrictsOf, e.run_restricts, Effect.count, Effect.tally]
  cases e.cause with
  | none => simp [Globals.restrictsOf]
  | some cause =>
      by_cases ha : a = id
      · subst ha
        cases hold : (g.dbGovNumberOfRestricts.getD ∅).lookup a with
        | none => simp [incNumberOfRestricts, Globals.restrictsOf, hold]
        | some r => simp [incNumberOfRestricts, Globals.restrictsOf, hold]
      · cases hold : (g.dbGovNumberOfRestricts.getD ∅).lookup id with
        | none => simp [incNumberOfRestricts, Globals.restrictsOf, hold, ha]
        | some r => simp [incNumberOfRestricts, Globals.restrictsOf, hold, ha]

theorem Effect.run_restricts_isSome (e : Effect) (id : Username) (users : List Username)
    (g : Globals) :
    (e.run id users g).dbGovNumberOfRestricts.isSome =
      (e.cause.isSome || g.dbGovNumberOfRestricts.isSome) := by
  rw [e.run_restricts, Effect.count]
  cases e.cause <;> rfl

/-- An effect sends nothing to users outside the account. -/
theorem Effect.commandsFor_of_notMem (e : Effect) {u : Username} (hu : u ∉ users) :
    commandsFor u (e.commands users) = [] := by
  rw [Effect.commands]
  split
  · rfl
  · rw [commandsFor_broadcast, List.count_eq_zero.mpr hu, List.replicate_zero]

theorem Effect.commandsFor_perm (e : Effect) {users' : List Username} (h : users.Perm users')
    (u : Username) : commandsFor u (e.commands users) = commandsFor u (e.commands users') := by
  rw [Effect.commands, Effect.commands]
  split
  · rfl
  · rw [commandsFor_broadcast, commandsFor_broadcast, h.count_eq]

end Effect

/-! ### Functions that do not see the order of the users -/

/-- The new figures and the effect of `f` on an account are the same for every order of its
users, and do not depend on the statics. -/
def OrderFreeAt (f : Account → Globals → Account × Globals) (ac : Account) : Prop :=
  ∃ (verdict : Account) (e : Effect), verdict.id = ac.id ∧
    ∀ users, users.Perm ac.users → ∀ g,
      f { ac with users := users } g = ({ verdict with users := users }, e.run ac.id users g)

def OrderFree (f : Account → Globals → Account × Globals) : Prop := ∀ ac, OrderFreeAt f ac

/-- What `account_restrict` sends. -/
def restrictCommand (cfg : GovernorConfig) : Option CommandT :=
  if cfg.isGpl || cfg.allLve || !cfg.useLve then none else some .freeze

/-- What `account_unrestrict` sends. -/
def unrestrictCommand (cfg : GovernorConfig) : Option CommandT :=
  if cfg.isGpl || cfg.allLve || (!cfg.useLve && !cfg.separateLve) then none else some .unfreeze

/-- The cause that a branch counts. -/
def countedCause (cfg : GovernorConfig) (cause : ℕ) : Option ℕ :=
  if cfg.statisticMode then some cause else none

section OrderFree

theorem accountRestrict_eq_run (cfg : GovernorConfig) (ac : Account) (cause : Option ℕ)
    (id : Username) (g : Globals) :
    accountRestrict cfg ac (Effect.count ⟨cause, none⟩ id g) =
      Effect.run ⟨cause, restrictCommand cfg⟩ id ac.users g := by
  rw [accountRestrict, Effect.run, restrictCommand]
  cases cfg.isGpl <;> cases cfg.allLve <;> cases cfg.useLve <;> rfl

theorem accountUnrestrict_eq_run (cfg : GovernorConfig) (ac : Account) (id : Username)
    (g : Globals) :
    accountUnrestrict cfg ac g = Effect.run ⟨none, unrestrictCommand cfg⟩ id ac.users g := by
  rw [accountUnrestrict, Effect.run, unrestrictCommand]
  cases cfg.isGpl <;> cases cfg.allLve <;> cases cfg.useLve <;> cases cfg.separateLve <;> rfl

theorem countRestrict_eq_count (cfg : GovernorConfig) (id : Username) (cause : ℕ) (g : Globals) :
    countRestrict cfg id cause g = Effect.count ⟨countedCause cfg cause, none⟩ id g := by
  rw [countRestrict, Effect.count, countedCause]
  cases cfg.statisticMode <;> rfl

/-- The effect of a branch that restricts. -/
def restrictEffect (cfg : GovernorConfig) (cur : GovernorsFieldName) (ac : Account) : Effect :=
  ⟨countedCause cfg (getCauseOfRestrict cur), if ac.restricted = 0 then restrictCommand cfg else none⟩

theorem restrictPeriod_orderFree (cfg : GovernorConfig) (now : ℤ) (cur : GovernorsFieldName)
    (period : GovernorsPeriodName) (field : GovernorsFieldName) :
    OrderFree (restrictPeriod cfg now cur period field) := by
  intro ac
  refine ⟨(restrictPeriod cfg now cur period field ac .init).1, restrictEffect cfg cur ac, rfl, ?_⟩
  intro users _ g
  rw [restrictPeriod, countRestrict_eq_count]
  by_cases hr : ac.restricted = 0
  · simp only [hr, if_true, restrictEffect]
    rw [accountRestrict_eq_run]
    simp [restrictPeriod, hr]
  · simp only [hr, if_false, restrictEffect]
    rfl

theorem restrictPeriodLimit_orderFree (cfg : GovernorConfig) (now : ℤ) (cur : GovernorsFieldName)
    (period : GovernorsPeriodName) (field : GovernorsFieldName) :
    OrderFree (restrictPeriodLimit cfg now cur period field) := by
  intro ac
  refine ⟨(restrictPeriodLimit cfg now cur period field ac .init).1, restrictEffect cfg cur ac, rfl,
    ?_⟩
  intro users _ g
  rw [restrictPeriodLimit, countRestrict_eq_count]
  by_cases hr : ac.restricted = 0
  · simp only [hr, if_true, restrictEffect]
    rw [accountRestrict_eq_run]
    simp [restrictPeriodLimit]
  · simp only [hr, if_false, restrictEffect]
    rfl

theorem OrderFreeAt.congr {f f' : Account → Globals → Account × Globals} {ac ac' : Account}
    (h : OrderFreeAt f' ac') (hid : ac'.id = ac.id) (husers : ac'.users = ac.users)
    (heq : ∀ users g, f { ac with users := users } g = f' { ac' with users := users } g) :
    OrderFreeAt f ac := by
  obtain ⟨verdict, e, hv, hf⟩ := h
  refine ⟨verdict, e, hv.trans hid, ?_⟩
  intro users hp g
  rw [heq, hf users (husers ▸ hp), hid]

theorem orderFreeAt_unchanged {f : Account → Globals → Account × Globals} {ac : Account}
    (h : ∀ users g, f { ac with users := users } g = ({ ac with users := users }, g)) :
    OrderFreeAt f ac :=
  ⟨ac, ⟨none, none⟩, rfl, fun users _ g => h users g⟩

/-- The figures of `ac'` and then the commands of `account_unrestrict`. -/
theorem orderFreeAt_unrestrict (cfg : GovernorConfig)
    {f : Account → Globals → Account × Globals} {ac : Account} (ac' : Account)
    (hid : ac'.id = ac.id)
    (h : ∀ users g, f { ac with users := users } g =
      ({ ac' with users := users }, accountUnrestrict cfg { ac' with users := users } g)) :
    OrderFreeAt f ac := by
  refine ⟨ac', ⟨none, unrestrictCommand cfg⟩, hid, ?_⟩
  intro users _ g
  rw [h, accountUnrestrict_eq_run cfg _ ac.id g]

/-! ### The decisions of a tick -/

theorem accountAnalyzeLimit_orderFree [Rounding] (cfg : GovernorConfig) (now : ℤ) :
    OrderFree (accountAnalyzeLimit cfg now) := by
  intro ac
  by_cases hoff : (cfg.allLve || !cfg.useLve) = true
  · exact orderFreeAt_unchanged fun users g => accountAnalyzeLimit_off hoff now _ g
  simp only [Bool.or_eq_true, Bool.not_eq_true', not_or, Bool.not_eq_true,
    Bool.not_eq_false] at hoff
  obtain ⟨ha, hu⟩ := hoff
  by_cases hw : Watched cfg ac
  · by_cases hopen : ac.timeout = 0 ∨ 0 < ac.startCount
    · by_cases he : Exceeds cfg ac
      · obtain ⟨cur, period, field, -, hc⟩ := checkPeriods_takes he
        refine (restrictPeriodLimit_orderFree cfg now cur period field ac).congr rfl rfl ?_
        intro users g
        exact accountAnalyzeLimit_restricts hu ha hw hopen (hc _ users g)
      · by_cases hx : ac.timeout = 0 ∨ now < ac.startCount + ac.timeout
        · exact orderFreeAt_unchanged fun users g => accountAnalyzeLimit_keeps_on hu ha hw he hx
        · obtain ⟨ht, hlate⟩ := not_or.mp hx
          refine orderFreeAt_unrestrict cfg (unrestrictLimit cfg ac .init).1 rfl ?_
          intro users g
          exact accountAnalyzeLimit_releases hu ha hw he ht (hopen.resolve_left ht)
            (not_lt.mp hlate)
    · obtain ⟨ht, hs⟩ := not_or.mp hopen
      exact orderFreeAt_unchanged fun users g => accountAnalyzeLimit_stuck hu ha hw ht hs
  · refine orderFreeAt_unchanged fun users g => ?_
    have hw' : ¬ Watched cfg { ac with users := users } := hw
    exact accountAnalyzeLimit_ignored hw' now g

theorem expireRestrict_orderFree [Rounding] (cfg : GovernorConfig) (now : ℤ) :
    OrderFree (expireRestrict cfg now) := by
  intro ac
  by_cases he : Exceeds cfg ac
  · have he' : Exceeds cfg (expired now ac) := he
    obtain ⟨cur, period, field, -, hc⟩ := checkPeriods_takes he'
    refine (restrictPeriod_orderFree cfg now cur period field (expired now ac)).congr rfl rfl ?_
    intro users g
    exact expireRestrict_restricts (hc _ users g)
  · refine orderFreeAt_unrestrict cfg (expired now ac) rfl ?_
    intro users g
    have he' : ¬ Exceeds cfg { ac with users := users } := he
    exact expireRestrict_releases he' now g

theorem accountAnalyze_orderFree [Rounding] (cfg : GovernorConfig) (now : ℤ) :
    OrderFree (accountAnalyze cfg now) := by
  intro ac
  by_cases hoff : (cfg.allLve || !cfg.useLve) = true
  · exact orderFreeAt_unchanged fun users g => accountAnalyze_off hoff now _ g
  simp only [Bool.or_eq_true, Bool.not_eq_true', not_or, Bool.not_eq_true,
    Bool.not_eq_false] at hoff
  obtain ⟨ha, hu⟩ := hoff
  by_cases hw : Watched cfg ac
  · by_cases ht : ac.timeout = 0
    · by_cases he : Exceeds cfg ac
      · obtain ⟨cur, period, field, -, hc⟩ := checkPeriods_takes he
        refine (restrictPeriod_orderFree cfg now cur period field ac).congr rfl rfl ?_
        intro users g
        exact accountAnalyze_restricts hu ha hw ht (hc _ users g)
      · by_cases hs : 0 < ac.startCount ∧ ac.startCount + cfg.timeout.toNat ≤ now
        · exact ⟨endPenalty ac, ⟨none, none⟩, rfl, fun users _ g =>
            accountAnalyze_forgives hu ha hw ht he hs.1 hs.2⟩
        · exact orderFreeAt_unchanged fun users g => accountAnalyze_quiet hu ha hw ht he hs
    · by_cases hs : 0 < ac.startCount ∧ ac.startCount + ac.timeout ≤ now
      · refine (expireRestrict_orderFree cfg now ac).congr rfl rfl ?_
        intro users g
        exact accountAnalyze_expires hu ha hw ht hs.1 hs.2
      · exact orderFreeAt_unchanged fun users g => accountAnalyze_runs_on hu ha hw ht hs
  · refine orderFreeAt_unchanged fun users g => ?_
    have hw' : ¬ Watched cfg { ac with users := users } := hw
    exact accountAnalyze_ignored hw' now g

end OrderFree

end DbGovernor
