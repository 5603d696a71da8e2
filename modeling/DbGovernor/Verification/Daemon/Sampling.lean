import DbGovernor.Verification.Daemon.AccountPass
import DbGovernor.Verification.Daemon.Invariant
import DbGovernor.Verification.Shared.Visits

/-!
# The sampling of a tick in closed form

What the passes over the counters and over the users leave in each table, for a tick that began
in `w₀` with its number already raised. The order of the passes appears only in the order in
which an account gets its new users.
-/

namespace DbGovernor

variable [Rounding]

/-- The passes after the sampling leave the users and the counters alone. -/
theorem proceedAccounts_base (t : TickInput) (w : World) :
    SameBase (sampleUsers t w) (proceedAccounts t w) := by
  have hsums := foldl_onAccount_base
    (fun _ ac g => (calcAccStats (sampleUsers t w).users ac, g))
    (t.ordSums.order (sampleUsers t w).accounts.keys) (sampleUsers t w)
  rw [← gatherStats_eq] at hsums
  have hdecide := foldl_onAccount_base
    (fun cfg => if (gatherStats t w).cfg.restrictMode then accountAnalyzeLimit cfg t.now
      else accountAnalyze cfg t.now)
    (t.ordAnalyze.order (gatherStats t w).accounts.keys) (gatherStats t w)
  obtain ⟨g, -, -, heq⟩ := proceedAccounts_spec t w
  rw [heq]
  exact ⟨hdecide.cfg.trans hsums.cfg, hdecide.users.trans hsums.users,
    hdecide.tickId.trans hsums.tickId, hdecide.counters.trans hsums.counters⟩

/-- The account a user has, or would get. -/
def World.homeAccount (w : World) (u : Username) : Username := (getUserAccount w u).1

/-- The record of a user, or the one `init_user_stats` would make. -/
def World.userOrNew (w : World) (u : Username) : UserStats :=
  (w.users.lookup u).getD (initUserStats w.cfg u (w.homeAccount u))

/-- The sample that `add_user_stats_from_counter` takes from a counter. -/
def counterSample (t : TickInput) (item : StatCounters) : Stats :=
  clacStatsDifferenceInnerFromCounter (truncate item.s.cpu) item.s.read item.s.write item.tm t.tm

/-- The sample of a user in a tick: from its counter if it has one, and zero otherwise. -/
def tickSample (t : TickInput) (w : World) (u : Username) : Stats :=
  match w.counters.lookup u with
  | some item => counterSample t item
  | none => resetStats

/-- The record of a user with its sample pushed. -/
def sampledUser (t : TickInput) (w₀ : World) (u : Username) : UserStats :=
  pushStats w₀.cfg (tickSample t w₀ u) { w₀.userOrNew u with tick := w₀.tickId }

/-- An account with new users, made if there was none. -/
def joinAccount (a : Username) (old : Option Account) (joined : List Username) : Option Account :=
  joined.foldl (fun ac u =>
    some { ac.getD (initAccount a) with users := (ac.getD (initAccount a)).users ++ [u] }) old

/-- The users among `done` that were registered on their visit and went to the account `a`. -/
def newcomers (w₀ : World) (a : Username) (done : List Username) : List Username :=
  done.filter fun u => (w₀.users.lookup u).isNone && decide (w₀.homeAccount u = a)

/-- The fields that the sampling does not write. -/
structure SameFrame (w₀ w : World) : Prop where
  cfg : w.cfg = w₀.cfg
  tickId : w.tickId = w₀.tickId
  userMap : w.userMap = w₀.userMap
  globals : w.globals = w₀.globals
  sender : w.sender = w₀.sender
  mysql : w.mysql = w₀.mysql

omit [Rounding] in
theorem SameFrame.refl (w : World) : SameFrame w w := ⟨rfl, rfl, rfl, rfl, rfl, rfl⟩

omit [Rounding] in
theorem SameFrame.trans {w₀ w w' : World} (h : SameFrame w₀ w) (h' : SameFrame w w') :
    SameFrame w₀ w' :=
  ⟨h'.cfg.trans h.cfg, h'.tickId.trans h.tickId, h'.userMap.trans h.userMap,
    h'.globals.trans h.globals, h'.sender.trans h.sender, h'.mysql.trans h.mysql⟩

/-! ### A registration -/

section Register

variable {w : World} {u : Username}

omit [Rounding] in
theorem getUserAccount_snd (w : World) (u : Username) :
    ∃ table, (getUserAccount w u).2 = { w with userAccountTable := table } ∧
      ∀ v, table.lookup v =
        if v = u then some (w.homeAccount u) else w.userAccountTable.lookup v := by
  cases hmemo : w.userAccountTable.lookup u with
  | none =>
      refine ⟨w.userAccountTable.insert u (assignAccount w.cfg w.userMap u), ?_, ?_⟩
      · simp [getUserAccount, hmemo]
      · intro v
        by_cases hv : v = u
        · subst hv
          simp [World.homeAccount, getUserAccount, hmemo]
        · simp [hv]
  | some account =>
      refine ⟨w.userAccountTable, by simp [getUserAccount, hmemo], ?_⟩
      intro v
      by_cases hv : v = u
      · subst hv
        simp [World.homeAccount, getUserAccount, hmemo]
      · simp [hv]

/-- What `add_user_stats` leaves in each table. -/
structure Registered (w : World) (u : Username) (w' : World) : Prop where
  frame : SameFrame w w'
  counters : w'.counters = w.counters
  users : w'.users = w.users.insert u (initUserStats w.cfg u (w.homeAccount u))
  homes : ∀ v, w'.userAccountTable.lookup v =
    if v = u then some (w.homeAccount u) else w.userAccountTable.lookup v
  accounts : ∀ a, w'.accounts.lookup a =
    if a = w.homeAccount u then joinAccount a (w.accounts.lookup a) [u] else w.accounts.lookup a

omit [Rounding] in
theorem registered_addUserStats (u : Username) (w : World) :
    Registered w u (addUserStats u w) := by
  obtain ⟨table, htable, hlookup⟩ := getUserAccount_snd w u
  have heq : addUserStats u w = { w with
      userAccountTable := table
      accounts := w.accounts.insert (w.homeAccount u)
        { (w.accounts.lookup (w.homeAccount u)).getD (initAccount (w.homeAccount u)) with
          users := ((w.accounts.lookup (w.homeAccount u)).getD
            (initAccount (w.homeAccount u))).users ++ [u] }
      users := w.users.insert u (initUserStats w.cfg u (w.homeAccount u)) } := by
    simp only [addUserStats, htable, World.homeAccount]
  rw [heq]
  refine ⟨⟨rfl, rfl, rfl, rfl, rfl, rfl⟩, rfl, rfl, hlookup, ?_⟩
  intro a
  by_cases ha : a = w.homeAccount u
  · subst ha
    simp [joinAccount]
  · simp [ha]

end Register

/-! ### The pass over the counters -/

/-- The state when the counters of `done` were visited. -/
structure CounterPass (t : TickInput) (w₀ : World) (done : List Username) (w : World) : Prop where
  frame : SameFrame w₀ w
  users : ∀ u, w.users.lookup u =
    if u ∈ done then some (sampledUser t w₀ u) else w₀.users.lookup u
  counters : ∀ u, w.counters.lookup u =
    if u ∈ done then some ⟨resetStats, t.resetTm u⟩ else w₀.counters.lookup u
  homes : ∀ u, w.userAccountTable.lookup u =
    if u ∈ done ∧ w₀.users.lookup u = none then some (w₀.homeAccount u)
    else w₀.userAccountTable.lookup u
  accounts : ∀ a, w.accounts.lookup a =
    joinAccount a (w₀.accounts.lookup a) (newcomers w₀ a done)

section CounterPass

variable {t : TickInput} {w₀ w : World} {done : List Username} {key : Username}

theorem CounterPass.start (t : TickInput) (w₀ : World) : CounterPass t w₀ [] w₀ :=
  ⟨.refl w₀, fun _ => by simp, fun _ => by simp, fun _ => by simp, fun _ => rfl⟩

/-- A user that waits for its visit would get the account it would have got at the start. -/
theorem CounterPass.homeAccount (h : CounterPass t w₀ done w) (hkey : key ∉ done) :
    w.homeAccount key = w₀.homeAccount key := by
  have hmemo : w.userAccountTable.lookup key = w₀.userAccountTable.lookup key := by
    rw [h.homes, if_neg (fun hboth => hkey hboth.1)]
  simp only [World.homeAccount, getUserAccount, hmemo, h.frame.cfg, h.frame.userMap]
  cases w₀.userAccountTable.lookup key <;> rfl

omit [Rounding] in
theorem newcomers_append (w₀ : World) (a : Username) (done : List Username) (key : Username) :
    newcomers w₀ a (done ++ [key]) = newcomers w₀ a done ++
      if w₀.users.lookup key = none ∧ w₀.homeAccount key = a then [key] else [] := by
  rw [newcomers, List.filter_append, newcomers]
  congr 1
  by_cases hnew : w₀.users.lookup key = none ∧ w₀.homeAccount key = a
  · simp [hnew]
  · rw [if_neg hnew]
    simpa using hnew

omit [Rounding] in
theorem joinAccount_append (a : Username) (old : Option Account) (joined more : List Username) :
    joinAccount a old (joined ++ more) = joinAccount a (joinAccount a old joined) more :=
  List.foldl_append ..

omit [Rounding] in
theorem joinAccount_eq (a : Username) (old : Option Account) (joined : List Username) :
    joinAccount a old joined =
      if joined = [] then old
      else some { old.getD (initAccount a) with
        users := (old.getD (initAccount a)).users ++ joined } := by
  induction joined using List.reverseRecOn with
  | nil => rfl
  | append_singleton joined u ih =>
      have hne : joined ++ [u] ≠ [] := by simp
      rw [joinAccount_append, ih, if_neg hne]
      by_cases hnil : joined = []
      · simp [hnil, joinAccount]
      · simp [hnil, joinAccount]

omit [Rounding] in
theorem joinAccount_some (a : Username) (ac : Account) (joined : List Username) :
    joinAccount a (some ac) joined = some { ac with users := ac.users ++ joined } := by
  rw [joinAccount_eq]
  by_cases hnil : joined = []
  · simp [hnil]
  · simp [hnil]

/-- The registration of a user on its visit. -/
theorem CounterPass.accounts_registered (h : CounterPass t w₀ done w) (hkey : key ∉ done)
    (hnew : w₀.users.lookup key = none) (a : Username) :
    (addUserStats key w).accounts.lookup a =
      joinAccount a (w₀.accounts.lookup a) (newcomers w₀ a (done ++ [key])) := by
  rw [(registered_addUserStats key w).accounts, h.homeAccount hkey, newcomers_append,
    joinAccount_append, ← h.accounts]
  by_cases ha : a = w₀.homeAccount key
  · rw [if_pos ha, if_pos ⟨hnew, ha.symm⟩]
  · rw [if_neg ha, if_neg fun hboth => ha hboth.2.symm]
    rfl

/-- The state between the registration of a visited user, if it needs one, and its sample. -/
structure Visiting (t : TickInput) (w₀ : World) (done : List Username) (key : Username)
    (w v : World) : Prop where
  frame : SameFrame w₀ v
  counters : v.counters = w.counters
  visited : v.users.lookup key = some (w₀.userOrNew key)
  others : ∀ u, u ≠ key → v.users.lookup u = w.users.lookup u
  homes : ∀ u, v.userAccountTable.lookup u =
    if u ∈ done ++ [key] ∧ w₀.users.lookup u = none then some (w₀.homeAccount u)
    else w₀.userAccountTable.lookup u
  accounts : ∀ a, v.accounts.lookup a =
    joinAccount a (w₀.accounts.lookup a) (newcomers w₀ a (done ++ [key]))

theorem CounterPass.visiting (h : CounterPass t w₀ done w) (hkey : key ∉ done) :
    Visiting t w₀ done key w (addEmptyStatsForUid key w) := by
  have hsame : w.users.lookup key = w₀.users.lookup key := by rw [h.users, if_neg hkey]
  cases hnew : w₀.users.lookup key with
  | none =>
      have hreg := registered_addUserStats key w
      have hv : addEmptyStatsForUid key w = addUserStats key w := by
        simp [addEmptyStatsForUid, hsame, hnew]
      rw [hv]
      refine ⟨h.frame.trans hreg.frame, hreg.counters, ?_, ?_, ?_, ?_⟩
      · rw [hreg.users, AList.lookup_insert, World.userOrNew, hnew, h.frame.cfg,
          h.homeAccount hkey]
        rfl
      · intro u hu
        rw [hreg.users, AList.lookup_insert_ne hu]
      · intro u
        rw [hreg.homes, h.homes, h.homeAccount hkey]
        by_cases hu : u = key
        · subst hu
          simp [hnew]
        · simp [hu]
      · exact h.accounts_registered hkey hnew
  | some us =>
      have hv : addEmptyStatsForUid key w = w := by simp [addEmptyStatsForUid, hsame, hnew]
      rw [hv]
      refine ⟨h.frame, rfl, ?_, fun _ _ => rfl, ?_, ?_⟩
      · rw [hsame, World.userOrNew, hnew]
        rfl
      · intro u
        rw [h.homes]
        by_cases hu : u = key
        · subst hu
          simp [hnew]
        · simp [hu]
      · intro a
        rw [h.accounts, newcomers_append, if_neg (by simp [hnew]), List.append_nil]

end CounterPass

/-- No user was sampled in the tick that begins. -/
structure Waiting (w₀ : World) : Prop where
  pos : 0 < w₀.tickId
  user : ∀ u us, w₀.users.lookup u = some us → us.tick < w₀.tickId

omit [Rounding] in
theorem DaemonInv.waiting {w : World} (h : DaemonInv w) :
    Waiting { w with tickId := w.tickId + 1 } :=
  ⟨Nat.succ_pos _, fun u us hus => Nat.lt_succ_of_le (h.user u us hus).tick_le⟩

omit [Rounding] in
theorem Waiting.userOrNew_tick {w₀ : World} (h : Waiting w₀) (u : Username) :
    (w₀.userOrNew u).tick ≠ w₀.tickId := by
  rw [World.userOrNew]
  cases hus : w₀.users.lookup u with
  | none => exact h.pos.ne
  | some us => exact (h.user u us hus).ne

section Visit

variable {t : TickInput} {w₀ w : World} {done : List Username} {key : Username}
  {item : StatCounters}

theorem CounterPass.lookup_counter (h : CounterPass t w₀ done w) (hkey : key ∉ done) :
    w.counters.lookup key = w₀.counters.lookup key := by
  rw [h.counters, if_neg hkey]

theorem CounterPass.addNewStats_eq (h : CounterPass t w₀ done w) (hw : Waiting w₀)
    (hkey : key ∉ done) (hitem : w₀.counters.lookup key = some item) :
    addNewStats key (counterSample t item) w.tickId w =
      { addEmptyStatsForUid key w with
        users := (addEmptyStatsForUid key w).users.insert key (sampledUser t w₀ key) } := by
  have hv := h.visiting hkey
  have hsample : tickSample t w₀ key = counterSample t item := by rw [tickSample, hitem]
  simp only [addNewStats, hv.visited, h.frame.tickId, if_neg (hw.userOrNew_tick key), hv.frame.cfg,
    hv.frame.tickId, sampledUser, hsample]

/-- One visit of the pass over the counters. -/
theorem CounterPass.visit (h : CounterPass t w₀ done w) (hw : Waiting w₀) (hkey : key ∉ done)
    (hitem : w₀.counters.lookup key = some item) :
    CounterPass t w₀ (done ++ [key]) (addUserStatsFromCounter t w key) := by
  have hv := h.visiting hkey
  have hcounter := h.lookup_counter hkey
  have hadd := h.addNewStats_eq hw hkey hitem
  have heq : addUserStatsFromCounter t w key = { addEmptyStatsForUid key w with
      users := (addEmptyStatsForUid key w).users.insert key (sampledUser t w₀ key)
      counters := w.counters.insert key ⟨resetStats, t.resetTm key⟩ } := by
    rw [addUserStatsFromCounter, hcounter, hitem]
    change resetCounters key (t.resetTm key)
      (addNewStats key (counterSample t item) w.tickId w) = _
    rw [hadd]
    simp only [resetCounters, hv.counters, hcounter, hitem]
  rw [heq]
  refine ⟨⟨hv.frame.cfg, hv.frame.tickId, hv.frame.userMap, hv.frame.globals, hv.frame.sender,
    hv.frame.mysql⟩, ?_, ?_, hv.homes, hv.accounts⟩
  · intro u
    by_cases hu : u = key
    · subst hu
      simp
    · simp only [AList.lookup_insert_ne hu, hv.others u hu, h.users]
      simp [hu]
  · intro u
    by_cases hu : u = key
    · subst hu
      simp
    · simp only [AList.lookup_insert_ne hu, h.counters]
      simp [hu]

end Visit

/-! ### The pass over the users -/

/-- A user after its visit by `tick_empty_users`. -/
def emptySampled (w : World) (us : UserStats) : UserStats :=
  if us.tick ≠ w.tickId then pushStats w.cfg resetStats { us with tick := w.tickId } else us

/-- The state when the users of `done` were visited. -/
structure EmptyPass (w₁ : World) (done : List Username) (w : World) : Prop where
  frame : SameFrame w₁ w
  counters : w.counters = w₁.counters
  homes : w.userAccountTable = w₁.userAccountTable
  accounts : w.accounts = w₁.accounts
  users : ∀ u, w.users.lookup u =
    if u ∈ done then (w₁.users.lookup u).map (emptySampled w₁) else w₁.users.lookup u

theorem EmptyPass.start (w₁ : World) : EmptyPass w₁ [] w₁ :=
  ⟨.refl w₁, rfl, rfl, rfl, fun _ => by simp⟩

section EmptyPass

variable {w₁ w : World} {done : List Username} {key : Username}

theorem EmptyPass.visit (h : EmptyPass w₁ done w) (hkey : key ∉ done) :
    EmptyPass w₁ (done ++ [key]) (tickEmptyUsers w key) := by
  have hsame : w.users.lookup key = w₁.users.lookup key := by rw [h.users, if_neg hkey]
  have hothers : ∀ {u}, u ≠ key → w.users.lookup u =
      if u ∈ done ++ [key] then (w₁.users.lookup u).map (emptySampled w₁)
      else w₁.users.lookup u := by
    intro u hu
    rw [h.users]
    simp [hu]
  cases hus : w₁.users.lookup key with
  | none =>
      have heq : tickEmptyUsers w key = w := by simp [tickEmptyUsers, hsame, hus]
      rw [heq]
      refine ⟨h.frame, h.counters, h.homes, h.accounts, ?_⟩
      intro u
      by_cases hu : u = key
      · subst hu
        simp [hsame, hus]
      · exact hothers hu
  | some us =>
      by_cases hnow : us.tick = w₁.tickId
      · have heq : tickEmptyUsers w key = w := by
          simp [tickEmptyUsers, hsame, hus, h.frame.tickId, hnow]
        rw [heq]
        refine ⟨h.frame, h.counters, h.homes, h.accounts, ?_⟩
        intro u
        by_cases hu : u = key
        · subst hu
          simp [hsame, hus, emptySampled, hnow]
        · exact hothers hu
      · have heq : tickEmptyUsers w key =
            { w with users := w.users.insert key (emptySampled w₁ us) } := by
          simp [tickEmptyUsers, hsame, hus, h.frame.tickId, h.frame.cfg, hnow, emptySampled]
        rw [heq]
        refine ⟨⟨h.frame.cfg, h.frame.tickId, h.frame.userMap, h.frame.globals, h.frame.sender,
          h.frame.mysql⟩, h.counters, h.homes, h.accounts, ?_⟩
        intro u
        by_cases hu : u = key
        · subst hu
          simp [hus]
        · rw [AList.lookup_insert_ne hu]
          exact hothers hu

end EmptyPass

/-! ### Both passes -/

/-- What a tick that began in `w₀` has left when its sampling is over. -/
structure Sampled (t : TickInput) (w₀ w : World) : Prop where
  frame : SameFrame w₀ w
  users : ∀ u, w.users.lookup u =
    if (w₀.users.lookup u).isSome ∨ (w₀.counters.lookup u).isSome then some (sampledUser t w₀ u)
    else none
  counters : ∀ u, w.counters.lookup u =
    (w₀.counters.lookup u).map fun _ => ⟨resetStats, t.resetTm u⟩
  homes : ∀ u, w.userAccountTable.lookup u =
    if (w₀.counters.lookup u).isSome ∧ w₀.users.lookup u = none then some (w₀.homeAccount u)
    else w₀.userAccountTable.lookup u
  accounts : ∀ a, w.accounts.lookup a = joinAccount a (w₀.accounts.lookup a)
    (newcomers w₀ a (t.ordCounters.order w₀.counters.keys))

omit [Rounding] in
theorem IterOrder.mem_order_iff {ν : Type} (ord : IterOrder) (table : HashTable ν) (k : Username) :
    k ∈ ord.order table.keys ↔ (table.lookup k).isSome := by
  rw [(ord.perm _).mem_iff, ← AList.mem_keys, ← AList.lookup_isSome]

theorem counterPass_foldl {t : TickInput} {w₀ : World} (h : Waiting w₀) :
    CounterPass t w₀ (t.ordCounters.order w₀.counters.keys)
      ((t.ordCounters.order w₀.counters.keys).foldl (addUserStatsFromCounter t) w₀) := by
  refine Visits.foldl_visited (t.ordCounters.order_nodup _) (.start t w₀) ?_
  intro done key w hmem hkey hw
  obtain ⟨item, hitem⟩ := Option.isSome_iff_exists.mp ((t.ordCounters.mem_order_iff _ key).mp hmem)
  exact hw.visit h hkey hitem

theorem emptyPass_foldl (ord : IterOrder) (w₁ : World) :
    EmptyPass w₁ (ord.order w₁.users.keys) ((ord.order w₁.users.keys).foldl tickEmptyUsers w₁) :=
  Visits.foldl_visited (ord.order_nodup _) (.start w₁) fun _ _ _ _ hkey hw => hw.visit hkey

theorem EmptyPass.lookup {ord : IterOrder} {w₁ w : World}
    (h : EmptyPass w₁ (ord.order w₁.users.keys) w) (u : Username) :
    w.users.lookup u = (w₁.users.lookup u).map (emptySampled w₁) := by
  rw [h.users]
  cases hus : w₁.users.lookup u with
  | none => simp
  | some us => rw [if_pos (ord.mem_order hus)]

/-- The second pass leaves the users of the first alone and samples the others. -/
theorem emptySampled_counterPass {t : TickInput} {w₀ w₁ : World} (h : Waiting w₀)
    (hfirst : CounterPass t w₀ (t.ordCounters.order w₀.counters.keys) w₁) (u : Username) :
    (w₁.users.lookup u).map (emptySampled w₁) =
      if (w₀.users.lookup u).isSome ∨ (w₀.counters.lookup u).isSome then some (sampledUser t w₀ u)
      else none := by
  have hcfg := hfirst.frame.cfg
  have htick := hfirst.frame.tickId
  simp only [hfirst.users, t.ordCounters.mem_order_iff]
  cases hcounter : w₀.counters.lookup u with
  | some item =>
      have hdone : emptySampled w₁ (sampledUser t w₀ u) = sampledUser t w₀ u := by
        rw [emptySampled, if_neg]
        rw [htick]
        exact not_not.mpr rfl
      simp [hdone]
  | none =>
      cases hus : w₀.users.lookup u with
      | none => simp
      | some us =>
          have hlate : us.tick ≠ w₁.tickId := by
            rw [htick]
            exact (h.user u us hus).ne
          have hpush : emptySampled w₁ us = sampledUser t w₀ u := by
            rw [emptySampled, if_pos hlate, sampledUser, tickSample, hcounter, World.userOrNew, hus,
              hcfg, htick]
            rfl
          simp [hpush]

theorem sampled_sampleUsers {w : World} (h : DaemonInv w) (t : TickInput) :
    Sampled t { w with tickId := w.tickId + 1 } (sampleUsers t w) := by
  have hwait := h.waiting
  rw [sampleUsers]
  generalize ({ w with tickId := w.tickId + 1 } : World) = w₀ at hwait ⊢
  have hfirst := counterPass_foldl (t := t) hwait
  have hsecond := emptyPass_foldl t.ordUsers
    ((t.ordCounters.order w₀.counters.keys).foldl (addUserStatsFromCounter t) w₀)
  generalize (t.ordCounters.order w₀.counters.keys).foldl (addUserStatsFromCounter t) w₀ = w₁
    at hfirst hsecond ⊢
  refine ⟨hfirst.frame.trans hsecond.frame, ?_, ?_, ?_, ?_⟩
  · intro u
    exact (hsecond.lookup u).trans (emptySampled_counterPass hwait hfirst u)
  · intro u
    simp only [hsecond.counters, hfirst.counters, t.ordCounters.mem_order_iff]
    cases w₀.counters.lookup u <;> simp
  · intro u
    simp only [hsecond.homes, hfirst.homes, t.ordCounters.mem_order_iff]
  · intro a
    rw [hsecond.accounts, hfirst.accounts]

/-- The accounts of a tick after the sums. -/
theorem gatherStats_accounts (t : TickInput) (w : World) (a : Username) :
    (gatherStats t w).accounts.lookup a =
      ((sampleUsers t w).accounts.lookup a).map (calcAccStats (sampleUsers t w).users) := by
  rw [gatherStats_eq]
  exact foldl_onAccount_lookup (fun _ _ => rfl) (t.ordSums.order_nodup _)
    (t.ordSums.mem_order_iff _) a

end DbGovernor
