import DbGovernor.Verification.Daemon.Edits

/-!
# One sample for every user in every tick

The calls of `fifo_stats_push` and `fifo_stats_refresh_last` that a tick makes, in their order,
and the samples that a sequence of ticks leaves in the ring of a user.
-/

namespace DbGovernor

section Ticks

variable [Rounding]

/-! ### The trace of a tick -/

inductive RingOp where
  | push (x : Stats)
  | refreshLast (x : Stats)
deriving DecidableEq

/-- A call of `push_stats` or `refresh_stats`, with the user it is made for. -/
structure RingCall where
  user : Username
  op : RingOp
deriving DecidableEq

/-- The calls made for a user. -/
def opsOn (u : Username) (calls : List RingCall) : List RingOp :=
  (calls.filter (·.user = u)).map RingCall.op

/-- The call in `add_new_stats`. -/
def addNewStatsCalls (username : Username) (st : Stats) (tickId : ℕ) (w : World) :
    List RingCall :=
  match (addEmptyStatsForUid username w).users.lookup username with
  | none => []
  | some us => [⟨username, if us.tick = tickId then .refreshLast st else .push st⟩]

/-- The calls in `add_user_stats_from_counter`. -/
def counterCalls (t : TickInput) (w : World) (key : Username) : List RingCall :=
  match w.counters.lookup key with
  | none => []
  | some item => addNewStatsCalls key (counterSample t item) w.tickId w

/-- The call in `tick_empty_users`. -/
def emptyCalls (w : World) (key : Username) : List RingCall :=
  match w.users.lookup key with
  | none => []
  | some us => if us.tick ≠ w.tickId then [⟨key, .push resetStats⟩] else []

/-- A step of a pass that writes down its calls. -/
def traced (step : World → Username → World) (calls : World → Username → List RingCall)
    (r : World × List RingCall) (key : Username) : World × List RingCall :=
  (step r.1 key, r.2 ++ calls r.1 key)

/-- The two passes of `proceed_accounts` that sample, with their calls. -/
def sampleUsersTraced (t : TickInput) (w : World) : World × List RingCall :=
  let w := { w with tickId := w.tickId + 1 }
  let r := (t.ordCounters.order w.counters.keys).foldl
    (traced (addUserStatsFromCounter t) (counterCalls t)) (w, [])
  (t.ordUsers.order r.1.users.keys).foldl (traced tickEmptyUsers emptyCalls) r

/-- The calls of a tick. The passes over the accounts make none. -/
def ringCalls (t : TickInput) (w : World) : List RingCall := (sampleUsersTraced t w).2

omit [Rounding] in
theorem foldl_traced_fst (step : World → Username → World)
    (calls : World → Username → List RingCall) (r : World × List RingCall)
    (keys : List Username) : (keys.foldl (traced step calls) r).1 = keys.foldl step r.1 := by
  induction keys generalizing r with
  | nil => rfl
  | cons key keys ih => exact ih (traced step calls r key)

theorem sampleUsersTraced_fst (t : TickInput) (w : World) :
    (sampleUsersTraced t w).1 = sampleUsers t w := by
  simp only [sampleUsersTraced, sampleUsers, foldl_traced_fst]

omit [Rounding] in
theorem opsOn_append (u : Username) (calls more : List RingCall) :
    opsOn u (calls ++ more) = opsOn u calls ++ opsOn u more := by
  simp [opsOn]

omit [Rounding] in
theorem opsOn_of_ne {u : Username} {calls : List RingCall} (h : ∀ c ∈ calls, c.user ≠ u) :
    opsOn u calls = [] := by
  rw [opsOn, List.map_eq_nil_iff, List.filter_eq_nil_iff]
  intro c hc
  simpa using h c hc

/-! ### The calls of the two passes -/

section Calls

variable {t : TickInput} {w₀ w : World} {done : List Username} {key : Username}
  {calls : List RingCall}

theorem CounterPass.counterCalls_eq (h : CounterPass t w₀ done w) (hw : Waiting w₀)
    (hkey : key ∉ done) (hmem : (w₀.counters.lookup key).isSome) :
    counterCalls t w key = [⟨key, .push (tickSample t w₀ key)⟩] := by
  obtain ⟨item, hitem⟩ := Option.isSome_iff_exists.mp hmem
  have hcounter := h.lookup_counter hkey
  have hv := h.visiting hkey
  simp only [counterCalls, hcounter, hitem, addNewStatsCalls, hv.visited, h.frame.tickId,
    if_neg (hw.userOrNew_tick key), tickSample]

theorem EmptyPass.emptyCalls_eq {w₁ : World} (h : EmptyPass w₁ done w) (hkey : key ∉ done) :
    emptyCalls w key = emptyCalls w₁ key := by
  have hsame : w.users.lookup key = w₁.users.lookup key := by rw [h.users, if_neg hkey]
  simp only [emptyCalls, hsame, h.frame.tickId]

omit [Rounding] in
theorem emptyCalls_user (w : World) (key : Username) : ∀ c ∈ emptyCalls w key, c.user = key := by
  intro c hc
  rw [emptyCalls] at hc
  split at hc
  · cases hc
  · split at hc
    · rw [List.mem_singleton.mp hc]
    · cases hc

/-- The calls of the pass over the counters. -/
structure TracedCounters (t : TickInput) (w₀ : World) (done : List Username)
    (r : World × List RingCall) : Prop where
  pass : CounterPass t w₀ done r.1
  calls : ∀ u, opsOn u r.2 = if u ∈ done then [.push (tickSample t w₀ u)] else []

theorem tracedCounters_foldl (hw : Waiting w₀) (t : TickInput) :
    TracedCounters t w₀ (t.ordCounters.order w₀.counters.keys)
      ((t.ordCounters.order w₀.counters.keys).foldl
        (traced (addUserStatsFromCounter t) (counterCalls t)) (w₀, [])) := by
  refine Visits.foldl_visited (t.ordCounters.order_nodup _) ⟨.start t w₀, fun u => by simp [opsOn]⟩ ?_
  intro done key r hmem hkey hr
  have hsome := (t.ordCounters.mem_order_iff _ key).mp hmem
  obtain ⟨item, hitem⟩ := Option.isSome_iff_exists.mp hsome
  have hcalls := hr.pass.counterCalls_eq hw hkey hsome
  refine ⟨hr.pass.visit hw hkey hitem, ?_⟩
  intro u
  rw [traced, opsOn_append, hr.calls, hcalls]
  by_cases hu : u = key
  · subst hu
    simp [hkey, opsOn]
  · have hne : key ≠ u := Ne.symm hu
    simp [hu, hne, opsOn]

/-- The calls of the pass over the users, after `first`. -/
structure TracedEmpty (w₁ : World) (first : List RingCall) (done : List Username)
    (r : World × List RingCall) : Prop where
  pass : EmptyPass w₁ done r.1
  calls : ∀ u, opsOn u r.2 =
    opsOn u first ++ if u ∈ done then (emptyCalls w₁ u).map RingCall.op else []

theorem tracedEmpty_foldl (ord : IterOrder) (w₁ : World) (first : List RingCall) :
    TracedEmpty w₁ first (ord.order w₁.users.keys)
      ((ord.order w₁.users.keys).foldl (traced tickEmptyUsers emptyCalls) (w₁, first)) := by
  refine Visits.foldl_visited (ord.order_nodup _) ⟨.start w₁, fun u => by simp⟩ ?_
  intro done key r _ hkey hr
  have hcalls := hr.pass.emptyCalls_eq hkey
  refine ⟨hr.pass.visit hkey, ?_⟩
  intro u
  rw [traced, opsOn_append, hr.calls, hcalls]
  by_cases hu : u = key
  · subst hu
    have hall : (emptyCalls w₁ u).filter (·.user = u) = emptyCalls w₁ u := by
      rw [List.filter_eq_self]
      intro c hc
      simpa using emptyCalls_user w₁ u c hc
    simp [hkey, opsOn, hall]
  · have hnone : opsOn u (emptyCalls w₁ key) = [] := by
      refine opsOn_of_ne ?_
      intro c hc
      rw [emptyCalls_user w₁ key c hc]
      exact Ne.symm hu
    simp [hu, hnone]

/-- Which calls the second pass makes for a user. -/
theorem CounterPass.emptyCalls (h : CounterPass t w₀ done w) (hw : Waiting w₀) (u : Username) :
    emptyCalls w u =
      if (w₀.users.lookup u).isSome ∧ u ∉ done then [⟨u, .push resetStats⟩] else [] := by
  by_cases hu : u ∈ done
  · have hnow : (sampledUser t w₀ u).tick = w.tickId := h.frame.tickId.symm
    simp [DbGovernor.emptyCalls, h.users, hu, hnow]
  · cases hus : w₀.users.lookup u with
    | none => simp [DbGovernor.emptyCalls, h.users, hu, hus]
    | some us =>
        have hlate : us.tick ≠ w.tickId := by
          rw [h.frame.tickId]
          exact (hw.user u us hus).ne
        simp [DbGovernor.emptyCalls, h.users, hu, hus, hlate]

/-- The calls of a tick for one user. -/
theorem opsOn_ringCalls {w : World} (h : DaemonInv w) (t : TickInput) (u : Username) :
    opsOn u (ringCalls t w) =
      if (w.users.lookup u).isSome ∨ (w.counters.lookup u).isSome then [.push (tickSample t w u)]
      else [] := by
  have hwait := h.waiting
  have hcounters : w.counters = ({ w with tickId := w.tickId + 1 } : World).counters := rfl
  have husers : w.users = ({ w with tickId := w.tickId + 1 } : World).users := rfl
  have hsample : tickSample t w u = tickSample t { w with tickId := w.tickId + 1 } u := rfl
  rw [ringCalls, sampleUsersTraced, hsample, husers, hcounters]
  generalize ({ w with tickId := w.tickId + 1 } : World) = w₀ at hwait ⊢
  have hfirst := tracedCounters_foldl hwait t
  generalize (t.ordCounters.order w₀.counters.keys).foldl
    (traced (addUserStatsFromCounter t) (counterCalls t)) (w₀, []) = r at hfirst ⊢
  have hsecond := tracedEmpty_foldl t.ordUsers r.1 r.2
  have hpresent : u ∈ t.ordUsers.order r.1.users.keys ∨ DbGovernor.emptyCalls r.1 u = [] := by
    cases hus : r.1.users.lookup u with
    | none => exact .inr (by simp [DbGovernor.emptyCalls, hus])
    | some us => exact .inl (t.ordUsers.mem_order hus)
  have hempty : (if u ∈ t.ordUsers.order r.1.users.keys then
      (DbGovernor.emptyCalls r.1 u).map RingCall.op else []) =
      (DbGovernor.emptyCalls r.1 u).map RingCall.op := by
    rcases hpresent with hmem | hnil
    · rw [if_pos hmem]
    · simp [hnil]
  rw [hsecond.calls, hempty, hfirst.calls, hfirst.pass.emptyCalls hwait]
  simp only [t.ordCounters.mem_order_iff]
  cases hcounter : w₀.counters.lookup u with
  | some item => simp
  | none =>
      cases w₀.users.lookup u with
      | none => simp
      | some us => simp [tickSample, hcounter]

end Calls

/-! ### One tick -/

/-- The ring of a user, or the one `init_user_stats` would make. -/
def World.ring (w : World) (u : Username) : FifoStats := (w.userOrNew u).stats

/-- A tick makes one push and no refresh for every user, and resets every counter. -/
structure OneSample (t : TickInput) (w : World) : Prop where
  present : ∀ u, ((proceedAccounts t w).users.lookup u).isSome ↔
    (w.users.lookup u).isSome ∨ (w.counters.lookup u).isSome
  calls : ∀ u, opsOn u (ringCalls t w) =
    if ((proceedAccounts t w).users.lookup u).isSome then [.push (tickSample t w u)] else []
  ring : ∀ u us, (proceedAccounts t w).users.lookup u = some us →
    us.stats = fifoStatsPush (w.ring u) (tickSample t w u)
  counters : ∀ u, (proceedAccounts t w).counters.lookup u =
    (w.counters.lookup u).map fun _ => ⟨resetStats, t.resetTm u⟩

section Tick

variable {w : World}

omit [Rounding] in
theorem DaemonInv.ring_wellFormed (h : DaemonInv w) (u : Username) : (w.ring u).WellFormed := by
  rw [World.ring, World.userOrNew]
  cases hus : w.users.lookup u with
  | none => exact fifoStatsInit_wellFormed _
  | some us => exact (h.user u us hus).wellFormed

theorem proceedAccounts_lookup (h : DaemonInv w) (t : TickInput) (u : Username) :
    (proceedAccounts t w).users.lookup u =
      if (w.users.lookup u).isSome ∨ (w.counters.lookup u).isSome then
        some (sampledUser t { w with tickId := w.tickId + 1 } u)
      else none := by
  rw [(proceedAccounts_base t w).users]
  exact (sampled_sampleUsers h t).users u

theorem sampledUser_stats (t : TickInput) (w : World) (u : Username) :
    (sampledUser t { w with tickId := w.tickId + 1 } u).stats =
      fifoStatsPush (w.ring u) (tickSample t w u) := by
  have hring : (({ w with tickId := w.tickId + 1 } : World).userOrNew u).stats = w.ring u := by
    rw [World.ring, World.userOrNew, World.userOrNew]
    cases w.users.lookup u <;> rfl
  exact congrArg (fun fifo => fifoStatsPush fifo (tickSample t w u)) hring

theorem oneSample (h : DaemonInv w) (t : TickInput) : OneSample t w := by
  have hpresent : ∀ u, ((proceedAccounts t w).users.lookup u).isSome ↔
      (w.users.lookup u).isSome ∨ (w.counters.lookup u).isSome := by
    intro u
    rw [proceedAccounts_lookup h]
    split <;> simp [*]
  refine ⟨hpresent, ?_, ?_, ?_⟩
  · intro u
    simp only [opsOn_ringCalls h, hpresent]
  · intro u us hus
    rw [proceedAccounts_lookup h] at hus
    split at hus
    · rw [← Option.some.inj hus, sampledUser_stats]
    · cases hus
  · intro u
    rw [(proceedAccounts_base t w).counters]
    exact (sampled_sampleUsers h t).counters u

end Tick

/-! ### All ticks -/

/-- A state with the ticks of a run that led to it, newest first, each with its input and the
state it began in. -/
inductive History : List (TickInput × World) → World → Prop where
  | start (cfg) : History [] (World.init cfg)
  | tick {past w} (t) : History past w → History ((t, w) :: past) (proceedAccounts t w)
  | other {past w w'} : History past w → DaemonStep w w' → w'.tickId = w.tickId → History past w'

/-- Slot `i` of every ring that was there after the tick `i + 1` ticks ago is the sample of
that tick. -/
def Aligned (past : List (TickInput × World)) (w : World) : Prop :=
  ∀ (i : ℕ) t v u us, past[i]? = some (t, v) →
    ((proceedAccounts t v).users.lookup u).isSome → w.users.lookup u = some us →
    i < us.stats.size → fifoStatsGet us.stats i = tickSample t v u

section History

variable {past : List (TickInput × World)} {w w' : World}

omit [Rounding] in
theorem Edit.tickId_eq (h : Edit False w w') : w'.tickId = w.tickId := by
  cases h with
  | frame _ _ _ _ htick => exact htick
  | account _ _ _ _ _ _ => rfl
  | register u _ =>
      obtain ⟨_, _, -, heq⟩ := addUserStats_spec u w
      rw [heq]
  | newTick hfalse => exact hfalse.elim
  | sample _ _ _ hfalse _ _ _ => exact hfalse.elim

omit [Rounding] in
/-- Outside a tick the record of a registered user is left alone. -/
theorem Edit.lookup_eq (h : Edit False w w') {u : Username} {us : UserStats}
    (hus : w.users.lookup u = some us) : w'.users.lookup u = some us := by
  cases h with
  | frame _ husers _ _ _ => rw [husers, hus]
  | account _ _ _ _ _ _ => exact hus
  | register v hnew =>
      obtain ⟨_, _, -, heq⟩ := addUserStats_spec v w
      have huv : u ≠ v := by
        rintro rfl
        simp [hnew] at hus
      rw [heq]
      simpa [huv] using hus
  | newTick hfalse => exact hfalse.elim
  | sample _ _ _ hfalse _ _ _ => exact hfalse.elim

omit [Rounding] in
theorem Edits.tickId_eq (h : Edits False w w') : w'.tickId = w.tickId := by
  induction h with
  | refl => rfl
  | tail _ hlast ih => exact hlast.tickId_eq.trans ih

omit [Rounding] in
theorem Edits.lookup_eq (h : Edits False w w') {u : Username} {us : UserStats}
    (hus : w.users.lookup u = some us) : w'.users.lookup u = some us := by
  induction h with
  | refl => exact hus
  | tail _ hlast ih => exact hlast.lookup_eq ih

theorem proceedAccounts_tickId (t : TickInput) {w : World} (h : DaemonInv w) :
    (proceedAccounts t w).tickId = w.tickId + 1 :=
  (proceedAccounts_base t w).tickId.trans (sampled_sampleUsers h t).frame.tickId

theorem Reachable.history (h : Reachable w) : ∃ past, History past w := by
  induction h with
  | start cfg => exact ⟨[], .start cfg⟩
  | step hw hs ih =>
      obtain ⟨past, hpast⟩ := ih
      rcases hs.tick_or_edits hw.daemonInv with ⟨t, rfl⟩ | hedits
      · exact ⟨_, hpast.tick t⟩
      · exact ⟨past, hpast.other hs hedits.tickId_eq⟩

theorem History.reachable (h : History past w) : Reachable w := by
  induction h with
  | start cfg => exact .start cfg
  | tick t _ ih => exact .step ih (.tick t _)
  | other _ hs _ ih => exact .step ih hs

/-- A run has as many ticks as their number says. -/
theorem History.length_eq (h : History past w) : past.length = w.tickId := by
  induction h with
  | start cfg => rfl
  | tick t hw ih =>
      rw [proceedAccounts_tickId t hw.reachable.daemonInv, List.length_cons, ih]
  | other _ _ htick ih => rw [htick, ih]

/-- A user is there after every tick since its first. -/
theorem History.present (h : History past w) {i : ℕ} {t : TickInput} {v : World} {u : Username}
    (hi : past[i]? = some (t, v)) (hu : ((proceedAccounts t v).users.lookup u).isSome) :
    (w.users.lookup u).isSome := by
  induction h generalizing i with
  | start cfg => simp at hi
  | tick t' hw ih =>
      cases i with
      | zero =>
          obtain ⟨rfl, rfl⟩ := Prod.mk.inj (Option.some.inj hi)
          exact hu
      | succ i => exact ((oneSample hw.reachable.daemonInv t').present u).mpr (.inl (ih hi))
  | other hw hs htick ih =>
      obtain ⟨us, hus⟩ := Option.isSome_iff_exists.mp (ih hi)
      rcases hs.tick_or_edits hw.reachable.daemonInv with ⟨t', rfl⟩ | hedits
      · rw [proceedAccounts_tickId t' hw.reachable.daemonInv] at htick
        omega
      · rw [hedits.lookup_eq hus]
        rfl

theorem History.aligned (h : History past w) : Aligned past w := by
  induction h with
  | start cfg =>
      intro i t v u us hi
      simp at hi
  | @tick past w t' hw ih =>
      intro i t v u us hi hu hus hsize
      have hinv := hw.reachable.daemonInv
      have hring := (oneSample hinv t').ring u us hus
      have hwf := hinv.ring_wellFormed u
      rw [hring] at hsize ⊢
      cases i with
      | zero =>
          obtain ⟨rfl, rfl⟩ := Prod.mk.inj (Option.some.inj hi)
          exact fifoStatsGet_push_first hwf _ hsize
      | succ i =>
          obtain ⟨old, hold⟩ := Option.isSome_iff_exists.mp (hw.present hi hu)
          have hsame : w.ring u = old.stats := by simp [World.ring, World.userOrNew, hold]
          rw [fifoStatsGet_push_succ hwf _ hsize, hsame]
          rw [hsame] at hsize
          refine ih i t v u old hi hu hold ?_
          have hkeep : (fifoStatsPush old.stats (tickSample t' w u)).size = old.stats.size := rfl
          omega
  | other hw hs htick ih =>
      intro i t v u us hi hu hus hsize
      obtain ⟨old, hold⟩ := Option.isSome_iff_exists.mp (hw.present hi hu)
      rcases hs.tick_or_edits hw.reachable.daemonInv with ⟨t', rfl⟩ | hedits
      · rw [proceedAccounts_tickId t' hw.reachable.daemonInv] at htick
        omega
      · obtain rfl : old = us := Option.some.inj ((hedits.lookup_eq hold).symm.trans hus)
        exact ih i t v u old hi hu hold hsize

end History

/-- In every reachable state a tick appends one sample for every user, and slot `i` of the rings
belongs to the same tick for all users. -/
theorem tick_appends_one_sample {w : World} (h : Reachable w) :
    (∀ t, OneSample t w) ∧ (∃ past, History past w ∧ past.length = w.tickId) ∧
      ∀ past, History past w → Aligned past w := by
  refine ⟨oneSample h.daemonInv, ?_, fun past hpast => hpast.aligned⟩
  obtain ⟨past, hpast⟩ := h.history
  exact ⟨past, hpast, hpast.length_eq⟩

/-- A daemon that has counted some traffic of a user it does not know yet. -/
def countedWorld : World := incrementCounters sampleUser 500 0 0 0 (.init (shippedConfig true))

def plainTick : TickInput :=
  ⟨1, fun _ => 1, 0, .asListed, .asListed, .asListed, .asListed, false⟩

/-- The same daemon after one tick. -/
def tickedWorld : World := proceedAccounts plainTick countedWorld

theorem tickedWorld_reachable : Reachable tickedWorld :=
  .step (.step (.start _) (.increment sampleUser 500 0 0 0 _)) (.tick plainTick _)

end Ticks

theorem tick_appends_one_sample_sample :
    (∀ t, OneSample t tickedWorld) ∧
      (∃ past, History past tickedWorld ∧ past.length = tickedWorld.tickId) ∧
      ∀ past, History past tickedWorld → Aligned past tickedWorld :=
  tick_appends_one_sample tickedWorld_reachable

end DbGovernor
