import DbGovernor.Model.PollLoop

/-!
# Events that the poll loop acts on

An entry that is removed leaves its index to the next one, which the loop then passes over. With
an event on an entry that was passed over `ret` stays above zero to the end of the array, and the
loop comes to the connections that it accepted, whose `revents` no call of `poll` wrote.
-/

namespace DbGovernor

section

variable (gnuSource : Bool) (socket : ℤ) (calls : ℕ → PollCalls)

/-- The round at `i` removes the entry. -/
def removesEntry (i : ℕ) (entry : PollFd) : Bool :=
  entry.revents ≠ 0 ∧ pollAction gnuSource socket (calls i) entry = .removed

/-- The round at `i` accepts a connection on the entry. -/
def acceptsOn (i : ℕ) (entry : PollFd) : Bool :=
  entry.revents ≠ 0 ∧ pollAction gnuSource socket (calls i) entry = .accepted

/-- What becomes of the entries of an array in a pass over all of them: those that are passed
over, the number of connections accepted, and whether the next entry is passed over. -/
structure Walk where
  passed : List PollFd
  accepts : ℕ
  passesNext : Bool

/-- The walk over some entries from the round at an index on. -/
def walk : ℕ → Bool → List PollFd → Walk
  | _, passesNext, [] => ⟨[], 0, passesNext⟩
  | i, true, entry :: rest =>
      { walk i false rest with passed := entry :: (walk i false rest).passed }
  | i, false, entry :: rest =>
      let after := walk (i + 1) (removesEntry gnuSource socket calls i entry) rest
      { after with
        accepts := (acceptsOn gnuSource socket calls i entry).toNat + after.accepts }

end

/-- An event was passed over, and a connection that was accepted is not. -/
def Walk.ReachesAccepted (w : Walk) : Prop :=
  (∃ entry ∈ w.passed, entry.revents ≠ 0) ∧ w.passesNext.toNat < w.accepts

instance (w : Walk) : Decidable w.ReachesAccepted := inferInstanceAs (Decidable (_ ∧ _))

/-- The number of entries with an event. -/
def eventCount (entries : List PollFd) : ℕ := entries.countP fun entry => entry.revents ≠ 0

section

variable {gnuSource : Bool} {socket : ℤ} {calls : ℕ → PollCalls} {s : PollPass} {entry : PollFd}
  {rest added : List PollFd} {passesNext : Bool} {lost fuel : ℕ}

/-- Where a pass stands: at the entries `rest`, behind which lie the connections `added`. The
first of them is passed over after a removal; `lost` events were passed over. -/
structure PassAt (rest added : List PollFd) (passesNext : Bool) (lost : ℕ) (s : PollPass) :
    Prop where
  fds : ∃ front, s.fds = front ++ (rest ++ added) ∧ s.i = front.length + passesNext.toNat
  ret : s.ret = lost + eventCount rest
  polled : ∀ entry ∈ rest, entry.polled = true
  accepted : ∀ entry ∈ added, entry.polled = false
  tested : ∀ entry ∈ s.tested, entry.polled = true
  handled : ∀ entry ∈ s.handled, entry.polled = true

theorem eventCount_cons (entry : PollFd) (rest : List PollFd) :
    eventCount (entry :: rest) = (decide (entry.revents ≠ 0)).toNat + eventCount rest := by
  by_cases h : entry.revents = 0 <;> simp [eventCount, h, Nat.add_comm]

/-- The entry that has moved to the index of a removed one is passed over. -/
theorem PassAt.pass (h : PassAt (entry :: rest) added true lost s) :
    PassAt rest added false (lost + (decide (entry.revents ≠ 0)).toNat) s := by
  obtain ⟨front, hfds, hi⟩ := h.fds
  refine ⟨⟨front ++ [entry], by simp [hfds], by simp [hi]⟩, ?_,
    fun e he => h.polled e (List.mem_cons_of_mem _ he), h.accepted, h.tested, h.handled⟩
  rw [h.ret, eventCount_cons]
  omega

theorem PassAt.getElem? (h : PassAt (entry :: rest) added false lost s) :
    s.fds[s.i]? = some entry := by
  obtain ⟨front, hfds, hi⟩ := h.fds
  simp [hfds, hi]

/-- A round on the next entry. -/
theorem PassAt.round (gnuSource : Bool) (socket : ℤ) (calls : ℕ → PollCalls)
    (h : PassAt (entry :: rest) added false lost s) :
    ∃ more, more.length = (acceptsOn gnuSource socket calls s.i entry).toNat ∧
      PassAt rest (added ++ more) (removesEntry gnuSource socket calls s.i entry) lost
        (pollRound gnuSource socket (calls s.i) s entry) := by
  obtain ⟨front, hfds, hi⟩ := h.fds
  have hnext : ∃ front, s.fds = front ++ (rest ++ added) ∧ s.i + 1 = front.length + false.toNat :=
    ⟨front ++ [entry], by simp [hfds], by simp [hi]⟩
  have hpolled : ∀ e ∈ rest, e.polled = true := fun e he => h.polled e (List.mem_cons_of_mem _ he)
  have hentry : entry.polled = true := h.polled entry List.mem_cons_self
  have htested : ∀ e ∈ s.tested ++ [entry], e.polled = true :=
    List.forall_mem_append.2 ⟨h.tested, by simpa using hentry⟩
  have hhandled : ∀ e ∈ s.handled ++ [entry], e.polled = true :=
    List.forall_mem_append.2 ⟨h.handled, by simpa using hentry⟩
  have hret := h.ret
  rw [eventCount_cons] at hret
  by_cases hrev : entry.revents = 0
  · refine ⟨[], by simp [acceptsOn, hrev], ?_⟩
    simp only [pollRound, removesEntry, hrev, List.append_nil]
    exact ⟨hnext, by simpa [hrev] using hret, hpolled, h.accepted, htested, h.handled⟩
  · have hless : s.ret - 1 = lost + eventCount rest := by
      simp only [hrev, ne_eq, not_false_eq_true, decide_true, Bool.toNat_true] at hret
      omega
    cases haction : pollAction gnuSource socket (calls s.i) entry with
    | kept =>
        refine ⟨[], by simp [acceptsOn, haction], ?_⟩
        simp only [pollRound, removesEntry, hrev, haction, List.append_nil, if_false, reduceCtorEq,
          and_false, decide_false]
        exact ⟨hnext, hless, hpolled, h.accepted, htested, h.handled⟩
    | accepted =>
        refine ⟨[⟨(calls s.i).accept, (calls s.i).slot, false⟩],
          by simp [acceptsOn, hrev, haction], ?_⟩
        simp only [pollRound, removesEntry, hrev, haction, if_false, reduceCtorEq, and_false,
          decide_false]
        obtain ⟨front, hfds, hi⟩ := hnext
        exact ⟨⟨front, by simp [hfds], hi⟩, hless, hpolled,
          List.forall_mem_append.2 ⟨h.accepted, by simp⟩, htested, h.handled⟩
    | removed =>
        refine ⟨[], by simp [acceptsOn, haction], ?_⟩
        simp only [pollRound, removesEntry, hrev, haction, List.append_nil, if_false, ne_eq,
          not_false_eq_true, and_self, decide_true]
        have herased : s.fds.eraseIdx s.i = front ++ (rest ++ added) := by
          simp [hfds, hi, List.eraseIdx_append_of_length_le]
        exact ⟨⟨front, herased, by simp [hi]⟩, hless, hpolled, h.accepted, htested, hhandled⟩
    | read =>
        refine ⟨[], by simp [acceptsOn, haction], ?_⟩
        simp only [pollRound, removesEntry, hrev, haction, List.append_nil, if_false, reduceCtorEq,
          and_false, decide_false]
        exact ⟨hnext, hless, hpolled, h.accepted, htested, hhandled⟩

theorem pollRound_tested (round : PollCalls) :
    (pollRound gnuSource socket round s entry).tested = s.tested ++ [entry] := by
  rw [pollRound]
  split
  · rfl
  · split <;> rfl

theorem pollRound_i (round : PollCalls) :
    (pollRound gnuSource socket round s entry).i = s.i + 1 := by
  rw [pollRound]
  split
  · rfl
  · split <;> rfl

/-- The bound on the rounds of the loop goes down with each of them. -/
theorem pollRound_measure (gnuSource : Bool) (socket : ℤ) (round : PollCalls) (entry : PollFd)
    (hi : s.i < s.fds.length) (hret : s.ret ≠ 0) :
    (pollRound gnuSource socket round s entry).fds.length -
        (pollRound gnuSource socket round s entry).i +
        (pollRound gnuSource socket round s entry).ret + 1 ≤
      s.fds.length - s.i + s.ret := by
  rw [pollRound]
  split
  · simp only
    omega
  · split <;> simp only [List.length_append, List.length_cons, List.length_nil,
      List.length_eraseIdx_of_lt hi] <;> omega

/-- The pass ends: its bound on the rounds is not what stops it. -/
theorem pollLoop_ends (hfuel : s.fds.length - s.i + s.ret ≤ fuel) :
    (pollLoop gnuSource socket calls fuel s).ret = 0 ∨
      (pollLoop gnuSource socket calls fuel s).fds.length ≤
        (pollLoop gnuSource socket calls fuel s).i := by
  induction fuel generalizing s with
  | zero =>
      rw [pollLoop]
      omega
  | succ fuel ih =>
      rw [pollLoop]
      cases hentry : s.fds[s.i]? with
      | none => exact .inr (List.getElem?_eq_none_iff.1 hentry)
      | some entry =>
          have hi : s.i < s.fds.length := (List.getElem?_eq_some_iff.1 hentry).1
          by_cases hret : s.ret = 0
          · simp [hret]
          · have hmeasure := pollRound_measure gnuSource socket (calls s.i) entry hi hret
            simp only [hret, if_false]
            exact ih (by omega)

theorem pollLoop_tested (h : entry ∈ s.tested) :
    entry ∈ (pollLoop gnuSource socket calls fuel s).tested := by
  induction fuel generalizing s with
  | zero => exact h
  | succ fuel ih =>
      rw [pollLoop]
      split
      · exact h
      · split
        · exact h
        · apply ih
          rw [pollRound_tested]
          exact List.mem_append_left _ h

/-- The events that are passed over are among those of the entries. -/
theorem eventCount_walk_passed (gnuSource : Bool) (socket : ℤ) (calls : ℕ → PollCalls) (i : ℕ)
    (passesNext : Bool) (rest : List PollFd) :
    eventCount (walk gnuSource socket calls i passesNext rest).passed ≤ eventCount rest := by
  induction rest generalizing i passesNext with
  | nil => simp [walk]
  | cons entry rest ih =>
      cases passesNext with
      | true =>
          have hrest := ih i false
          simp only [walk, eventCount_cons]
          omega
      | false =>
          have hrest := ih (i + 1) (removesEntry gnuSource socket calls i entry)
          simp only [walk, eventCount_cons]
          omega

/-- Only entries that `poll` wrote were tested, and only such entries were acted on. -/
def PollPass.OnlyPolled (s : PollPass) : Prop :=
  (∀ entry ∈ s.tested, entry.polled = true) ∧ ∀ entry ∈ s.handled, entry.polled = true

instance (s : PollPass) : Decidable s.OnlyPolled := inferInstanceAs (Decidable (_ ∧ _))

/-- Behind the entries of the array: the loop goes on to a connection if an event was passed
over. -/
theorem PassAt.end_iff (h : PassAt [] added passesNext lost s)
    (hfuel : s.fds.length - s.i + s.ret ≤ fuel) :
    (pollLoop gnuSource socket calls fuel s).OnlyPolled ↔
      ¬(0 < lost ∧ passesNext.toNat < added.length) := by
  obtain ⟨front, hfds, hi⟩ := h.fds
  have hret : s.ret = lost := by simpa [eventCount] using h.ret
  have hs : s.OnlyPolled := ⟨h.tested, h.handled⟩
  have hnext : s.fds[s.i]? = added[passesNext.toNat]? := by
    rw [hfds, hi, List.nil_append, List.getElem?_append_right (Nat.le_add_right _ _),
      Nat.add_sub_cancel_left]
  cases hentry : added[passesNext.toNat]? with
  | none =>
      have hlength : added.length ≤ passesNext.toNat := List.getElem?_eq_none_iff.1 hentry
      have hstays : pollLoop gnuSource socket calls fuel s = s := by
        cases fuel <;> simp [pollLoop, hnext, hentry]
      rw [hstays]
      exact iff_of_true hs (by omega)
  | some entry =>
      have hlength : passesNext.toNat < added.length := (List.getElem?_eq_some_iff.1 hentry).1
      have hlengths : s.fds.length = front.length + added.length := by simp [hfds]
      cases fuel with
      | zero => omega
      | succ fuel =>
          rw [pollLoop, hnext, hentry]
          by_cases hlost : lost = 0
          · simp only [hret, hlost, if_true]
            exact iff_of_true hs (by omega)
          · simp only [hret, hlost, if_false]
            refine iff_of_false (fun hall => ?_) (fun hnot => hnot ⟨by omega, hlength⟩)
            have hround : entry ∈ (pollRound gnuSource socket (calls s.i) s entry).tested := by
              rw [pollRound_tested]
              exact List.mem_append_right _ List.mem_cons_self
            have hpolled := hall.1 entry (pollLoop_tested hround)
            have hnew := h.accepted entry (List.mem_of_getElem? hentry)
            simp [hnew] at hpolled

/-- The loop from any entry of the array on. -/
theorem PassAt.loop_iff (gnuSource : Bool) (socket : ℤ) (calls : ℕ → PollCalls)
    (h : PassAt rest added passesNext lost s)
    (hfuel : s.fds.length - s.i + s.ret ≤ fuel) :
    (pollLoop gnuSource socket calls fuel s).OnlyPolled ↔
      ¬(0 < lost + eventCount (walk gnuSource socket calls s.i passesNext rest).passed ∧
        (walk gnuSource socket calls s.i passesNext rest).passesNext.toNat <
          added.length + (walk gnuSource socket calls s.i passesNext rest).accepts) := by
  induction rest generalizing s added passesNext lost fuel with
  | nil => simpa [walk, eventCount] using h.end_iff hfuel
  | cons entry rest ih =>
      cases passesNext with
      | true =>
          rw [ih h.pass hfuel]
          simp only [walk, eventCount_cons, Nat.add_assoc]
      | false =>
          have hentry := h.getElem?
          have hi : s.i < s.fds.length := (List.getElem?_eq_some_iff.1 hentry).1
          by_cases hret : s.ret = 0
          · have hstays : pollLoop gnuSource socket calls fuel s = s := by
              cases fuel <;> simp [pollLoop, hentry, hret]
            have hwalk := eventCount_walk_passed gnuSource socket calls s.i false (entry :: rest)
            have hcount := h.ret
            rw [hstays]
            exact iff_of_true ⟨h.tested, h.handled⟩ (by omega)
          · cases fuel with
            | zero => omega
            | succ fuel =>
                obtain ⟨more, hmore, hround⟩ := h.round gnuSource socket calls
                have hmeasure := pollRound_measure gnuSource socket (calls s.i) entry hi hret
                rw [pollLoop, hentry]
                simp only [hret, if_false]
                rw [ih hround (by omega), pollRound_i]
                simp only [walk, List.length_append, hmore, Nat.add_assoc]

theorem eventCount_pos {entries : List PollFd} :
    0 < eventCount entries ↔ ∃ entry ∈ entries, entry.revents ≠ 0 := by
  simp [eventCount, List.countP_pos_iff]

theorem passAt_polledFds (events : List (ℤ × UInt16)) :
    PassAt (polledFds events) [] false 0
      ⟨polledFds events, 0, eventCount (polledFds events), [], []⟩ where
  fds := ⟨[], by simp, rfl⟩
  ret := (Nat.zero_add _).symm
  polled := by
    intro entry hentry
    rw [polledFds] at hentry
    obtain ⟨event, -, rfl⟩ := List.mem_map.1 hentry
    rfl
  accepted := by simp
  tested := by simp
  handled := by simp

theorem pollPass_ends (gnuSource : Bool) (socket : ℤ) (calls : ℕ → PollCalls)
    (events : List (ℤ × UInt16)) :
    (pollPass gnuSource socket calls events).ret = 0 ∨
      (pollPass gnuSource socket calls events).fds.length ≤
        (pollPass gnuSource socket calls events).i :=
  pollLoop_ends (Nat.le_refl _)

/-- A pass tests and acts on nothing but what `poll` wrote, unless it passed over an event and
has a connection that it accepted ahead of it. -/
theorem pollPass_onlyPolled_iff (gnuSource : Bool) (socket : ℤ) (calls : ℕ → PollCalls)
    (events : List (ℤ × UInt16)) :
    (pollPass gnuSource socket calls events).OnlyPolled ↔
      ¬(walk gnuSource socket calls 0 false (polledFds events)).ReachesAccepted := by
  have hiff := (passAt_polledFds events).loop_iff gnuSource socket calls (Nat.le_refl _)
  rw [Nat.zero_add, eventCount_pos] at hiff
  simpa [pollPass, Walk.ReachesAccepted, eventCount] using hiff

/-- The third descriptor moves to the index of the one that hung up and is passed over with its
event, and the connection that was accepted is closed before it was polled. -/
theorem accepted_connection_closed :
    let pass :=
      pollPass true 3 (fun _ => ⟨6, pollHup, 0, 1⟩) [(3, pollIn), (4, pollHup), (5, pollIn)]
    ¬pass.OnlyPolled ∧ ⟨6, pollHup, false⟩ ∈ pass.handled ∧ pass.fds.map PollFd.fd = [3, 5] := by
  decide

end

end DbGovernor
