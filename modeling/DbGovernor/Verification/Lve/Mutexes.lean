import DbGovernor.Verification.Lve.Bookkeeping

/-!
# The mutexes of a throttled thread

`ld.c` counts the mutexes of a section without knowing which they are, so the release of a
mutex taken before the section is counted as the release of one of its own. A thread is inside
its LVE without such a mutex in the runs without these releases, and only in them.
-/

namespace DbGovernor

variable {μ : Type*} [DecidableEq μ]

/-- A mutex that the thread holds. `sinceBegin` tells that no `gr_lve_begin` was called since it
was acquired, `inSection` that none has opened a section since. -/
structure HeldMutex (μ : Type*) where
  mutex : μ
  sinceBegin : Bool
  inSection : Bool
deriving DecidableEq

/-- A thread with the mutexes that it really holds, the newest first. -/
structure MutexThread (μ : Type*) where
  lve : LveThread
  held : List (HeldMutex μ)

def MutexThread.init (μ : Type*) : MutexThread μ := ⟨.init, []⟩

/-- A held mutex after a call of `gr_lve_begin`. -/
def HeldMutex.afterBegin (opens : Bool) (e : HeldMutex μ) : HeldMutex μ :=
  { e with sinceBegin := false, inSection := e.inSection && !opens }

/-- The held mutexes after a call. A mutex that was locked several times is held until as many
unlocks, which take back the last acquisition first. -/
def heldAfter (opens : Bool) (held : List (HeldMutex μ)) : LveCall μ → List (HeldMutex μ)
  | .lveBegin _ _ => held.map (HeldMutex.afterBegin opens)
  | .lveEnd => held
  | .lock m ok _ | .trylock m ok _ => if ok then ⟨m, true, true⟩ :: held else held
  | .unlock m ok _ => if ok then held.eraseP fun e => e.mutex = m else held

def MutexThread.apply (s : MutexThread μ) (c : LveCall μ) : MutexThread μ :=
  ⟨c.apply s.lve, heldAfter (!s.lve.inLve && (c.apply s.lve).inLve) s.held c⟩

/-- Inside the LVE the thread holds no mutex acquired after the latest `gr_lve_begin`, nor one
acquired after the one that opened the section. -/
def HoldsNoneInside (s : MutexThread μ) : Prop :=
  s.lve.inside = true → ∀ e ∈ s.held, e.sinceBegin = false ∧ e.inSection = false

/-- An unlock that succeeds releases a mutex the thread holds. -/
def ReleasesHeld (s : MutexThread μ) : LveCall μ → Prop
  | .unlock m true _ => ∃ e ∈ s.held, e.mutex = m
  | _ => True

instance (s : MutexThread μ) : ∀ c, Decidable (ReleasesHeld s c)
  | .unlock _ true _ => inferInstanceAs (Decidable (∃ e ∈ _, _))
  | .unlock _ false _ | .lveBegin _ _ | .lveEnd | .lock _ _ _ | .trylock _ _ _ =>
      inferInstanceAs (Decidable True)

/-- Moreover the LVE is entered if the call gets to it. -/
def RealCall (s : MutexThread μ) (c : LveCall μ) : Prop := c.Enters ∧ ReleasesHeld s c

instance (s : MutexThread μ) (c : LveCall μ) : Decidable (RealCall s c) :=
  inferInstanceAs (Decidable (_ ∧ _))

/-- The call releases a mutex taken before the section while one of the section is held. -/
def ReleasesOlder (s : MutexThread μ) : LveCall μ → Prop
  | .unlock m true _ =>
      s.lve.inLve = true ∧ (∃ e ∈ s.held, e.inSection = true) ∧
        ∃ e ∈ s.held.find? fun e => e.mutex = m, e.inSection = false
  | _ => False

instance (s : MutexThread μ) : ∀ c, Decidable (ReleasesOlder s c)
  | .unlock _ true _ => inferInstanceAs (Decidable (_ ∧ _ ∧ ∃ e ∈ _, _))
  | .unlock _ false _ | .lveBegin _ _ | .lveEnd | .lock _ _ _ | .trylock _ _ _ =>
      inferInstanceAs (Decidable False)

/-! ### What every call keeps -/

/-- The newest mutexes are those of the section. -/
structure MutexShape (s : MutexThread μ) : Prop where
  lve : LveInv s.lve
  newest : s.held.Pairwise fun a b => b.inSection = true → a.inSection = true
  since : ∀ e ∈ s.held, e.sinceBegin = true → e.inSection = true

theorem MutexShape.apply {s : MutexThread μ} (h : MutexShape s) (c : LveCall μ) (hc : c.Enters) :
    MutexShape (s.apply c) := by
  have hlve : LveInv (s.apply c).lve := h.lve.apply c hc
  have hlock : ∀ (m : μ) (ok : Bool),
      ((if ok then ⟨m, true, true⟩ :: s.held else s.held : List (HeldMutex μ)).Pairwise
        fun a b => b.inSection = true → a.inSection = true) ∧
      ∀ e ∈ (if ok then ⟨m, true, true⟩ :: s.held else s.held : List (HeldMutex μ)),
        e.sinceBegin = true → e.inSection = true := by
    intro m ok
    cases ok with
    | false => exact ⟨h.newest, h.since⟩
    | true =>
        refine ⟨List.pairwise_cons.mpr ⟨fun _ _ _ => rfl, h.newest⟩, ?_⟩
        intro e he
        rcases List.mem_cons.mp he with rfl | hold
        · simp
        · exact h.since e hold
  cases c with
  | lveBegin containerLve answer =>
      refine ⟨hlve, ?_, ?_⟩
      · refine List.pairwise_map.mpr (h.newest.imp ?_)
        intro a b hab
        simp only [HeldMutex.afterBegin, Bool.and_eq_true]
        rintro ⟨hb, hopen⟩
        exact ⟨hab hb, hopen⟩
      · intro e he
        obtain ⟨e', -, rfl⟩ := List.mem_map.mp he
        simp [HeldMutex.afterBegin]
  | lveEnd => exact ⟨hlve, h.newest, h.since⟩
  | lock m ok answer => exact ⟨hlve, (hlock m ok).1, (hlock m ok).2⟩
  | trylock m ok answer => exact ⟨hlve, (hlock m ok).1, (hlock m ok).2⟩
  | unlock m ok answer =>
      cases ok with
      | false => exact ⟨hlve, h.newest, h.since⟩
      | true =>
          refine ⟨hlve, h.newest.sublist List.eraseP_sublist, ?_⟩
          intro e he
          exact h.since e (List.mem_of_mem_eraseP he)

omit [DecidableEq μ] in
theorem MutexShape.init : MutexShape (MutexThread.init μ) :=
  ⟨LveInv.init, List.Pairwise.nil, by simp [MutexThread.init]⟩

/-! ### The count of the section -/

/-- The number of mutexes of the section that are held. -/
def MutexThread.sectionMutexes (s : MutexThread μ) : ℕ := s.held.countP HeldMutex.inSection

/-- The counter is the number of these mutexes. -/
structure MutexInv (s : MutexThread μ) : Prop extends MutexShape s where
  count : s.lve.inLve = true → s.lve.inMutexRefcnt = s.sectionMutexes

omit [DecidableEq μ] in
theorem MutexInv.holdsNoneInside {s : MutexThread μ} (h : MutexInv s) : HoldsNoneInside s := by
  intro hinside e he
  obtain ⟨hin, hzero⟩ := h.lve.inside_iff.mp hinside
  have hnone : s.held.countP HeldMutex.inSection = 0 := by
    have := h.count hin
    rw [hzero, MutexThread.sectionMutexes] at this
    omega
  have hsection : ¬ e.inSection = true := List.countP_eq_zero.mp hnone e he
  refine ⟨?_, by simpa using hsection⟩
  rw [← Bool.not_eq_true]
  intro hsince
  exact hsection (h.since e he hsince)

theorem countP_eraseP_of_held {held : List (HeldMutex μ)} {m : μ} (h : ∃ e ∈ held, e.mutex = m) :
    ∃ e, (held.find? fun e => e.mutex = m) = some e ∧
      held.countP HeldMutex.inSection =
        (held.eraseP fun e => e.mutex = m).countP HeldMutex.inSection +
          if e.inSection = true then 1 else 0 := by
  obtain ⟨e₀, he₀, hm₀⟩ := h
  obtain ⟨e, before, after, hbefore, hm, rfl, herase⟩ :=
    List.exists_of_eraseP (p := fun e : HeldMutex μ => decide (e.mutex = m)) he₀ (by simpa using hm₀)
  refine ⟨e, ?_, ?_⟩
  · rw [List.find?_append, List.find?_eq_none.mpr (by simpa using hbefore)]
    simp [hm]
  · rw [herase]
    simp only [List.countP_append, List.countP_cons]
    omega

theorem MutexInv.count_unlock {s : MutexThread μ} (h : MutexInv s) {m : μ}
    (hheld : ∃ e ∈ s.held, e.mutex = m) (hin : s.lve.inLve = true)
    (hnot : ¬ ReleasesOlder s (.unlock m true .entered)) :
    max (s.lve.inMutexRefcnt - 1) 0 =
      ((s.held.eraseP fun e => e.mutex = m).countP HeldMutex.inSection : ℕ) := by
  obtain ⟨e, hfind, hcount⟩ := countP_eraseP_of_held hheld
  have hrefcnt := h.count hin
  rw [MutexThread.sectionMutexes] at hrefcnt
  cases hsection : e.inSection with
  | true =>
      rw [hsection, if_pos rfl] at hcount
      omega
  | false =>
      have hnone : s.held.countP HeldMutex.inSection = 0 := by
        refine List.countP_eq_zero.mpr ?_
        intro a ha hsec
        exact hnot ⟨hin, ⟨a, ha, hsec⟩, e, hfind, hsection⟩
      rw [hsection] at hcount
      simp only [Bool.false_eq_true, if_false] at hcount
      omega

omit [DecidableEq μ] in
theorem countP_afterBegin (opens : Bool) (held : List (HeldMutex μ)) :
    (held.map (HeldMutex.afterBegin opens)).countP HeldMutex.inSection =
      if opens = true then 0 else held.countP HeldMutex.inSection := by
  cases opens with
  | true =>
      rw [if_pos rfl, List.countP_eq_zero]
      intro e he
      obtain ⟨e', -, rfl⟩ := List.mem_map.mp he
      simp [HeldMutex.afterBegin]
  | false =>
      rw [List.countP_map]
      refine List.countP_congr ?_
      intro e _
      simp [HeldMutex.afterBegin]

/-- The counter stays right in a call that releases no older mutex. -/
theorem MutexInv.apply {s : MutexThread μ} (h : MutexInv s) (c : LveCall μ) (hc : RealCall s c)
    (hnot : ¬ ReleasesOlder s c) : MutexInv (s.apply c) := by
  refine ⟨h.toMutexShape.apply c hc.1, ?_⟩
  have hlock : ∀ (m : μ) (ok : Bool),
      (lockThrough ok .entered s.lve).inLve = true →
      (lockThrough ok .entered s.lve).inMutexRefcnt =
        ((if ok then ⟨m, true, true⟩ :: s.held else s.held : List (HeldMutex μ)).countP
          HeldMutex.inSection : ℕ) := by
    intro m ok hin'
    obtain ⟨hin, hcount⟩ := h.lve.counters_lockThrough ok
    rw [hin] at hin'
    have hold := h.count hin'
    rw [MutexThread.sectionMutexes] at hold
    cases ok <;> simp [hcount, hold, hin']
  obtain ⟨henters, hheld⟩ := hc
  cases c with
  | lveBegin containerLve answer =>
      obtain rfl : answer = .entered := henters
      simp only [MutexThread.apply, LveCall.apply, heldAfter, MutexThread.sectionMutexes]
      rw [countP_afterBegin]
      intro hin'
      cases hin : s.lve.inLve with
      | true =>
          rw [grLveBegin_of_inLve hin]
          simpa [hin, MutexThread.sectionMutexes] using h.count hin
      | false =>
          by_cases huid : containerLve = 0
          · rw [huid, grLveBegin_unlisted hin] at hin'
            simp [hin] at hin'
          · rw [grLveBegin_listed hin huid]
            simp
  | lveEnd =>
      intro hin'
      exact (Bool.false_ne_true hin').elim
  | lock m ok answer =>
      obtain rfl : answer = .entered := henters
      exact hlock m ok
  | trylock m ok answer =>
      obtain rfl : answer = .entered := henters
      exact hlock m ok
  | unlock m ok answer =>
      obtain rfl : answer = .entered := henters
      obtain ⟨hin, hcount⟩ := h.lve.counters_pthreadMutexUnlock ok
      intro hin'
      have hsec : s.lve.inLve = true := hin ▸ hin'
      change (pthreadMutexUnlock ok .entered s.lve).inMutexRefcnt = _
      rw [hcount]
      cases ok with
      | false => simpa [MutexThread.apply, heldAfter, MutexThread.sectionMutexes] using h.count hsec
      | true =>
          rw [if_pos ⟨hsec, rfl⟩]
          exact h.count_unlock hheld hsec hnot

/-! ### What an older release leads to -/

/-- The counter has lost one of the mutexes of the section. -/
structure Miscounted (s : MutexThread μ) : Prop extends MutexShape s where
  inLve : s.lve.inLve = true
  lt : s.lve.inMutexRefcnt < s.sectionMutexes

theorem Miscounted.of_releasesOlder {s : MutexThread μ} (h : MutexInv s) (c : LveCall μ)
    (hc : RealCall s c) (hold : ReleasesOlder s c) : Miscounted (s.apply c) := by
  have hshape := h.toMutexShape.apply c hc.1
  obtain ⟨henters, hheld⟩ := hc
  match c, hold with
  | .unlock m true answer, ⟨hsec, ⟨a, ha, hasec⟩, e, hfind, hesec⟩ =>
      obtain rfl : answer = .entered := henters
      obtain ⟨hin, hcount⟩ := h.lve.counters_pthreadMutexUnlock true
      obtain ⟨e', hfind', hheldCount⟩ := countP_eraseP_of_held hheld
      obtain rfl : e = e' := Option.some.inj (hfind.symm.trans hfind')
      have hpos : 0 < s.held.countP HeldMutex.inSection := List.countP_pos_iff.mpr ⟨a, ha, hasec⟩
      have hrefcnt := h.count hsec
      refine ⟨hshape, hin.trans hsec, ?_⟩
      change (pthreadMutexUnlock true .entered s.lve).inMutexRefcnt <
        ((s.held.eraseP fun e => e.mutex = m).countP HeldMutex.inSection : ℕ)
      rw [hcount, if_pos ⟨hsec, rfl⟩, hrefcnt, MutexThread.sectionMutexes]
      rw [hesec] at hheldCount
      simp only [Bool.false_eq_true, if_false] at hheldCount
      omega

/-- A call that is real and releases no older mutex. -/
def OrderlyCall (s : MutexThread μ) (c : LveCall μ) : Prop := RealCall s c ∧ ¬ ReleasesOlder s c

/-- The unlock of the newest mutex is orderly while a mutex of the section is held. -/
theorem orderlyCall_unlock_newest {s : MutexThread μ} {e : HeldMutex μ} {rest : List (HeldMutex μ)}
    (hheld : s.held = e :: rest) (hsec : e.inSection = true) :
    OrderlyCall s (.unlock e.mutex true .entered) := by
  refine ⟨⟨rfl, ?_⟩, ?_⟩
  · exact ⟨e, by simp [hheld], rfl⟩
  · rintro ⟨-, -, a, hfind, ha⟩
    rw [hheld, List.find?_cons_of_pos (by simp)] at hfind
    obtain rfl : e = a := Option.some.inj hfind
    rw [hsec] at ha
    cases ha

theorem Miscounted.exists_orderly {s : MutexThread μ} (h : Miscounted s) (n : ℕ)
    (hn : s.lve.inMutexRefcnt = n) :
    ∃ more : List (LveCall μ), Runs.Meets MutexThread.apply OrderlyCall s more ∧
      ¬ HoldsNoneInside (more.foldl MutexThread.apply s) := by
  induction n generalizing s with
  | zero =>
      refine ⟨[], trivial, ?_⟩
      intro hnone
      have hpos : 0 < s.held.countP HeldMutex.inSection := by
        have hlt := h.lt
        rw [MutexThread.sectionMutexes] at hlt
        omega
      obtain ⟨e, he, hsec⟩ := List.countP_pos_iff.mp hpos
      have hinside : s.lve.inside = true := h.lve.inside_iff.mpr ⟨h.inLve, by simpa using hn⟩
      have hfalse := (hnone hinside e he).2
      rw [hsec] at hfalse
      cases hfalse
  | succ n ih =>
      have hlt := h.lt
      rw [MutexThread.sectionMutexes] at hlt
      cases hheld : s.held with
      | nil =>
          rw [hheld, List.countP_nil] at hlt
          omega
      | cons e rest =>
          have hnewest := h.newest
          rw [hheld, List.pairwise_cons] at hnewest
          have hsec : e.inSection = true := by
            have hpos : 0 < s.held.countP HeldMutex.inSection := by omega
            obtain ⟨e', he', hsec'⟩ := List.countP_pos_iff.mp hpos
            rw [hheld] at he'
            rcases List.mem_cons.mp he' with rfl | hrest
            · exact hsec'
            · exact hnewest.1 e' hrest hsec'
          have horderly := orderlyCall_unlock_newest hheld hsec
          obtain ⟨hin, hcount⟩ := h.lve.counters_pthreadMutexUnlock true
          rw [if_pos ⟨h.inLve, rfl⟩, hn] at hcount
          have hheld' : (s.apply (.unlock e.mutex true .entered)).held = rest := by
            simp [MutexThread.apply, heldAfter, hheld]
          have hrefcnt : (s.apply (.unlock e.mutex true .entered)).lve.inMutexRefcnt = n := by
            refine hcount.trans ?_
            omega
          have hnext : Miscounted (s.apply (.unlock e.mutex true .entered)) := by
            refine ⟨h.toMutexShape.apply _ horderly.1.1, hin.trans h.inLve, ?_⟩
            rw [hrefcnt, MutexThread.sectionMutexes, hheld']
            rw [hheld, List.countP_cons, if_pos hsec] at hlt
            omega
          obtain ⟨more, hmeets, hbroken⟩ := ih hnext hrefcnt
          exact ⟨_ :: more, ⟨horderly, hmeets⟩, hbroken⟩

/-! ### Every sequence of calls -/

omit [DecidableEq μ] in
theorem MutexInv.init : MutexInv (MutexThread.init μ) :=
  ⟨MutexShape.init, fun h => (Bool.false_ne_true h).elim⟩

/-- In a sequence of real calls, the thread holds no mutex of its section inside the LVE, at no
point and whichever orderly calls follow there, exactly if no call of the sequence releases an
older mutex while one of the section is held. -/
theorem holds_none_inside_iff (calls : List (LveCall μ))
    (hreal : Runs.Meets MutexThread.apply RealCall (MutexThread.init μ) calls) :
    (∀ part more, part <+: calls →
        Runs.Meets MutexThread.apply OrderlyCall
          (part.foldl MutexThread.apply (MutexThread.init μ)) more →
        HoldsNoneInside ((part ++ more).foldl MutexThread.apply (MutexThread.init μ))) ↔
      Runs.Meets MutexThread.apply (fun s c => ¬ ReleasesOlder s c) (MutexThread.init μ) calls := by
  have hstep : ∀ (s : MutexThread μ) (c : LveCall μ), MutexInv s → RealCall s c →
      ¬ ReleasesOlder s c → MutexInv (s.apply c) :=
    fun s c hs hc hnot => hs.apply c hc hnot
  constructor
  · intro h
    by_contra hnot
    obtain ⟨part, c, hpart, hinv, hc, hold⟩ :=
      Runs.exists_first_not_meets hstep hreal MutexInv.init hnot
    have hmis := Miscounted.of_releasesOlder hinv c hc (not_not.mp hold)
    have hnat := Int.toNat_of_nonneg hmis.lve.nonneg
    obtain ⟨more, hmeets, hbroken⟩ := hmis.exists_orderly _ hnat.symm
    have hfoldl : (part ++ [c]).foldl MutexThread.apply (MutexThread.init μ) =
        (part.foldl MutexThread.apply (MutexThread.init μ)).apply c := List.foldl_concat ..
    refine hbroken ?_
    rw [← hfoldl, ← List.foldl_append]
    exact h (part ++ [c]) more hpart (hfoldl ▸ hmeets)
  · intro hgood part more hpart hmore
    have horderly : ∀ (s : MutexThread μ) (c : LveCall μ), MutexInv s → OrderlyCall s c →
        MutexInv (s.apply c) :=
      fun s c hs hc => hs.apply c hc.1 hc.2
    have hcalls : Runs.Meets MutexThread.apply OrderlyCall (MutexThread.init μ) calls :=
      Runs.meets_and.mpr ⟨hreal, hgood⟩
    have hpartInv := hcalls.invariant_of_isPrefix horderly MutexInv.init hpart
    rw [List.foldl_append]
    exact (hmore.invariant horderly hpartInv).holdsNoneInside

/-- Mutex 0 is taken before the section and mutex 1 in it; the release of 0 lets the thread back
into the LVE with 1 held. -/
def olderRelease : List (LveCall ℕ) :=
  [.lock 0 true .entered, .lveBegin 500 .entered, .lock 1 true .entered, .unlock 0 true .entered]

theorem holds_none_inside_iff_sample :
    Runs.Meets MutexThread.apply RealCall (MutexThread.init ℕ) (olderRelease.take 3) ∧
    ∀ part more, part <+: olderRelease.take 3 →
      Runs.Meets MutexThread.apply OrderlyCall
        (part.foldl MutexThread.apply (MutexThread.init ℕ)) more →
      HoldsNoneInside ((part ++ more).foldl MutexThread.apply (MutexThread.init ℕ)) :=
  ⟨by decide, (holds_none_inside_iff (olderRelease.take 3) (by decide)).mpr (by decide)⟩

theorem older_release_enters_holding :
    Runs.Meets MutexThread.apply RealCall (MutexThread.init ℕ) olderRelease ∧
      ¬ HoldsNoneInside (olderRelease.foldl MutexThread.apply (MutexThread.init ℕ)) := by
  refine ⟨by decide, ?_⟩
  intro h
  have hinside : (olderRelease.foldl MutexThread.apply (MutexThread.init ℕ)).lve.inside = true := by
    decide
  have hsince := (h hinside ⟨1, true, true⟩ (by decide)).1
  cases hsince

end DbGovernor
