import DbGovernor.Model.Lve
import DbGovernor.Verification.Shared.Runs
import Mathlib.Data.List.Induction

/-!
# The bookkeeping of `libgovernordl`

With every `lve_enter_flags` successful, a thread is inside its LVE exactly while it is in a
section and has no mutex of the section locked, as far as the counter knows.
-/

namespace DbGovernor

variable {μ : Type*}

/-- The counters tell where the thread is, the exit hook is called inside and an enter hook
outside. -/
structure Bookkept (th : LveThread) : Prop where
  inside_iff : th.inside = true ↔ th.inLve = true ∧ th.inMutexRefcnt = 0
  calls : ∀ call ∈ th.hookCalls, call.1 = .exit ↔ call.2 = true

/-- `lve_enter_flags` succeeds if the call gets to it. -/
def LveCall.Enters : LveCall μ → Prop
  | .lveBegin _ answer | .lock _ _ answer | .trylock _ _ answer | .unlock _ _ answer =>
      answer = .entered
  | .lveEnd => True

instance : ∀ c : LveCall μ, Decidable c.Enters
  | .lveBegin _ _ | .lock _ _ _ | .trylock _ _ _ | .unlock _ _ _ => inferInstanceAs (Decidable (_ = _))
  | .lveEnd => inferInstanceAs (Decidable True)

/-- What holds of a thread between two calls. -/
structure LveInv (th : LveThread) : Prop extends Bookkept th where
  nonneg : 0 ≤ th.inMutexRefcnt
  noHook : th.inHook = false
  uid : th.inLve = true → th.lveUid ≠ 0

/-! ### The functions of the library -/

section Functions

variable {th : LveThread}

theorem mutexEnter_of_zero (h : th.inMutexRefcnt = 0) :
    mutexEnter th = { th with
      inMutexRefcnt := 1, inHook := false, inside := false
      hookCalls := th.hookCalls ++ [(.exit, th.inside)] } := by
  simp [mutexEnter, governorLveExit, LveThread.callHook, h]

theorem mutexEnter_of_ne_zero (h : th.inMutexRefcnt ≠ 0) :
    mutexEnter th = { th with inMutexRefcnt := th.inMutexRefcnt + 1 } := by
  simp [mutexEnter, h]

theorem mutexLeave_of_zero (h : th.inMutexRefcnt = 0) (answer : LveEnter) :
    mutexLeave answer th = th := by
  simp [mutexLeave, h]

theorem mutexLeave_of_one (h : th.inMutexRefcnt = 1) (huid : th.lveUid ≠ 0) :
    mutexLeave .entered th = { th with
      inMutexRefcnt := 0, inHook := false, inside := true
      hookCalls := th.hookCalls ++ [(.enterLight, th.inside)] } := by
  simp [mutexLeave, governorEnterLveLight, lveEnterFlags, LveThread.callHook, h, huid]

theorem mutexLeave_of_one_lt (h : 1 < th.inMutexRefcnt) (answer : LveEnter) :
    mutexLeave answer th = { th with inMutexRefcnt := th.inMutexRefcnt - 1 } := by
  have hzero : th.inMutexRefcnt ≠ 0 := by omega
  have hone : th.inMutexRefcnt - 1 ≠ 0 := by omega
  simp [mutexLeave, hzero, hone]

theorem grLveBegin_of_inLve (h : th.inLve = true) (containerLve : ℤ) (answer : LveEnter) :
    grLveBegin containerLve answer th = th := by
  simp [grLveBegin, h]

theorem grLveBegin_unlisted (h : th.inLve = false) (answer : LveEnter) :
    grLveBegin 0 answer th = { th with
      lveUid := 0, inHook := false, hookCalls := th.hookCalls ++ [(.enter, th.inside)] } := by
  simp [grLveBegin, governorEnterLve, LveThread.callHook, h]

theorem grLveBegin_listed (h : th.inLve = false) {containerLve : ℤ} (huid : containerLve ≠ 0) :
    grLveBegin containerLve .entered th = {
      inLve := true, inMutexRefcnt := 0, inHook := false, lveUid := containerLve
      inside := true, hookCalls := th.hookCalls ++ [(.enter, th.inside)] } := by
  simp [grLveBegin, governorEnterLve, lveEnterFlags, LveEnter.rc, LveThread.callHook, h, huid]

theorem grLveEnd_of_inside (h : th.inLve = true) (hzero : th.inMutexRefcnt = 0) :
    grLveEnd th = { th with
      inLve := false, inMutexRefcnt := 0, inHook := false, inside := false
      hookCalls := th.hookCalls ++ [(.exit, th.inside)] } := by
  simp [grLveEnd, governorLveExit, LveThread.callHook, h, hzero]

theorem grLveEnd_of_outside (h : ¬ (th.inLve = true ∧ th.inMutexRefcnt = 0)) :
    grLveEnd th = { th with inLve := false, inMutexRefcnt := 0 } := by
  simp [grLveEnd, h]

@[simp] theorem inLve_mutexEnter (th : LveThread) : (mutexEnter th).inLve = th.inLve := by
  rw [mutexEnter]
  dsimp only
  split <;> rfl

@[simp] theorem inMutexRefcnt_mutexEnter (th : LveThread) :
    (mutexEnter th).inMutexRefcnt = th.inMutexRefcnt + 1 := by
  rw [mutexEnter]
  dsimp only
  split <;> rfl

end Functions

/-! ### One call -/

section Call

variable {th : LveThread}

theorem Bookkept.calls_append {hook : LveHook} (h : Bookkept th)
    (hhook : hook = .exit ↔ th.inside = true) :
    ∀ call ∈ th.hookCalls ++ [(hook, th.inside)], call.1 = .exit ↔ call.2 = true := by
  intro call hcall
  rcases List.mem_append.mp hcall with hold | hnew
  · exact h.calls call hold
  · rw [List.mem_singleton.mp hnew]
    exact hhook

theorem LveInv.not_inside (h : LveInv th) (hout : ¬ (th.inLve = true ∧ th.inMutexRefcnt = 0)) :
    ¬ th.inside = true := fun hinside => hout (h.inside_iff.mp hinside)

theorem LveInv.mutexEnter (h : LveInv th) (hin : th.inLve = true) : LveInv (mutexEnter th) := by
  by_cases hzero : th.inMutexRefcnt = 0
  · have hinside : th.inside = true := h.inside_iff.mpr ⟨hin, hzero⟩
    rw [mutexEnter_of_zero hzero]
    exact ⟨⟨by simp, h.calls_append (by simp [hinside])⟩, zero_le_one, rfl, h.uid⟩
  · have hout := h.not_inside fun hboth => hzero hboth.2
    have hnext : 0 < th.inMutexRefcnt + 1 := by
      have := h.nonneg
      omega
    rw [mutexEnter_of_ne_zero hzero]
    exact ⟨⟨iff_of_false hout fun hboth => hnext.ne hboth.2.symm, h.calls⟩, hnext.le, h.noHook, h.uid⟩

theorem LveInv.mutexLeave (h : LveInv th) (hin : th.inLve = true) :
    LveInv (mutexLeave .entered th) := by
  have hnonneg := h.nonneg
  by_cases hzero : th.inMutexRefcnt = 0
  · rwa [mutexLeave_of_zero hzero]
  · have hout := h.not_inside fun hboth => hzero hboth.2
    by_cases hone : th.inMutexRefcnt = 1
    · rw [mutexLeave_of_one hone (h.uid hin)]
      exact ⟨⟨by simp [hin], h.calls_append (by simp [hout])⟩, le_rfl, rfl, h.uid⟩
    · have hnext : 0 < th.inMutexRefcnt - 1 := by omega
      rw [mutexLeave_of_one_lt (by omega)]
      exact ⟨⟨iff_of_false hout fun hboth => hnext.ne hboth.2.symm, h.calls⟩, hnext.le, h.noHook,
        h.uid⟩

theorem LveInv.grLveBegin (h : LveInv th) (containerLve : ℤ) :
    LveInv (grLveBegin containerLve .entered th) := by
  cases hin : th.inLve with
  | true => rwa [grLveBegin_of_inLve hin]
  | false =>
      have hout := h.not_inside (by simp [hin])
      have hcalls : ∀ call ∈ th.hookCalls ++ [(.enter, th.inside)],
          call.1 = .exit ↔ call.2 = true := h.calls_append (by simp [hout])
      by_cases huid : containerLve = 0
      · rw [huid, grLveBegin_unlisted hin]
        refine ⟨⟨iff_of_false hout ?_, hcalls⟩, h.nonneg, rfl, ?_⟩
        · simp [hin]
        · simp [hin]
      · rw [grLveBegin_listed hin huid]
        exact ⟨⟨by simp, hcalls⟩, le_rfl, rfl, fun _ => huid⟩

theorem LveInv.grLveEnd (h : LveInv th) : LveInv (grLveEnd th) := by
  by_cases hboth : th.inLve = true ∧ th.inMutexRefcnt = 0
  · have hinside : th.inside = true := h.inside_iff.mpr hboth
    rw [grLveEnd_of_inside hboth.1 hboth.2]
    exact ⟨⟨by simp, h.calls_append (by simp [hinside])⟩, le_rfl, rfl, by simp⟩
  · have hout := h.not_inside hboth
    rw [grLveEnd_of_outside hboth]
    exact ⟨⟨iff_of_false hout (by simp), h.calls⟩, le_rfl, h.noHook, by simp⟩

theorem LveInv.lockThrough (h : LveInv th) (ok : Bool) : LveInv (lockThrough ok .entered th) := by
  cases hin : th.inLve with
  | false => simpa [DbGovernor.lockThrough, hin] using h
  | true =>
      have henter := h.mutexEnter hin
      have hin' : (DbGovernor.mutexEnter th).inLve = true := (inLve_mutexEnter th).trans hin
      cases ok with
      | true => simpa [DbGovernor.lockThrough, hin, h.noHook] using henter
      | false =>
          simpa [DbGovernor.lockThrough, hin, h.noHook, hin', henter.noHook] using
            henter.mutexLeave hin'

theorem LveInv.pthreadMutexUnlock (h : LveInv th) (ok : Bool) :
    LveInv (pthreadMutexUnlock ok .entered th) := by
  rw [DbGovernor.pthreadMutexUnlock]
  split
  · rename_i hcond
    exact h.mutexLeave (by simp_all)
  · exact h

/-! ### The counter -/

theorem LveInv.inLve_mutexLeave (h : LveInv th) (hin : th.inLve = true) :
    (DbGovernor.mutexLeave .entered th).inLve = true ∧
      (DbGovernor.mutexLeave .entered th).inMutexRefcnt = max (th.inMutexRefcnt - 1) 0 := by
  have hnonneg := h.nonneg
  by_cases hzero : th.inMutexRefcnt = 0
  · rw [mutexLeave_of_zero hzero]
    exact ⟨hin, by omega⟩
  · by_cases hone : th.inMutexRefcnt = 1
    · rw [mutexLeave_of_one hone (h.uid hin)]
      exact ⟨hin, by simp [hone]⟩
    · rw [mutexLeave_of_one_lt (by omega)]
      exact ⟨hin, by simp only; omega⟩

/-- A lock that fails gives its count back. -/
theorem LveInv.counters_lockThrough (h : LveInv th) (ok : Bool) :
    (DbGovernor.lockThrough ok .entered th).inLve = th.inLve ∧
      (DbGovernor.lockThrough ok .entered th).inMutexRefcnt =
        th.inMutexRefcnt + if th.inLve = true ∧ ok = true then 1 else 0 := by
  cases hin : th.inLve with
  | false => simp [DbGovernor.lockThrough, hin]
  | true =>
      have henter := h.mutexEnter hin
      cases ok with
      | true => simp [DbGovernor.lockThrough, hin, h.noHook]
      | false =>
          obtain ⟨hleave, hcount⟩ := henter.inLve_mutexLeave (by simp [hin])
          rw [inMutexRefcnt_mutexEnter] at hcount
          have hnonneg := h.nonneg
          simp only [DbGovernor.lockThrough, hin, h.noHook, henter.noHook, inLve_mutexEnter,
            Bool.not_false, Bool.and_self, if_true]
          exact ⟨hleave, by rw [hcount]; simp; omega⟩

theorem LveInv.counters_pthreadMutexUnlock (h : LveInv th) (ok : Bool) :
    (DbGovernor.pthreadMutexUnlock ok .entered th).inLve = th.inLve ∧
      (DbGovernor.pthreadMutexUnlock ok .entered th).inMutexRefcnt =
        if th.inLve = true ∧ ok = true then max (th.inMutexRefcnt - 1) 0
        else th.inMutexRefcnt := by
  cases hin : th.inLve with
  | false => simp [DbGovernor.pthreadMutexUnlock, hin]
  | true =>
      cases ok with
      | false => simp [DbGovernor.pthreadMutexUnlock, hin]
      | true =>
          obtain ⟨hleave, hcount⟩ := h.inLve_mutexLeave hin
          simp [DbGovernor.pthreadMutexUnlock, hin, h.noHook, hleave, hcount]

theorem LveInv.apply (h : LveInv th) (c : LveCall μ) (hc : c.Enters) : LveInv (c.apply th) := by
  cases c with
  | lveBegin containerLve answer =>
      rw [show answer = .entered from hc]
      exact h.grLveBegin containerLve
  | lveEnd => exact h.grLveEnd
  | lock mutex ok answer =>
      rw [show answer = .entered from hc]
      exact h.lockThrough ok
  | trylock mutex ok answer =>
      rw [show answer = .entered from hc]
      exact h.lockThrough ok
  | unlock mutex ok answer =>
      rw [show answer = .entered from hc]
      exact h.pthreadMutexUnlock ok

/-- A call counts at most one mutex. -/
theorem LveInv.inMutexRefcnt_apply_le (h : LveInv th) (c : LveCall μ) (hc : c.Enters) :
    (c.apply th).inMutexRefcnt ≤ th.inMutexRefcnt + 1 := by
  have hnonneg := h.nonneg
  cases c with
  | lveBegin containerLve answer =>
      obtain rfl : answer = .entered := hc
      rw [LveCall.apply]
      cases hin : th.inLve with
      | true =>
          rw [grLveBegin_of_inLve hin]
          omega
      | false =>
          by_cases huid : containerLve = 0
          · rw [huid, grLveBegin_unlisted hin]
            simp
          · rw [grLveBegin_listed hin huid]
            simp only
            omega
  | lveEnd =>
      change (0 : ℤ) ≤ _
      omega
  | lock mutex ok answer =>
      obtain rfl : answer = .entered := hc
      refine ((h.counters_lockThrough ok).2).le.trans ?_
      split <;> omega
  | trylock mutex ok answer =>
      obtain rfl : answer = .entered := hc
      refine ((h.counters_lockThrough ok).2).le.trans ?_
      split <;> omega
  | unlock mutex ok answer =>
      obtain rfl : answer = .entered := hc
      refine ((h.counters_pthreadMutexUnlock ok).2).le.trans ?_
      split <;> omega

end Call

/-! ### Every sequence of calls -/

theorem LveInv.init : LveInv LveThread.init := by
  refine ⟨⟨?_, ?_⟩, le_rfl, rfl, ?_⟩ <;> simp [LveThread.init]

theorem LveInv.run (calls : List (LveCall μ)) (h : ∀ c ∈ calls, c.Enters) {th : LveThread}
    (hth : LveInv th) : LveInv (calls.foldl LveCall.apply th) := by
  induction calls generalizing th with
  | nil => exact hth
  | cons c calls ih =>
      exact ih (fun d hd => h d (by simp [hd])) (hth.apply c (h c (by simp)))

/-- The counter of type `int` does not overflow in fewer than 2^31 calls. -/
theorem inMutexRefcnt_le_length (calls : List (LveCall μ)) (h : ∀ c ∈ calls, c.Enters) :
    (calls.foldl LveCall.apply LveThread.init).inMutexRefcnt ≤ calls.length := by
  induction calls using List.reverseRecOn with
  | nil => exact le_rfl
  | append_singleton calls c ih =>
      have hcalls : ∀ d ∈ calls, d.Enters := fun d hd => h d (by simp [hd])
      have hinv := LveInv.run calls hcalls LveInv.init
      have hstep := hinv.inMutexRefcnt_apply_le c (h c (by simp))
      have hlength := ih hcalls
      rw [List.foldl_append, List.length_append]
      push_cast
      exact hstep.trans (by simpa using hlength)

/-- After each call of any sequence, nested or not, balanced or not, with real locks and
unlocks that succeed or fail. -/
theorem lve_bookkeeping (calls : List (LveCall μ)) (h : ∀ c ∈ calls, c.Enters) :
    ∀ part, part <+: calls → Bookkept (part.foldl LveCall.apply LveThread.init) := by
  intro part hpart
  have hpartEnters : ∀ c ∈ part, c.Enters := fun c hc => h c (hpart.subset hc)
  exact (LveInv.run part hpartEnters LveInv.init).toBookkept

/-- A mutex taken before the section is released in it, one lock fails, and the section ends
with a mutex held. -/
def sampleCalls : List (LveCall ℕ) :=
  [.lock 0 true .entered, .lveBegin 500 .entered, .trylock 1 false .entered,
    .lock 1 true .entered, .unlock 0 true .entered, .lveEnd, .unlock 1 true .entered]

theorem lve_bookkeeping_sample :
    (∀ c ∈ sampleCalls, c.Enters) ∧
      ∀ part, part <+: sampleCalls → Bookkept (part.foldl LveCall.apply LveThread.init) :=
  ⟨by decide, lve_bookkeeping sampleCalls (by decide)⟩

end DbGovernor
