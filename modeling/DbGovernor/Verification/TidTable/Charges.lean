import DbGovernor.Model.TidTable
import DbGovernor.Verification.Shared.Runs
import Mathlib.Algebra.Order.Field.Basic
import Mathlib.Data.Fintype.Defs
import Mathlib.Data.Finset.Insert

/-!
# What a statement is charged

As long as the monitor does not charge a thread while the server works on its copy of the
baseline, a statement is never charged more than the thread used in it.
-/

namespace DbGovernor

/-- The three counters of a thread. -/
inductive UsageField where
  | cpu | read | write
deriving DecidableEq

instance : Fintype UsageField := ⟨{.cpu, .read, .write}, fun f => by cases f <;> simp⟩

def ThreadUsage.get (usage : ThreadUsage) : UsageField → ℤ
  | .cpu => usage.cpu
  | .read => usage.read
  | .write => usage.write

/-- The total charged since the begin. -/
def TidState.charged (s : TidState) (f : UsageField) : ℤ :=
  (s.increments.map fun i => i.get f).sum

/-- The readings of the monitor never decrease. -/
def ReadingGrows (s : TidState) : TidStep → Prop
  | .visit v => ∀ usage ∈ v.reading, ∀ f, s.lastReading.get f ≤ usage.get f
  | _ => True

/-- The monitor charges the thread between `get_tid_data` and `remove_tid_data`. -/
def ChargesInWindow (s : TidState) : TidStep → Prop
  | .visit v =>
      (s.pc = .copied ∨ s.pc = .charged) ∧ v.reading.isSome ∧ ∃ item ∈ s.entry, v.due item = true
  | _ => False

instance (s : TidState) : ∀ i, Decidable (ReadingGrows s i)
  | .visit _ => inferInstanceAs (Decidable (∀ _ ∈ _, ∀ _, _ ≤ _))
  | .removeBad | .getTidData | .addToCounters _ | .removeTidData => inferInstanceAs (Decidable True)

instance (s : TidState) : ∀ i, Decidable (ChargesInWindow s i)
  | .visit _ => inferInstanceAs (Decidable (_ ∧ _ ∧ ∃ _ ∈ _, _))
  | .removeBad | .getTidData | .addToCounters _ | .removeTidData => inferInstanceAs (Decidable False)

/-! ### One charge -/

theorem chargedAmount_le (new old : ℤ) (dt : ℚ) : chargedAmount new old dt ≤ max (new - old) 0 := by
  have htmp : (if new ≥ old then new - old else 0) = max (new - old) 0 := by
    split <;> omega
  rw [chargedAmount, htmp]
  split
  · rename_i hdt
    have hnonneg : (0 : ℚ) ≤ ((max (new - old) 0 : ℤ) : ℚ) := by
      exact_mod_cast le_max_right (new - old) 0
    have hdiv : ((max (new - old) 0 : ℤ) : ℚ) / dt ≤ ((max (new - old) 0 : ℤ) : ℚ) :=
      div_le_self hnonneg hdt.le
    exact_mod_cast (Int.floor_le _).trans hdiv
  · exact le_rfl

theorem get_clacStatsDifference_le (usage : ThreadUsage) (old : TidTable) (newTm : ℚ)
    (f : UsageField) :
    (clacStatsDifferenceInnerAddToCounters usage old newTm).get f ≤
      max (usage.get f - old.get f) 0 := by
  rw [clacStatsDifferenceInnerAddToCounters]
  split
  · cases f with
    | cpu => exact chargedAmount_le _ _ _
    | read => exact chargedAmount_le _ _ _
    | write => exact chargedAmount_le _ _ _
  · cases f <;> exact le_max_right _ _

theorem charged_append (s : TidState) (i : CounterIncrement) (f : UsageField) :
    ((s.increments ++ [i]).map fun i => i.get f).sum = s.charged f + i.get f := by
  simp [TidState.charged]

/-- What a visit of the monitor does. -/
theorem chekUserPerf_cases (v : MonitorVisit) (s : TidState) :
    chekUserPerf v s = s ∨ chekUserPerf v s = { s with bad := true } ∨
      ∃ item ∈ s.entry, v.due item = true ∧ ∃ usage ∈ v.reading,
        chekUserPerf v s = { s with
          entry := some { item with
            toThreadUsage := usage, updateTime := v.tvSec, naoseconds := v.tvNsec }
          increments := s.increments ++ [clacStatsDifferenceInnerAddToCounters usage item v.newTm]
          lastReading := usage } := by
  rw [chekUserPerf]
  cases hentry : s.entry with
  | none => exact .inl rfl
  | some item =>
      dsimp only
      split
      · rename_i hdue
        cases hreading : v.reading with
        | none => exact .inr (.inl rfl)
        | some usage => exact .inr (.inr ⟨item, rfl, hdue, usage, rfl, rfl⟩)
      · exact .inl rfl

/-! ### From the begin to the end -/

section Statement

variable (first message : ClientData) (f : UsageField)

/-- What was charged is covered by a baseline as long as one is in use, and by the readings
afterwards. -/
inductive ChargeInv (s : TidState) : Prop where
  | begun (pc : s.pc = .begun) (total : first.get f + s.charged f ≤ s.lastReading.get f)
      (entry : ∀ item ∈ s.entry,
        first.get f + s.charged f ≤ item.get f ∧ item.get f ≤ s.lastReading.get f)
  | copied (pc : s.pc = .copied) (total : first.get f + s.charged f ≤ s.lastReading.get f)
      (copy : ∀ old ∈ s.tblBuff,
        first.get f + s.charged f ≤ old.get f ∧ old.get f ≤ s.lastReading.get f)
      (missing : s.tblBuff = none → s.entry = none)
  | charged (pc : s.pc = .charged)
      (total : first.get f + s.charged f ≤ max (message.get f) (s.lastReading.get f))
  | removed (pc : s.pc = .removed) (entry : s.entry = none)
      (total : first.get f + s.charged f ≤ max (message.get f) (s.lastReading.get f))

variable {first message f}

theorem ChargeInv.charged_le {s : TidState} (h : ChargeInv first message f s) :
    s.charged f ≤ max (message.get f) (s.lastReading.get f) - first.get f := by
  cases h with
  | begun pc total entry => omega
  | copied pc total copy missing => omega
  | charged pc total => omega
  | removed pc entry total => omega

/-- A step that leaves the baseline, the copy, the charges and the readings alone. -/
theorem ChargeInv.frame {s s' : TidState} (h : ChargeInv first message f s) (hpc : s'.pc = s.pc)
    (hcopy : s'.tblBuff = s.tblBuff) (hinc : s'.increments = s.increments)
    (hlast : s'.lastReading = s.lastReading) (hentry : s'.entry = s.entry ∨ s'.entry = none) :
    ChargeInv first message f s' := by
  have hcharged : s'.charged f = s.charged f := by rw [TidState.charged, hinc, TidState.charged]
  cases h with
  | begun pc total entry =>
      refine .begun (hpc.trans pc) (by rw [hcharged, hlast]; exact total) ?_
      intro item hitem
      rcases hentry with hsame | hnone
      · rw [hcharged, hlast]
        exact entry item (hsame ▸ hitem)
      · rw [hnone] at hitem
        cases hitem
  | copied pc total copy missing =>
      refine .copied (hpc.trans pc) (by rw [hcharged, hlast]; exact total) ?_ ?_
      · rw [hcopy, hcharged, hlast]
        exact copy
      · intro hmissing
        rcases hentry with hsame | hnone
        · rw [hsame]
          exact missing (hcopy ▸ hmissing)
        · exact hnone
  | charged pc total => exact .charged (hpc.trans pc) (by rw [hcharged, hlast]; exact total)
  | removed pc entry total =>
      refine .removed (hpc.trans pc) ?_ (by rw [hcharged, hlast]; exact total)
      rcases hentry with hsame | hnone
      · rw [hsame, entry]
      · exact hnone

theorem ChargeInv.visit {s : TidState} (h : ChargeInv first message f s) (v : MonitorVisit)
    (hgrows : ReadingGrows s (.visit v)) (hwindow : ¬ ChargesInWindow s (.visit v)) :
    ChargeInv first message f (chekUserPerf v s) := by
  rcases chekUserPerf_cases v s with heq | heq | ⟨item, hitem, hdue, usage, husage, heq⟩
  · rwa [heq]
  · rw [heq]
    exact h.frame rfl rfl rfl rfl (.inl rfl)
  · have hsome : v.reading.isSome := by
      rw [Option.mem_def.mp husage]
      rfl
    have hle := get_clacStatsDifference_le usage item v.newTm f
    have hlast := hgrows usage husage f
    rw [heq]
    cases h with
    | begun pc total entry =>
        obtain ⟨hbase, hitemLast⟩ := entry item hitem
        have hnew : first.get f + (s.charged f +
            (clacStatsDifferenceInnerAddToCounters usage item v.newTm).get f) ≤ usage.get f := by
          omega
        rw [← charged_append] at hnew
        refine .begun pc hnew ?_
        intro item' hitem'
        obtain rfl := Option.some.inj hitem'
        exact ⟨hnew, le_rfl⟩
    | copied pc total copy missing => exact (hwindow ⟨.inl pc, hsome, item, hitem, hdue⟩).elim
    | charged pc total => exact (hwindow ⟨.inr pc, hsome, item, hitem, hdue⟩).elim
    | removed pc entry total =>
        rw [entry] at hitem
        cases hitem

theorem ChargeInv.apply {s : TidState} (h : ChargeInv first message f s) (i : TidStep)
    (hgrows : ReadingGrows s i) (hwindow : ¬ ChargesInWindow s i) :
    ChargeInv first message f (i.apply message s) := by
  cases i with
  | visit v => exact h.visit v hgrows hwindow
  | removeBad =>
      rw [TidStep.apply]
      split
      · exact h.frame rfl rfl rfl rfl (.inr rfl)
      · exact h
  | getTidData =>
      rw [TidStep.apply]
      split
      · rename_i hpc
        cases h with
        | begun pc total entry => exact .copied rfl total entry id
        | copied pc total copy missing => simp [hpc] at pc
        | charged pc total => simp [hpc] at pc
        | removed pc entry total => simp [hpc] at pc
      · exact h
  | addToCounters newTm =>
      rw [TidStep.apply]
      split
      · rename_i hpc
        cases h with
        | copied pc total copy missing =>
            cases hcopy : s.tblBuff with
            | none =>
                exact .removed rfl (missing hcopy) (total.trans (le_max_right _ _))
            | some old =>
                obtain ⟨hbase, hlast⟩ := copy old hcopy
                have hle := get_clacStatsDifference_le message.toThreadUsage old newTm f
                have hnew : first.get f + (s.charged f +
                    (clacStatsDifferenceAddToCounters message old newTm).get f) ≤
                    max (message.get f) (s.lastReading.get f) := by
                  rw [clacStatsDifferenceAddToCounters]
                  omega
                rw [← charged_append] at hnew
                exact .charged rfl hnew
        | begun pc total entry => simp [hpc] at pc
        | charged pc total => simp [hpc] at pc
        | removed pc entry total => simp [hpc] at pc
      · exact h
  | removeTidData =>
      rw [TidStep.apply]
      split
      · rename_i hpc
        cases h with
        | charged pc total => exact .removed rfl rfl total
        | begun pc total entry => simp [hpc] at pc
        | copied pc total copy missing => simp [hpc] at pc
        | removed pc entry total => simp [hpc] at pc
      · exact h

end Statement

/-- At the begin nothing is charged, and the baseline is the reading of the message. -/
theorem ChargeInv.begin (first message : ClientData) (fd : ℤ) (item : Option TidTable)
    (f : UsageField) (hitem : ∀ old ∈ item, old.get f ≤ first.get f) :
    ChargeInv first message f (TidState.begin first fd item) := by
  have hbase : (addNewTidData first fd item).get f = first.get f := by
    cases item with
    | none => cases f <;> rfl
    | some old =>
        have hold := hitem old rfl
        cases f <;> simp only [ThreadUsage.get, addNewTidData, loadNewTidStats] at hold ⊢ <;>
          split <;> omega
  refine .begun rfl (by simp [TidState.charged, TidState.begin]) ?_
  intro item' hitem'
  obtain rfl := Option.some.inj hitem'
  simp only [TidState.begin, TidState.charged, List.map_nil, List.sum_nil, hbase]
  simp

/-- Whatever the entry of the thread was before, for each counter and after every step: what was
charged since the begin is at most what the end message, or the monitor after it, reads, less what
the begin message read. -/
theorem charged_at_most_used (first message : ClientData) (fd : ℤ) (item : Option TidTable)
    (hitem : ∀ old ∈ item, ∀ f, old.get f ≤ first.get f) (steps : List TidStep)
    (hgrows : Runs.Meets (TidStep.apply message) ReadingGrows (TidState.begin first fd item) steps)
    (hwindow : Runs.Meets (TidStep.apply message) (fun s i => ¬ ChargesInWindow s i)
      (TidState.begin first fd item) steps) :
    ∀ part, part <+: steps → ∀ f,
      let s := part.foldl (TidStep.apply message) (TidState.begin first fd item)
      s.charged f ≤ max (message.get f) (s.lastReading.get f) - first.get f := by
  intro part hpart f
  have hstep : ∀ (s : TidState) (i : TidStep), ChargeInv first message f s →
      ReadingGrows s i ∧ ¬ ChargesInWindow s i → ChargeInv first message f (i.apply message s) :=
    fun s i h hi => h.apply i hi.1 hi.2
  have hbegin := ChargeInv.begin first message fd item f fun old hold => hitem old hold f
  have hmeets := Runs.meets_and.mpr ⟨hgrows, hwindow⟩
  exact (hmeets.invariant_of_isPrefix hstep hbegin hpart).charged_le

/-- A message of thread 7 with this amount of cpu time at this time. -/
def sampleMessage (type cpu sec : ℤ) : ClientData :=
  sendInfo [117] type 1 7 ⟨cpu, 0, 0⟩ sec 0

/-- The statement begins at 0 with a reading of 0 and ends with one of 150. The monitor visits the
thread at 1.6, when it reads 150 as well. -/
def sampleVisit : TidStep := .visit ⟨1, 600000000, some ⟨150, 0, 0⟩, 161 / 100⟩

/-- A visit before the server copies the entry. -/
def sampleSteps : List TidStep :=
  [sampleVisit, .getTidData, .addToCounters (17 / 10), .removeTidData]

theorem sampleSteps_readingGrows :
    Runs.Meets (TidStep.apply (sampleMessage 1 150 1)) ReadingGrows
      (TidState.begin (sampleMessage 0 0 0) 3 none) sampleSteps := by
  decide +kernel

theorem charged_at_most_used_sample :
    Runs.Meets (TidStep.apply (sampleMessage 1 150 1)) ReadingGrows
      (TidState.begin (sampleMessage 0 0 0) 3 none) sampleSteps ∧
    ∀ part, part <+: sampleSteps → ∀ f,
      let s := part.foldl (TidStep.apply (sampleMessage 1 150 1))
        (TidState.begin (sampleMessage 0 0 0) 3 none)
      s.charged f ≤
        max ((sampleMessage 1 150 1).get f) (s.lastReading.get f) - (sampleMessage 0 0 0).get f :=
  ⟨sampleSteps_readingGrows,
    charged_at_most_used (sampleMessage 0 0 0) (sampleMessage 1 150 1) 3 none (by simp) _
      sampleSteps_readingGrows (by decide +kernel)⟩

/-- The visit falls between the copy and the charge of the server: 93 and 88 are charged. -/
theorem visit_in_window_charges_twice :
    let s := [.getTidData, sampleVisit, .addToCounters (17 / 10), .removeTidData].foldl
      (TidStep.apply (sampleMessage 1 150 1)) (TidState.begin (sampleMessage 0 0 0) 3 none)
    s.charged .cpu = 181 ∧ ¬ s.charged .cpu ≤
      max ((sampleMessage 1 150 1).get .cpu) (s.lastReading.get .cpu) -
        (sampleMessage 0 0 0).get .cpu := by
  decide +kernel

end DbGovernor
