import DbGovernor.Model.FifoStats
import DbGovernor.Verification.Shared.RingBuffer
import Mathlib.Algebra.Order.BigOperators.Group.List
import Mathlib.Data.List.Induction

/-!
# Samples and averages

A ring is a list of samples, newest first, and an average is a quotient of the sum of its front
part. The sum is taken from the newest sample on, and each addition rounds; where nothing is
rounded, statistics form an ordered monoid under `sum_stats`.
-/

namespace DbGovernor

/-! ### Statistics as an ordered monoid -/

instance : Add Stats := ⟨fun a b => ⟨a.cpu + b.cpu, a.write + b.write, a.read + b.read⟩⟩

instance : Zero Stats := ⟨resetStats⟩

@[simp] theorem Stats.cpu_add (a b : Stats) : (a + b).cpu = a.cpu + b.cpu := rfl
@[simp] theorem Stats.write_add (a b : Stats) : (a + b).write = a.write + b.write := rfl
@[simp] theorem Stats.read_add (a b : Stats) : (a + b).read = a.read + b.read := rfl
@[simp] theorem Stats.cpu_zero : (0 : Stats).cpu = 0 := rfl
@[simp] theorem Stats.write_zero : (0 : Stats).write = 0 := rfl
@[simp] theorem Stats.read_zero : (0 : Stats).read = 0 := rfl

instance : AddCommMonoid Stats where
  add_assoc a b c := by ext <;> simp [add_assoc]
  zero_add a := by ext <;> simp
  add_zero a := by ext <;> simp
  add_comm a b := by ext <;> simp [add_comm]
  nsmul := nsmulRec

instance : PartialOrder Stats where
  le a b := a.cpu ≤ b.cpu ∧ a.write ≤ b.write ∧ a.read ≤ b.read
  le_refl a := ⟨le_refl _, le_refl _, le_refl _⟩
  le_trans a b c h h' := ⟨h.1.trans h'.1, h.2.1.trans h'.2.1, h.2.2.trans h'.2.2⟩
  le_antisymm a b h h' := by
    ext
    · exact le_antisymm h.1 h'.1
    · exact le_antisymm h.2.1 h'.2.1
    · exact le_antisymm h.2.2 h'.2.2

instance : IsOrderedAddMonoid Stats where
  add_le_add_left _ _ h _ :=
    ⟨add_le_add_left h.1 _, add_le_add_left h.2.1 _, add_le_add_left h.2.2 _⟩

/-! ### Sums that round -/

section Sums

variable [Rounding]

theorem sumStats_mono {a a' b b' : Stats} (ha : a ≤ a') (hb : b ≤ b') :
    sumStats a b ≤ sumStats a' b' :=
  ⟨Rounding.fl_mono (add_le_add ha.1 hb.1), add_le_add ha.2.1 hb.2.1, add_le_add ha.2.2 hb.2.2⟩

theorem sumStats_nonneg {a b : Stats} (ha : 0 ≤ a) (hb : 0 ≤ b) : 0 ≤ sumStats a b :=
  ⟨Rounding.fl_nonneg (add_nonneg ha.1 hb.1), add_nonneg ha.2.1 hb.2.1,
    add_nonneg ha.2.2 hb.2.2⟩

/-- A figure that rounding leaves alone. -/
def Stats.Rounded (s : Stats) : Prop := Rounding.fl s.cpu = s.cpu

theorem rounded_zero : (0 : Stats).Rounded := Rounding.fl_zero

theorem rounded_sumStats (a b : Stats) : (sumStats a b).Rounded := Rounding.fl_fl _

theorem le_sumStats {a b : Stats} (ha : a.Rounded) (hb : 0 ≤ b) : a ≤ sumStats a b :=
  ⟨Rounding.le_fl_add ha hb.1, le_add_of_nonneg_right hb.2.1, le_add_of_nonneg_right hb.2.2⟩

theorem sumStats_zero {a : Stats} (ha : a.Rounded) : sumStats a 0 = a := by
  ext
  · rw [sumStats, Stats.cpu_zero, add_zero]
    exact ha
  · simp [sumStats]
  · simp [sumStats]

/-- The sum of a list from its front on. -/
def totalStats (l : List Stats) : Stats := l.foldl sumStats 0

theorem rounded_totalStats (l : List Stats) : (totalStats l).Rounded := by
  induction l using List.reverseRecOn with
  | nil => exact rounded_zero
  | append_singleton l x _ =>
      rw [totalStats, List.foldl_append]
      exact rounded_sumStats _ x

theorem totalStats_append (l : List Stats) (x : Stats) :
    totalStats (l ++ [x]) = sumStats (totalStats l) x := by
  simp [totalStats]

theorem totalStats_zero_cons (l : List Stats) : totalStats (0 :: l) = totalStats l := by
  rw [totalStats, List.foldl_cons, sumStats_zero rounded_zero, totalStats]

theorem totalStats_replicate_zero (k : ℕ) : totalStats (List.replicate k 0) = 0 := by
  induction k with
  | zero => rfl
  | succ k ih => rw [List.replicate_succ, totalStats_zero_cons, ih]

theorem totalStats_append_zeros (l : List Stats) (k : ℕ) :
    totalStats (l ++ List.replicate k 0) = totalStats l := by
  induction k with
  | zero => simp
  | succ k ih =>
      rw [List.replicate_succ', ← List.append_assoc, totalStats_append, ih,
        sumStats_zero (rounded_totalStats l)]

/-- Further samples that are not negative do not make the sum smaller. -/
theorem totalStats_take_le {l : List Stats} (hl : ∀ s ∈ l, 0 ≤ s) {j k : ℕ} (h : j ≤ k) :
    totalStats (l.take j) ≤ totalStats (l.take k) := by
  induction k, h using Nat.le_induction with
  | base => exact le_refl _
  | succ k _ ih =>
      refine ih.trans ?_
      by_cases hk : k < l.length
      · rw [List.take_add_one, List.getElem?_eq_getElem hk, Option.toList_some, totalStats_append]
        exact le_sumStats (rounded_totalStats _) (hl _ (List.getElem_mem hk))
      · rw [List.take_of_length_le (by omega), List.take_of_length_le (by omega)]

end Sums

theorem totalStats_exact (l : List Stats) : @totalStats .exact l = l.sum :=
  List.sum_eq_foldl.symm

/-! ### Samples -/

/-- The samples of a ring, newest first. -/
def FifoStats.samples (fifo : FifoStats) : List Stats :=
  (List.range fifo.size.toNat).map fun i : ℕ => fifoStatsGet fifo i

/-- The array has the size of the ring, and the newest sample is inside it. -/
structure FifoStats.WellFormed (fifo : FifoStats) : Prop where
  length : fifo.ar.length = fifo.size.toNat
  first_nonneg : 0 < fifo.size → 0 ≤ fifo.first
  first_lt : 0 < fifo.size → fifo.first < fifo.size

section

variable {fifo : FifoStats}

theorem FifoStats.samples_eq_window (h : fifo.WellFormed) (hsize : 0 < fifo.size) :
    fifo.samples = RingBuffer.window resetStats fifo.size.toNat fifo.first.toNat fifo.ar := by
  have h0 := h.first_nonneg hsize
  have h1 := h.first_lt hsize
  rw [FifoStats.samples, RingBuffer.window]
  refine List.map_congr_left ?_
  intro i _
  have hslot : (if fifo.first + i ≥ fifo.size then fifo.first + i - fifo.size
      else fifo.first + i).toNat = RingBuffer.slot fifo.size.toNat fifo.first.toNat i := by
    rw [RingBuffer.slot]
    split_ifs <;> omega
  rw [fifoStatsGet, hslot]

theorem FifoStats.samples_of_size_le (hsize : fifo.size ≤ 0) : fifo.samples = [] := by
  simp [FifoStats.samples, Int.toNat_of_nonpos hsize]

theorem fifoStatsInit_wellFormed (size : ℤ) : (fifoStatsInit size).WellFormed :=
  ⟨by simp [fifoStatsInit], fun _ => le_refl 0, fun h => h⟩

theorem samples_fifoStatsInit (size : ℤ) :
    (fifoStatsInit size).samples = List.replicate size.toNat 0 := by
  by_cases hsize : 0 < size
  · rw [FifoStats.samples_eq_window (fifoStatsInit_wellFormed size) hsize]
    exact RingBuffer.window_replicate _ _ _
  · rw [FifoStats.samples_of_size_le (not_lt.mp hsize), Int.toNat_of_nonpos (not_lt.mp hsize)]
    rfl

theorem fifoStatsPush_wellFormed (h : fifo.WellFormed) (x : Stats) :
    (fifoStatsPush fifo x).WellFormed := by
  refine ⟨by simpa [fifoStatsPush] using h.length, fun hs => ?_, fun hs => ?_⟩
  all_goals
    have h0 := h.first_nonneg hs
    have h1 := h.first_lt hs
    simp only [fifoStatsPush] at hs ⊢
    split <;> omega

theorem samples_fifoStatsPush (h : fifo.WellFormed) (x : Stats) :
    (fifoStatsPush fifo x).samples = (x :: fifo.samples).take fifo.size.toNat := by
  by_cases hsize : 0 < fifo.size
  · have h0 := h.first_nonneg hsize
    have h1 := h.first_lt hsize
    have hfirst : (fifoStatsPush fifo x).first.toNat =
        RingBuffer.prev fifo.size.toNat fifo.first.toNat := by
      simp only [fifoStatsPush, RingBuffer.prev]
      split_ifs <;> omega
    rw [FifoStats.samples_eq_window (fifoStatsPush_wellFormed h x) hsize, hfirst,
      FifoStats.samples_eq_window h hsize, ← RingBuffer.window_push _ h.length (by omega), ← hfirst]
    rfl
  · have hle := not_lt.mp hsize
    rw [FifoStats.samples_of_size_le (show (fifoStatsPush fifo x).size ≤ 0 from hle),
      Int.toNat_of_nonpos hle, List.take_zero]

theorem fifoStatsRefreshLast_wellFormed [Rounding] (h : fifo.WellFormed) (x : Stats) :
    (fifoStatsRefreshLast fifo x).WellFormed :=
  ⟨by simpa [fifoStatsRefreshLast] using h.length, h.first_nonneg, h.first_lt⟩

/-- A refresh adds to the newest sample and leaves the others alone. -/
theorem mem_samples_fifoStatsRefreshLast [Rounding] (h : fifo.WellFormed) {x s : Stats}
    (hs : s ∈ (fifoStatsRefreshLast fifo x).samples) :
    s ∈ fifo.samples ∨ ∃ t ∈ fifo.samples, s = sumStats t x := by
  by_cases hsize : 0 < fifo.size
  · have h0 := h.first_nonneg hsize
    have h1 := h.first_lt hsize
    have hlt : fifo.first.toNat < fifo.size.toNat := by omega
    rw [FifoStats.samples_eq_window (fifoStatsRefreshLast_wellFormed h x) hsize] at hs
    simp only [fifoStatsRefreshLast] at hs
    rw [RingBuffer.window_set_first _ h.length hlt] at hs
    rw [FifoStats.samples_eq_window h hsize]
    rcases List.mem_or_eq_of_mem_set hs with hmem | heq
    · exact .inl hmem
    · refine .inr ⟨_, List.mem_map.mpr ⟨0, List.mem_range.mpr (by omega), ?_⟩, heq⟩
      rw [RingBuffer.slot_zero hlt]
  · have hle : (fifoStatsRefreshLast fifo x).size ≤ 0 := not_lt.mp hsize
    rw [FifoStats.samples_of_size_le hle] at hs
    simp at hs

end

/-! ### Slots after a push -/

section Slots

variable {fifo : FifoStats}

theorem FifoStats.samples_getElem? (fifo : FifoStats) {i : ℕ} (hi : (i : ℤ) < fifo.size) :
    fifo.samples[i]? = some (fifoStatsGet fifo i) := by
  have hlt : i < fifo.size.toNat := by omega
  simp [FifoStats.samples, hlt]

theorem cons_samples_getElem? (h : fifo.WellFormed) (x : Stats) {i : ℕ}
    (hi : (i : ℤ) < fifo.size) :
    (x :: fifo.samples)[i]? = some (fifoStatsGet (fifoStatsPush fifo x) i) := by
  have hpush := (fifoStatsPush fifo x).samples_getElem? hi
  have hlt : i < fifo.size.toNat := by omega
  rwa [samples_fifoStatsPush h, List.getElem?_take_of_lt hlt] at hpush

theorem fifoStatsGet_push_first (h : fifo.WellFormed) (x : Stats) (hsize : 0 < fifo.size) :
    fifoStatsGet (fifoStatsPush fifo x) 0 = x :=
  (Option.some.inj (cons_samples_getElem? h x (i := 0) hsize)).symm

theorem fifoStatsGet_push_succ (h : fifo.WellFormed) (x : Stats) {i : ℕ}
    (hi : ((i + 1 : ℕ) : ℤ) < fifo.size) :
    fifoStatsGet (fifoStatsPush fifo x) (i + 1 : ℕ) = fifoStatsGet fifo i := by
  have hslot := cons_samples_getElem? h x hi
  rw [List.getElem?_cons_succ, fifo.samples_getElem? (by omega)] at hslot
  exact (Option.some.inj hslot).symm

theorem fifoStatsGet_push_zero (h : fifo.WellFormed) :
    fifoStatsGet (fifoStatsPush fifo 0) 0 = 0 := by
  by_cases hsize : 0 < fifo.size
  · exact fifoStatsGet_push_first h 0 hsize
  · have hnil : fifo.ar = [] := by
      rw [← List.length_eq_zero_iff, h.length]
      omega
    simp only [fifoStatsGet, fifoStatsPush, hnil, List.set_nil]
    rfl

end Slots

/-! ### Averages -/

section Averages

variable [Rounding]

/-- The quotients that `fifo_stats_avg` takes of a sum. -/
def Stats.divide (s : Stats) (length : ℤ) : Stats :=
  ⟨Rounding.fl (s.cpu / length), s.write.tdiv length, s.read.tdiv length⟩

theorem Stats.rounded_divide (s : Stats) (length : ℤ) : (s.divide length).Rounded :=
  Rounding.fl_fl _

theorem fifoStatsSum_eq (fifo : FifoStats) (length : ℤ) :
    fifoStatsSum fifo length =
      totalStats (fifo.samples.take (min fifo.size length).toNat) := by
  have htake : fifo.samples.take (min fifo.size length).toNat =
      (List.range (min fifo.size length).toNat).map fun i : ℕ => fifoStatsGet fifo i := by
    rw [FifoStats.samples, ← List.map_take, List.take_range]
    congr 2
    omega
  rw [htake, totalStats, List.foldl_map]
  rfl

theorem fifoStatsAvg_eq (fifo : FifoStats) (length : ℤ) :
    fifoStatsAvg fifo length =
      (totalStats (fifo.samples.take (min fifo.size length).toNat)).divide
        (min fifo.size length) := by
  have hmin : (if length > fifo.size then fifo.size else length) = min fifo.size length := by
    omega
  simp only [fifoStatsAvg, hmin, fifoStatsSum_eq]
  rfl

/-- Every sample is at least zero. -/
def FifoStats.Nonneg (fifo : FifoStats) : Prop := ∀ s ∈ fifo.samples, 0 ≤ s

/-- The average that a ring shows after one more sample of zero. -/
def FifoStats.residual (fifo : FifoStats) (length : ℤ) : Stats :=
  (totalStats (fifo.samples.take ((min fifo.size length).toNat - 1))).divide
    (min fifo.size length)

section

variable {fifo : FifoStats} {length : ℤ}

theorem totalStats_take_zero_cons (l : List Stats) (n k : ℕ) (hk : k ≤ n) :
    totalStats (((0 :: l).take n).take k) = totalStats (l.take (k - 1)) := by
  rw [List.take_take, min_eq_left hk]
  cases k with
  | zero => simp
  | succ k => exact totalStats_zero_cons _

theorem fifoStatsAvg_push_zero (h : fifo.WellFormed) (length : ℤ) :
    fifoStatsAvg (fifoStatsPush fifo 0) length = fifo.residual length := by
  have hk : (min fifo.size length).toNat ≤ fifo.size.toNat := by omega
  rw [fifoStatsAvg_eq, samples_fifoStatsPush h]
  exact congrArg (·.divide (min fifo.size length)) (totalStats_take_zero_cons _ _ _ hk)

theorem Stats.divide_mono {s t : Stats} (h : s ≤ t) (hl : 0 < length) :
    s.divide length ≤ t.divide length := by
  refine ⟨?_, ?_, ?_⟩
  · have hpos : (0 : ℚ) ≤ length := by exact_mod_cast hl.le
    exact Rounding.fl_mono (div_le_div_of_nonneg_right h.1 hpos)
  · exact Int.tdiv_le_tdiv hl h.2.1
  · exact Int.tdiv_le_tdiv hl h.2.2

/-- A further sample of zero does not raise the residual. -/
theorem residual_push_zero_le (h : fifo.WellFormed) (hn : fifo.Nonneg) (length : ℤ) :
    (fifoStatsPush fifo 0).residual length ≤ fifo.residual length := by
  have hk : (min fifo.size length).toNat - 1 ≤ fifo.size.toNat := by omega
  have hsum := totalStats_take_zero_cons fifo.samples fifo.size.toNat _ hk
  rw [FifoStats.residual, samples_fifoStatsPush h]
  by_cases hpos : 0 < min fifo.size length
  · refine Stats.divide_mono (hsum.le.trans ?_) hpos
    exact totalStats_take_le hn (by omega)
  · have hzero : (min fifo.size length).toNat = 0 := by omega
    have hsize : (fifoStatsPush fifo 0).size = fifo.size := rfl
    simp [FifoStats.residual, hsize, hzero]

theorem residual_fifoStatsInit (size length : ℤ) : (fifoStatsInit size).residual length = 0 := by
  rw [FifoStats.residual, samples_fifoStatsInit, List.take_replicate, totalStats_replicate_zero]
  ext <;> simp [Stats.divide]

end

end Averages

end DbGovernor
