import DbGovernor.Verification.FifoStats.Samples

/-!
# The ring of samples is a list

The calls that write a ring are data here, so that a run of them can be replayed on a plain
list of samples.
-/

namespace DbGovernor

/-- One call of `fifo_stats_push` or `fifo_stats_refresh_last`. -/
inductive FifoStatsCall where
  | push (x : Stats)
  | refreshLast (x : Stats)
deriving DecidableEq

section Calls

variable [Rounding]

def FifoStatsCall.onRing (fifo : FifoStats) : FifoStatsCall → FifoStats
  | .push x => fifoStatsPush fifo x
  | .refreshLast x => fifoStatsRefreshLast fifo x

/-- What a call does to the list of samples, newest first. -/
def FifoStatsCall.onList (samples : List Stats) : FifoStatsCall → List Stats
  | .push x => x :: samples.dropLast
  | .refreshLast x => samples.modifyHead fun s => sumStats s x

end Calls

/-- The slot that `fifo_stats_get` reads. -/
def fifoStatsIndex (fifo : FifoStats) (i : ℤ) : ℤ :=
  if fifo.first + i ≥ fifo.size then fifo.first + i - fifo.size else fifo.first + i

theorem fifoStatsGet_eq (fifo : FifoStats) (i : ℤ) :
    fifoStatsGet fifo i = fifo.ar.getD (fifoStatsIndex fifo i).toNat resetStats := rfl

/-! ### The refinement -/

section Exact

/- The averages are compared with exact quotients, so nothing is rounded here. -/
attribute [local instance] Rounding.exact

/-- A ring of size `n` and the list that it stands for. -/
structure RefinesList (n : ℕ) (fifo : FifoStats) (samples : List Stats) : Prop where
  size : fifo.size = n
  array : fifo.ar.length = n
  first : 0 ≤ fifo.first ∧ fifo.first < n
  length : samples.length = n
  index : ∀ i : ℕ, i < n → 0 ≤ fifoStatsIndex fifo i ∧ fifoStatsIndex fifo i < n
  get : ∀ i : ℕ, i < n → samples[i]? = some (fifoStatsGet fifo i)
  sum : ∀ length : ℕ, 1 ≤ length →
    fifoStatsSum fifo length = (samples.take (min length n)).sum
  avg : ∀ length : ℕ, 1 ≤ length →
    let total := (samples.take (min length n)).sum
    fifoStatsAvg fifo length =
      ⟨total.cpu / (min length n : ℕ), total.write.tdiv (min length n : ℕ),
        total.read.tdiv (min length n : ℕ)⟩

end Exact

section

variable {fifo : FifoStats}

theorem samples_eq_cons (h : fifo.WellFormed) (hsize : 0 < fifo.size) :
    fifo.samples = fifo.ar.getD fifo.first.toNat resetStats :: fifo.samples.tail := by
  have h0 := h.first_nonneg hsize
  have h1 := h.first_lt hsize
  have hget := fifo.samples_getElem? (i := 0) (by exact_mod_cast hsize)
  rw [← List.head?_eq_getElem?, fifoStatsGet_eq, fifoStatsIndex, if_neg (by push_cast; omega)] at hget
  simpa using List.eq_cons_of_mem_head? hget

theorem samples_fifoStatsRefreshLast [Rounding] (h : fifo.WellFormed) (x : Stats) :
    (fifoStatsRefreshLast fifo x).samples = fifo.samples.modifyHead fun s => sumStats s x := by
  by_cases hsize : 0 < fifo.size
  · have h0 := h.first_nonneg hsize
    have h1 := h.first_lt hsize
    have hlt : fifo.first.toNat < fifo.size.toNat := by omega
    have hset : (fifoStatsRefreshLast fifo x).samples =
        fifo.samples.set 0 (sumStats (fifo.ar.getD fifo.first.toNat resetStats) x) := by
      rw [FifoStats.samples_eq_window (fifoStatsRefreshLast_wellFormed h x) hsize,
        FifoStats.samples_eq_window h hsize]
      exact RingBuffer.window_set_first _ h.length hlt _
    rw [hset, samples_eq_cons h hsize]
    rfl
  · have hle := not_lt.mp hsize
    rw [FifoStats.samples_of_size_le (show (fifoStatsRefreshLast fifo x).size ≤ 0 from hle),
      FifoStats.samples_of_size_le hle]
    rfl

end

/-! ### One call and a run of calls -/

variable {n : ℕ} {fifo : FifoStats} {samples : List Stats}

/-- The part of the refinement that each call keeps. -/
structure ShowsSamples (n : ℕ) (fifo : FifoStats) (samples : List Stats) : Prop where
  wellFormed : fifo.WellFormed
  size : fifo.size = n
  samples_eq : fifo.samples = samples

theorem showsSamples_init (n : ℕ) :
    ShowsSamples n (fifoStatsInit n) (List.replicate n resetStats) :=
  ⟨fifoStatsInit_wellFormed n, rfl, samples_fifoStatsInit n⟩

theorem FifoStats.length_samples (fifo : FifoStats) : fifo.samples.length = fifo.size.toNat := by
  simp [FifoStats.samples]

theorem ShowsSamples.step [Rounding] (hn : 1 ≤ n) (h : ShowsSamples n fifo samples) (call : FifoStatsCall) :
    ShowsSamples n (call.onRing fifo) (call.onList samples) := by
  obtain ⟨hwf, hsize, rfl⟩ := h
  cases call with
  | push x =>
      refine ⟨fifoStatsPush_wellFormed hwf x, hsize, ?_⟩
      have hlen : fifo.samples.length = fifo.size.toNat := fifo.length_samples
      obtain ⟨k, hk⟩ : ∃ k, fifo.size.toNat = k + 1 := ⟨fifo.size.toNat - 1, by omega⟩
      calc
        (fifoStatsPush fifo x).samples = (x :: fifo.samples).take (k + 1) := by
          rw [samples_fifoStatsPush hwf, hk]
        _ = x :: fifo.samples.dropLast := by
          rw [List.take_succ_cons, List.dropLast_eq_take, hlen, hk, Nat.add_sub_cancel]
  | refreshLast x =>
      exact ⟨fifoStatsRefreshLast_wellFormed hwf x, hsize, samples_fifoStatsRefreshLast hwf x⟩

theorem ShowsSamples.index (hn : 1 ≤ n) (h : ShowsSamples n fifo samples) {i : ℕ} (hi : i < n) :
    0 ≤ fifoStatsIndex fifo i ∧ fifoStatsIndex fifo i < n := by
  have hsize := h.size
  have h0 := h.wellFormed.first_nonneg (by omega)
  have h1 := h.wellFormed.first_lt (by omega)
  rw [fifoStatsIndex]
  split <;> omega

section Exact

attribute [local instance] Rounding.exact

theorem ShowsSamples.refinesList (hn : 1 ≤ n) (h : ShowsSamples n fifo samples) :
    RefinesList n fifo samples := by
  obtain ⟨hwf, hsize, rfl⟩ := id h
  have hmin : ∀ length : ℕ, min fifo.size length = (min length n : ℕ) := by
    intro length
    omega
  have h0 := hwf.first_nonneg (by omega)
  have h1 := hwf.first_lt (by omega)
  refine ⟨hsize, ?_, ⟨h0, by omega⟩, ?_, fun i hi => h.index hn hi, ?_, ?_, ?_⟩
  · rw [hwf.length, hsize, Int.toNat_natCast]
  · rw [fifo.length_samples, hsize, Int.toNat_natCast]
  · intro i hi
    exact fifo.samples_getElem? (by omega)
  · intro length _
    rw [fifoStatsSum_eq, hmin, Int.toNat_natCast, totalStats_exact]
  · intro length _
    rw [fifoStatsAvg_eq, hmin, Int.toNat_natCast, totalStats_exact]
    rfl

/-- A ring of at least one slot and the list go through every run of calls together. -/
theorem fifo_refines_list (n : ℕ) (hn : 1 ≤ n) (calls : List FifoStatsCall) :
    RefinesList n (calls.foldl FifoStatsCall.onRing (fifoStatsInit n))
      (calls.foldl FifoStatsCall.onList (List.replicate n resetStats)) := by
  have hrun : ShowsSamples n (calls.foldl FifoStatsCall.onRing (fifoStatsInit n))
      (calls.foldl FifoStatsCall.onList (List.replicate n resetStats)) :=
    List.foldl_rel (showsSamples_init n) fun call _ _ _ h => h.step hn call
  exact hrun.refinesList hn

/-- The ring of one slot, written, refreshed and written again. -/
theorem fifo_refines_list_sample :
    RefinesList 1
      ([.push ⟨1, 2, 3⟩, .refreshLast ⟨1, 5, 7⟩, .push ⟨0, 0, 1⟩, .refreshLast ⟨1, 1, 1⟩].foldl
        FifoStatsCall.onRing (fifoStatsInit 1)) [⟨1, 1, 2⟩] := by
  have hlist : [.push ⟨1, 2, 3⟩, .refreshLast ⟨1, 5, 7⟩, .push ⟨0, 0, 1⟩,
      .refreshLast ⟨1, 1, 1⟩].foldl FifoStatsCall.onList (List.replicate 1 resetStats) =
      [⟨1, 1, 2⟩] := by
    decide +kernel
  rw [← hlist]
  exact fifo_refines_list 1 (le_refl 1) _

end Exact

end DbGovernor
