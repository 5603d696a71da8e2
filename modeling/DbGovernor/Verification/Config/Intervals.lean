import DbGovernor.Verification.Config.Numbers
import DbGovernor.Verification.Config.Reading
import DbGovernor.Verification.FifoStats.Refinement
import DbGovernor.Verification.Shared.Runs

/-!
# Intervals

A ring is made for the longest interval of one configuration, and its averages are taken over
the intervals of the configuration in force at each sample.
-/

namespace DbGovernor

open Results

/-- A file that `config_init` reads without an exit. -/
structure AcceptedFile where
  liblve : Bool
  root : XmlNode
  cfg : GovernorConfig
  accepted : configInit liblve root = .ok cfg

/-- The text of an attribute of `intervals`, if it is there. -/
def intervalText (root : XmlNode) (attrName : String) : Option CString :=
  (findElementWithName "intervals" root).bind (getElemAttr · attrName)

/-- The intervals of a file as numbers: long, mid and short. -/
def AcceptedFile.intervals (file : AcceptedFile) : List ℤ :=
  [((intervalText file.root "long").map atoi).getD 30,
    ((intervalText file.root "mid").map atoi).getD 15,
    ((intervalText file.root "short").map atoi).getD 5]

/-- The lengths over which `push_stats` and `refresh_stats` average. -/
def averagedLengths (cfg : GovernorConfig) : List ℤ :=
  [intOfUnsigned cfg.intervalLong, intOfUnsigned cfg.intervalMid, intOfUnsigned cfg.intervalShort]

/-- `push_stats` or `refresh_stats` under a configuration. -/
def updateStats (us : UserStats) (update : AcceptedFile × FifoStatsCall) : UserStats :=
  match update.2 with
  | .push x => pushStats update.1.cfg x us
  | .refreshLast x => refreshStats update.1.cfg x us

/-- The ring is not empty, the slot that was written and the slots that are read for an average
are in it, and no average divides by less than one. -/
structure AveragesSafely (cfg : GovernorConfig) (fifo : FifoStats) : Prop where
  size : 1 ≤ fifo.size
  written : 0 ≤ fifo.first ∧ fifo.first < fifo.size
  read : ∀ i : ℕ, i < fifo.size → 0 ≤ fifoStatsIndex fifo i ∧ fifoStatsIndex fifo i < fifo.size
  divisor : ∀ length ∈ averagedLengths cfg,
    1 ≤ if length > fifo.size then fifo.size else length

/-- A user is created with a ring, and each update averages safely. -/
def RingSafe (us : UserStats) (updates : List (AcceptedFile × FifoStatsCall)) : Prop :=
  1 ≤ us.stats.size ∧
    Runs.Meets updateStats
      (fun us update => AveragesSafely update.1.cfg (updateStats us update).stats) us updates

/-- No interval is negative, and one is not zero. -/
def AcceptedFile.MakesRing (file : AcceptedFile) : Prop :=
  (∀ n ∈ file.intervals, 0 ≤ n) ∧ ∃ n ∈ file.intervals, 1 ≤ n

/-- Every interval is positive. -/
def AcceptedFile.Divides (file : AcceptedFile) : Prop := ∀ n ∈ file.intervals, 1 ≤ n

instance (file : AcceptedFile) : Decidable file.MakesRing := inferInstanceAs (Decidable (_ ∧ _))

instance (file : AcceptedFile) : Decidable file.Divides :=
  inferInstanceAs (Decidable (∀ n ∈ file.intervals, 1 ≤ n))

/-! ### The intervals that are read -/

theorem readSettings_intervals {liblve : Bool} {root : XmlNode} {cfg : GovernorConfig}
    (h : readSettings liblve root = .ok cfg) :
    ∃ node, findElementWithName "intervals" root = some node ∧
      cfg.intervalShort = intervalAttr node "short" 5 ∧
      cfg.intervalMid = intervalAttr node "mid" 15 ∧
      cfg.intervalLong = intervalAttr node "long" 30 := by
  simp only [readSettings, bind_eq_ok, pure_eq_ok] at h
  obtain ⟨log, -, mode, -, intervals, hnode, lUnlimit, -, restrict, -, level1, -, level2, -, level3,
    -, level4, -, timeout, -, connector, -, rfl⟩ := h
  refine ⟨intervals, ?_, rfl, rfl, rfl⟩
  rw [findRequired] at hnode
  split at hnode
  · cases hnode
  · rename_i hfind
    rw [hfind, Except.ok.inj hnode]

theorem intOfUnsigned_intervalAttr (node : XmlNode) (attrName : String) {default : UInt32}
    (hdefault : default.toNat < 2 ^ 31) :
    intOfUnsigned (intervalAttr node attrName default) =
      ((getElemAttr node attrName).map atoi).getD default.toNat := by
  rw [intervalAttr]
  cases getElemAttr node attrName with
  | none => exact if_pos hdefault
  | some text => exact intOfUnsigned_ofInt (atoi_bounds text).1 (atoi_bounds text).2

theorem AcceptedFile.averagedLengths_eq (file : AcceptedFile) :
    averagedLengths file.cfg = file.intervals := by
  obtain ⟨settings, defaultLimit, entries, hsettings, -, -, hcfg⟩ :=
    configInit_eq_ok_iff.mp file.accepted
  obtain ⟨node, hnode, hshort, hmid, hlong⟩ := readSettings_intervals hsettings
  rw [← hcfg, averagedLengths, AcceptedFile.intervals]
  simp only [hshort, hmid, hlong, intervalText, hnode, Option.bind_some,
    intOfUnsigned_intervalAttr node _ (show (30 : UInt32).toNat < 2 ^ 31 by decide),
    intOfUnsigned_intervalAttr node _ (show (15 : UInt32).toNat < 2 ^ 31 by decide),
    intOfUnsigned_intervalAttr node _ (show (5 : UInt32).toNat < 2 ^ 31 by decide)]
  rfl

/-- The greatest of three unsigned numbers is positive as an `int`. -/
theorem one_le_compareMax3 (x y z : UInt32) :
    1 ≤ intOfUnsigned (compareMax3 x y z) ↔
      (∀ u ∈ [x, y, z], 0 ≤ intOfUnsigned u) ∧ ∃ u ∈ [x, y, z], 1 ≤ intOfUnsigned u := by
  have hx := x.toNat_lt
  have hy := y.toNat_lt
  have hz := z.toNat_lt
  simp only [List.forall_mem_cons, List.not_mem_nil, IsEmpty.forall_iff, implies_true, and_true,
    List.exists_mem_cons_iff, false_and, exists_false, or_false]
  simp only [compareMax3, intOfUnsigned, gt_iff_lt, UInt32.lt_iff_toNat_lt]
  split_ifs <;> omega

/-! ### One update and a run of updates -/

theorem one_le_size_iff (file : AcceptedFile) (id account : Username) :
    1 ≤ (initUserStats file.cfg id account).stats.size ↔ file.MakesRing := by
  have hsize : (initUserStats file.cfg id account).stats.size = intOfUnsigned
      (compareMax3 file.cfg.intervalLong file.cfg.intervalMid file.cfg.intervalShort) := rfl
  rw [hsize, one_le_compareMax3, AcceptedFile.MakesRing, ← file.averagedLengths_eq, averagedLengths]
  simp only [List.forall_mem_cons, List.exists_mem_cons_iff, List.not_mem_nil, IsEmpty.forall_iff,
    implies_true, false_and, exists_false]

theorem updateStats_stats (us : UserStats) (update : AcceptedFile × FifoStatsCall) :
    (updateStats us update).stats = update.2.onRing us.stats := by
  rw [updateStats]
  cases update.2 <;> rfl

/-- A ring with at least one slot. -/
structure NonemptyRing (us : UserStats) : Prop where
  wellFormed : us.stats.WellFormed
  size : 1 ≤ us.stats.size

theorem NonemptyRing.update {us : UserStats} (h : NonemptyRing us)
    (update : AcceptedFile × FifoStatsCall) : NonemptyRing (updateStats us update) := by
  have hstats := updateStats_stats us update
  cases hcall : update.2 with
  | push x =>
      rw [hcall] at hstats
      exact ⟨hstats ▸ fifoStatsPush_wellFormed h.wellFormed x, hstats ▸ h.size⟩
  | refreshLast x =>
      rw [hcall] at hstats
      exact ⟨hstats ▸ fifoStatsRefreshLast_wellFormed h.wellFormed x, hstats ▸ h.size⟩

/-- A nonempty ring averages safely exactly over positive lengths. -/
theorem averagesSafely_iff {us : UserStats} (h : NonemptyRing us) (file : AcceptedFile) :
    AveragesSafely file.cfg us.stats ↔ file.Divides := by
  have hsize := h.size
  have h0 := h.wellFormed.first_nonneg (by omega)
  have h1 := h.wellFormed.first_lt (by omega)
  rw [AcceptedFile.Divides, ← file.averagedLengths_eq]
  constructor
  · intro hsafe length hmem
    have hdivisor := hsafe.divisor length hmem
    split at hdivisor <;> omega
  · intro hpos
    refine ⟨hsize, ⟨h0, h1⟩, ?_, ?_⟩
    · intro i hi
      rw [fifoStatsIndex]
      split <;> omega
    · intro length hmem
      have hlength := hpos length hmem
      split <;> omega

/-- The averages are safe exactly when the intervals of the first file make a ring and those of
every file that an update runs under are positive. -/
theorem ring_safe_iff (start : AcceptedFile) (id account : Username)
    (updates : List (AcceptedFile × FifoStatsCall)) :
    RingSafe (initUserStats start.cfg id account) updates ↔
      start.MakesRing ∧ ∀ update ∈ updates, update.1.Divides := by
  rw [RingSafe, one_le_size_iff start id account]
  refine and_congr_right fun hring => ?_
  have hstart : NonemptyRing (initUserStats start.cfg id account) :=
    ⟨fifoStatsInit_wellFormed _, (one_le_size_iff start id account).mpr hring⟩
  have hrun : Runs.Meets updateStats (fun _ _ => True) (initUserStats start.cfg id account) updates :=
    Runs.meets_of_forall _ _ fun _ _ _ => trivial
  have hdivides : Runs.Meets updateStats (fun _ update => update.1.Divides)
      (initUserStats start.cfg id account) updates ↔ ∀ update ∈ updates, update.1.Divides :=
    Runs.meets_iff_forall_mem
  rw [← hdivides]
  refine Runs.meets_congr ?_ ?_ hrun hstart
  · intro us update h _
    exact averagesSafely_iff (h.update update) update.1
  · intro us update h _ _
    exact h.update update

/-- The shipped file with other attributes of `intervals`. -/
def intervalsRoot (attrs : List (String × String)) : XmlNode :=
  { shippedRoot [] with children := (shippedRoot []).children.set 2 (element "intervals" attrs []) }

/-- After a reread of a file whose short interval is the text `0`, the next sample is divided by
zero. -/
theorem zero_interval_accepted :
    ¬ ∀ (start : AcceptedFile) (id account : Username)
      (updates : List (AcceptedFile × FifoStatsCall)),
      RingSafe (initUserStats start.cfg id account) updates := by
  intro hsafe
  have hsome : (configInit true (intervalsRoot
      [("short", "0"), ("mid", "60"), ("long", "300")])).toOption.isSome = true := by
    decide +kernel
  obtain ⟨cfg, hcfg⟩ := Option.isSome_iff_exists.mp hsome
  obtain ⟨-, hruns⟩ := hsafe ⟨true, _, _, configInit_shippedRoot⟩ (strlcpy [117]) (strlcpy [117])
    [(⟨true, _, cfg, eq_ok_of_toOption hcfg⟩, .push resetStats)]
  have hdivisor := hruns.1.divisor (intOfUnsigned cfg.intervalShort) (by simp [averagedLengths])
  have hshort : (configInit true (intervalsRoot
      [("short", "0"), ("mid", "60"), ("long", "300")])).toOption.map
        (fun cfg => intOfUnsigned cfg.intervalShort) = some 0 := by
    decide +kernel
  rw [hcfg, Option.map_some] at hshort
  rw [Option.some.inj hshort] at hdivisor
  have hsize := hruns.1.size
  rw [if_neg (by omega)] at hdivisor
  omega

end DbGovernor
