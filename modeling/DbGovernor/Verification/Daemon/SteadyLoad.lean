import DbGovernor.Verification.Daemon.Windows
import DbGovernor.Verification.Shared.Windows

/-!
# Steady loads

The load of an account in a tick is what its users used together. Loads that stay within the limits
restrict nobody, and a load that stays above one limit for as long as its window restricts. What the
roundings of a CPU figure may take or give is left out on both sides.
-/

namespace DbGovernor

/-! ### Figures and limits as numbers -/

/-- A figure as the limits see it. -/
def Stats.figure (st : Stats) : GovernorsFieldName → ℚ
  | .cpuParam => st.cpu
  | .readParam => st.read
  | .writeParam => st.write
  | .norestrictParam2 => 0
  | .norestrictParam => 0

def TLong.at (x : TLong) : GovernorsPeriodName → ℤ
  | .noPeriod => -1
  | .currentPeriod => x.current
  | .shortPeriod => x.short
  | .midPeriod => x.mid
  | .longPeriod => x.long

/-- The limit of a field in a period. -/
def StatsCfg.limitAt (sl : StatsCfg) (period : GovernorsPeriodName) : GovernorsFieldName → ℤ
  | .cpuParam => sl.cpu.at period
  | .readParam => sl.read.at period
  | .writeParam => sl.write.at period
  | .norestrictParam2 => -1
  | .norestrictParam => -1

/-- The number that a figure is compared with. -/
def StatsCfg.bound (sl : StatsCfg) (period : GovernorsPeriodName) (field : GovernorsFieldName) : ℚ :=
  if field = .cpuParam then percentage (sl.limitAt period field) else sl.limitAt period field

/-- How many ticks the figure of a period covers. -/
def periodLength (cfg : GovernorConfig) : GovernorsPeriodName → ℤ
  | .noPeriod => 1
  | .currentPeriod => 1
  | .shortPeriod => intOfUnsigned cfg.intervalShort
  | .midPeriod => intOfUnsigned cfg.intervalMid
  | .longPeriod => intOfUnsigned cfg.intervalLong

def Usage.at (usage : Usage) : GovernorsPeriodName → Stats
  | .noPeriod => 0
  | .currentPeriod => usage.current
  | .shortPeriod => usage.shortAverage
  | .midPeriod => usage.midAverage
  | .longPeriod => usage.longAverage

/-- At most this much of a figure is cut off in the quotient of a mean. -/
def truncation : GovernorsFieldName → ℚ
  | .cpuParam => 0
  | .readParam => 1
  | .writeParam => 1
  | .norestrictParam2 => 0
  | .norestrictParam => 0

/-- At most this many roundings lie between the samples of some users and a figure of theirs: one for
each tick of the window, one for the quotient and one for each user. -/
def roundings (cfg : GovernorConfig) (period : GovernorsPeriodName) (users : List Username)
    (field : GovernorsFieldName) : ℕ :=
  if field = .cpuParam then (periodLength cfg period).toNat + 1 + users.length else 0

section Figures

variable {sl : StatsCfg} {period : GovernorsPeriodName} {field : GovernorsFieldName}

theorem exceeds_iff_bound (hfield : field ∈ checkedFields) (st : Stats) (sl : StatsCfg)
    (period : GovernorsPeriodName) : st.Exceeds sl (TLong.at · period) field ↔
      sl.bound period field < st.figure field ∧ 0 ≤ sl.limitAt period field := by
  cases field with
  | cpuParam => exact Iff.rfl
  | readParam => exact and_congr_left fun _ => Int.cast_lt.symm
  | writeParam => exact and_congr_left fun _ => Int.cast_lt.symm
  | norestrictParam2 => simp [checkedFields] at hfield
  | norestrictParam => simp [checkedFields] at hfield

theorem overLimitAt_iff (hperiod : period ∈ checkedPeriods) (hfield : field ∈ checkedFields)
    (ac : Account) : OverLimitAt sl ac field period ↔
      sl.bound period field < (ac.usage.at period).figure field ∧ 0 ≤ sl.limitAt period field := by
  cases period with
  | noPeriod => simp [checkedPeriods] at hperiod
  | currentPeriod => exact exceeds_iff_bound hfield ac.current sl .currentPeriod
  | shortPeriod => exact exceeds_iff_bound hfield ac.shortAverage sl .shortPeriod
  | midPeriod => exact exceeds_iff_bound hfield ac.midAverage sl .midPeriod
  | longPeriod => exact exceeds_iff_bound hfield ac.longAverage sl .longPeriod

/-- Reads and writes are added up exactly. -/
theorem figure_foldl (hfield : field ≠ .cpuParam) (l : List Stats) (st : Stats) :
    (l.foldl sumStats st).figure field =
      st.figure field + (l.map fun st => st.figure field).sum := by
  have hadd : ∀ a b : Stats, (sumStats a b).figure field = a.figure field + b.figure field := by
    intro a b
    cases field with
    | cpuParam => contradiction
    | readParam => simp [Stats.figure, sumStats]
    | writeParam => simp [Stats.figure, sumStats]
    | norestrictParam2 => simp [Stats.figure]
    | norestrictParam => simp [Stats.figure]
  induction l generalizing st with
  | nil => simp
  | cons b l ih => rw [List.foldl_cons, ih, hadd, List.map_cons, List.sum_cons, add_assoc]

theorem cpu_foldl (l : List Stats) (st : Stats) :
    (l.foldl sumStats st).cpu = l.foldl (fun sum b => Rounding.fl (sum + b.cpu)) st.cpu := by
  induction l generalizing st with
  | nil => rfl
  | cons b l ih => exact ih (sumStats st b)

theorem tdiv_le_div {a n : ℤ} (ha : 0 ≤ a) (hn : 1 ≤ n) : (a.tdiv n : ℚ) ≤ a / n := by
  have hpos : (0 : ℚ) < n := by exact_mod_cast hn
  rw [le_div_iff₀ hpos, Int.tdiv_eq_ediv_of_nonneg ha]
  exact_mod_cast Int.ediv_mul_le a (by omega)

theorem div_le_tdiv_add_one {a n : ℤ} (ha : 0 ≤ a) (hn : 1 ≤ n) : (a : ℚ) / n ≤ a.tdiv n + 1 := by
  have hpos : (0 : ℚ) < n := by exact_mod_cast hn
  rw [div_le_iff₀ hpos, Int.tdiv_eq_ediv_of_nonneg ha]
  exact_mod_cast (Int.lt_ediv_add_one_mul_self a (by omega)).le

theorem figure_divide_le (hfield : field ≠ .cpuParam) {st : Stats} (h : 0 ≤ st) {length : ℤ}
    (hpos : 1 ≤ length) : (st.divide length).figure field ≤ st.figure field / length := by
  cases field with
  | cpuParam => contradiction
  | readParam => exact tdiv_le_div h.2.2 hpos
  | writeParam => exact tdiv_le_div h.2.1 hpos
  | norestrictParam2 => simp [Stats.figure]
  | norestrictParam => simp [Stats.figure]

theorem figure_le_divide_add (hfield : field ≠ .cpuParam) {st : Stats} (h : 0 ≤ st) {length : ℤ}
    (hpos : 1 ≤ length) :
    st.figure field / length ≤ (st.divide length).figure field + truncation field := by
  cases field with
  | cpuParam => contradiction
  | readParam => exact div_le_tdiv_add_one h.2.2 hpos
  | writeParam => exact div_le_tdiv_add_one h.2.1 hpos
  | norestrictParam2 => simp [Stats.figure, truncation]
  | norestrictParam => simp [Stats.figure, truncation]

end Figures

/-! ### Loads -/

/-- A figure of the samples of a user. -/
def figuresOf (past : List (TickInput × World)) (field : GovernorsFieldName) (u : Username) :
    List ℚ :=
  (samplesOf past u).map fun st => st.figure field

/-- What some users used together of a figure in a tick, counted back from the newest. -/
def loadAt (past : List (TickInput × World)) (users : List Username) (field : GovernorsFieldName)
    (i : ℕ) : ℚ :=
  Windows.total (figuresOf past field) users i

/-- The mean of a figure of a user over a window. -/
def meanOf (past : List (TickInput × World)) (field : GovernorsFieldName) (length : ℤ)
    (u : Username) : ℚ :=
  ((figuresOf past field u).take length.toNat).sum / length

/-- The mean of the loads of a window. -/
def loadMean (past : List (TickInput × World)) (users : List Username)
    (field : GovernorsFieldName) (length : ℤ) : ℚ :=
  (users.map (meanOf past field length)).sum

section Loads

variable {past : List (TickInput × World)} {users : List Username} {cfg : GovernorConfig}
  {sl : StatsCfg} {period : GovernorsPeriodName} {field : GovernorsFieldName} {length : ℤ}

theorem tickSample_nonneg (t : TickInput) (w : World) (u : Username) : 0 ≤ tickSample t w u := by
  rw [tickSample]
  split
  · exact clacStatsDifferenceInnerFromCounter_nonneg _ _ _ _ _
  · exact le_refl _

theorem samplesOf_nonneg (past : List (TickInput × World)) (u : Username) :
    ∀ st ∈ samplesOf past u, 0 ≤ st := by
  intro st hst
  obtain ⟨tick, -, rfl⟩ := List.mem_map.mp hst
  exact tickSample_nonneg tick.1 tick.2 u

theorem figure_nonneg {st : Stats} (h : 0 ≤ st) (field : GovernorsFieldName) :
    0 ≤ st.figure field := by
  cases field with
  | cpuParam => exact h.1
  | readParam => exact Int.cast_nonneg_iff.mpr h.2.2
  | writeParam => exact Int.cast_nonneg_iff.mpr h.2.1
  | norestrictParam2 => exact le_refl _
  | norestrictParam => exact le_refl _

theorem meanOf_nonneg (past : List (TickInput × World)) (field : GovernorsFieldName)
    (hpos : 1 ≤ length) (u : Username) : 0 ≤ meanOf past field length u := by
  have hlength : (0 : ℚ) ≤ length := by exact_mod_cast (by omega : 0 ≤ length)
  refine div_nonneg (List.sum_nonneg fun x hx => ?_) hlength
  obtain ⟨st, hst, rfl⟩ := List.mem_map.mp (List.mem_of_mem_take hx)
  exact figure_nonneg (samplesOf_nonneg past u st hst) field

theorem loadMean_nonneg (past : List (TickInput × World)) (users : List Username)
    (field : GovernorsFieldName) (hpos : 1 ≤ length) : 0 ≤ loadMean past users field length := by
  refine List.sum_nonneg fun x hx => ?_
  obtain ⟨u, -, rfl⟩ := List.mem_map.mp hx
  exact meanOf_nonneg past field hpos u

/-- The CPU mean of a user, up to its roundings. -/
theorem near_windowMean (past : List (TickInput × World)) (hpos : 1 ≤ length) (u : Username) :
    Rounding.Near (length.toNat + 1) (meanOf past .cpuParam length u)
      (windowMean length (samplesOf past u)).cpu := by
  have hlength : (0 : ℚ) ≤ length := by exact_mod_cast (by omega : 0 ≤ length)
  have hfigures : (figuresOf past .cpuParam u).take length.toNat =
      ((samplesOf past u).take length.toNat).map Stats.cpu := by
    rw [figuresOf, List.map_take]
    rfl
  have hnonneg : ∀ st ∈ (samplesOf past u).take length.toNat, 0 ≤ st.cpu := fun st hst =>
    (samplesOf_nonneg past u st (List.mem_of_mem_take hst)).1
  have hsum := Rounding.Near.foldl (fun st _ => Rounding.near_self st.cpu) hnonneg
    (Rounding.near_self (0 : Stats).cpu) (le_refl 0)
  rw [← cpu_foldl _ (0 : Stats), ← hfigures, Stats.cpu_zero, zero_add, zero_add] at hsum
  have hsum_nonneg : 0 ≤ ((figuresOf past .cpuParam u).take length.toNat).sum := by
    rw [hfigures]
    refine List.sum_nonneg fun x hx => ?_
    obtain ⟨st, hst, rfl⟩ := List.mem_map.mp hx
    exact hnonneg st hst
  have hle : ((samplesOf past u).take length.toNat).length ≤ length.toNat := by
    rw [List.length_take]
    exact min_le_left _ _
  exact ((hsum.mono hsum_nonneg hle).div hlength).fl (div_nonneg hsum_nonneg hlength)

theorem windowMean_one (samples : List Stats) (h : ∀ st ∈ samples, st.Rounded) :
    windowMean 1 samples = samples.headD 0 := by
  cases samples with
  | nil => ext <;> simp [windowMean, totalStats, Stats.divide]
  | cons st samples =>
      have hst : Rounding.fl st.cpu = st.cpu := h st (by simp)
      ext <;> simp [windowMean, totalStats, Stats.divide, sumStats, hst]

theorem samplesOf_rounded (past : List (TickInput × World)) (u : Username) :
    ∀ st ∈ samplesOf past u, st.Rounded := by
  intro st hst
  obtain ⟨tick, -, rfl⟩ := List.mem_map.mp hst
  rw [tickSample]
  split
  · exact clacStatsDifferenceInnerFromCounter_rounded _ _ _ _ _
  · exact rounded_zero

theorem windowUsage_at (hperiod : period ∈ checkedPeriods) (cfg : GovernorConfig)
    (past : List (TickInput × World)) (u : Username) :
    (windowUsage cfg (samplesOf past u)).at period =
      windowMean (periodLength cfg period) (samplesOf past u) := by
  cases period with
  | noPeriod => simp [checkedPeriods] at hperiod
  | currentPeriod => exact (windowMean_one _ (samplesOf_rounded past u)).symm
  | shortPeriod => rfl
  | midPeriod => rfl
  | longPeriod => rfl

theorem Usage.at_foldl (hperiod : period ∈ checkedPeriods) (usages : List Usage) (usage : Usage) :
    (usages.foldl Usage.add usage).at period =
      (usages.map (Usage.at · period)).foldl sumStats (usage.at period) := by
  induction usages generalizing usage with
  | nil => rfl
  | cons b usages ih =>
      rw [List.foldl_cons, ih, List.map_cons, List.foldl_cons]
      cases period with
      | noPeriod => simp [checkedPeriods] at hperiod
      | currentPeriod => rfl
      | shortPeriod => rfl
      | midPeriod => rfl
      | longPeriod => rfl

theorem windowsOf_nil_at (cfg : GovernorConfig) (past : List (TickInput × World))
    (period : GovernorsPeriodName) : (windowsOf cfg past []).at period = 0 := by
  cases period <;> rfl

/-- The first mean is copied and the others are added to it. -/
theorem windowsOf_cons_at (hperiod : period ∈ checkedPeriods) (cfg : GovernorConfig)
    (past : List (TickInput × World)) (u : Username) (users : List Username) :
    (windowsOf cfg past (u :: users)).at period =
      (users.map fun v => windowMean (periodLength cfg period) (samplesOf past v)).foldl sumStats
        (windowMean (periodLength cfg period) (samplesOf past u)) := by
  rw [windowsOf, List.map_cons, Usage.total, Usage.at_foldl hperiod, List.map_map,
    windowUsage_at hperiod]
  congr 2
  funext v
  exact windowUsage_at hperiod cfg past v

/-- A CPU figure of an account, up to its roundings. -/
theorem near_windowsOf (hperiod : period ∈ checkedPeriods) (hpos : 1 ≤ periodLength cfg period)
    (past : List (TickInput × World)) (users : List Username) :
    Rounding.Near (roundings cfg period users .cpuParam)
      (loadMean past users .cpuParam (periodLength cfg period))
      ((windowsOf cfg past users).at period).cpu := by
  have hnonneg := loadMean_nonneg past users .cpuParam hpos
  cases users with
  | nil =>
      rw [windowsOf_nil_at]
      exact (Rounding.near_self 0).mono (le_refl 0) (Nat.zero_le _)
  | cons u users =>
      have hmean := meanOf_nonneg past .cpuParam hpos
      have hsum := Rounding.Near.foldl (l := users) (fun v _ => near_windowMean past hpos v)
        (fun v _ => hmean v) (near_windowMean past hpos u) (hmean u)
      rw [windowsOf_cons_at hperiod, cpu_foldl, List.foldl_map]
      exact hsum.mono hnonneg (by simp [roundings])

/-- A figure of reads or writes of an account is the sum of the means of its users. -/
theorem figure_windowsOf (hperiod : period ∈ checkedPeriods) (hfield : field ≠ .cpuParam)
    (cfg : GovernorConfig) (past : List (TickInput × World)) (users : List Username) :
    ((windowsOf cfg past users).at period).figure field =
      (users.map fun u =>
        (windowMean (periodLength cfg period) (samplesOf past u)).figure field).sum := by
  cases users with
  | nil =>
      rw [windowsOf_nil_at]
      cases field <;> simp [Stats.figure]
  | cons u users =>
      rw [windowsOf_cons_at hperiod, figure_foldl hfield, List.map_map, List.map_cons, List.sum_cons]
      rfl

theorem figure_totalStats (hfield : field ≠ .cpuParam) (past : List (TickInput × World))
    (length : ℤ) (u : Username) :
    (totalStats ((samplesOf past u).take length.toNat)).figure field / length =
      meanOf past field length u := by
  have hzero : (0 : Stats).figure field = 0 := by cases field <;> simp [Stats.figure]
  rw [totalStats, figure_foldl hfield, hzero, zero_add, meanOf, figuresOf, List.map_take]

theorem totalStats_nonneg (past : List (TickInput × World)) (n : ℕ) (u : Username) :
    0 ≤ totalStats ((samplesOf past u).take n) :=
  List.foldlRecOn _ _ (le_refl 0) fun _ hb st hst =>
    sumStats_nonneg hb (samplesOf_nonneg past u st (List.mem_of_mem_take hst))

/-- The figures of an account are at most the means of its loads, up to roundings. -/
theorem figure_windowsOf_le (hperiod : period ∈ checkedPeriods) (hpos : 1 ≤ periodLength cfg period)
    (past : List (TickInput × World)) (users : List Username) (field : GovernorsFieldName) :
    ((windowsOf cfg past users).at period).figure field ≤
      (1 + Rounding.unit) ^ roundings cfg period users field *
        loadMean past users field (periodLength cfg period) := by
  by_cases hfield : field = .cpuParam
  · subst hfield
    exact (near_windowsOf hperiod hpos past users).high
  · rw [figure_windowsOf hperiod hfield, roundings, if_neg hfield, pow_zero, one_mul, loadMean]
    refine List.sum_le_sum fun u _ => ?_
    rw [← figure_totalStats hfield]
    exact figure_divide_le hfield (totalStats_nonneg past _ u) hpos

/-- The figures fall short of the means of the loads by less than one for each user, besides
roundings. -/
theorem loadMean_le (hperiod : period ∈ checkedPeriods) (hpos : 1 ≤ periodLength cfg period)
    (past : List (TickInput × World)) (users : List Username) (field : GovernorsFieldName) :
    (1 - Rounding.unit) ^ roundings cfg period users field *
        loadMean past users field (periodLength cfg period) ≤
      ((windowsOf cfg past users).at period).figure field + truncation field * users.length := by
  by_cases hfield : field = .cpuParam
  · subst hfield
    rw [truncation, zero_mul, add_zero]
    exact (near_windowsOf hperiod hpos past users).low
  · have hconst : (users.map fun _ => truncation field).sum = truncation field * users.length := by
      rw [List.map_const', List.sum_replicate, nsmul_eq_mul, mul_comm]
    rw [figure_windowsOf hperiod hfield, roundings, if_neg hfield, pow_zero, one_mul, loadMean,
      ← hconst, ← List.sum_map_add]
    refine List.sum_le_sum fun u _ => ?_
    rw [← figure_totalStats hfield]
    exact figure_le_divide_add hfield (totalStats_nonneg past _ u) hpos

theorem loadMean_eq (past : List (TickInput × World)) (users : List Username)
    (field : GovernorsFieldName) (length : ℤ) :
    loadMean past users field length =
      (users.map fun u => ((figuresOf past field u).take length.toNat).sum).sum / length := by
  rw [loadMean]
  induction users with
  | nil => simp
  | cons u users ih =>
      rw [List.map_cons, List.sum_cons, ih, List.map_cons, List.sum_cons, add_div]
      rfl

theorem loadMean_le_of_forall (hpos : 1 ≤ length) {bound : ℚ}
    (h : ∀ i : ℕ, i < length → loadAt past users field i ≤ bound) :
    loadMean past users field length ≤ bound := by
  have hlength : (0 : ℚ) < length := by exact_mod_cast hpos
  have hsum := Windows.sum_windows_le (n := length.toNat) fun i hi => h i (by omega)
  have hcast : (length.toNat : ℚ) = length := by
    exact_mod_cast Int.toNat_of_nonneg (show 0 ≤ length by omega)
  rwa [loadMean_eq, div_le_iff₀ hlength, mul_comm, ← hcast, ← nsmul_eq_mul]

theorem lt_loadMean_of_forall (hpos : 1 ≤ length) {bound : ℚ}
    (h : ∀ i : ℕ, i < length → bound < loadAt past users field i) :
    bound < loadMean past users field length := by
  have hlength : (0 : ℚ) < length := by exact_mod_cast hpos
  have hne : length.toNat ≠ 0 := by omega
  have hsum := Windows.lt_sum_windows hne fun i hi => h i (by omega)
  have hcast : (length.toNat : ℚ) = length := by
    exact_mod_cast Int.toNat_of_nonneg (show 0 ≤ length by omega)
  rwa [loadMean_eq, lt_div_iff₀ hlength, mul_comm, ← hcast, ← nsmul_eq_mul]

end Loads

/-! ### Decisions -/

/-- In no window was a load above the limit of the window, less what roundings may give. -/
def KeptWithin (cfg : GovernorConfig) (sl : StatsCfg) (past : List (TickInput × World))
    (users : List Username) : Prop :=
  ∀ period ∈ checkedPeriods, ∀ field ∈ checkedFields, 0 ≤ sl.limitAt period field →
    ∀ i : ℕ, i < periodLength cfg period →
      (1 + Rounding.unit) ^ roundings cfg period users field * loadAt past users field i ≤
        sl.bound period field

/-- In a whole window each load was above the limit, by more than truncations and roundings may
take. -/
def StayedAbove (cfg : GovernorConfig) (sl : StatsCfg) (past : List (TickInput × World))
    (users : List Username) (period : GovernorsPeriodName) (field : GovernorsFieldName) : Prop :=
  0 ≤ sl.limitAt period field ∧ ∀ i : ℕ, i < periodLength cfg period →
    sl.bound period field + truncation field * users.length <
      (1 - Rounding.unit) ^ roundings cfg period users field * loadAt past users field i

/-- What a tick does to an account whose loads were steady. -/
structure SteadyDecision (cfg : GovernorConfig) (now : ℤ) (past : List (TickInput × World))
    (old ac : Account) (cmds : List Command) : Prop where
  within : KeptWithin cfg (configGetAccountLimit cfg old.id) past ac.users →
    (∀ u ∈ ac.users, ⟨u, .freeze⟩ ∉ cmds) ∧
      (ac.timeout = 0 ∨ ac.timeout = old.timeout ∧ ac.startCount = old.startCount)
  above : Watched cfg old → Due cfg now old → ∀ period ∈ checkedPeriods, ∀ field ∈ checkedFields,
    StayedAbove cfg (configGetAccountLimit cfg old.id) past ac.users period field →
      ac.startCount = now ∧ ac.info.fieldRestrict ≠ .noPeriod ∧
        (old.restricted = 0 → ∀ u ∈ ac.users, ⟨u, .freeze⟩ ∈ cmds)

section Decisions

variable {past : List (TickInput × World)} {w : World} {cfg : GovernorConfig} {sl : StatsCfg}
  {ac : Account}

theorem periodLength_pos (hpos : ∀ n ∈ averagedLengths cfg, 1 ≤ n) (period : GovernorsPeriodName) :
    1 ≤ periodLength cfg period := by
  cases period with
  | noPeriod => exact le_refl 1
  | currentPeriod => exact le_refl 1
  | shortPeriod => exact hpos _ (by simp [periodLength, averagedLengths])
  | midPeriod => exact hpos _ (by simp [periodLength, averagedLengths])
  | longPeriod => exact hpos _ (by simp [periodLength, averagedLengths])

theorem KeptWithin.firstOverLimit_eq_none (hpos : ∀ n ∈ averagedLengths cfg, 1 ≤ n)
    (hfigures : ac.usage = windowsOf cfg past ac.users) (h : KeptWithin cfg sl past ac.users) :
    firstOverLimit sl ac = none := by
  rw [← Option.not_isSome_iff_eq_none, firstOverLimit_isSome]
  rintro ⟨period, hperiod, field, hfield, hover⟩
  obtain ⟨hlt, hlimit⟩ := (overLimitAt_iff hperiod hfield ac).mp hover
  have hlength := periodLength_pos hpos period
  have hfactor : (0 : ℚ) < (1 + Rounding.unit) ^ roundings cfg period ac.users field :=
    pow_pos (add_pos_of_pos_of_nonneg one_pos Rounding.unit_nonneg) _
  have hmean := loadMean_le_of_forall hlength fun i hi =>
    (le_div_iff₀' hfactor).mpr (h period hperiod field hfield hlimit i hi)
  rw [hfigures] at hlt
  have hle := figure_windowsOf_le hperiod hlength past ac.users field
  exact absurd (hle.trans ((le_div_iff₀' hfactor).mp hmean)) (not_le.mpr hlt)

theorem StayedAbove.firstOverLimit_isSome (hpos : ∀ n ∈ averagedLengths cfg, 1 ≤ n)
    (hfigures : ac.usage = windowsOf cfg past ac.users) {period : GovernorsPeriodName}
    {field : GovernorsFieldName} (hperiod : period ∈ checkedPeriods) (hfield : field ∈ checkedFields)
    (h : StayedAbove cfg sl past ac.users period field) : (firstOverLimit sl ac).isSome := by
  rw [DbGovernor.firstOverLimit_isSome]
  refine ⟨period, hperiod, field, hfield, (overLimitAt_iff hperiod hfield ac).mpr ⟨?_, h.1⟩⟩
  have hlength := periodLength_pos hpos period
  have hfactor : (0 : ℚ) < (1 - Rounding.unit) ^ roundings cfg period ac.users field :=
    pow_pos Rounding.one_sub_unit_pos _
  have hmean := lt_loadMean_of_forall hlength fun i hi => (div_lt_iff₀' hfactor).mpr (h.2 i hi)
  have hle := loadMean_le hperiod hlength past ac.users field
  rw [hfigures]
  exact lt_of_add_lt_add_right (((div_lt_iff₀' hfactor).mp hmean).trans_le hle)

/-- One tick decides about an account whose loads were steady. -/
theorem CoveredHistory.steadyDecision (h : CoveredHistory past w) (he : w.cfg.Enforcing)
    (hpos : ∀ n ∈ averagedLengths w.cfg, 1 ≤ n) (t : TickInput) {a : Username} {ac : Account}
    (hac : (proceedAccounts t w).accounts.lookup a = some ac) :
    ∃ cmds, (proceedAccounts t w).globals.enqueued = w.globals.enqueued ++ cmds ∧
      SteadyDecision w.cfg t.now ((t, w) :: past) (w.accountOrNew a) ac cmds := by
  obtain ⟨cmds, hcmds, hd⟩ := h.decided he hpos t hac
  refine ⟨cmds, hcmds, ?_, ?_⟩
  · intro hwithin
    have hnone := hwithin.firstOverLimit_eq_none hpos hd.figures
    refine ⟨fun u hu hmem => ?_, hd.spares ?_⟩
    · obtain ⟨-, -, hsome, -⟩ := (hd.freezes u hu).mp hmem
      simp [hnone] at hsome
    · simp [hnone]
  · intro hw hdue period hperiod field hfield habove
    have hsome := habove.firstOverLimit_isSome hpos hd.figures hperiod hfield
    obtain ⟨⟨first, field'⟩, hpair⟩ := Option.isSome_iff_exists.mp hsome
    obtain ⟨hinfo, hstart⟩ := hd.restricts hw hdue _ hpair
    refine ⟨hstart, ?_, fun hlevel u hu => (hd.freezes u hu).mpr ⟨hw, hdue, hsome, hlevel⟩⟩
    have hchecked := (List.pair_mem_product.mp (List.mem_of_find?_eq_some hpair)).1
    rw [hinfo]
    rintro rfl
    simp [checkedPeriods] at hchecked

/-- In every run in which no reread lengthens the longest interval, loads within the limits
restrict nobody, and a load that stays above a limit for its whole window restricts. -/
theorem steady_loads_decided (h : CoveredHistory past w) {i : ℕ} {t : TickInput} {v : World}
    (hi : past[i]? = some (t, v)) (he : v.cfg.Enforcing) (hpos : ∀ n ∈ averagedLengths v.cfg, 1 ≤ n)
    {a : Username} {ac : Account} (hac : (proceedAccounts t v).accounts.lookup a = some ac) :
    ∃ cmds, (proceedAccounts t v).globals.enqueued = v.globals.enqueued ++ cmds ∧
      SteadyDecision v.cfg t.now (past.drop i) (v.accountOrNew a) ac cmds := by
  obtain ⟨hv, hpast⟩ := h.drop hi
  rw [hpast]
  exact hv.steadyDecision he hpos t hac

end Decisions

/-- The burst is frozen by the tick that samples it. -/
theorem steady_loads_decided_burst :
    ∃ cmds, (proceedAccounts plainTick burstWorld).globals.enqueued =
      burstWorld.globals.enqueued ++ cmds ∧ ⟨sampleUser, .freeze⟩ ∈ cmds := by
  obtain ⟨ac, hac⟩ := Option.isSome_iff_exists.mp burstWorld_decides
  obtain ⟨cmds, hcmds, hdecided⟩ := steady_loads_decided (i := 0) burstPast_covered rfl
    (shippedConfig_enforcing true) burstWorld_lengths hac
  have husers : ((proceedAccounts plainTick burstWorld).accounts.lookup sampleUser).map
      Account.users = some [sampleUser] := by
    decide +kernel
  rw [hac] at husers
  have husers := Option.some.inj husers
  have habove : StayedAbove burstWorld.cfg (configGetAccountLimit burstWorld.cfg
      (burstWorld.accountOrNew sampleUser).id) burstPast ac.users .currentPeriod .cpuParam := by
    rw [husers]
    refine ⟨by decide +kernel, fun i hi => ?_⟩
    obtain rfl : i = 0 := by
      have hone : (i : ℤ) < 1 := hi
      omega
    decide +kernel
  obtain ⟨-, -, hfreeze⟩ := hdecided.above (by decide +kernel) (.inl (by decide +kernel))
    .currentPeriod (by simp [checkedPeriods]) .cpuParam (by simp [checkedFields]) habove
  exact ⟨cmds, hcmds, hfreeze (by decide +kernel) sampleUser (by simp [husers])⟩

end DbGovernor
