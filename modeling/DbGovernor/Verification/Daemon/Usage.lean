import DbGovernor.Verification.FifoStats.Samples
import DbGovernor.Verification.Restrict.Decision

/-!
# Usage of users and accounts

The usage of an account is the sum over its users in the order of its array, and a larger usage
is over every limit that a smaller one is over. After a tick without traffic the usage of a user
is what its ring leaves over.
-/

namespace DbGovernor

/-! ### Usage as an ordered monoid -/

instance : Add Usage :=
  ⟨fun a b => ⟨a.current + b.current, a.longAverage + b.longAverage,
    a.midAverage + b.midAverage, a.shortAverage + b.shortAverage⟩⟩

instance : Zero Usage := ⟨Usage.zero⟩

@[simp] theorem Usage.current_add (a b : Usage) : (a + b).current = a.current + b.current := rfl
@[simp] theorem Usage.longAverage_add (a b : Usage) :
    (a + b).longAverage = a.longAverage + b.longAverage := rfl
@[simp] theorem Usage.midAverage_add (a b : Usage) :
    (a + b).midAverage = a.midAverage + b.midAverage := rfl
@[simp] theorem Usage.shortAverage_add (a b : Usage) :
    (a + b).shortAverage = a.shortAverage + b.shortAverage := rfl
@[simp] theorem Usage.current_zero : (0 : Usage).current = 0 := rfl
@[simp] theorem Usage.longAverage_zero : (0 : Usage).longAverage = 0 := rfl
@[simp] theorem Usage.midAverage_zero : (0 : Usage).midAverage = 0 := rfl
@[simp] theorem Usage.shortAverage_zero : (0 : Usage).shortAverage = 0 := rfl

instance : AddCommMonoid Usage where
  add_assoc a b c := by ext1 <;> simp [add_assoc]
  zero_add a := by ext1 <;> simp
  add_zero a := by ext1 <;> simp
  add_comm a b := by ext1 <;> simp [add_comm]
  nsmul := nsmulRec

/-- At most as much in the sample and in the three averages. -/
structure Usage.Le (a b : Usage) : Prop where
  current : a.current ≤ b.current
  longAverage : a.longAverage ≤ b.longAverage
  midAverage : a.midAverage ≤ b.midAverage
  shortAverage : a.shortAverage ≤ b.shortAverage

instance : PartialOrder Usage where
  le := Usage.Le
  le_refl a := ⟨le_refl _, le_refl _, le_refl _, le_refl _⟩
  le_trans a b c h h' := ⟨h.current.trans h'.current, h.longAverage.trans h'.longAverage,
    h.midAverage.trans h'.midAverage, h.shortAverage.trans h'.shortAverage⟩
  le_antisymm a b h h' := by
    ext1
    · exact le_antisymm h.current h'.current
    · exact le_antisymm h.longAverage h'.longAverage
    · exact le_antisymm h.midAverage h'.midAverage
    · exact le_antisymm h.shortAverage h'.shortAverage

/-! ### Sums that round -/

section Sums

variable [Rounding] {a b : Usage} {l l' : List Usage}

/-- Figures that rounding leaves alone. -/
structure Usage.Rounded (u : Usage) : Prop where
  current : u.current.Rounded
  longAverage : u.longAverage.Rounded
  midAverage : u.midAverage.Rounded
  shortAverage : u.shortAverage.Rounded

theorem Usage.rounded_zero : (0 : Usage).Rounded :=
  ⟨DbGovernor.rounded_zero, DbGovernor.rounded_zero, DbGovernor.rounded_zero,
    DbGovernor.rounded_zero⟩

theorem Usage.rounded_add (a b : Usage) : (a.add b).Rounded :=
  ⟨rounded_sumStats _ _, rounded_sumStats _ _, rounded_sumStats _ _, rounded_sumStats _ _⟩

theorem Usage.add_zero_eq (h : a.Rounded) : a.add 0 = a := by
  ext1
  · exact sumStats_zero h.current
  · exact sumStats_zero h.longAverage
  · exact sumStats_zero h.midAverage
  · exact sumStats_zero h.shortAverage

theorem Usage.add_mono {a' b' : Usage} (ha : a ≤ a') (hb : b ≤ b') : a.add b ≤ a'.add b' :=
  ⟨sumStats_mono ha.current hb.current, sumStats_mono ha.longAverage hb.longAverage,
    sumStats_mono ha.midAverage hb.midAverage, sumStats_mono ha.shortAverage hb.shortAverage⟩

/-- The sum of `calc_acc_stats`: the first usage is copied and the others are added. -/
def Usage.total : List Usage → Usage
  | [] => 0
  | u :: us => us.foldl Usage.add u

theorem Usage.total_append (hne : l ≠ []) (u : Usage) :
    Usage.total (l ++ [u]) = (Usage.total l).add u := by
  cases l with
  | nil => contradiction
  | cons v l => simp [Usage.total]

theorem Usage.rounded_total (h : ∀ u ∈ l, u.Rounded) : (Usage.total l).Rounded := by
  induction l using List.reverseRecOn with
  | nil => exact Usage.rounded_zero
  | append_singleton l u _ =>
      cases l with
      | nil => exact h u (by simp)
      | cons v l =>
          rw [Usage.total_append (by simp)]
          exact Usage.rounded_add _ _

theorem Usage.foldl_add_mono (h : List.Forall₂ (· ≤ ·) l l') (hab : a ≤ b) :
    l.foldl Usage.add a ≤ l'.foldl Usage.add b := by
  induction h generalizing a b with
  | nil => exact hab
  | cons hle _ ih => exact ih (Usage.add_mono hab hle)

theorem Usage.total_mono (h : List.Forall₂ (· ≤ ·) l l') : Usage.total l ≤ Usage.total l' := by
  cases h with
  | nil => exact le_refl _
  | cons hle hrest => exact Usage.foldl_add_mono hrest hle

/-- Users that bring no usage change nothing at the end of the sum. -/
theorem Usage.total_append_zeros (hne : l ≠ []) (hl : ∀ u ∈ l, u.Rounded) {zeros : List Usage}
    (hz : ∀ u ∈ zeros, u = 0) : Usage.total (l ++ zeros) = Usage.total l := by
  induction zeros using List.reverseRecOn with
  | nil => rw [List.append_nil]
  | append_singleton zeros u ih =>
      have hzero : ∀ v ∈ zeros, v = 0 := fun v hv => hz v (List.mem_append_left _ hv)
      have hu : u = 0 := hz u (by simp)
      rw [← List.append_assoc, Usage.total_append (by simp [hne]), ih hzero, hu,
        Usage.add_zero_eq (Usage.rounded_total hl)]

end Sums

/-- Without rounding `calc_acc_stats` forms an exact sum. -/
theorem Usage.total_exact (l : List Usage) : @Usage.total .exact l = l.sum := by
  cases l with
  | nil => rfl
  | cons u l =>
      have hsum : (u :: l).sum = l.foldl (· + ·) (0 + u) := List.sum_eq_foldl
      rw [hsum, zero_add]
      rfl

/-! ### Limits -/

section Limits

variable [Rounding]

theorem isStatOverlimit_ne_iff (x : TLong → ℤ) (st : Stats) (sl : StatsCfg) :
    isStatOverlimit x st sl ≠ .norestrictParam2 ↔
      (st.cpu > percentage (x sl.cpu) ∧ x sl.cpu ≥ 0) ∨
      (st.read > x sl.read ∧ x sl.read ≥ 0) ∨ (st.write > x sl.write ∧ x sl.write ≥ 0) := by
  rw [isStatOverlimit]
  split_ifs <;> simp [*]

theorem isStatOverlimit_mono (x : TLong → ℤ) {st st' : Stats} (h : st ≤ st') (sl : StatsCfg)
    (hover : isStatOverlimit x st sl ≠ .norestrictParam2) :
    isStatOverlimit x st' sl ≠ .norestrictParam2 := by
  rw [isStatOverlimit_ne_iff] at hover ⊢
  rcases hover with ⟨hcpu, h0⟩ | ⟨hread, h0⟩ | ⟨hwrite, h0⟩
  · exact .inl ⟨lt_of_lt_of_le hcpu h.1, h0⟩
  · exact .inr (.inl ⟨lt_of_lt_of_le hread h.2.2, h0⟩)
  · exact .inr (.inr ⟨lt_of_lt_of_le hwrite h.2.1, h0⟩)

theorem exceeds_mono {cfg : GovernorConfig} {ac : Account} {u u' : Usage} (h : u ≤ u')
    (hover : Exceeds cfg (ac.withUsage u)) : Exceeds cfg (ac.withUsage u') := by
  rcases hover with hc | hs | hm | hl
  · exact .inl (isStatOverlimit_mono _ h.current _ hc)
  · exact .inr (.inl (isStatOverlimit_mono _ h.shortAverage _ hs))
  · exact .inr (.inr (.inl (isStatOverlimit_mono _ h.midAverage _ hm)))
  · exact .inr (.inr (.inr (isStatOverlimit_mono _ h.longAverage _ hl)))

end Limits

/-! ### The sum over an account -/

theorem calcAccStats_eq_total [Rounding] (users : HashTable UserStats) {ac : Account}
    (h : ac.users ≠ []) :
    calcAccStats users ac = ac.withUsage (Usage.total (ac.users.map (userUsage users))) := by
  rw [calcAccStats]
  split
  · contradiction
  · rename_i id ids hids
    rw [hids, List.map_cons, Usage.total, List.foldl_map]

/-! ### What a ring leaves over -/

section Next

variable [Rounding]

/-- The usage of a user after one more sample of zero. -/
def UserStats.next (cfg : GovernorConfig) (us : UserStats) : Usage where
  current := 0
  longAverage := us.stats.residual (intOfUnsigned cfg.intervalLong)
  midAverage := us.stats.residual (intOfUnsigned cfg.intervalMid)
  shortAverage := us.stats.residual (intOfUnsigned cfg.intervalShort)

/-- The same for a name, registered or not. -/
def nextUsage (cfg : GovernorConfig) (users : HashTable UserStats) (u : Username) : Usage :=
  match users.lookup u with
  | some us => us.next cfg
  | none => 0

variable {us : UserStats}

theorem UserStats.rounded_next (cfg : GovernorConfig) (us : UserStats) : (us.next cfg).Rounded :=
  ⟨rounded_zero, Stats.rounded_divide _ _, Stats.rounded_divide _ _, Stats.rounded_divide _ _⟩

theorem rounded_nextUsage (cfg : GovernorConfig) (users : HashTable UserStats) (u : Username) :
    (nextUsage cfg users u).Rounded := by
  rw [nextUsage]
  split
  · exact UserStats.rounded_next cfg _
  · exact Usage.rounded_zero

theorem usage_pushStats_zero (cfg : GovernorConfig) (tick : ℕ) (h : us.stats.WellFormed) :
    (pushStats cfg resetStats { us with tick := tick }).usage = us.next cfg := by
  ext1
  · exact fifoStatsGet_push_zero h
  · exact fifoStatsAvg_push_zero h _
  · exact fifoStatsAvg_push_zero h _
  · exact fifoStatsAvg_push_zero h _

theorem next_pushStats_zero_le (cfg : GovernorConfig) (tick : ℕ) (h : us.stats.WellFormed)
    (hn : us.stats.Nonneg) :
    (pushStats cfg resetStats { us with tick := tick }).next cfg ≤ us.next cfg :=
  ⟨le_refl _, residual_push_zero_le h hn _, residual_push_zero_le h hn _,
    residual_push_zero_le h hn _⟩

theorem next_initUserStats (cfg cfg' : GovernorConfig) (u a : Username) :
    (initUserStats cfg u a).next cfg' = 0 := by
  ext1
  · rfl
  · exact residual_fifoStatsInit _ _
  · exact residual_fifoStatsInit _ _
  · exact residual_fifoStatsInit _ _

end Next

end DbGovernor
