import DbGovernor.Model.Semaphore
import DbGovernor.Verification.Shared.Runs

/-!
# Mutual exclusion at the shared list

A party that owes a `sem_post` either holds the semaphore or left its loop without it. Each
step acquires, pays such a debt or takes one on without acquiring; the last kind is what
breaks the exclusion.
-/

namespace DbGovernor

variable {τ : Type*} [DecidableEq τ]

/-- The value never exceeds 1, and at most one party is inside. -/
structure Exclusive (s : SemState τ) : Prop where
  value_le : s.value ≤ 1
  unique : ∀ t t', s.pc t = .inside → s.pc t' = .inside → t = t'

/-- The try after which a client posts without the semaphore: one that fails with an error other
than EAGAIN, and one that finds it taken for the 99th time in a row
(`user_in_bad_list_cleint_show`) or since the third reopening (the others). -/
def SemPc.LastTry (value : ℕ) (err : Bool) : SemPc → Prop
  | .trying kind trys semReopen =>
      err = true ∨ value = 0 ∧ trys = 99 ∧ (kind = .lookup → semReopen = 3)
  | _ => False

instance (value : ℕ) (err : Bool) : ∀ pc, Decidable (SemPc.LastTry value err pc)
  | .trying _ _ _ => inferInstanceAs (Decidable (_ ∨ _))
  | .outside | .waiting | .inside | .reposting | .leaving => inferInstanceAs (Decidable False)

/-- The step is such a try. -/
def LosesPatience (s : SemState τ) : SemStep τ → Prop
  | .tryWait t err => (s.pc t).LastTry s.value err
  | _ => False

instance (s : SemState τ) : ∀ i, Decidable (LosesPatience s i)
  | .tryWait _ _ => inferInstanceAs (Decidable (SemPc.LastTry _ _ _))
  | .start _ _ | .wait _ | .post _ => inferInstanceAs (Decidable False)

/-- The next step of the party is a `sem_post`. -/
def SemPc.Owes : SemPc → Prop
  | .inside | .reposting | .leaving => True
  | .outside | .trying _ _ _ | .waiting => False

/-! ### One step -/

/-- What a step does when no party loses its patience in it. -/
inductive SemEffect (s : SemState τ) : SemState τ → Prop where
  | stay : SemEffect s s
  | move (t : τ) (pc : SemPc) (before : ¬ (s.pc t).Owes) (after : ¬ pc.Owes) :
      SemEffect s ⟨s.value, Function.update s.pc t pc⟩
  | acquire (t : τ) (before : ¬ (s.pc t).Owes) (pos : 0 < s.value) :
      SemEffect s ⟨s.value - 1, Function.update s.pc t .inside⟩
  | post (t : τ) (pc : SemPc) (before : (s.pc t).Owes) (after : ¬ pc.Owes) :
      SemEffect s ⟨s.value + 1, Function.update s.pc t pc⟩

theorem owes_afterTryWait_again (kind : CleintKind) (trys semReopen : ℕ) :
    (afterTryWait kind trys semReopen .again).Owes ↔
      trys = 99 ∧ (kind = .lookup → semReopen = 3) := by
  simp only [afterTryWait]
  by_cases htrys : trys + 1 = 100
  · have h99 : trys = 99 := by omega
    rw [if_pos htrys]
    cases kind with
    | lookup =>
        by_cases hopen : semReopen + 1 = 4
        · rw [if_pos hopen]
          simp only [SemPc.Owes, true_iff]
          exact ⟨h99, fun _ => by omega⟩
        · rw [if_neg hopen]
          simp only [SemPc.Owes, false_iff]
          rintro ⟨-, h3⟩
          have := h3 trivial
          omega
    | listing => simp [SemPc.Owes, h99]
  · rw [if_neg htrys]
    simp only [SemPc.Owes, false_iff]
    omega

theorem afterTryWait_again_ne_inside (kind : CleintKind) (trys semReopen : ℕ) :
    afterTryWait kind trys semReopen .again ≠ .inside := by
  cases kind <;> simp only [afterTryWait] <;> split_ifs <;> simp

theorem semEffect_of_patient (s : SemState τ) (i : SemStep τ) (h : ¬ LosesPatience s i) :
    SemEffect s (i.apply s) := by
  cases i with
  | start t role =>
      rw [SemStep.apply]
      split
      · rename_i hpc
        refine .move t _ (by simp [hpc, SemPc.Owes]) ?_
        cases role <;> simp [SemRole.enter, SemPc.Owes]
      · exact .stay
  | tryWait t err =>
      rw [SemStep.apply]
      split
      · rename_i kind trys semReopen hpc
        have hbefore : ¬ (s.pc t).Owes := by simp [hpc, SemPc.Owes]
        rw [LosesPatience, hpc, SemPc.LastTry, not_or, Bool.not_eq_true] at h
        obtain ⟨rfl, hlast⟩ := h
        by_cases hv : 0 < s.value
        · have hanswer : semTrywait s.value false = .acquired := by simp [semTrywait, hv]
          simp only [hanswer, if_true]
          exact .acquire t hbefore hv
        · have hzero : s.value = 0 := by omega
          have hanswer : semTrywait s.value false = .again := by simp [semTrywait, hv]
          simp only [hanswer, reduceCtorEq, if_false]
          refine .move t _ hbefore ?_
          rw [owes_afterTryWait_again]
          intro hagain
          exact hlast ⟨hzero, hagain⟩
      · exact .stay
  | wait t =>
      rw [SemStep.apply]
      split
      · rename_i hpc
        split
        · exact .acquire t (by simp [hpc, SemPc.Owes]) ‹_›
        · exact .stay
      · exact .stay
  | post t =>
      rw [SemStep.apply]
      split
      · rename_i hpc
        exact .post t _ (by simp [hpc, SemPc.Owes]) (by simp [SemPc.Owes])
      · rename_i hpc
        exact .post t _ (by simp [hpc, SemPc.Owes]) (by simp [SemPc.Owes])
      · rename_i hpc
        exact .post t _ (by simp [hpc, SemPc.Owes]) (by simp [SemPc.Owes])
      · exact .stay

/-- A party that loses its patience owes a post that no acquisition stands behind. -/
theorem apply_of_losesPatience (s : SemState τ) (i : SemStep τ) (h : LosesPatience s i) :
    ∃ t pc, ¬ (s.pc t).Owes ∧ pc.Owes ∧ pc ≠ .inside ∧
      i.apply s = ⟨s.value, Function.update s.pc t pc⟩ := by
  cases i with
  | start t role => exact h.elim
  | wait t => exact h.elim
  | post t => exact h.elim
  | tryWait t err =>
      rw [LosesPatience] at h
      cases hpc : s.pc t with
      | outside => simp [hpc, SemPc.LastTry] at h
      | waiting => simp [hpc, SemPc.LastTry] at h
      | inside => simp [hpc, SemPc.LastTry] at h
      | reposting => simp [hpc, SemPc.LastTry] at h
      | leaving => simp [hpc, SemPc.LastTry] at h
      | trying kind trys semReopen =>
          rw [hpc, SemPc.LastTry] at h
          have hbefore : ¬ (s.pc t).Owes := by simp [hpc, SemPc.Owes]
          rw [SemStep.apply]
          simp only [hpc]
          cases err with
          | true =>
              refine ⟨t, .leaving, hbefore, trivial, by simp, ?_⟩
              simp [semTrywait, afterTryWait]
          | false =>
              obtain ⟨hzero, hlast⟩ : s.value = 0 ∧ _ := by simpa using h
              have hanswer : semTrywait s.value false = .again := by simp [semTrywait, hzero]
              simp only [hanswer, reduceCtorEq, if_false]
              refine ⟨t, afterTryWait kind trys semReopen .again, hbefore, ?_, ?_, rfl⟩
              · exact (owes_afterTryWait_again kind trys semReopen).mpr hlast
              · exact afterTryWait_again_ne_inside kind trys semReopen

/-! ### The exclusive runs -/

/-- The semaphore is free and no post is owed, or one party is inside and owes the only one. -/
inductive SemPhase (s : SemState τ) : Prop where
  | free (value : s.value = 1) (none : ∀ t, ¬ (s.pc t).Owes)
  | held (t : τ) (value : s.value = 0) (inside : s.pc t = .inside)
      (only : ∀ t', t' ≠ t → ¬ (s.pc t').Owes)

omit [DecidableEq τ] in
theorem SemPhase.exclusive {s : SemState τ} (h : SemPhase s) : Exclusive s := by
  cases h with
  | free value none =>
      refine ⟨value.le, ?_⟩
      intro t t' ht
      exact (none t (by simp [ht, SemPc.Owes])).elim
  | held holder value inside only =>
      have hholder : ∀ t, s.pc t = .inside → t = holder := by
        intro t ht
        by_contra hne
        exact only t hne (by simp [ht, SemPc.Owes])
      refine ⟨by omega, ?_⟩
      intro t t' ht ht'
      rw [hholder t ht, hholder t' ht']

theorem SemPhase.effect {s s' : SemState τ} (h : SemPhase s) (he : SemEffect s s') :
    SemPhase s' := by
  have hupdate : ∀ {t : τ} {pc : SemPc} (t' : τ), ¬ pc.Owes → ¬ (s.pc t').Owes →
      ¬ (Function.update s.pc t pc t').Owes := by
    intro t pc t' hpc ht'
    by_cases heq : t' = t
    · subst heq
      simpa using hpc
    · simpa [heq] using ht'
  cases h with
  | free value none =>
      cases he with
      | stay => exact .free value none
      | move t pc before after => exact .free value fun t' => hupdate t' after (none t')
      | acquire t before pos =>
          refine .held t (by simp [value]) (by simp) ?_
          intro t' hne
          simpa [hne] using none t'
      | post t pc before after => exact (none t before).elim
  | held holder value inside only =>
      cases he with
      | stay => exact .held holder value inside only
      | move t pc before after =>
          have hne : holder ≠ t := by
            rintro rfl
            exact before (by simp [inside, SemPc.Owes])
          refine .held holder value (by simpa [hne] using inside) ?_
          intro t' ht'
          exact hupdate t' after (only t' ht')
      | acquire t before pos => omega
      | post t pc before after =>
          have heq : t = holder := by
            by_contra hne
            exact only t hne before
          subst heq
          refine .free (by simp [value]) ?_
          intro t'
          by_cases ht' : t' = t
          · simpa [ht'] using after
          · simpa [ht'] using only t' ht'

/-! ### The others -/

/-- More posts are owed, or already made, than the semaphore can take. -/
inductive Overdrawn (s : SemState τ) : Prop where
  | value (two : 2 ≤ s.value)
  | one (value : s.value = 1) (t : τ) (owes : (s.pc t).Owes)
  | zero (t t' : τ) (ne : t ≠ t') (owes : (s.pc t).Owes) (owes' : (s.pc t').Owes)

/-- The debts survive a step of another party. -/
theorem owes_update {s : SemState τ} {t t' : τ} (pc : SemPc) (ht : (s.pc t).Owes)
    (hne : t ≠ t') : (Function.update s.pc t' pc t).Owes := by
  simpa [hne] using ht

theorem Overdrawn.effect {s s' : SemState τ} (h : Overdrawn s) (he : SemEffect s s') :
    Overdrawn s' := by
  have hne : ∀ {t t'}, (s.pc t).Owes → ¬ (s.pc t').Owes → t ≠ t' := by
    rintro t t' ht ht' rfl
    exact ht' ht
  cases he with
  | stay => exact h
  | move t pc before after =>
      cases h with
      | value two => exact .value two
      | one value a owes => exact .one value a (owes_update pc owes (hne owes before))
      | zero a b ne owes owes' =>
          exact .zero a b ne (owes_update pc owes (hne owes before))
            (owes_update pc owes' (hne owes' before))
  | acquire t before pos =>
      have hin : (Function.update s.pc t .inside t).Owes := by simp [SemPc.Owes]
      cases h with
      | value two =>
          by_cases hthree : 3 ≤ s.value
          · exact .value (by change 2 ≤ s.value - 1; omega)
          · exact .one (by change s.value - 1 = 1; omega) t hin
      | one value a owes =>
          exact .zero a t (hne owes before) (owes_update _ owes (hne owes before)) hin
      | zero a b ne owes owes' =>
          exact .zero a b ne (owes_update _ owes (hne owes before))
            (owes_update _ owes' (hne owes' before))
  | post t pc before after =>
      cases h with
      | value two => exact .value (by change 2 ≤ s.value + 1; omega)
      | one value a owes => exact .value (by change 2 ≤ s.value + 1; omega)
      | zero a b ne owes owes' =>
          by_cases hv : s.value = 0
          · by_cases hta : a = t
            · refine .one (by change s.value + 1 = 1; omega) b ?_
              exact owes_update pc owes' (hta ▸ ne.symm)
            · exact .one (by change s.value + 1 = 1; omega) a (owes_update pc owes hta)
          · exact .value (by change 2 ≤ s.value + 1; omega)

/-- A debt without an acquisition overdraws a semaphore that was in order, and leaves an
overdrawn one so. -/
theorem overdrawn_of_losesPatience {s : SemState τ} {i : SemStep τ} (h : LosesPatience s i)
    (hs : SemPhase s ∨ Overdrawn s) : Overdrawn (i.apply s) := by
  obtain ⟨t, pc, hbefore, hpc, -, happly⟩ := apply_of_losesPatience s i h
  have hne : ∀ {a}, (s.pc a).Owes → a ≠ t := by
    rintro a ha rfl
    exact hbefore ha
  have ht : (Function.update s.pc t pc t).Owes := by simpa using hpc
  rw [happly]
  rcases hs with hs | hs
  · cases hs with
    | free value none => exact .one value t ht
    | held a value inside only =>
        have ha : (s.pc a).Owes := by simp [inside, SemPc.Owes]
        exact .zero a t (hne ha) (owes_update pc ha (hne ha)) ht
  · cases hs with
    | value two => exact .value two
    | one value a owes => exact .one value a (owes_update pc owes (hne owes))
    | zero a b ne owes owes' =>
        exact .zero a b ne (owes_update pc owes (hne owes)) (owes_update pc owes' (hne owes'))

theorem Overdrawn.apply {s : SemState τ} (h : Overdrawn s) (i : SemStep τ) :
    Overdrawn (i.apply s) := by
  by_cases hi : LosesPatience s i
  · exact overdrawn_of_losesPatience hi (.inr h)
  · exact h.effect (semEffect_of_patient s i hi)

theorem value_post {s : SemState τ} {t : τ} (h : (s.pc t).Owes) :
    ((SemStep.post t).apply s).value = s.value + 1 := by
  rw [SemStep.apply]
  cases hpc : s.pc t <;> simp_all [SemPc.Owes]

theorem pc_post_of_ne {s : SemState τ} {t t' : τ} (hne : t' ≠ t) :
    ((SemStep.post t).apply s).pc t' = s.pc t' := by
  rw [SemStep.apply]
  split <;> simp [hne]

/-- Once the owed posts are made, the value of an overdrawn semaphore is 2. -/
theorem Overdrawn.exists_posts {s : SemState τ} (h : Overdrawn s) :
    ∃ posts : List τ, ¬ Exclusive ((posts.map SemStep.post).foldl SemStep.apply s) := by
  cases h with
  | value two =>
      refine ⟨[], ?_⟩
      intro hex
      have : s.value ≤ 1 := hex.value_le
      omega
  | one value t owes =>
      refine ⟨[t], ?_⟩
      intro hex
      have hle : ((SemStep.post t).apply s).value ≤ 1 := hex.value_le
      rw [value_post owes] at hle
      omega
  | zero t t' ne owes owes' =>
      refine ⟨[t, t'], ?_⟩
      intro hex
      have howes' : (((SemStep.post t).apply s).pc t').Owes := by
        rw [pc_post_of_ne ne.symm]
        exact owes'
      have hle : ((SemStep.post t').apply ((SemStep.post t).apply s)).value ≤ 1 := hex.value_le
      rw [value_post howes', value_post owes] at hle
      omega

/-! ### Whole runs -/

theorem semPhase_or_overdrawn {s : SemState τ} (hs : SemPhase s) (schedule : List (SemStep τ)) :
    Runs.Meets SemStep.apply (fun s i => ¬ LosesPatience s i) s schedule ∨
      Overdrawn (schedule.foldl SemStep.apply s) := by
  induction schedule generalizing s with
  | nil => exact .inl trivial
  | cons i schedule ih =>
      by_cases hi : LosesPatience s i
      · have hover := overdrawn_of_losesPatience hi (.inl hs)
        refine .inr ?_
        exact List.foldlRecOn schedule _ hover fun _ h j _ => h.apply j
      · rcases ih (hs.effect (semEffect_of_patient s i hi)) with hmeets | hover
        · exact .inl ⟨hi, hmeets⟩
        · exact .inr hover

omit [DecidableEq τ] in
theorem SemPhase.init : SemPhase (SemState.init τ) :=
  .free rfl fun _ => id

/-- However the parties then make their posts, a schedule is exclusive throughout exactly if no
client posts without the semaphore in it. -/
theorem exclusive_iff_patient (schedule : List (SemStep τ)) :
    (∀ (posts : List τ) part, part <+: schedule ++ posts.map SemStep.post →
        Exclusive (part.foldl SemStep.apply (SemState.init τ))) ↔
      Runs.Meets SemStep.apply (fun s i => ¬ LosesPatience s i) (SemState.init τ) schedule := by
  constructor
  · intro h
    rcases semPhase_or_overdrawn SemPhase.init schedule with hmeets | hover
    · exact hmeets
    · obtain ⟨posts, hposts⟩ := hover.exists_posts
      refine (hposts ?_).elim
      rw [← List.foldl_append]
      exact h posts _ (List.prefix_refl _)
  · intro h posts part hpart
    have hposts : Runs.Meets SemStep.apply (fun s i => ¬ LosesPatience s i)
        (schedule.foldl SemStep.apply (SemState.init τ)) (posts.map SemStep.post) := by
      refine Runs.meets_of_forall _ _ ?_
      intro i hi s
      obtain ⟨t, -, rfl⟩ := List.mem_map.mp hi
      exact id
    have hstep : ∀ (s : SemState τ) (i : SemStep τ), SemPhase s → ¬ LosesPatience s i →
        SemPhase (i.apply s) :=
      fun s i hs hi => hs.effect (semEffect_of_patient s i hi)
    have hphase : SemPhase (part.foldl SemStep.apply (SemState.init τ)) :=
      (Runs.meets_append.mpr ⟨h, hposts⟩).invariant_of_isPrefix hstep SemPhase.init hpart
    exact hphase.exclusive

/-- One client (0) is inside the list while another (1) uses up its tries, posts and lets the
daemon (2) in. -/
def impatientClient : List (SemStep ℕ) :=
  [.start 0 (.client .lookup), .tryWait 0 false, .start 1 (.client .lookup)] ++
    List.replicate 396 (.tryWait 1 false) ++ [.post 1, .start 2 .daemon, .wait 2]

theorem impatient_client_breaks_exclusion :
    let s := impatientClient.foldl SemStep.apply (SemState.init ℕ)
    s.pc 0 = .inside ∧ s.pc 2 = .inside ∧ ¬ Exclusive s := by
  have hfirst : (impatientClient.foldl SemStep.apply (SemState.init ℕ)).pc 0 = .inside := by
    decide +kernel
  have hsecond : (impatientClient.foldl SemStep.apply (SemState.init ℕ)).pc 2 = .inside := by
    decide +kernel
  refine ⟨hfirst, hsecond, ?_⟩
  intro h
  have := h.unique 0 2 hfirst hsecond
  omega

/-- `user_in_bad_list_cleint_show` posts already in its loop and enters beside the daemon. -/
example :
    let schedule : List (SemStep ℕ) := [.start 0 .daemon, .wait 0, .start 1 (.client .listing)] ++
      List.replicate 99 (.tryWait 1 false) ++ [.post 1, .tryWait 1 false]
    let s := schedule.foldl SemStep.apply (SemState.init ℕ)
    s.pc 0 = .inside ∧ s.pc 1 = .inside := by
  decide +kernel

end DbGovernor
