import DbGovernor.Model.Plugin
import DbGovernor.Verification.Lve.Bookkeeping

/-!
# Statements and sections

`is_begined` of the plugin and `in_lve` of `libgovernordl` are set together, but a start event
clears the first alone. The end of a statement then leaves the thread in its section.
-/

namespace DbGovernor

/-- The event ends a statement with a query and a user name. -/
def AuditEvent.EndsStatement (e : AuditEvent) : Prop :=
  e.generalClass = true ∧ e.eventSubclass = .status ∧ e.named = true

instance (e : AuditEvent) : Decidable e.EndsStatement := inferInstanceAs (Decidable (_ ∧ _))

/-- A thread in a section is marked as begun, and is in none when a statement has ended. -/
structure TakenOut (s : PluginThread) (e : AuditEvent) : Prop where
  begined : s.lve.inLve = true → s.isBegined = true
  ended : e.EndsStatement → s.lve.inLve = false

/-- `is_begined` is set by the start event: its begin message was sent. -/
def AuditEvent.announces (e : AuditEvent) : Bool :=
  e.named && e.sockStatus && e.governorGetCommand != 0 && e.sendInfo == 0

/-- A start event without a begin message arrives inside a section. -/
def ForgetsSection (s : PluginThread) (e : AuditEvent) : Prop :=
  e.generalClass = true ∧ e.eventSubclass = .log ∧ s.lve.inLve = true ∧ e.announces = false

instance (s : PluginThread) (e : AuditEvent) : Decidable (ForgetsSection s e) :=
  inferInstanceAs (Decidable (_ ∧ _))

/-! ### One event -/

theorem isBegined_notifyLog (e : AuditEvent) (s : PluginThread) :
    (notifyLog e s).isBegined = e.announces := by
  rw [notifyLog, AuditEvent.announces]
  cases hsend : e.named && e.sockStatus && e.governorGetCommand != 0 with
  | false => simp
  | true =>
      by_cases hok : e.sendInfo = 0
      · simp only [hok, if_true, Bool.true_and]
        split <;> rfl
      · simp [hok]

theorem lve_notifyLog_of_not_announces {e : AuditEvent} (h : e.announces = false)
    (s : PluginThread) : (notifyLog e s).lve = s.lve := by
  rw [AuditEvent.announces] at h
  rw [notifyLog]
  cases hsend : e.named && e.sockStatus && e.governorGetCommand != 0 with
  | false => simp
  | true =>
      rw [hsend, Bool.true_and] at h
      have hfail : e.sendInfo ≠ 0 := by simpa using h
      simp [hfail]

/-- A thread that was marked stays so through every event but a forgetful start. -/
theorem takenOut_iff {s : PluginThread} (h : s.lve.inLve = true → s.isBegined = true)
    (e : AuditEvent) : TakenOut (governorNotify s e) e ↔ ¬ ForgetsSection s e := by
  cases hclass : e.generalClass with
  | false =>
      have hsame : governorNotify s e = s := by simp [governorNotify, hclass]
      rw [hsame]
      refine iff_of_true ⟨h, ?_⟩ ?_
      · rintro ⟨hgeneral, -⟩
        rw [hclass] at hgeneral
        cases hgeneral
      · rintro ⟨hgeneral, -⟩
        rw [hclass] at hgeneral
        cases hgeneral
  | true =>
      rw [governorNotify, if_pos hclass]
      cases hsub : e.eventSubclass with
      | log =>
          have hnot : ¬ e.EndsStatement := by simp [AuditEvent.EndsStatement, hsub]
          cases hann : e.announces with
          | true =>
              refine iff_of_true ⟨fun _ => ?_, fun hend => (hnot hend).elim⟩ ?_
              · exact (isBegined_notifyLog e s).trans hann
              · simp [ForgetsSection, hann]
          | false =>
              have hbegun := (isBegined_notifyLog e s).trans hann
              have hlve := lve_notifyLog_of_not_announces hann s
              constructor
              · rintro hout ⟨-, -, hin, -⟩
                have := hout.begined (by rw [hlve]; exact hin)
                rw [hbegun] at this
                cases this
              · intro hforget
                refine ⟨?_, fun hend => (hnot hend).elim⟩
                intro hin
                rw [hlve] at hin
                exact (hforget ⟨hclass, hsub, hin, hann⟩).elim
      | error =>
          refine iff_of_true ⟨h, ?_⟩ ?_
          · simp [AuditEvent.EndsStatement, hsub]
          · simp [ForgetsSection, hsub]
      | result =>
          refine iff_of_true ⟨h, ?_⟩ ?_
          · simp [AuditEvent.EndsStatement, hsub]
          · simp [ForgetsSection, hsub]
      | status =>
          have hnot : ¬ ForgetsSection s e := by simp [ForgetsSection, hsub]
          refine iff_of_true ?_ hnot
          dsimp only
          rw [notifyStatus]
          split
          · exact ⟨fun hin => (Bool.false_ne_true hin).elim, fun _ => rfl⟩
          · rename_i hcond
            refine ⟨h, ?_⟩
            rintro ⟨-, -, hnamed⟩
            rw [← Bool.not_eq_true]
            intro hin
            exact hcond (by simp [hnamed, h hin])

/-! ### Every sequence of events -/

/-- A thread is taken out of its section by the next end of a statement, throughout a sequence
of events, exactly if none of them is a start without a begin message inside a section. -/
theorem taken_out_iff_no_forgetful_start (events : List AuditEvent) :
    (∀ part e, part ++ [e] <+: events →
        TakenOut ((part ++ [e]).foldl governorNotify .init) e) ↔
      Runs.Meets governorNotify (fun s e => ¬ ForgetsSection s e) .init events := by
  have hiff : ∀ (s : PluginThread) (e : AuditEvent),
      (s.lve.inLve = true → s.isBegined = true) → True →
      (TakenOut (governorNotify s e) e ↔ ¬ ForgetsSection s e) :=
    fun s e h _ => takenOut_iff h e
  have hstep : ∀ (s : PluginThread) (e : AuditEvent),
      (s.lve.inLve = true → s.isBegined = true) → True → TakenOut (governorNotify s e) e →
      ((governorNotify s e).lve.inLve = true → (governorNotify s e).isBegined = true) :=
    fun _ _ _ _ h => h.begined
  have hinit : (PluginThread.init.lve.inLve = true → PluginThread.init.isBegined = true) :=
    fun h => (Bool.false_ne_true h).elim
  rw [← Runs.meets_congr hiff hstep (Runs.meets_of_forall _ events fun _ _ _ => trivial) hinit,
    Runs.meets_iff_forall_concat]
  refine forall₃_congr ?_
  intro part e _
  rw [List.foldl_concat]

/-- A statement of a frozen user starts, a second start event finds the socket closed, and the
statement ends. -/
def lostSection : List AuditEvent :=
  let start : AuditEvent := ⟨true, .log, true, some [117], true, 2, 0, 500, .entered⟩
  [start, { start with sockStatus := false }, { start with eventSubclass := .status }]

theorem second_start_forgets_section :
    let s := lostSection.foldl governorNotify .init
    s.lve.inLve = true ∧ s.lve.inside = true ∧ s.isBegined = false ∧
      ∀ e ∈ lostSection.getLast?, e.EndsStatement ∧ ¬ TakenOut s e := by
  refine ⟨by decide, by decide, by decide, ?_⟩
  intro e he
  obtain rfl : e = ⟨true, .status, true, some [117], true, 2, 0, 500, .entered⟩ :=
    (Option.some.inj he).symm
  refine ⟨by decide, ?_⟩
  intro h
  have hout := h.ended (by decide)
  revert hout
  decide

end DbGovernor
