import DbGovernor.Model.Statistics
import DbGovernor.Verification.Daemon.MapRefresh
import DbGovernor.Verification.Daemon.TickDecision
import DbGovernor.Verification.Daemon.Usage

/-!
# The export neither loses nor repeats usage

What was added up for an account is in the files that were renamed or still in the table, also
when files cannot be opened, are empty or cannot be renamed.
-/

namespace DbGovernor

/-! ### The figures of an account are not negative -/

section Nonneg

variable {w : World} {a : Username} {ac : Account}

theorem fifoStatsGet_zero_nonneg {fifo : FifoStats} (h : fifo.WellFormed) (hn : fifo.Nonneg) :
    0 ≤ fifoStatsGet fifo 0 := by
  by_cases hsize : 0 < fifo.size
  · have hget := fifo.samples_getElem? (i := 0) hsize
    exact hn _ (List.mem_of_getElem? hget)
  · have hnil : fifo.ar = [] := by
      rw [← List.length_eq_zero_iff, h.length]
      omega
    simp only [fifoStatsGet, hnil]
    exact le_refl _

theorem total_current_nonneg {usages : List Usage} (h : ∀ u ∈ usages, 0 ≤ u.current) :
    0 ≤ (Usage.total usages).current := by
  induction usages using List.reverseRecOn with
  | nil => exact le_refl _
  | append_singleton usages u ih =>
      by_cases hnil : usages = []
      · subst hnil
        exact h u (by simp)
      · rw [Usage.total_append hnil]
        exact sumStats_nonneg (ih fun v hv => h v (List.mem_append_left _ hv)) (h u (by simp))

theorem gatherStats_current_nonneg (h : DaemonInv w) (t : TickInput)
    (ha : (gatherStats t w).accounts.lookup a = some ac) : 0 ≤ ac.current := by
  have hinv := h.sampleUsers t
  rw [gatherStats_accounts] at ha
  obtain ⟨bc, hb, rfl⟩ := Option.map_eq_some_iff.mp ha
  rw [calcAccStats_eq_total _ (hinv.owns a bc hb).users_ne]
  refine total_current_nonneg ?_
  intro usage husage
  obtain ⟨u, hu, rfl⟩ := List.mem_map.mp husage
  obtain ⟨us, hus, -⟩ := (hinv.owns a bc hb).member u hu
  have huser := hinv.user u us hus
  rw [userUsage, hus]
  exact fifoStatsGet_zero_nonneg huser.wellFormed huser.nonneg

/-- A decision does not write the current figures. -/
theorem analyzeMode_current (cfg : GovernorConfig) (now : ℤ) (ac : Account) (g : Globals) :
    (analyzeMode cfg now ac g).1.current = ac.current := by
  by_cases hoff : (cfg.allLve || !cfg.useLve) = true
  · rw [analyzeMode, accountAnalyzeLimit_off hoff, accountAnalyze_off hoff, ite_self]
  simp only [Bool.or_eq_true, Bool.not_eq_true', not_or, Bool.not_eq_true,
    Bool.not_eq_false] at hoff
  rw [analyzeMode]
  split
  · have ho := accountAnalyzeLimit_outcome hoff.2 hoff.1 now ac g
    generalize accountAnalyzeLimit cfg now ac g = r at ho ⊢
    cases ho <;> rfl
  · have ho := accountAnalyze_outcome hoff.2 hoff.1 now ac g
    generalize accountAnalyze cfg now ac g = r at ho ⊢
    cases ho <;> rfl

theorem proceedAccounts_current_nonneg (h : DaemonInv w) (t : TickInput)
    (ha : (proceedAccounts t w).accounts.lookup a = some ac) : 0 ≤ ac.current := by
  obtain ⟨bc, hb⟩ := Option.isSome_iff_exists.mp (gatherStats_of_proceedAccounts t ha)
  obtain ⟨g, -, -, hl, -⟩ := proceedAccounts_visit h t hb
  obtain rfl := Option.some.inj (hl.symm.trans ha)
  rw [analyzeMode_current]
  exact gatherStats_current_nonneg h t hb

end Nonneg

/-! ### What is measured -/

/-- Reads or writes. -/
inductive IoField where
  | read | write

def IoField.ofStats : IoField → Stats → ℤ
  | .read, s => s.read
  | .write, s => s.write

/-- `sum_read` or `sum_write`. -/
def IoField.sum : IoField → DbgovStatitrics → ℤ
  | .read, r => r.sumRead
  | .write, r => r.sumWrite

/-- The sum over the records of an account in the files. -/
def Statistics.exported (st : Statistics) (f : IoField) (a : Username) : ℤ :=
  ((st.files.flatten.filter (·.username = a)).map f.sum).sum

/-- The sum in a table. -/
def heldIn (t : HashTable DbgovStatitrics) (f : IoField) (a : Username) : ℤ :=
  ((t.lookup a).map f.sum).getD 0

/-- The sum in `DbGovStatitrics`. -/
def Statistics.held (st : Statistics) (f : IoField) (a : Username) : ℤ :=
  heldIn (st.dbGovStatitrics.getD ∅) f a

/-- A call of `AddDbGovStatitrics`, with the states that it finds. -/
structure StatCall where
  input : StatInput
  world : World
  stats : Statistics

/-- The call adds the figures of this second. -/
def StatCall.Counts (c : StatCall) : Prop :=
  c.input.newTm - startTm c.stats.oldTm c.input.newTm ≥ 1

instance (c : StatCall) : Decidable c.Counts := inferInstanceAs (Decidable (_ ≥ _))

/-- What a call has to add for an account. -/
def StatCall.amount (f : IoField) (a : Username) (c : StatCall) : ℤ :=
  if c.Counts then
    match c.world.accounts.lookup a with
    | none => 0
    | some ac => f.ofStats ac.current
  else 0

/-- The result of `WriteDbGovStatitrics`, false also where it is not called, and the records
after the call. -/
def StatCall.result (c : StatCall) : Bool × Statistics :=
  addDbGovStatitricsRecords c.input c.world c.stats

/-! ### The table of records -/

/-- The records of a table carry its keys. -/
def Named (t : HashTable DbgovStatitrics) : Prop :=
  ∀ k r, t.lookup k = some r → r.username = k

/-- The records of an account are open to print, and their sums are not negative. -/
structure Printable (a : Username) (t : HashTable DbgovStatitrics) : Prop where
  mode : ∀ r, t.lookup a = some r → r.ignored ≠ .ignoreMode
  nonneg : ∀ (f : IoField) r, t.lookup a = some r → 0 ≤ f.sum r

section Table

variable {w : World} {t : HashTable DbgovStatitrics} {a : Username} {ac : Account}

theorem sum_dbstatRecord (cfg : GovernorConfig) (cntThreads : Username → ℤ) (g : Globals)
    (ac : Account) (old : Option DbgovStatitrics) (f : IoField) :
    f.sum (dbstatRecord cfg cntThreads g ac old) =
      (old.map f.sum).getD 0 + f.ofStats ac.current := by
  cases old <;> cases f <;> simp [dbstatRecord, DbgovStatitrics.atPeriodEnd, IoField.sum,
    IoField.ofStats]

theorem username_dbstatRecord (cfg : GovernorConfig) (cntThreads : Username → ℤ) (g : Globals)
    (ac : Account) {old : Option DbgovStatitrics} (h : ∀ r ∈ old, r.username = ac.id) :
    (dbstatRecord cfg cntThreads g ac old).username = ac.id := by
  cases old with
  | none => rfl
  | some r => exact h r rfl

/-- The pass over the accounts replaces the record of each account once. -/
theorem lookup_foldl_dbstatAddToTable (howns : Owning w) (cntThreads : Username → ℤ)
    {keys : List Username} (hnd : keys.Nodup)
    (hkeys : ∀ k, (w.accounts.lookup k).isSome → k ∈ keys) (t : HashTable DbgovStatitrics)
    (a : Username) :
    (keys.foldl (dbstatAddToTable cntThreads w) t).lookup a =
      match w.accounts.lookup a with
      | none => t.lookup a
      | some ac => some (dbstatRecord w.cfg cntThreads w.globals ac (t.lookup a)) := by
  let inv (done : List Username) (v : HashTable DbgovStatitrics) : Prop := ∀ b,
    v.lookup b = if b ∈ done then
      (match w.accounts.lookup b with
      | none => t.lookup b
      | some ac => some (dbstatRecord w.cfg cntThreads w.globals ac (t.lookup b)))
    else t.lookup b
  have hinv : inv keys (keys.foldl (dbstatAddToTable cntThreads w) t) := by
    refine Visits.foldl_visited hnd (fun b => by simp) ?_
    intro done key v _ hkey hv b
    have hsame : v.lookup key = t.lookup key := by rw [hv, if_neg hkey]
    cases hac : w.accounts.lookup key with
    | none =>
        rw [dbstatAddToTable, hac, hv b]
        by_cases hb : b = key
        · subst hb
          simp [hkey, hac]
        · simp [hb]
    | some ac =>
        have hid : ac.id = key := (howns key ac hac).id_eq
        rw [dbstatAddToTable, hac]
        dsimp only
        rw [hid, hsame]
        by_cases hb : b = key
        · subst hb
          simp [hac]
        · simp [hv b, hb]
  rw [hinv a]
  split
  · rfl
  · rename_i hmem
    have hnone : w.accounts.lookup a = none := by
      by_contra hsome
      exact hmem (hkeys a (Option.isSome_iff_ne_none.mpr hsome))
    rw [hnone]

/-- The printed records of one account. -/
theorem filter_printedRecords (hnamed : Named t) (ord : IterOrder) (a : Username) :
    (printedRecords ord t).filter (·.username = a) =
      (t.lookup a).toList.filter dbgovWasUserActivity := by
  have hpass : ∀ keys : List Username, keys.Nodup →
      (keys.filterMap t.lookup).filter (·.username = a) =
        if a ∈ keys then (t.lookup a).toList else [] := by
    intro keys hnd
    induction keys with
    | nil => rfl
    | cons key keys ih =>
        obtain ⟨hkey, hrest⟩ := List.nodup_cons.mp hnd
        have htail := ih hrest
        cases hr : t.lookup key with
        | none =>
            rw [List.filterMap_cons, hr, htail]
            by_cases ha : a = key
            · subst ha
              simp [hkey, hr]
            · simp [ha]
        | some r =>
            rw [List.filterMap_cons, hr, List.filter_cons, htail]
            have hname := hnamed key r hr
            by_cases ha : a = key
            · subst ha
              simp [hname, hkey, hr]
            · simp [hname, ha, Ne.symm ha]
  have hmem : a ∈ ord.order t.keys ∨ t.lookup a = none := by
    cases hr : t.lookup a with
    | none => exact .inr rfl
    | some r => exact .inl (ord.mem_order hr)
  rw [printedRecords, List.filter_comm, hpass _ (ord.order_nodup t)]
  rcases hmem with hin | hnone
  · rw [if_pos hin]
  · simp [hnone]

theorem sum_nonpos_of_inactive {r : DbgovStatitrics} (hmode : r.ignored ≠ .ignoreMode)
    (h : dbgovWasUserActivity r = false) (f : IoField) : f.sum r ≤ 0 := by
  simp only [dbgovWasUserActivity, hmode, ne_eq, not_false_eq_true, decide_true, Bool.and_true,
    Bool.or_eq_false_iff, decide_eq_false_iff_not, not_lt] at h
  cases f with
  | read => exact h.1.2
  | write => exact h.1.1.2

/-- A record that is not printed holds nothing. -/
theorem sum_printedRecords (hnamed : Named t) (hprint : Printable a t) (ord : IterOrder)
    (f : IoField) :
    (((printedRecords ord t).filter (·.username = a)).map f.sum).sum = heldIn t f a := by
  rw [filter_printedRecords hnamed, heldIn]
  cases hr : t.lookup a with
  | none => rfl
  | some r =>
      cases hact : dbgovWasUserActivity r with
      | true => simp [hact]
      | false =>
          have hzero : f.sum r = 0 :=
            le_antisymm (sum_nonpos_of_inactive (hprint.mode r hr) hact f) (hprint.nonneg f r hr)
          simp [hact, hzero]

end Table

/-! ### One call -/

/-- The records of an account after some calls. -/
structure Accounted (a : Username) (calls : List StatCall) (st : Statistics) : Prop where
  named : Named (st.dbGovStatitrics.getD ∅)
  printable : Printable a (st.dbGovStatitrics.getD ∅)
  total : ∀ f : IoField, st.exported f a + st.held f a = (calls.map (StatCall.amount f a)).sum

section Calls

variable {w : World} {st : Statistics} {a : Username} {calls : List StatCall} {i : StatInput}

theorem Accounted.init (a : Username) : Accounted a [] .init := by
  refine ⟨?_, ⟨?_, ?_⟩, ?_⟩
  · intro k r h
    simp [Statistics.init] at h
  · intro r h
    simp [Statistics.init] at h
  · intro f r h
    simp [Statistics.init] at h
  · intro f
    rfl

theorem addStatitrics_frame (i : StatInput) (w : World) (st : Statistics) :
    (addStatitrics i w st).files = st.files ∧
      (addStatitrics i w st).oldTm = startTm st.oldTm i.newTm := by
  rw [addStatitrics]
  dsimp only
  split <;> exact ⟨rfl, rfl⟩

/-- The table after the figures were added. -/
theorem lookup_addStatitrics (howns : Owning w) (i : StatInput) (st : Statistics) (a : Username) :
    ((addStatitrics i w st).dbGovStatitrics.getD ∅).lookup a =
      if (StatCall.mk i w st).Counts then
        match w.accounts.lookup a with
        | none => (st.dbGovStatitrics.getD ∅).lookup a
        | some ac => some (dbstatRecord w.cfg i.cntThreads w.globals ac
            ((st.dbGovStatitrics.getD ∅).lookup a))
      else (st.dbGovStatitrics.getD ∅).lookup a := by
  by_cases hc : (StatCall.mk i w st).Counts
  · have hdue : i.newTm - startTm st.oldTm i.newTm ≥ 1 := hc
    rw [if_pos hc]
    simp only [addStatitrics, if_pos hdue, Option.getD_some]
    refine lookup_foldl_dbstatAddToTable howns i.cntThreads (i.ordAdd.order_nodup _) ?_ _ a
    intro k hk
    obtain ⟨ac, hac⟩ := Option.isSome_iff_exists.mp hk
    exact i.ordAdd.mem_order hac
  · have hearly : ¬ i.newTm - startTm st.oldTm i.newTm ≥ 1 := hc
    rw [if_neg hc]
    simp only [addStatitrics, if_neg hearly]

/-- A record after the figures were added is an old one, or that of an account of its name. -/
theorem record_of_addStatitrics (howns : Owning w) {k : Username} {r : DbgovStatitrics}
    (hr : ((addStatitrics i w st).dbGovStatitrics.getD ∅).lookup k = some r) :
    (st.dbGovStatitrics.getD ∅).lookup k = some r ∨
      ∃ ac, w.accounts.lookup k = some ac ∧ ac.id = k ∧
        r = dbstatRecord w.cfg i.cntThreads w.globals ac
          ((st.dbGovStatitrics.getD ∅).lookup k) := by
  rw [lookup_addStatitrics howns] at hr
  split at hr
  · cases hac : w.accounts.lookup k with
    | none =>
        rw [hac] at hr
        exact .inl hr
    | some ac =>
        rw [hac] at hr
        exact .inr ⟨ac, rfl, (howns k ac hac).id_eq, (Option.some.inj hr).symm⟩
  · exact .inl hr

theorem Named.addStatitrics (h : Named (st.dbGovStatitrics.getD ∅)) (howns : Owning w)
    (i : StatInput) : Named ((addStatitrics i w st).dbGovStatitrics.getD ∅) := by
  intro k r hr
  rcases record_of_addStatitrics howns hr with hold | ⟨ac, -, hid, rfl⟩
  · exact h k r hold
  · refine (username_dbstatRecord _ _ _ ac ?_).trans hid
    intro r hr
    exact (h k r hr).trans hid.symm

theorem Printable.addStatitrics (h : Printable a (st.dbGovStatitrics.getD ∅)) (howns : Owning w)
    (hmode : (configGetAccountLimit w.cfg a).mode ≠ .ignoreMode)
    (hcurrent : ∀ ac, w.accounts.lookup a = some ac → 0 ≤ ac.current) (i : StatInput) :
    Printable a ((addStatitrics i w st).dbGovStatitrics.getD ∅) := by
  refine ⟨fun r hr => ?_, fun f r hr => ?_⟩
  · rcases record_of_addStatitrics howns hr with hold | ⟨ac, -, hid, rfl⟩
    · exact h.mode r hold
    · have hset : (dbstatRecord w.cfg i.cntThreads w.globals ac
          ((st.dbGovStatitrics.getD ∅).lookup a)).ignored =
          (configGetAccountLimit w.cfg ac.id).mode := rfl
      rw [hset, hid]
      exact hmode
  · rcases record_of_addStatitrics howns hr with hold | ⟨ac, hac, -, rfl⟩
    · exact h.nonneg f r hold
    · have hnew : 0 ≤ f.ofStats ac.current := by
        have hcur := hcurrent ac hac
        cases f with
        | read => exact hcur.2.2
        | write => exact hcur.2.1
      have hold : 0 ≤ (((st.dbGovStatitrics.getD ∅).lookup a).map f.sum).getD 0 := by
        cases hr : (st.dbGovStatitrics.getD ∅).lookup a with
        | none => exact le_refl _
        | some r => exact h.nonneg f r hr
      rw [sum_dbstatRecord]
      exact add_nonneg hold hnew

/-- The first part of a call adds the figures of the account to what its record holds. -/
theorem held_addStatitrics (howns : Owning w) (i : StatInput) (st : Statistics) (f : IoField)
    (a : Username) :
    (addStatitrics i w st).held f a = st.held f a + StatCall.amount f a ⟨i, w, st⟩ := by
  rw [Statistics.held, heldIn, lookup_addStatitrics howns, Statistics.held, heldIn, StatCall.amount]
  by_cases hc : (StatCall.mk i w st).Counts
  · rw [if_pos hc, if_pos hc]
    cases hac : w.accounts.lookup a with
    | none => simp
    | some ac => simp only [Option.map_some, Option.getD_some, sum_dbstatRecord]
  · rw [if_neg hc, if_neg hc, add_zero]

/-- The first part of a call adds what there is to add. -/
theorem Accounted.addStatitrics (h : Accounted a calls st) (howns : Owning w)
    (hmode : (configGetAccountLimit w.cfg a).mode ≠ .ignoreMode)
    (hcurrent : ∀ ac, w.accounts.lookup a = some ac → 0 ≤ ac.current) (i : StatInput) :
    Accounted a (calls ++ [⟨i, w, st⟩]) (addStatitrics i w st) where
  named := h.named.addStatitrics howns i
  printable := h.printable.addStatitrics howns hmode hcurrent i
  total := by
    intro f
    have hexported : (DbGovernor.addStatitrics i w st).exported f a = st.exported f a := by
      rw [Statistics.exported, (addStatitrics_frame i w st).1, Statistics.exported]
    rw [held_addStatitrics howns, hexported, List.map_append, List.sum_append, ← h.total f,
      List.map_singleton, List.sum_singleton, add_assoc]

theorem writeDbGovStatitrics_of_failed (h : (writeDbGovStatitrics i st).1 = false) :
    writeDbGovStatitrics i st = (false, st) := by
  rw [writeDbGovStatitrics] at h ⊢
  split at h
  · cases h
  · rename_i hno
    exact if_neg hno

theorem writeDbGovStatitrics_of_done (h : (writeDbGovStatitrics i st).1 = true) :
    writeDbGovStatitrics i st = (true, { st with
      files := st.files ++ [printedRecords i.ordPrint (st.dbGovStatitrics.getD ∅)] }) := by
  rw [writeDbGovStatitrics] at h ⊢
  split at h
  · rename_i hyes
    exact if_pos hyes
  · cases h

/-- A call whose write does not succeed has added the figures, and that is all. -/
theorem result_of_not_written (h : (StatCall.mk i w st).result.1 = false) :
    (StatCall.mk i w st).result.2 = addStatitrics i w st := by
  simp only [StatCall.result, addDbGovStatitricsRecords] at h ⊢
  split at h
  · rename_i hdue
    rw [if_pos hdue]
    cases hwrite : (writeDbGovStatitrics i (addStatitrics i w st)).1 with
    | true => simp [hwrite] at h
    | false => simp [writeDbGovStatitrics_of_failed hwrite]
  · rename_i hearly
    rw [if_neg hearly]

/-- A call whose write succeeds has moved the table to a file. -/
theorem result_of_written (h : (StatCall.mk i w st).result.1 = true) :
    (StatCall.mk i w st).result.2.files = st.files ++
        [printedRecords i.ordPrint ((addStatitrics i w st).dbGovStatitrics.getD ∅)] ∧
      (StatCall.mk i w st).result.2.dbGovStatitrics.getD ∅ = ∅ := by
  obtain ⟨hfiles, -⟩ := addStatitrics_frame i w st
  simp only [StatCall.result, addDbGovStatitricsRecords] at h ⊢
  split at h
  · rename_i hdue
    rw [if_pos hdue]
    cases hwrite : (writeDbGovStatitrics i (addStatitrics i w st)).1 with
    | false => simp [hwrite] at h
    | true =>
        rw [writeDbGovStatitrics_of_done hwrite, if_pos rfl, ← hfiles]
        refine ⟨rfl, ?_⟩
        cases (addStatitrics i w st).dbGovStatitrics <;> rfl
  · cases h

theorem Accounted.call (h : Accounted a calls st) (howns : Owning w)
    (hmode : (configGetAccountLimit w.cfg a).mode ≠ .ignoreMode)
    (hcurrent : ∀ ac, w.accounts.lookup a = some ac → 0 ≤ ac.current) (i : StatInput) :
    Accounted a (calls ++ [⟨i, w, st⟩]) (StatCall.mk i w st).result.2 := by
  have hadded := h.addStatitrics howns hmode hcurrent i
  cases hwritten : (StatCall.mk i w st).result.1 with
  | false =>
      rw [result_of_not_written hwritten]
      exact hadded
  | true =>
      obtain ⟨hfiles, htable⟩ := result_of_written hwritten
      obtain ⟨hsame, -⟩ := addStatitrics_frame i w st
      refine ⟨?_, ⟨?_, ?_⟩, ?_⟩
      · rw [htable]
        intro k r hr
        simp at hr
      · rw [htable]
        intro r hr
        simp at hr
      · rw [htable]
        intro f r hr
        simp at hr
      · intro f
        have hheld : (StatCall.mk i w st).result.2.held f a = 0 := by
          rw [Statistics.held, htable]
          rfl
        have hmoved := sum_printedRecords hadded.named hadded.printable i.ordPrint f
        rw [hheld, add_zero, ← hadded.total f, Statistics.exported, hfiles, List.flatten_append,
          List.filter_append, List.map_append, List.sum_append, List.flatten_singleton, hmoved,
          Statistics.exported, hsame]
        rfl

end Calls

/-! ### Runs -/

/-- A run of the daemon with the calls of `AddDbGovStatitrics` so far. Between two calls it takes
any steps. -/
inductive StatRun : World → Statistics → List StatCall → Prop where
  | start (cfg : GovernorConfig) : StatRun (World.init cfg) .init []
  | step {w w' st calls} : StatRun w st calls → DaemonStep w w' → StatRun w' st calls
  | tick {w st calls} (t : TickInput) (i : StatInput) : StatRun w st calls →
      (analyzeAccounts t (gatherStats t w)).cfg.statisticMode = true →
      StatRun (proceedAccountsStats t i w st).1 (proceedAccountsStats t i w st).2
        (calls ++ [⟨i, analyzeAccounts t (gatherStats t w), st⟩])

section Runs

variable {w : World} {st : Statistics} {calls : List StatCall} {a : Username}

/-- The records leave the rest of the tick as it is. -/
theorem proceedAccountsStats_fst (t : TickInput) (i : StatInput) (w : World) (st : Statistics) :
    (proceedAccountsStats t i w st).1 = proceedAccounts { t with
      statsWritten := (addDbGovStatitricsRecords i (analyzeAccounts t (gatherStats t w)) st).1 }
        w := by
  rw [proceedAccountsStats, proceedAccounts]
  change (if (analyzeAccounts t (gatherStats t w)).cfg.statisticMode = true then _ else _ :
    World × Statistics).1 =
    if (analyzeAccounts t (gatherStats t w)).cfg.statisticMode = true then _ else _
  split <;> rfl

theorem StatRun.reachable (h : StatRun w st calls) : Reachable w := by
  induction h with
  | start cfg => exact .start cfg
  | step _ hs ih => exact .step ih hs
  | tick t i _ _ ih =>
      rw [proceedAccountsStats_fst]
      exact .step ih (.tick _ _)

/-- The accounts that a call finds. -/
theorem analyzeAccounts_current_nonneg (h : DaemonInv w) (t : TickInput) {ac : Account}
    (ha : (analyzeAccounts t (gatherStats t w)).accounts.lookup a = some ac) :
    0 ≤ ac.current := by
  obtain ⟨g, -, -, heq⟩ := proceedAccounts_spec t w
  refine proceedAccounts_current_nonneg h t (a := a) ?_
  rw [heq]
  exact ha

theorem StatRun.accounted (h : StatRun w st calls)
    (hmode : ∀ c ∈ calls, (configGetAccountLimit c.world.cfg a).mode ≠ .ignoreMode) :
    Accounted a calls st := by
  induction h with
  | start cfg => exact .init a
  | step _ _ ih => exact ih hmode
  | tick t i hrun hon ih =>
      have hinv := hrun.reachable.daemonInv
      have hold := ih fun c hc => hmode c (List.mem_append_left _ hc)
      have hcall := hold.call ((hinv.gatherStats t).analyzeAccounts t).owns
        (hmode _ (List.mem_append_right _ (List.mem_singleton.mpr rfl)))
        (fun ac hac => analyzeAccounts_current_nonneg hinv t hac) i
      rw [proceedAccountsStats]
      dsimp only
      rw [if_pos hon]
      exact hcall

end Runs

/-- For an account that is never ignored, what the renamed files and the table hold is what the
calls had to add, and a call whose write does not succeed keeps the records, the start of the
period and the files. -/
theorem usage_exported_once {w : World} {st : Statistics} {calls : List StatCall}
    (h : StatRun w st calls) (a : Username)
    (hmode : ∀ c ∈ calls, (configGetAccountLimit c.world.cfg a).mode ≠ .ignoreMode) :
    (∀ f : IoField, st.exported f a + st.held f a = (calls.map (StatCall.amount f a)).sum) ∧
      ∀ c : StatCall, c.result.1 = false →
        c.result.2.dbGovStatitrics = (addStatitrics c.input c.world c.stats).dbGovStatitrics ∧
        c.result.2.oldTm = startTm c.stats.oldTm c.input.newTm ∧
        c.result.2.files = c.stats.files := by
  refine ⟨(h.accounted hmode).total, ?_⟩
  intro c hfailed
  obtain ⟨hfiles, htm⟩ := addStatitrics_frame c.input c.world c.stats
  rw [result_of_not_written hfailed]
  exact ⟨rfl, htm, hfiles⟩

/-! ### Three calls -/

/-- A call at a time, with the answers of `fopen` and `rename`. -/
def sampleStatInput (newTm : ℚ) (opened renamed : Bool) : StatInput :=
  ⟨newTm, fun _ => 0, .asListed, .asListed, opened, renamed⟩

/-- A second in which a user reads, and the tick at its end. -/
def exportTick (k : ℕ) (i : StatInput) (s : World × Statistics) : World × Statistics :=
  proceedAccountsStats (sampleTickInput k) i (incrementCounters sampleUser 0 700 0 k s.1) s.2

/-- The first call begins the period. -/
def begunState : World × Statistics :=
  exportTick 0 (sampleStatInput 1000000 true true) (World.init (shippedConfig true), .init)

/-- The second cannot rename its file. -/
def unrenamedState : World × Statistics :=
  exportTick 1 (sampleStatInput 1000061 true false) begunState

/-- The third can. -/
def exportedState : World × Statistics :=
  exportTick 2 (sampleStatInput 1000122 true true) unrenamedState

/-- The calls of a tick of `exportTick`. -/
def exportCall (k : ℕ) (i : StatInput) (s : World × Statistics) : StatCall :=
  ⟨i, analyzeAccounts (sampleTickInput k)
    (gatherStats (sampleTickInput k) (incrementCounters sampleUser 0 700 0 k s.1)), s.2⟩

theorem StatRun.exportTick {s : World × Statistics} {calls : List StatCall}
    (h : StatRun s.1 s.2 calls) (k : ℕ) (i : StatInput)
    (hon : (exportCall k i s).world.cfg.statisticMode = true) :
    StatRun (exportTick k i s).1 (exportTick k i s).2 (calls ++ [exportCall k i s]) :=
  .tick (sampleTickInput k) i (.step h (.increment sampleUser 0 700 0 k s.1)) hon

def exportCalls : List StatCall :=
  [exportCall 0 (sampleStatInput 1000000 true true) (World.init (shippedConfig true), .init),
    exportCall 1 (sampleStatInput 1000061 true false) begunState,
    exportCall 2 (sampleStatInput 1000122 true true) unrenamedState]

theorem exportedState_run : StatRun exportedState.1 exportedState.2 exportCalls :=
  (((StatRun.start (shippedConfig true)).exportTick (s := (_, _)) 0 _
    (by decide +kernel)).exportTick 1 _ (by decide +kernel)).exportTick 2 _ (by decide +kernel)

theorem usage_exported_once_sample :
    exportedState.2.exported .read sampleUser + exportedState.2.held .read sampleUser =
      (exportCalls.map (StatCall.amount .read sampleUser)).sum :=
  (usage_exported_once exportedState_run sampleUser (by decide +kernel)).1 .read

end DbGovernor
