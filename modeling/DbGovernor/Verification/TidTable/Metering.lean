import DbGovernor.Model.Metering
import DbGovernor.Verification.Daemon.TickTrace
import DbGovernor.Verification.Shared.KeyedPartition
import DbGovernor.Verification.TidTable.Charges
import Mathlib.Algebra.BigOperators.Ring.Finset
import Mathlib.Algebra.Order.BigOperators.Group.Finset

/-!
# What the threads used and what the ticks take

The ticks take every amount that was charged, and take it once. As long as the monitor does not
charge a thread that the server has in hand, no thread is charged more than it used, over all its
statements.
-/

namespace DbGovernor

open Rounding (fl Near near_self)

/-! ### Readings and charges -/

/-- The amount that was charged to a thread. -/
def Metering.charged (s : Metering) (tid : ℤ) (f : UsageField) : ℤ :=
  ((s.increments.filter fun i => i.1 = tid).map fun i => i.2.get f).sum

/-- The amount by which the readings of a thread have grown. -/
def Metering.used (s : Metering) (tid : ℤ) (f : UsageField) : ℤ :=
  match s.seen tid with
  | none => 0
  | some seen => seen.last.get f - seen.first.get f

/-- The thread of the message that the server has in hand. -/
def ServerWork.tid : ServerWork → Option ℤ
  | .idle => none
  | .copied message _ => some message.tid
  | .charged message => some message.tid

/-- The other threads of the daemon take their steps; the counters are changed by the steps of
their own. -/
def LegalStep (s : Metering) : MeterInput → Prop
  | .daemon w => DaemonStep s.world w ∧ w.counters = s.world.counters
  | _ => True

/-- What a statement begins with and what the monitor reads is no less than what was read of the
thread before. -/
def ReadingsGrow (s : Metering) : MeterInput → Prop
  | .message message _ =>
      message.type = 0 → ∀ seen ∈ s.seen message.tid, ∀ f, seen.last.get f ≤ message.get f
  | .visit tid v =>
      ∀ usage ∈ v.reading, ∀ seen ∈ s.seen tid, ∀ f, seen.last.get f ≤ usage.get f
  | _ => True

/-- The monitor charges the thread that the server has in hand. -/
def ChargesInHand (s : Metering) : MeterInput → Prop
  | .visit tid v =>
      s.server.tid = some tid ∧ v.reading.isSome ∧
        ∃ item ∈ s.threadsList.lookup tid, v.due item = true
  | _ => False

instance (s : Metering) : ∀ i, Decidable (ReadingsGrow s i)
  | .message _ _ => inferInstanceAs (Decidable (_ → ∀ _ ∈ _, ∀ _, _ ≤ _))
  | .visit _ _ => inferInstanceAs (Decidable (∀ _ ∈ _, ∀ _ ∈ _, ∀ _, _ ≤ _))
  | .addToCounters _ | .removeTidData | .removeTidDataByFd _ _ | .removeBad | .tick _
  | .daemon _ => inferInstanceAs (Decidable True)

instance (s : Metering) : ∀ i, Decidable (ChargesInHand s i)
  | .visit _ _ => inferInstanceAs (Decidable (_ ∧ _ ∧ ∃ _ ∈ _, _))
  | .message _ _ | .addToCounters _ | .removeTidData | .removeTidDataByFd _ _ | .removeBad
  | .tick _ | .daemon _ => inferInstanceAs (Decidable False)

section Readings

variable (s : Metering) (tid : ℤ) (f : UsageField)

theorem ThreadUsage.get_max (a b : ThreadUsage) : (a.max b).get f = Max.max (a.get f) (b.get f) := by
  cases f <;> rfl

@[simp] theorem charged_see (tid' : ℤ) (usage : ThreadUsage) :
    (s.see tid' usage).charged tid f = s.charged tid f := rfl

theorem see_seen_of_ne {tid' : ℤ} (h : tid ≠ tid') (usage : ThreadUsage) :
    (s.see tid' usage).seen tid = s.seen tid := Function.update_of_ne h _ _

theorem see_seen_none (usage : ThreadUsage) (h : s.seen tid = none) :
    (s.see tid usage).seen tid = some ⟨usage, usage⟩ := by
  simp only [Metering.see, Function.update_self, h]

theorem see_seen_some (usage : ThreadUsage) {old : Seen} (h : s.seen tid = some old) :
    (s.see tid usage).seen tid = some ⟨old.first, old.last.max usage⟩ := by
  simp only [Metering.see, Function.update_self, h]

theorem charged_increment (tid' : ℤ) (i : CounterIncrement) :
    (s.increment tid' i).charged tid f = s.charged tid f + if tid' = tid then i.get f else 0 := by
  simp only [Metering.charged, Metering.increment, List.filter_append, List.map_append,
    List.sum_append]
  by_cases h : tid' = tid <;> simp [h]

end Readings

/-! ### One thread -/

section Thread

variable {s s' : Metering} {tid : ℤ} {f : UsageField}

/-- A baseline covers what was charged since the first reading. -/
def Metering.Covered (s : Metering) (tid : ℤ) (f : UsageField) (x : Seen) (item : TidTable) :
    Prop :=
  x.first.get f + s.charged tid f ≤ item.get f ∧ item.get f ≤ x.last.get f

/-- The entry of a thread covers its charges, but for the time in which the server has charged it
and not removed it yet. The copy of the server covers them as well. -/
inductive MeterInv (tid : ℤ) (f : UsageField) (s : Metering) : Prop where
  | unseen (seen : s.seen tid = none) (entry : s.threadsList.lookup tid = none)
      (charged : s.charged tid f = 0)
      (copy : ∀ m old, s.server = .copied m (some old) → m.tid ≠ tid)
  | seen (x : Seen) (seen : s.seen tid = some x)
      (total : x.first.get f + s.charged tid f ≤ x.last.get f)
      (entry : ∀ item ∈ s.threadsList.lookup tid,
        (∀ m, s.server = .charged m → m.tid ≠ tid) → s.Covered tid f x item)
      (copy : ∀ m old, s.server = .copied m (some old) → m.tid = tid → s.Covered tid f x old)

theorem MeterInv.charged_le_used (h : MeterInv tid f s) : s.charged tid f ≤ s.used tid f := by
  cases h with
  | unseen seen entry charged copy => rw [Metering.used, seen, charged]
  | seen x seen total entry copy =>
      rw [Metering.used, seen]
      dsimp only
      omega

theorem MeterInv.init (cfg : GovernorConfig) : MeterInv tid f (.init cfg) :=
  .unseen rfl rfl rfl (fun _ _ hserver => by cases hserver)

/-- A step that leaves the readings and the charges of the thread alone, takes its entry at most
away, and gives the server nothing new. -/
theorem MeterInv.frame (h : MeterInv tid f s) (hseen : s'.seen tid = s.seen tid)
    (hcharged : s'.charged tid f = s.charged tid f)
    (hentry : s'.threadsList.lookup tid = s.threadsList.lookup tid ∨
      s'.threadsList.lookup tid = none)
    (hcopy : ∀ m old, s'.server = .copied m (some old) → s.server = .copied m (some old))
    (hheld : ∀ m, s.server = .charged m → m.tid = tid →
      s'.server = .charged m ∨ s'.threadsList.lookup tid = none) :
    MeterInv tid f s' := by
  cases h with
  | unseen seen entry charged copy =>
      refine .unseen (hseen.trans seen) ?_ (hcharged.trans charged) ?_
      · rcases hentry with hsame | hnone
        · exact hsame.trans entry
        · exact hnone
      · exact fun m old hserver => copy m old (hcopy m old hserver)
  | seen x seen total entry copy =>
      refine .seen x (hseen.trans seen) (by rwa [hcharged]) ?_ ?_
      · intro item hitem hout
        rw [Metering.Covered, hcharged]
        rcases hentry with hsame | hnone
        · refine entry item (hsame ▸ hitem) fun m hm htid => ?_
          rcases hheld m hm htid with hstill | hnone
          · exact hout m hstill htid
          · rw [hnone] at hitem
            cases hitem
        · rw [hnone] at hitem
          cases hitem
      · intro m old hserver htid
        rw [Metering.Covered, hcharged]
        exact copy m old (hcopy m old hserver) htid

/-- A step that changes neither the entry of the thread nor what the server has in hand. -/
theorem MeterInv.frame_server (h : MeterInv tid f s) (hseen : s'.seen tid = s.seen tid)
    (hcharged : s'.charged tid f = s.charged tid f)
    (hentry : s'.threadsList.lookup tid = s.threadsList.lookup tid ∨
      s'.threadsList.lookup tid = none) (hserver : s'.server = s.server) : MeterInv tid f s' :=
  h.frame hseen hcharged hentry (fun _ _ hm => hserver ▸ hm)
    fun _ hm _ => .inl (hserver.trans hm)

theorem lookup_erase_or (threads : ThreadsList) (tid tid' : ℤ) :
    (threads.erase tid').lookup tid = threads.lookup tid ∨
      (threads.erase tid').lookup tid = none := by
  by_cases h : tid = tid'
  · subst h
    exact .inr (AList.lookup_erase tid threads)
  · exact .inl (AList.lookup_erase_ne h)

theorem lookup_foldl_funcRemove (fd tid : ℤ) (visited : List ℤ) (threads : ThreadsList) :
    (visited.foldl (funcRemove fd) threads).lookup tid = threads.lookup tid ∨
      (visited.foldl (funcRemove fd) threads).lookup tid = none := by
  induction visited generalizing threads with
  | nil => exact .inl rfl
  | cons tid' visited ih =>
      have hone : (funcRemove fd threads tid').lookup tid = threads.lookup tid ∨
          (funcRemove fd threads tid').lookup tid = none := by
        rw [funcRemove]
        split
        · exact .inl rfl
        · split
          · exact lookup_erase_or threads tid tid'
          · exact .inl rfl
      rcases ih (funcRemove fd threads tid') with hrest | hrest
      · rw [List.foldl_cons, hrest]
        exact hone
      · exact .inr hrest

/-- A message that begins a statement is the new baseline, unless the entry is ahead of it. -/
theorem get_addNewTidData (message : ClientData) (fd : ℤ) (item : Option TidTable)
    (hitem : ∀ old ∈ item, old.get f ≤ message.get f) :
    (addNewTidData message fd item).get f = message.get f := by
  cases item with
  | none => cases f <;> rfl
  | some old =>
      have hold := hitem old rfl
      cases f <;> simp only [ThreadUsage.get, addNewTidData, loadNewTidStats] at hold ⊢ <;>
        split <;> omega

theorem MeterInv.beginStatement (h : MeterInv tid f s) (hidle : s.server = .idle)
    (message : ClientData) (fd : ℤ)
    (hgrow : ∀ seen ∈ s.seen message.tid, ∀ f, seen.last.get f ≤ message.get f) :
    MeterInv tid f (s.beginStatement message fd) := by
  by_cases htid : tid = message.tid
  · subst htid
    have hlookup : (s.beginStatement message fd).threadsList.lookup message.tid =
        some (addNewTidData message fd (s.threadsList.lookup message.tid)) :=
      AList.lookup_insert _
    have hserver : (s.beginStatement message fd).server = .idle := hidle
    have hcharged : (s.beginStatement message fd).charged message.tid f =
        s.charged message.tid f := rfl
    cases h with
    | unseen seen entry charged copy =>
        have hitem := get_addNewTidData (f := f) message fd (s.threadsList.lookup message.tid)
          (by simp [entry])
        refine .seen ⟨message.toThreadUsage, message.toThreadUsage⟩
          (see_seen_none s message.tid _ seen) ?_ ?_ ?_
        · rw [hcharged, charged, add_zero]
        · intro item hmem _
          rw [hlookup] at hmem
          obtain rfl := Option.some.inj hmem
          rw [Metering.Covered, hitem, hcharged, charged, add_zero]
          exact ⟨le_rfl, le_rfl⟩
        · intro m old hm
          rw [hserver] at hm
          cases hm
    | seen x seen total entry copy =>
        have hlast := hgrow x seen f
        have hitem := get_addNewTidData (f := f) message fd (s.threadsList.lookup message.tid)
          (fun old hold =>
            (entry old hold fun m hm => by rw [hidle] at hm; cases hm).2.trans hlast)
        have hnew : (x.last.max message.toThreadUsage).get f = message.get f := by
          rw [ThreadUsage.get_max, max_eq_right hlast]
        refine .seen ⟨x.first, x.last.max message.toThreadUsage⟩
          (see_seen_some s message.tid _ seen) ?_ ?_ ?_
        · rw [hcharged, hnew]
          exact total.trans hlast
        · intro item hmem _
          rw [hlookup] at hmem
          obtain rfl := Option.some.inj hmem
          rw [Metering.Covered, hitem, hcharged, hnew]
          exact ⟨total.trans hlast, le_rfl⟩
        · intro m old hm
          rw [hserver] at hm
          cases hm
  · exact h.frame_server (see_seen_of_ne s tid htid _) rfl
      (.inl (AList.lookup_insert_ne htid)) rfl

theorem MeterInv.copy (h : MeterInv tid f s) (hidle : s.server = .idle) (message : ClientData) :
    MeterInv tid f
      { s with server := .copied message (s.threadsList.lookup message.tid) } := by
  cases h with
  | unseen seen entry charged copy =>
      refine .unseen seen entry charged ?_
      rintro m old hm rfl
      obtain ⟨rfl, hlookup⟩ := ServerWork.copied.inj hm
      rw [entry] at hlookup
      cases hlookup
  | seen x seen total entry copy =>
      have hentry : ∀ item ∈ s.threadsList.lookup tid, s.Covered tid f x item :=
        fun item hitem => entry item hitem fun m hm => by rw [hidle] at hm; cases hm
      refine .seen x seen total (fun item hitem _ => hentry item hitem) ?_
      rintro m old hm rfl
      obtain ⟨rfl, hlookup⟩ := ServerWork.copied.inj hm
      exact hentry old hlookup

theorem MeterInv.charge (h : MeterInv tid f s) {message : ClientData} {old : TidTable}
    (hserver : s.server = .copied message (some old)) (newTm : ℚ) :
    MeterInv tid f { (s.increment message.tid
      (clacStatsDifferenceAddToCounters message old newTm)).see message.tid
        message.toThreadUsage with server := .charged message } := by
  have hcharge := charged_increment s tid f message.tid
    (clacStatsDifferenceAddToCounters message old newTm)
  by_cases htid : message.tid = tid
  · subst htid
    rw [if_pos rfl] at hcharge
    cases h with
    | unseen seen entry charged copy => exact (copy message old hserver rfl).elim
    | seen x seen total entry copy =>
        have hle := get_clacStatsDifference_le message.toThreadUsage old newTm f
        obtain ⟨hbase, hlast⟩ := copy message old hserver rfl
        refine .seen ⟨x.first, x.last.max message.toThreadUsage⟩
          (see_seen_some _ message.tid _ seen) ?_ ?_ ?_
        · have htotal : x.first.get f + (s.charged message.tid f +
              (clacStatsDifferenceAddToCounters message old newTm).get f) ≤
              Max.max (x.last.get f) (message.get f) := by
            rw [clacStatsDifferenceAddToCounters]
            omega
          rw [← hcharge, ← ThreadUsage.get_max] at htotal
          exact htotal
        · intro item _ hout
          exact (hout message rfl rfl).elim
        · intro m old' hm
          cases hm
  · have hne : tid ≠ message.tid := fun heq => htid heq.symm
    rw [if_neg htid, add_zero] at hcharge
    refine h.frame (see_seen_of_ne _ tid hne _) hcharge (.inl rfl) (fun m old' hm => by cases hm) ?_
    intro m hm
    rw [hserver] at hm
    cases hm

theorem MeterInv.visit (h : MeterInv tid f s) (tid' : ℤ) (v : MonitorVisit)
    (hgrow : ReadingsGrow s (.visit tid' v)) (hhand : ¬ ChargesInHand s (.visit tid' v)) :
    MeterInv tid f (s.visit tid' v) := by
  rw [Metering.visit]
  split
  · exact h
  · rename_i item hitem
    split
    · rename_i hdue
      split
      · exact h.frame_server rfl rfl (.inl rfl) rfl
      · rename_i usage husage
        have hcharge := charged_increment s tid f tid'
          (clacStatsDifferenceInnerAddToCounters usage item v.newTm)
        by_cases htid : tid' = tid
        · subst htid
          rw [if_pos rfl] at hcharge
          have hout : s.server.tid ≠ some tid' := fun hserver =>
            hhand ⟨hserver, by rw [husage]; rfl, item, hitem, hdue⟩
          cases h with
          | unseen seen entry charged copy =>
              rw [entry] at hitem
              cases hitem
          | seen x seen total entry copy =>
              have hle := get_clacStatsDifference_le usage item v.newTm f
              have hlast := hgrow usage husage x seen f
              obtain ⟨hbase, hitemLast⟩ := entry item hitem fun m hm htid =>
                hout (by rw [hm, ← htid]; rfl)
              have hnew : (x.last.max usage).get f = usage.get f := by
                rw [ThreadUsage.get_max, max_eq_right hlast]
              have htotal : x.first.get f + (s.charged tid' f +
                  (clacStatsDifferenceInnerAddToCounters usage item v.newTm).get f) ≤
                  usage.get f := by omega
              rw [← hcharge] at htotal
              refine .seen ⟨x.first, x.last.max usage⟩ (see_seen_some _ tid' usage seen) ?_ ?_ ?_
              · exact htotal.trans_eq hnew.symm
              · intro item' hmem _
                obtain rfl := Option.some.inj ((AList.lookup_insert _).symm.trans hmem)
                exact ⟨htotal, hnew.symm.le⟩
              · intro m old hm htid
                exact (hout (by rw [← htid]; exact congrArg ServerWork.tid hm)).elim
        · have hne : tid ≠ tid' := fun heq => htid heq.symm
          rw [if_neg htid, add_zero] at hcharge
          exact h.frame_server (see_seen_of_ne _ tid hne usage) hcharge
            (.inl (AList.lookup_insert_ne hne)) rfl
    · exact h

theorem MeterInv.apply (h : MeterInv tid f s) (i : MeterInput) (hgrow : ReadingsGrow s i)
    (hhand : ¬ ChargesInHand s i) : MeterInv tid f (s.apply i) := by
  cases i with
  | message message fd =>
      rw [Metering.apply]
      split
      · rename_i hidle
        split
        · rename_i htype
          exact h.beginStatement hidle message fd (hgrow htype)
        · exact h.copy hidle message
      · exact h
  | addToCounters newTm =>
      rw [Metering.apply]
      split
      · rename_i message old hserver
        exact h.charge hserver newTm
      · rename_i message hserver
        refine h.frame rfl rfl (.inl rfl) (fun m old hm => by cases hm) ?_
        intro m hm
        rw [hserver] at hm
        cases hm
      · exact h
  | removeTidData =>
      rw [Metering.apply]
      split
      · rename_i message hserver
        refine h.frame rfl rfl (lookup_erase_or s.threadsList tid message.tid)
          (fun m old hm => by cases hm) ?_
        intro m hm htid
        obtain rfl := ServerWork.charged.inj (hserver.symm.trans hm)
        exact .inr (htid ▸ AList.lookup_erase message.tid s.threadsList)
      · exact h
  | removeTidDataByFd fd visited =>
      rw [Metering.apply]
      split
      · exact h.frame_server rfl rfl (lookup_foldl_funcRemove fd tid visited s.threadsList) rfl
      · exact h
  | visit tid' v => exact h.visit tid' v hgrow hhand
  | removeBad =>
      rw [Metering.apply]
      split
      · exact h
      · rename_i tid' rest _
        exact h.frame_server rfl rfl (lookup_erase_or s.threadsList tid tid') rfl
  | tick t => exact h.frame_server rfl rfl (.inl rfl) rfl
  | daemon w => exact h.frame_server rfl rfl (.inl rfl) rfl

end Thread

/-! ### All users -/

/-- The figure of one counter, as a rational. -/
def Stats.get (st : Stats) : UsageField → ℚ
  | .cpu => st.cpu
  | .read => st.read
  | .write => st.write

/-- What stands in a table of counters for a user. -/
def counterOf (counters : HashTable StatCounters) (u : Username) (f : UsageField) : ℚ :=
  match counters.lookup u with
  | none => 0
  | some item => item.s.get f

/-- What the ticks have taken from the counters of a user. -/
def Metering.takenOf (s : Metering) (u : Username) (f : UsageField) : ℚ :=
  (s.ticks.map fun tick => counterOf tick.2.counters u f).sum

/-- What was charged to a user. -/
def Metering.chargedTo (s : Metering) (u : Username) (f : UsageField) : ℤ :=
  ((s.increments.filter fun i => i.2.username = u).map fun i => i.2.get f).sum

section Counters

variable {s : Metering} {u : Username} {f : UsageField}

theorem chargedTo_increment (s : Metering) (tid : ℤ) (i : CounterIncrement) (u : Username)
    (f : UsageField) :
    (s.increment tid i).chargedTo u f = s.chargedTo u f + if i.username = u then i.get f else 0 := by
  simp only [Metering.chargedTo, Metering.increment, List.filter_append, List.map_append,
    List.sum_append]
  by_cases h : i.username = u <;> simp [h]

theorem counterOf_incrementCounters (i : CounterIncrement) (w : World) (u : Username)
    (f : UsageField) :
    counterOf (incrementCounters i.username i.cpu i.read i.write i.tm w).counters u f =
      counterOf w.counters u f + if i.username = u then (i.get f : ℚ) else 0 := by
  rw [counterOf, counterOf, incrementCounters]
  by_cases hu : i.username = u
  · subst hu
    rw [if_pos rfl]
    cases w.counters.lookup i.username with
    | none =>
        simp only [AList.lookup_insert, zero_add]
        cases f <;> rfl
    | some item =>
        simp only [AList.lookup_insert]
        cases f <;> simp [Stats.get, ThreadUsage.get]
  · have hne : u ≠ i.username := fun heq => hu heq.symm
    rw [if_neg hu, add_zero]
    cases w.counters.lookup i.username <;> simp only [AList.lookup_insert_ne hne]

theorem counterOf_proceedAccounts {w : World} (h : DaemonInv w) (t : TickInput) (u : Username)
    (f : UsageField) : counterOf (proceedAccounts t w).counters u f = 0 := by
  rw [counterOf, (oneSample h t).counters]
  cases w.counters.lookup u with
  | none => rfl
  | some item => cases f <;> simp [Stats.get, resetStats]

end Counters

/-! ### What a step can do to the counters -/

/-- The effect of a step on the daemon and on the histories of charges and ticks. -/
inductive CounterEffect (s s' : Metering) : Prop where
  | same (world : s'.world = s.world) (ticks : s'.ticks = s.ticks)
      (increments : s'.increments = s.increments)
  | charged (tid : ℤ) (usage : ThreadUsage) (old : TidTable) (newTm : ℚ)
      (world : s'.world =
        (s.increment tid (clacStatsDifferenceInnerAddToCounters usage old newTm)).world)
      (ticks : s'.ticks = s.ticks)
      (increments : s'.increments =
        (s.increment tid (clacStatsDifferenceInnerAddToCounters usage old newTm)).increments)
  | ticked (t : TickInput) (world : s'.world = proceedAccounts t s.world)
      (ticks : s'.ticks = s.ticks ++ [(t, s.world)]) (increments : s'.increments = s.increments)
  | daemon (step : DaemonStep s.world s'.world) (counters : s'.world.counters = s.world.counters)
      (ticks : s'.ticks = s.ticks) (increments : s'.increments = s.increments)

theorem apply_counterEffect (s : Metering) (i : MeterInput) (hlegal : LegalStep s i) :
    CounterEffect s (s.apply i) := by
  cases i with
  | message message fd =>
      rw [Metering.apply]
      split
      · split <;> exact .same rfl rfl rfl
      · exact .same rfl rfl rfl
  | addToCounters newTm =>
      rw [Metering.apply]
      split
      · rename_i message old _
        exact .charged message.tid message.toThreadUsage old newTm rfl rfl rfl
      · exact .same rfl rfl rfl
      · exact .same rfl rfl rfl
  | removeTidData =>
      rw [Metering.apply]
      split <;> exact .same rfl rfl rfl
  | removeTidDataByFd fd visited =>
      rw [Metering.apply]
      split <;> exact .same rfl rfl rfl
  | visit tid v =>
      rw [Metering.apply, Metering.visit]
      split
      · exact .same rfl rfl rfl
      · rename_i item _
        split
        · split
          · exact .same rfl rfl rfl
          · rename_i usage _
            exact .charged tid usage item v.newTm rfl rfl rfl
        · exact .same rfl rfl rfl
  | removeBad =>
      rw [Metering.apply]
      split <;> exact .same rfl rfl rfl
  | tick t => exact .ticked t rfl rfl rfl
  | daemon w => exact .daemon hlegal.1 hlegal.2 rfl rfl

theorem chargedAmount_nonneg (new old : ℤ) {dt : ℚ} (hdt : 0 < dt) :
    0 ≤ chargedAmount new old dt := by
  have htmp : (0 : ℤ) ≤ if new ≥ old then new - old else 0 := by
    split <;> omega
  rw [chargedAmount]
  split
  · exact Int.floor_nonneg.mpr (div_nonneg (by exact_mod_cast htmp) hdt.le)
  · exact htmp

theorem get_clacStatsDifference_nonneg (usage : ThreadUsage) (old : TidTable) (newTm : ℚ)
    (f : UsageField) : 0 ≤ (clacStatsDifferenceInnerAddToCounters usage old newTm).get f := by
  rw [clacStatsDifferenceInnerAddToCounters]
  split
  · rename_i hlt
    have hdt : 0 < newTm - old.tm := sub_pos.mpr hlt
    cases f <;> exact chargedAmount_nonneg _ _ hdt
  · cases f <;> exact le_rfl

/-! ### Whole runs -/

/-- The figures of every counter are whole and not negative. -/
def WholeCounters (w : World) : Prop :=
  ∀ u item, w.counters.lookup u = some item →
    (∃ cpu : ℕ, item.s.cpu = cpu) ∧ 0 ≤ item.s.read ∧ 0 ≤ item.s.write

/-- Every amount that was charged to a user is in its counter or was found there by one tick. -/
structure TakenInv (s : Metering) : Prop where
  daemon : DaemonInv s.world
  whole : WholeCounters s.world
  ticked : ∀ tick ∈ s.ticks, DaemonInv tick.2 ∧ WholeCounters tick.2
  taken : ∀ u f, s.takenOf u f + counterOf s.world.counters u f = s.chargedTo u f

/-- No amount that is charged is negative. -/
def ChargesNonneg (s : Metering) : Prop := ∀ i ∈ s.increments, ∀ f, 0 ≤ i.2.get f

section Runs

variable {s s' : Metering}

theorem WholeCounters.increment {w : World} (h : WholeCounters w) {i : CounterIncrement}
    (hi : ∀ f, 0 ≤ i.get f) :
    WholeCounters (incrementCounters i.username i.cpu i.read i.write i.tm w) := by
  obtain ⟨n, hn⟩ := Int.eq_ofNat_of_zero_le (hi .cpu)
  have hcpu : i.cpu = n := hn
  intro u item hitem
  cases hold : w.counters.lookup i.username with
  | none =>
      simp only [incrementCounters, hold] at hitem
      rcases lookup_insert_cases hitem with ⟨-, rfl⟩ | ⟨-, hitem⟩
      · exact ⟨⟨n, by simp [hcpu]⟩, hi .read, hi .write⟩
      · exact h u item hitem
  | some old =>
      simp only [incrementCounters, hold] at hitem
      rcases lookup_insert_cases hitem with ⟨-, rfl⟩ | ⟨-, hitem⟩
      · obtain ⟨⟨m, hm⟩, hread, hwrite⟩ := h _ old hold
        exact ⟨⟨m + n, by simp [hcpu, hm]⟩, add_nonneg hread (hi .read),
          add_nonneg hwrite (hi .write)⟩
      · exact h u item hitem

theorem WholeCounters.proceedAccounts {w : World} (h : DaemonInv w) (t : TickInput) :
    WholeCounters (proceedAccounts t w) := by
  intro u item hitem
  rw [(oneSample h t).counters] at hitem
  obtain ⟨-, -, rfl⟩ := Option.map_eq_some_iff.mp hitem
  exact ⟨⟨0, Nat.cast_zero.symm⟩, le_refl 0, le_refl 0⟩

theorem TakenInv.init (cfg : GovernorConfig) : TakenInv (.init cfg) := by
  refine ⟨DaemonInv.init cfg, fun u item hitem => ?_, fun tick htick => ?_, fun u f => ?_⟩
  · simp [Metering.init, World.init] at hitem
  · simp [Metering.init] at htick
  · simp [Metering.takenOf, Metering.chargedTo, Metering.init, counterOf, World.init]

theorem TakenInv.step (h : TakenInv s) (heffect : CounterEffect s s') : TakenInv s' := by
  cases heffect with
  | same world ticks increments =>
      refine ⟨world ▸ h.daemon, world ▸ h.whole, ticks ▸ h.ticked, fun u f => ?_⟩
      rw [Metering.takenOf, Metering.chargedTo, world, ticks, increments]
      exact h.taken u f
  | charged tid usage old newTm world ticks increments =>
      have hnonneg := get_clacStatsDifference_nonneg usage old newTm
      generalize clacStatsDifferenceInnerAddToCounters usage old newTm = i at *
      rw [Metering.increment] at world
      refine ⟨world ▸ h.daemon.incrementCounters _ _ _ _ _, world ▸ h.whole.increment hnonneg,
        ticks ▸ h.ticked, fun u f => ?_⟩
      have hcharged : s'.chargedTo u f = (s.increment tid i).chargedTo u f := by
        rw [Metering.chargedTo, Metering.chargedTo, increments]
      have htaken : s'.takenOf u f = s.takenOf u f := by
        rw [Metering.takenOf, Metering.takenOf, ticks]
      rw [hcharged, htaken, world, counterOf_incrementCounters, chargedTo_increment, ← add_assoc,
        h.taken]
      split <;> simp
  | ticked t world ticks increments =>
      refine ⟨world ▸ h.daemon.proceedAccounts t, world ▸ .proceedAccounts h.daemon t, ?_,
        fun u f => ?_⟩
      · rw [ticks]
        intro tick htick
        rcases List.mem_append.mp htick with hold | hnew
        · exact h.ticked tick hold
        · obtain rfl := List.mem_singleton.mp hnew
          exact ⟨h.daemon, h.whole⟩
      · have htaken : s'.takenOf u f = s.takenOf u f + counterOf s.world.counters u f := by
          simp [Metering.takenOf, ticks]
        rw [htaken, world, counterOf_proceedAccounts h.daemon, add_zero, Metering.chargedTo,
          increments]
        exact h.taken u f
  | daemon step counters ticks increments =>
      refine ⟨h.daemon.step step, ?_, ticks ▸ h.ticked, fun u f => ?_⟩
      · rw [WholeCounters, counters]
        exact h.whole
      · rw [Metering.takenOf, Metering.chargedTo, counters, ticks, increments]
        exact h.taken u f

theorem ChargesNonneg.step (h : ChargesNonneg s) (heffect : CounterEffect s s') :
    ChargesNonneg s' := by
  cases heffect with
  | same _ _ increments => exact fun i hi => h i (increments ▸ hi)
  | ticked _ _ _ increments => exact fun i hi => h i (increments ▸ hi)
  | daemon _ _ _ increments => exact fun i hi => h i (increments ▸ hi)
  | charged tid usage old newTm _ _ increments =>
      intro i hi f
      rw [increments] at hi
      rcases List.mem_append.mp hi with hold | hnew
      · exact h i hold f
      · obtain rfl := List.mem_singleton.mp hnew
        exact get_clacStatsDifference_nonneg usage old newTm f

end Runs

/-- The threads that were charged. -/
def Metering.tids (s : Metering) : Finset ℤ := (s.increments.map Prod.fst).toFinset

theorem sum_chargedTo_le {s : Metering} (h : ChargesNonneg s) (users : Finset Username)
    (f : UsageField) : ∑ u ∈ users, s.chargedTo u f ≤ ∑ tid ∈ s.tids, s.charged tid f := by
  have hthreads : ∑ tid ∈ s.tids, s.charged tid f = (s.increments.map fun i => i.2.get f).sum :=
    KeyedPartition.sum_fibres Prod.fst _ fun x hx =>
      List.mem_toFinset.mpr (List.mem_map_of_mem hx)
  rw [hthreads]
  exact KeyedPartition.sum_fibres_le (fun i : ℤ × CounterIncrement => i.2.username) _
    (fun x hx => h x hx f) users

/-! ### What a tick makes of a counter -/

/-- The sample that a tick takes from a counter: what it found per second since the counter was
started, the CPU in seconds, reads and writes rounded up. A tick whose clock has not passed the
start of the counter samples zero. -/
structure SampleOf (item : StatCounters) (tm : ℚ) (st : Stats) : Prop where
  cpu : 0 < fl (tm - item.tm) →
    Near 3 (item.s.cpu / max (fl (tm - item.tm)) 1 / scClkTck) st.cpu
  read : 0 < fl (tm - item.tm) →
    ∃ rate, Near 2 (item.s.read / max (fl (tm - item.tm)) 1) rate ∧ st.read = ⌈rate⌉
  write : 0 < fl (tm - item.tm) →
    ∃ rate, Near 2 (item.s.write / max (fl (tm - item.tm)) 1) rate ∧ st.write = ⌈rate⌉
  early : fl (tm - item.tm) ≤ 0 → st = 0

/-- After the tick the sample is in front of the ring of the user. -/
def HandsOn (t : TickInput) (w : World) (u : Username) (item : StatCounters) : Prop :=
  ∃ us, (proceedAccounts t w).users.lookup u = some us ∧
    (0 < us.stats.size → SampleOf item t.tm (fifoStatsGet us.stats 0))

theorem truncate_natCast (n : ℕ) : truncate n = n := by
  rw [truncate, if_neg (not_lt.mpr (Nat.cast_nonneg n)), Int.floor_natCast]

theorem near_rate {n : ℤ} (hn : 0 ≤ n) {seconds : ℚ} (hs : 0 < seconds) :
    Near 2 (n / seconds) (fl (fl n / seconds)) := by
  have hcast : (0 : ℚ) ≤ n := by exact_mod_cast hn
  exact (((near_self (n : ℚ)).fl hcast).div hs.le).fl (div_nonneg hcast hs.le)

theorem sampleOf_counterSample {item : StatCounters}
    (hwhole : (∃ cpu : ℕ, item.s.cpu = cpu) ∧ 0 ≤ item.s.read ∧ 0 ≤ item.s.write)
    (t : TickInput) : SampleOf item t.tm (counterSample t item) := by
  obtain ⟨⟨cpu, hcpu⟩, hread, hwrite⟩ := hwhole
  rw [counterSample, clacStatsDifferenceInnerFromCounter, hcpu, truncate_natCast]
  dsimp only
  by_cases htm : 0 < fl (t.tm - item.tm)
  · have hmax : (if fl (t.tm - item.tm) < 1 then 1 else fl (t.tm - item.tm)) =
        max (fl (t.tm - item.tm)) 1 := by
      rw [max_def]
      split_ifs <;> linarith
    have hpos : 0 < max (fl (t.tm - item.tm)) 1 := lt_max_of_lt_right one_pos
    rw [if_pos htm, hmax, if_pos hread, if_pos hwrite]
    refine ⟨fun _ => ?_, fun _ => ⟨_, near_rate hread hpos, rfl⟩,
      fun _ => ⟨_, near_rate hwrite hpos, rfl⟩, fun hle => absurd htm (not_lt.mpr hle)⟩
    rw [hcpu]
    have hclk : (0 : ℚ) ≤ scClkTck := by norm_num [scClkTck]
    have hrate := ((near_rate (Int.natCast_nonneg cpu) hpos).div hclk).fl
      (div_nonneg (div_nonneg (by exact_mod_cast Nat.zero_le cpu) hpos.le) hclk)
    dsimp only
    split
    · exact_mod_cast hrate
    · rename_i hzero
      obtain rfl : cpu = 0 := by omega
      simpa using (near_self (0 : ℚ)).mono (le_refl 0) (Nat.zero_le 3)
  · rw [if_neg htm]
    exact ⟨fun h => absurd h htm, fun h => absurd h htm, fun h => absurd h htm, fun _ => rfl⟩

theorem handsOn_of_lookup {w : World} (h : DaemonInv w) (hwhole : WholeCounters w) (t : TickInput)
    {u : Username} {item : StatCounters} (hitem : w.counters.lookup u = some item) :
    HandsOn t w u item := by
  have hsome : ((proceedAccounts t w).users.lookup u).isSome :=
    ((oneSample h t).present u).mpr (.inr (Option.isSome_of_mem hitem))
  obtain ⟨us, hus⟩ := Option.isSome_iff_exists.mp hsome
  refine ⟨us, hus, fun hsize => ?_⟩
  have hring := (oneSample h t).ring u us hus
  have hwf : (w.ring u).WellFormed := h.ring_wellFormed u
  have hsample : tickSample t w u = counterSample t item := by rw [tickSample, hitem]
  rw [hring] at hsize ⊢
  rw [fifoStatsGet_push_first hwf _ hsize, hsample]
  exact sampleOf_counterSample (hwhole u item hitem) t

/-- After every run, whatever the threads of the daemon do in between: for each user and each of
the three figures, what the ticks found in the counter and what still stands in it are together
what was charged to the user, and what a tick found it handed on to the ring of the user. -/
theorem ticks_take_charges_once (cfg : GovernorConfig) (inputs : List MeterInput)
    (hlegal : Runs.Meets Metering.apply LegalStep (.init cfg) inputs) (u : Username) :
    let s := inputs.foldl Metering.apply (.init cfg)
    (∀ f, s.takenOf u f + counterOf s.world.counters u f = s.chargedTo u f) ∧
      ∀ tick ∈ s.ticks, ∀ item, tick.2.counters.lookup u = some item →
        HandsOn tick.1 tick.2 u item := by
  have htaken : TakenInv (inputs.foldl Metering.apply (.init cfg)) :=
    hlegal.invariant (fun s i h hi => h.step (apply_counterEffect s i hi)) (.init cfg)
  refine ⟨htaken.taken u, fun tick htick item hitem => ?_⟩
  obtain ⟨hinv, hwhole⟩ := htaken.ticked tick htick
  exact handsOn_of_lookup hinv hwhole tick.1 hitem

/-- A statement that the monitor visits once, and a tick after it. -/
def sampleMetering : List MeterInput :=
  [.message (sampleMessage 0 0 0) 3, .visit 7 ⟨1, 600000000, some ⟨150, 0, 0⟩, 161 / 100⟩,
    .message (sampleMessage 1 150 1) 3, .addToCounters (17 / 10), .removeTidData,
    .tick ⟨2, fun _ => 2, 2, .asListed, .asListed, .asListed, .asListed, false⟩]

theorem sampleMetering_legal :
    Runs.Meets Metering.apply LegalStep (.init (shippedConfig false)) sampleMetering :=
  ⟨trivial, trivial, trivial, trivial, trivial, trivial, trivial⟩

/-- The tick takes the 93 ticks of CPU that the statement was charged, and hands them on. -/
theorem ticks_take_charges_once_sample :
    let s := sampleMetering.foldl Metering.apply (.init (shippedConfig false))
    s.takenOf (strlcpy [117]) .cpu = 93 ∧
      ∃ tick ∈ s.ticks, ∃ item ∈ tick.2.counters.lookup (strlcpy [117]),
        item.s.cpu = 93 ∧ HandsOn tick.1 tick.2 (strlcpy [117]) item := by
  intro s
  obtain ⟨hsum, hticks⟩ := ticks_take_charges_once (shippedConfig false) sampleMetering
    sampleMetering_legal (strlcpy [117])
  have hcharged : s.chargedTo (strlcpy [117]) .cpu = 93 := by decide +kernel
  have hleft : counterOf s.world.counters (strlcpy [117]) .cpu = 0 := by decide +kernel
  have htick : ∃ tick ∈ s.ticks, ∃ item ∈ tick.2.counters.lookup (strlcpy [117]),
      item.s.cpu = 93 := by
    decide +kernel
  constructor
  · have htaken := hsum .cpu
    rw [hleft, hcharged, add_zero] at htaken
    exact_mod_cast htaken
  · obtain ⟨tick, hmem, item, hitem, hcpu⟩ := htick
    exact ⟨tick, hmem, item, hitem, hcpu, hticks tick hmem item hitem⟩

/-- In a run in which the readings of each thread grow and the monitor charges no thread that the
server has in hand: what all users are charged, and with it what the ticks take, is at most what
the threads used, from the first reading of each to its highest one. -/
theorem taken_at_most_used (cfg : GovernorConfig) (inputs : List MeterInput)
    (hlegal : Runs.Meets Metering.apply LegalStep (.init cfg) inputs)
    (hgrow : Runs.Meets Metering.apply ReadingsGrow (.init cfg) inputs)
    (hhand : Runs.Meets Metering.apply (fun s i => ¬ ChargesInHand s i) (.init cfg) inputs)
    (users : Finset Username) (f : UsageField) :
    let s := inputs.foldl Metering.apply (.init cfg)
    ∑ u ∈ users, (s.takenOf u f + counterOf s.world.counters u f) ≤
      ∑ tid ∈ s.tids, (s.used tid f : ℚ) := by
  intro s
  have htaken : TakenInv s :=
    hlegal.invariant (fun s i h hi => h.step (apply_counterEffect s i hi)) (.init cfg)
  have hnonneg : ChargesNonneg s :=
    hlegal.invariant (fun s i h hi => h.step (apply_counterEffect s i hi)) (fun i hi => by cases hi)
  have hthread : ∀ tid, s.charged tid f ≤ s.used tid f := by
    intro tid
    have hmeter : MeterInv tid f s :=
      (Runs.meets_and.mpr ⟨hgrow, hhand⟩).invariant (fun _ i h hi => h.apply i hi.1 hi.2)
        (.init cfg)
    exact hmeter.charged_le_used
  have hsum : ∑ u ∈ users, s.chargedTo u f ≤ ∑ tid ∈ s.tids, s.used tid f :=
    (sum_chargedTo_le hnonneg users f).trans (Finset.sum_le_sum fun tid _ => hthread tid)
  calc ∑ u ∈ users, (s.takenOf u f + counterOf s.world.counters u f)
      = ∑ u ∈ users, (s.chargedTo u f : ℚ) := Finset.sum_congr rfl fun u _ => htaken.taken u f
    _ ≤ ∑ tid ∈ s.tids, (s.used tid f : ℚ) := by exact_mod_cast hsum

theorem taken_at_most_used_sample :
    let s := sampleMetering.foldl Metering.apply (.init (shippedConfig false))
    ∑ u ∈ {strlcpy [117]}, (s.takenOf u .cpu + counterOf s.world.counters u .cpu) ≤
      ∑ tid ∈ s.tids, (s.used tid .cpu : ℚ) :=
  taken_at_most_used (shippedConfig false) sampleMetering sampleMetering_legal
    (by decide +kernel) (by decide +kernel) {strlcpy [117]} .cpu

end DbGovernor
