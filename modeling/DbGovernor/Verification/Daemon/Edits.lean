import DbGovernor.Verification.Daemon.Sampling
import Mathlib.Logic.Relation

/-!
# Edits of the users and the accounts

Every step of the daemon is a sequence of edits of a few kinds. What each kind keeps, every
reachable state keeps.
-/

namespace DbGovernor

/-- One edit. Only in a tick is the number of the tick raised and the record of a registered
user written. -/
inductive Edit (ticking : Prop) : World → World → Prop where
  | frame (w w') : w'.users = w.users → w'.accounts = w.accounts →
      w'.userAccountTable = w.userAccountTable → w'.tickId = w.tickId → Edit ticking w w'
  | account (w a ac r) : w.accounts.lookup a = some ac → r.1.id = ac.id → r.1.users = ac.users →
      Edit ticking w (w.setAccount a r)
  | register (w u) : w.users.lookup u = none → Edit ticking w (addUserStats u w)
  | newTick (w) : ticking → Edit ticking w { w with tickId := w.tickId + 1 }
  | sample (w u us us') : ticking → w.users.lookup u = some us → us'.id = us.id →
      us'.account = us.account → Edit ticking w { w with users := w.users.insert u us' }

abbrev Edits (ticking : Prop) : World → World → Prop := Relation.ReflTransGen (Edit ticking)

/-! ### Registrations and functions of one account -/

section Parts

variable {ticking : Prop} {w : World}

theorem edits_frame {w' : World} (husers : w'.users = w.users)
    (haccounts : w'.accounts = w.accounts) (hhomes : w'.userAccountTable = w.userAccountTable)
    (htick : w'.tickId = w.tickId) :
    Edits ticking w w' :=
  .single (.frame w w' husers haccounts hhomes htick)

theorem edits_addEmptyStatsForUid (u : Username) (w : World) :
    Edits ticking w (addEmptyStatsForUid u w) := by
  cases hu : w.users.lookup u with
  | none => simpa [addEmptyStatsForUid, hu] using Relation.ReflTransGen.single (.register w u hu)
  | some us =>
      simp only [addEmptyStatsForUid, hu]
      exact .refl

theorem DaemonInv.foldl_edits {α : Type*} (h : DaemonInv w) {step : World → α → World}
    (hinv : ∀ w key, DaemonInv w → DaemonInv (step w key))
    (hstep : ∀ w key, DaemonInv w → Edits ticking w (step w key)) (keys : List α) :
    Edits ticking w (keys.foldl step w) := by
  induction keys generalizing w with
  | nil => exact .refl
  | cons key keys ih => exact (hstep w key h).trans (ih (hinv w key h))

theorem DaemonInv.onAccount_edits (h : DaemonInv w)
    {f : GovernorConfig → Account → Globals → Account × Globals}
    (hf : ∀ cfg ac g, g.Ready → Keeps ac g (f cfg ac g)) (a : Username) :
    Edits ticking w (w.onAccount f a) := by
  cases ha : w.accounts.lookup a with
  | none =>
      simp only [World.onAccount, ha]
      exact .refl
  | some ac =>
      have hk := hf w.cfg ac w.globals h.ready
      rw [World.onAccount_of_lookup ha]
      exact .single (.account w a ac _ ha hk.id_eq hk.users_eq)

theorem DaemonInv.foldl_onAccount_edits (h : DaemonInv w)
    {f : GovernorConfig → Account → Globals → Account × Globals}
    (hf : ∀ cfg ac g, g.Ready → Keeps ac g (f cfg ac g)) (keys : List Username) :
    Edits ticking w (keys.foldl (World.onAccount f) w) :=
  h.foldl_edits (fun _ key hw => hw.onAccount hf key) (fun _ key hw => hw.onAccount_edits hf key) keys

end Parts

/-! ### A tick -/

section Tick

variable {w : World}

theorem edits_addNewStats [Rounding] (u : Username) (st : Stats) (tickId : ℕ) (w : World) :
    Edits True w (addNewStats u st tickId w) := by
  have hreg : Edits True w (addEmptyStatsForUid u w) := edits_addEmptyStatsForUid u w
  rw [addNewStats]
  generalize addEmptyStatsForUid u w = w' at hreg ⊢
  cases hus : w'.users.lookup u with
  | none => simpa [hus] using hreg
  | some us =>
      refine hreg.tail ?_
      simp only
      split
      · exact .sample w' u us _ trivial hus rfl rfl
      · exact .sample w' u us _ trivial hus rfl rfl

theorem edits_addUserStatsFromCounter [Rounding] (t : TickInput) (w : World) (key : Username) :
    Edits True w (addUserStatsFromCounter t w key) := by
  cases hk : w.counters.lookup key with
  | none =>
      simp only [addUserStatsFromCounter, hk]
      exact .refl
  | some item =>
      simp only [addUserStatsFromCounter, hk]
      refine (edits_addNewStats key (counterSample t item) w.tickId w).trans ?_
      change Edits True _ (resetCounters key _ (addNewStats key (counterSample t item) w.tickId w))
      rw [resetCounters]
      split
      · exact .refl
      · exact edits_frame rfl rfl rfl rfl

theorem edits_tickEmptyUsers [Rounding] (w : World) (key : Username) : Edits True w
    (tickEmptyUsers w key) := by
  cases hk : w.users.lookup key with
  | none =>
      simp only [tickEmptyUsers, hk]
      exact .refl
  | some us =>
      simp only [tickEmptyUsers, hk]
      split
      · exact .single (.sample w key us _ trivial hk rfl rfl)
      · exact .refl

theorem edits_sampleUsers [Rounding] (h : DaemonInv w) (t : TickInput) : Edits True w
    (sampleUsers t w) := by
  have hfirst : ∀ w key, DaemonInv w → DaemonInv (addUserStatsFromCounter t w key) :=
    fun _ key hw => hw.addUserStatsFromCounter t key
  rw [sampleUsers]
  refine (Relation.ReflTransGen.single (.newTick w trivial)).trans ?_
  refine (h.nextTick.foldl_edits hfirst (fun w key _ => edits_addUserStatsFromCounter t w key)
    (t.ordCounters.order w.counters.keys)).trans ?_
  refine DaemonInv.foldl_edits ?_ (fun _ key hw => hw.tickEmptyUsers key)
    (fun w key _ => edits_tickEmptyUsers w key) _
  exact List.foldlRecOn _ _ h.nextTick fun w hw key _ => hfirst w key hw

theorem edits_gatherStats [Rounding] (h : DaemonInv w) (t : TickInput) : Edits True w
    (gatherStats t w) := by
  refine (edits_sampleUsers h t).trans ?_
  rw [gatherStats_eq]
  exact (h.sampleUsers t).foldl_onAccount_edits (fun _ ac _ hg => calcAccStats_keeps _ ac hg) _

theorem edits_proceedAccounts [Rounding] (h : DaemonInv w) (t : TickInput) :
    Edits True w (proceedAccounts t w) := by
  have hdecide : Edits True (gatherStats t w) (analyzeAccounts t (gatherStats t w)) :=
    (h.gatherStats t).foldl_onAccount_edits
    (fun cfg ac _ hg => analyzeMode_keeps _ t.now cfg ac hg) _
  obtain ⟨g, -, -, heq⟩ := proceedAccounts_spec t w
  rw [heq]
  exact ((edits_gatherStats h t).trans hdecide).trans (edits_frame rfl rfl rfl rfl)

end Tick

/-! ### Commands and refreshes -/

section Commands

variable {ticking : Prop} {w : World}

theorem edits_dbctlRestrictNamed [Rounding] (h : DaemonInv w) (now : ℤ) (command : DbCtlCommand)
    (a : Username) : Edits ticking w (dbctlRestrictNamed now command w a) := by
  cases ha : w.accounts.lookup a with
  | none =>
      simp only [dbctlRestrictNamed, ha]
      exact .refl
  | some ac =>
      have hk := dbctlRestrictAccount_keeps h.ready w.cfg now command ac
      simp only [dbctlRestrictNamed, ha]
      split
      · exact .single (.account w a ac _ ha hk.id_eq hk.users_eq)
      · exact .refl

theorem edits_dbctlRestrictSet [Rounding] (h : DaemonInv w) (now : ℤ) (command : DbCtlCommand)
    (key : Username) : Edits ticking w (dbctlRestrictSet now command w key) := by
  rw [dbctlRestrictSet]
  split
  · exact edits_dbctlRestrictNamed h now command key
  · rename_i hnew
    have hw := h.addUserStats hnew
    refine (Relation.ReflTransGen.single (.register w _ hnew)).trans ?_
    dsimp only
    split
    · exact edits_dbctlRestrictNamed hw now command _
    · exact edits_dbctlRestrictNamed hw now command key

theorem edits_addAllUsersToList (w : World) (key : Username) :
    Edits ticking w (addAllUsersToList w key) := by
  rw [addAllUsersToList]
  split
  · exact .refl
  · refine List.foldlRecOn _ _ .refl fun _ hw _ _ => hw.trans ?_
    exact edits_frame rfl rfl rfl rfl

theorem edits_reinitUsersList (h : DaemonInv w) (file : Option (List UInt8)) (ord : IterOrder) :
    Edits ticking w (reinitUsersList file ord w) := by
  have hw : DaemonInv { w with
      userMap := some (getMapFile w.cfg file).2
      mysql := { w.mysql with badList := (deleteAllusersFromList true w.mysql.badList).2 } } :=
    ⟨⟨h.ready, h.owns, h.logged⟩, h.user⟩
  have hmap : Edits ticking w { w with
      userMap := some (getMapFile w.cfg file).2
      mysql := { w.mysql with badList := (deleteAllusersFromList true w.mysql.badList).2 } } :=
    edits_frame rfl rfl rfl rfl
  rw [reinitUsersList]
  refine hmap.trans ?_
  dsimp only
  split
  · exact hw.foldl_edits (fun _ key hw => hw.addAllUsersToList key)
      (fun w key _ => edits_addAllUsersToList w key) _
  · exact .refl

theorem edits_setDbuserMap (h : DaemonInv w) (ord : IterOrder) :
    Edits ticking w (setDbuserMap ord w) := by
  rw [setDbuserMap]
  split
  · exact .refl
  · refine h.foldl_edits ?_ ?_ _
    · intro _ key hw
      split
      · exact hw
      · exact hw.addEmptyStatsForUid _
    · intro w key _
      split
      · exact .refl
      · exact edits_addEmptyStatsForUid _ w

theorem edits_runDbctlCommand [Rounding] (h : DaemonInv w) (msg : DbctlMessage) (now : ℤ)
    (ord : IterOrder) :
    Edits ticking w (runDbctlCommand msg now ord w) := by
  cases msg with
  | rereadCfg cfg => exact edits_frame rfl rfl rfl rfl
  | reinitUsersList cfg file =>
      have hw : DaemonInv { w with cfg := cfg } := ⟨⟨h.ready, h.owns, h.logged⟩, h.user⟩
      have hcfg : Edits ticking w { w with cfg := cfg } := edits_frame rfl rfl rfl rfl
      simp only [runDbctlCommand]
      split
      · exact hcfg.trans (edits_reinitUsersList hw file ord)
      · have hf : ∀ cfg ac g, g.Ready → Keeps ac g (dbctlUnrestrictAllSet cfg ac g) :=
          fun cfg ac _ hg => dbctlUnrestrictAllSet_keeps hg cfg ac
        exact (hcfg.trans (hw.foldl_onAccount_edits hf _)).trans
          (edits_reinitUsersList (hw.foldl_onAccount hf _) file ord)
  | restrict command =>
      simp only [runDbctlCommand]
      split
      · exact .refl
      · exact h.foldl_edits (fun _ key hw => hw.dbctlRestrictSet now command key)
          (fun _ key hw => edits_dbctlRestrictSet hw now command key) _
  | unrestrict command =>
      simp only [runDbctlCommand]
      split
      · exact .refl
      · exact h.foldl_onAccount_edits
          (fun cfg ac _ hg => dbctlUnrestrictSet_keeps hg cfg now command ac) _
  | unrestrictA =>
      simp only [runDbctlCommand]
      split
      · exact .refl
      · exact h.foldl_onAccount_edits (fun cfg ac _ hg => dbctlUnrestrictAllSet_keeps hg cfg ac) _

theorem edits_parseMapFileEveryHour (h : DaemonInv w) (dataCfg : GovernorConfig)
    (file file' : Option (List UInt8)) (ordMap ordAccounts : IterOrder) :
    Edits ticking w (parseMapFileEveryHour dataCfg file file' ordMap ordAccounts w) := by
  have hw : DaemonInv { w with userMap := some (getMapFile dataCfg file).2 } :=
    ⟨⟨h.ready, h.owns, h.logged⟩, h.user⟩
  have hmap : Edits ticking w { w with userMap := some (getMapFile dataCfg file).2 } :=
    edits_frame rfl rfl rfl rfl
  exact (hmap.trans (edits_setDbuserMap hw ordMap)).trans
    (edits_reinitUsersList (hw.setDbuserMap ordMap) file' ordAccounts)

end Commands

/-! ### Steps -/

/-- A step is a tick, or edits that write no record of a registered user. -/
theorem DaemonStep.tick_or_edits [Rounding] {w w' : World} (h : DaemonInv w)
    (hs : DaemonStep w w') :
    (∃ t, w' = proceedAccounts t w) ∨ Edits False w w' := by
  cases hs with
  | increment u cpu read write tm =>
      refine .inr ?_
      rw [incrementCounters]
      split <;> exact edits_frame rfl rfl rfl rfl
  | tick t => exact .inl ⟨t, rfl⟩
  | dbctl msg now ord => exact .inr (edits_runDbctlCommand h msg now ord)
  | mapRefresh dataCfg file file' ordMap ordAccounts =>
      exact .inr (edits_parseMapFileEveryHour h dataCfg file file' ordMap ordAccounts)
  | copy _ _ _ => exact .inr (edits_frame rfl rfl rfl rfl)
  | reinit _ => exact .inr (edits_frame rfl rfl rfl rfl)
  | spawn _ => exact .inr (edits_frame rfl rfl rfl rfl)
  | work _ _ _ => exact .inr (edits_frame rfl rfl rfl rfl)
  | finish _ => exact .inr (edits_frame rfl rfl rfl rfl)

theorem Edits.ticking {w w' : World} (h : Edits False w w') : Edits True w w' := by
  refine Relation.ReflTransGen.mono ?_ _ _ h
  intro v v' hedit
  cases hedit with
  | frame _ husers haccounts hhomes htick => exact .frame v v' husers haccounts hhomes htick
  | account a ac r ha hid husers => exact .account v a ac r ha hid husers
  | register u hnew => exact .register v u hnew
  | newTick hfalse => exact hfalse.elim
  | sample _ _ _ hfalse _ _ _ => exact hfalse.elim

theorem DaemonStep.edits [Rounding] {w w' : World} (h : DaemonInv w) (hs : DaemonStep w w') :
    Edits True w w' := by
  rcases hs.tick_or_edits h with ⟨t, rfl⟩ | hedits
  · exact edits_proceedAccounts h t
  · exact hedits.ticking

/-- A property that every edit keeps is kept by sequences of edits. -/
theorem Edits.invariant {inv : World → Prop} {ticking : Prop} {w w' : World}
    (hedit : ∀ v v', inv v → Edit ticking v v' → inv v') (h : Edits ticking w w') (hw : inv w) :
    inv w' := by
  induction h with
  | refl => exact hw
  | tail _ hlast ih => exact hedit _ _ ih hlast

theorem Reachable.of_edits [Rounding] {inv : World → Prop} (hinit : ∀ cfg, inv (World.init cfg))
    (hedit : ∀ v v', inv v → Edit True v v' → inv v') {w : World} (h : Reachable w) : inv w := by
  induction h with
  | start cfg => exact hinit cfg
  | step hw hs ih => exact (hs.edits hw.daemonInv).invariant hedit ih

end DbGovernor
