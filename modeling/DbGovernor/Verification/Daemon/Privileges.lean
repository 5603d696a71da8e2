import DbGovernor.Model.Privileges
import DbGovernor.Verification.Daemon.Enforcement

/-!
# The limits that the server goes by

Between two cycles the server goes by the limits that were written last, unless a reread has turned
them on during a cycle; and in limit mode, as long as the daemon takes only the steps of
`EnforcementStep`, these limit exactly the users of the restricted accounts.
-/

namespace DbGovernor

/-! ### What other threads leave alone -/

/-- Neither the limits nor the sending side change. -/
structure Unwritten (w v : World) : Prop where
  userLimits : v.mysql.userLimits = w.mysql.userLimits
  sender : v.sender = w.sender

section Unwritten

variable {w v x : World}

theorem Unwritten.refl (w : World) : Unwritten w w := ⟨rfl, rfl⟩

theorem Unwritten.trans (h : Unwritten w v) (h' : Unwritten v x) : Unwritten w x :=
  ⟨h'.userLimits.trans h.userLimits, h'.sender.trans h.sender⟩

theorem Unwritten.foldl {α : Type*} {f : World → α → World} (hf : ∀ v x, Unwritten v (f v x))
    (l : List α) (w : World) : Unwritten w (l.foldl f w) :=
  List.foldlRecOn l _ (.refl w) fun v hv x _ => hv.trans (hf v x)

theorem unwritten_onAccount (f : GovernorConfig → Account → Globals → Account × Globals) (w : World)
    (a : Username) : Unwritten w (w.onAccount f a) := by
  rw [World.onAccount]
  split <;> exact ⟨rfl, rfl⟩

theorem unwritten_addUserStats (u : Username) (w : World) : Unwritten w (addUserStats u w) := by
  obtain ⟨t, ac, -, heq⟩ := addUserStats_spec u w
  rw [heq]
  exact ⟨rfl, rfl⟩

theorem unwritten_addEmptyStatsForUid (u : Username) (w : World) :
    Unwritten w (addEmptyStatsForUid u w) := by
  rw [addEmptyStatsForUid]
  split
  · exact .refl w
  · exact unwritten_addUserStats u w

theorem unwritten_dbctlRestrictNamed (now : ℤ) (command : DbCtlCommand) (w : World) (a : Username) :
    Unwritten w (dbctlRestrictNamed now command w a) := by
  rw [dbctlRestrictNamed]
  split
  · exact .refl w
  · split
    · exact ⟨rfl, rfl⟩
    · exact .refl w

theorem unwritten_dbctlRestrictSet (now : ℤ) (command : DbCtlCommand) (w : World) (a : Username) :
    Unwritten w (dbctlRestrictSet now command w a) := by
  rw [dbctlRestrictSet]
  split
  · exact unwritten_dbctlRestrictNamed now command w a
  · have hadded := unwritten_addUserStats command.username w
    dsimp only
    split
    · exact hadded.trans (unwritten_dbctlRestrictNamed now command _ _)
    · exact hadded.trans (unwritten_dbctlRestrictNamed now command _ _)

theorem unwritten_addAllUsersToList (w : World) (key : Username) :
    Unwritten w (addAllUsersToList w key) := by
  rw [addAllUsersToList]
  split
  · exact .refl w
  · refine .foldl (fun v id => ?_) _ w
    exact ⟨rfl, rfl⟩

theorem unwritten_reinitUsersList (file : Option (List UInt8)) (ord : IterOrder) (w : World) :
    Unwritten w (reinitUsersList file ord w) := by
  rw [reinitUsersList]
  dsimp only
  split
  · have hcleared : Unwritten w { w with
        userMap := some (getMapFile w.cfg file).2
        mysql := { w.mysql with badList := (deleteAllusersFromList true w.mysql.badList).2 } } :=
      ⟨rfl, rfl⟩
    exact hcleared.trans (.foldl unwritten_addAllUsersToList _ _)
  · exact ⟨rfl, rfl⟩

theorem unwritten_setDbuserMap (ord : IterOrder) (w : World) : Unwritten w (setDbuserMap ord w) := by
  rw [setDbuserMap]
  split
  · exact .refl w
  · refine .foldl (fun v key => ?_) _ w
    split
    · exact .refl v
    · exact unwritten_addEmptyStatsForUid _ v

theorem unwritten_foreachAccount (ord : IterOrder)
    (f : GovernorConfig → Account → Globals → Account × Globals) (w : World) :
    Unwritten w (foreachAccount ord f w) :=
  .foldl (unwritten_onAccount f) _ w

theorem unwritten_runDbctlCommand (msg : DbctlMessage) (now : ℤ) (ord : IterOrder) (w : World) :
    Unwritten w (runDbctlCommand msg now ord w) := by
  cases msg with
  | rereadCfg cfg => exact ⟨rfl, rfl⟩
  | reinitUsersList cfg file =>
      have hread : Unwritten w { w with cfg := cfg } := ⟨rfl, rfl⟩
      simp only [runDbctlCommand]
      split
      · exact hread.trans (unwritten_reinitUsersList file ord _)
      · exact (hread.trans (unwritten_foreachAccount ord _ _)).trans
          (unwritten_reinitUsersList file ord _)
  | restrict command =>
      simp only [runDbctlCommand]
      split
      · exact .refl w
      · exact .foldl (unwritten_dbctlRestrictSet now command) _ w
  | unrestrict command =>
      simp only [runDbctlCommand]
      split
      · exact .refl w
      · exact unwritten_foreachAccount ord _ w
  | unrestrictA =>
      simp only [runDbctlCommand]
      split
      · exact .refl w
      · exact unwritten_foreachAccount ord _ w

theorem unwritten_parseMapFileEveryHour (dataCfg : GovernorConfig)
    (file file' : Option (List UInt8)) (ordMap ordAccounts : IterOrder) (w : World) :
    Unwritten w (parseMapFileEveryHour dataCfg file file' ordMap ordAccounts w) := by
  have hread : Unwritten w { w with userMap := some (getMapFile dataCfg file).2 } := ⟨rfl, rfl⟩
  exact (hread.trans (unwritten_setDbuserMap ordMap _)).trans
    (unwritten_reinitUsersList file' ordAccounts _)

theorem unwritten_proceedAccounts (h : DaemonInv w) (t : TickInput) :
    Unwritten w (proceedAccounts t w) := by
  have hframe := gatherStats_frame h t
  have hanalyzed : Unwritten (gatherStats t w) (analyzeAccounts t (gatherStats t w)) :=
    .foldl (unwritten_onAccount _) _ _
  obtain ⟨g, -, -, heq⟩ := proceedAccounts_spec t w
  rw [heq]
  refine ⟨hanalyzed.userLimits.trans ?_, hanalyzed.sender.trans hframe.sender⟩
  rw [hframe.mysql]

/-- Only the visits of the worker write limits. -/
theorem DaemonStep.userLimits (hs : DaemonStep w v) (h : DaemonInv w)
    (hworker : w.sender.worker = none ∨ v.sender.worker = w.sender.worker) :
    v.mysql.userLimits = w.mysql.userLimits := by
  cases hs with
  | increment u cpu read write tm =>
      rw [incrementCounters]
      split <;> rfl
  | tick t => exact (unwritten_proceedAccounts h t).userLimits
  | dbctl msg now ord => exact (unwritten_runDbctlCommand msg now ord w).userLimits
  | mapRefresh dataCfg file file' ordMap ordAccounts =>
      exact (unwritten_parseMapFileEveryHour dataCfg file file' ordMap ordAccounts w).userLimits
  | copy => rfl
  | reinit => rfl
  | spawn => rfl
  | work cmd rest _ hw =>
      -- a visit shortens the list of a worker that is there
      exfalso
      rcases hworker with hnone | hsame
      · simp [hw] at hnone
      · have hrest : some rest = some (cmd :: rest) := hsame.trans hw
        simp at hrest
  | finish => rfl

end Unwritten

/-! ### The flush of a cycle -/

section Flush

variable {cfg : GovernorConfig} {userMap : Option (HashTable UserMap)} {m : MysqlSide}

theorem updateUserLimit_of_off (hoff : cfg.maxUserConnections = 0) (u : Username) (limit : ℕ) :
    updateUserLimit cfg u limit m = m := by
  rw [updateUserLimit, if_neg (not_not.mpr hoff)]

/-- Without a number of connections nothing is written. -/
theorem sendCommands_userLimits_of_off (hoff : cfg.maxUserConnections = 0)
    (cmd : Option Command) : (sendCommands cfg userMap m cmd).userLimits = m.userLimits := by
  cases cmd with
  | none => rfl
  | some c =>
      rw [sendCommands]
      cases c.command with
      | freeze =>
          simp only [updateUserLimit_of_off hoff]
          split_ifs <;> rfl
      | unfreeze =>
          simp only [updateUserLimit_of_off hoff]
          split_ifs <;> rfl
      | exit => rfl
      | slowquery => rfl

/-- A flag that is up stays up. -/
theorem sendCommandsFlush_true (cmd : Option Command) :
    sendCommandsFlush cfg userMap m true cmd = true := by
  cases cmd with
  | none => rfl
  | some c =>
      rw [sendCommandsFlush]
      cases c.command <;> simp

/-- What is written raises the flag. -/
theorem sendCommandsFlush_of_written (isAnyFlush : Bool) {cmd : Option Command}
    (hwritten : (sendCommands cfg userMap m cmd).userLimits ≠ m.userLimits) :
    sendCommandsFlush cfg userMap m isAnyFlush cmd = true := by
  have hon : cfg.maxUserConnections ≠ 0 := fun hoff =>
    hwritten (sendCommands_userLimits_of_off hoff cmd)
  cases cmd with
  | none => exact absurd rfl hwritten
  | some c =>
      rw [sendCommands] at hwritten
      rw [sendCommandsFlush]
      cases hc : c.command with
      | freeze =>
          simp only [hc] at hwritten
          dsimp only
          split_ifs at hwritten ⊢
          · exact absurd rfl hwritten
          · rfl
          · exact absurd rfl hwritten
      | unfreeze => simp [hon]
      | exit => simp [hc] at hwritten
      | slowquery => simp [hc] at hwritten

end Flush

/-- A reread has turned limits on while a thread passes its list that has read them as off. -/
def PrivilegeWorld.TurnedOn (s : PrivilegeWorld) : Prop :=
  ∃ dataCfg, s.pc = .passing dataCfg ∧ dataCfg.maxUserConnections = 0 ∧
    s.world.cfg.maxUserConnections ≠ 0

/-- The limits in force are those that were written. -/
def PrivilegeWorld.Current (s : PrivilegeWorld) : Prop := s.inForce = s.world.mysql.userLimits

/-- Where the cycle stands, and what will make the limits current. -/
inductive FlushPhase (s : PrivilegeWorld) : Prop where
  | created (hpc : s.pc = .created) (hcurrent : s.Current)
  | passing (dataCfg : GovernorConfig) (hpc : s.pc = .passing dataCfg)
      (hworker : s.world.sender.worker.isSome)
      (hcurrent : s.Current ∨ s.isAnyFlush = true ∧ dataCfg.maxUserConnections ≠ 0)
  | flushed (hpc : s.pc = .flushed) (hworker : s.world.sender.worker.isSome)
      (hcurrent : s.Current)

section Phase

variable {s s' : PrivilegeWorld}

theorem FlushPhase.init (cfg : GovernorConfig) : FlushPhase (.init cfg) := .created rfl rfl

theorem FlushPhase.current_of_idle (h : FlushPhase s) (hworker : s.world.sender.worker = none) :
    s.Current := by
  cases h with
  | created _ hcurrent => exact hcurrent
  | passing _ _ hsome _ => simp [hworker] at hsome
  | flushed _ hsome _ => simp [hworker] at hsome

/-- A step of another thread. -/
theorem FlushPhase.other (h : FlushPhase s) {w' : World}
    (hlimits : w'.mysql.userLimits = s.world.mysql.userLimits)
    (hworker : s.world.sender.worker = none ∨ w'.sender.worker = s.world.sender.worker) :
    FlushPhase { s with world := w' } := by
  have hkeeps : s.Current → PrivilegeWorld.Current { s with world := w' } :=
    fun hcurrent => hcurrent.trans hlimits.symm
  have hbusy : s.world.sender.worker.isSome → w'.sender.worker.isSome := by
    intro hsome
    rcases hworker with hnone | hsame
    · simp [hnone] at hsome
    · rwa [hsame]
  cases h with
  | created hpc hcurrent => exact .created hpc (hkeeps hcurrent)
  | passing dataCfg hpc hsome hcurrent =>
      exact .passing dataCfg hpc (hbusy hsome) (hcurrent.imp_left hkeeps)
  | flushed hpc hsome hcurrent => exact .flushed hpc (hbusy hsome) (hkeeps hcurrent)

theorem FlushPhase.begin (h : FlushPhase s) (hworker : s.world.sender.worker.isSome)
    (hpc : s.pc = .created) : FlushPhase s.begin := by
  cases h with
  | created _ hcurrent => exact .passing s.world.cfg rfl hworker (.inl hcurrent)
  | passing _ hother _ _ => simp [hpc] at hother
  | flushed hother _ _ => simp [hpc] at hother

/-- A visit writes no limit, or raises the flag. -/
theorem FlushPhase.work (h : FlushPhase s) (hoff : ¬ s.TurnedOn) {dataCfg : GovernorConfig}
    (hpc : s.pc = .passing dataCfg) (cmd : Option Command) (rest : GList) :
    FlushPhase (s.work cmd rest) := by
  have hcurrent : s.Current ∨ s.isAnyFlush = true ∧ dataCfg.maxUserConnections ≠ 0 := by
    cases h with
    | created hother _ => simp [hpc] at hother
    | passing dataCfg' hother _ hcurrent =>
        obtain rfl : dataCfg' = dataCfg := by simpa [hpc, eq_comm] using hother
        exact hcurrent
    | flushed hother _ _ => simp [hpc] at hother
  refine .passing dataCfg hpc rfl ?_
  by_cases hwritten : (s.work cmd rest).world.mysql.userLimits = s.world.mysql.userLimits
  · rcases hcurrent with hcurrent | ⟨hflag, hon⟩
    · exact .inl (hcurrent.trans hwritten.symm)
    · refine .inr ⟨?_, hon⟩
      rw [PrivilegeWorld.work, hflag]
      exact sendCommandsFlush_true cmd
  · have hon : s.world.cfg.maxUserConnections ≠ 0 := fun hzero =>
      hwritten (sendCommands_userLimits_of_off hzero cmd)
    exact .inr ⟨sendCommandsFlush_of_written s.isAnyFlush hwritten,
      fun hzero => hoff ⟨dataCfg, hpc, hzero, hon⟩⟩

theorem FlushPhase.flush (h : FlushPhase s) {dataCfg : GovernorConfig}
    (hworker : s.world.sender.worker = some []) (hpc : s.pc = .passing dataCfg) :
    FlushPhase (s.flush dataCfg) := by
  have hsome : s.world.sender.worker.isSome := by simp [hworker]
  refine .flushed rfl hsome ?_
  rw [PrivilegeWorld.Current, PrivilegeWorld.flush]
  dsimp only
  cases h with
  | created hother _ => simp [hpc] at hother
  | passing dataCfg' hother _ hcurrent =>
      obtain rfl : dataCfg' = dataCfg := by simpa [hpc, eq_comm] using hother
      rcases hcurrent with hcurrent | ⟨hflag, hon⟩
      · split
        · rfl
        · exact hcurrent
      · rw [if_pos ⟨hon, hflag⟩]
  | flushed hother _ _ => simp [hpc] at hother

theorem FlushPhase.finish (h : FlushPhase s) (hpc : s.pc = .flushed) : FlushPhase s.finish := by
  cases h with
  | created hother _ => simp [hpc] at hother
  | passing _ hother _ _ => simp [hpc] at hother
  | flushed _ _ hcurrent => exact .created rfl hcurrent

theorem FlushPhase.reload (h : FlushPhase s) :
    FlushPhase { s with inForce := s.world.mysql.userLimits } := by
  cases h with
  | created hpc _ => exact .created hpc rfl
  | passing dataCfg hpc hsome _ => exact .passing dataCfg hpc hsome (.inl rfl)
  | flushed hpc hsome _ => exact .flushed hpc hsome rfl

theorem FlushPhase.step (h : FlushPhase s) (hinv : DaemonInv s.world) (hoff : ¬ s.TurnedOn)
    (hs : PrivilegeStep DaemonStep s s') : FlushPhase s' := by
  cases hs with
  | other w' hstep hworker => exact h.other (hstep.userLimits hinv hworker) hworker
  | begin hworker hpc => exact h.begin hworker hpc
  | work cmd rest dataCfg _ hpc _ => exact h.work hoff hpc cmd rest
  | flush dataCfg hworker hpc => exact h.flush hworker hpc
  | finish _ hpc _ => exact h.finish hpc
  | reload => exact h.reload

theorem PrivilegeStep.reachable (hs : PrivilegeStep DaemonStep s s') (h : Reachable s.world) :
    Reachable s'.world := by
  cases hs with
  | other w' hstep _ => exact .step h hstep
  | begin => exact h
  | work cmd rest dataCfg _ _ hstep => exact .step h hstep
  | flush => exact h
  | finish _ _ hstep => exact .step h hstep
  | reload => exact h

end Phase

/-! ### Rereads during a cycle -/

/-- The states of runs; `turnsOn` tells whether a reread may turn limits on during a cycle. -/
def PrivilegeRun (turnsOn : Bool) (cfg : GovernorConfig) : PrivilegeWorld → Prop :=
  Relation.ReflTransGen
    (fun s s' => PrivilegeStep DaemonStep s s' ∧ (s'.TurnedOn → turnsOn = true)) (.init cfg)

theorem PrivilegeRun.next {cfg : GovernorConfig} {s s' : PrivilegeWorld}
    (h : PrivilegeRun true cfg s) (hs : PrivilegeStep DaemonStep s s') : PrivilegeRun true cfg s' :=
  h.tail ⟨hs, fun _ => rfl⟩

/-- A daemon without a number of connections that has decided to freeze a user. -/
def unlimitedConfig : GovernorConfig := { shippedConfig true with maxUserConnections := 0 }

def unlimitedWorld : World :=
  proceedAccounts (sampleTickInput 0) (incrementCounters sampleUser 500 0 0 0 (.init unlimitedConfig))

/-- It is handed the command when it has begun to pass its list. -/
def unlimitedPass : PrivilegeWorld :=
  let copied := { unlimitedWorld with
    sender := copySection unlimitedWorld.globals unlimitedWorld.sender }
  let reinited := { copied with
    globals := reinitCommandList copied.globals
    sender := { copied.sender with pc := .reinited } }
  let spawned := { reinited with sender := spawnWorker reinited.sender }
  PrivilegeWorld.begin { PrivilegeWorld.init unlimitedConfig with world := spawned }

theorem unlimitedPass_run : PrivilegeRun true unlimitedConfig unlimitedPass := by
  have hstart : PrivilegeRun true unlimitedConfig (.init unlimitedConfig) := .refl
  have hcounted := hstart.next (.other _ _ (.increment sampleUser 500 0 0 0 _) (.inl rfl))
  have hdecided := hcounted.next
    (.other _ _ (.tick (sampleTickInput 0) _) (.inl (by decide +kernel)))
  have hcopied := hdecided.next (.other _ _
    (.copy unlimitedWorld (by decide +kernel) (by decide +kernel) (by decide +kernel))
    (.inl (by decide +kernel)))
  have hreinited := hcopied.next (.other _ _ (.reinit _ rfl) (.inl (by decide +kernel)))
  have hspawned := hreinited.next (.other _ _ (.spawn _ rfl) (.inl (by decide +kernel)))
  exact hspawned.next (.begin _ (by decide +kernel) rfl)

theorem PrivilegeStep.daemonStep {s s' : PrivilegeWorld}
    (hs : PrivilegeStep EnforcementStep s s') (hgpl : s.world.cfg.isGpl = false) :
    PrivilegeStep DaemonStep s s' := by
  cases hs with
  | other w' hstep hworker => exact .other s w' (hstep.daemonStep hgpl) hworker
  | begin hworker hpc => exact .begin s hworker hpc
  | work cmd rest dataCfg hworker hpc hstep =>
      exact .work s cmd rest dataCfg hworker hpc (hstep.daemonStep hgpl)
  | flush dataCfg hworker hpc => exact .flush s dataCfg hworker hpc
  | finish hworker hpc hstep => exact .finish s hworker hpc (hstep.daemonStep hgpl)
  | reload => exact .reload s

section Restricted

variable {cfg : GovernorConfig} {s s' : PrivilegeWorld}

theorem updateUserLimit_userLimits (u : Username) (limit : ℕ) (m : MysqlSide) (v : Username) :
    (updateUserLimit cfg u limit m).userLimits v =
      if u = v ∧ cfg.maxUserConnections ≠ 0 then limit else m.userLimits v := by
  rw [updateUserLimit]
  by_cases hon : cfg.maxUserConnections ≠ 0
  · by_cases hname : u = v
    · simp [hon, hname]
    · simp [hon, hname, Function.update_of_ne (Ne.symm hname)]
  · simp [hon]

/-- A command that finds room writes the limit of its user and no other. -/
theorem userLimits_execute {m : MysqlSide} {c : SentCommand} (hm : cfg.Enforcing) (hc : c.Proper)
    (hroom : ¬ MeetsFull m c) (v : Username) :
    (c.execute cfg m).userLimits v =
      if c.command.username = v ∧ cfg.maxUserConnections ≠ 0 then
        if c.command.command = .freeze then cfg.maxUserConnections else 0
      else m.userLimits v := by
  rcases hc.toggles with hf | hf
  · have hadded : ¬ (addUserToList true m.badList c.command.username cfg.allLve
        (getUid c.userMap c.command.username)).1 < 0 := by
      rw [hm.allLve, addUserToList_eq]
      split
      · simp
      · rename_i hlisted
        rw [if_neg fun hfull => hroom ⟨hf, by simpa using hlisted, hfull⟩]
        simp
    simp only [SentCommand.execute, sendCommands, hf, hm.useLve, if_true, if_neg hadded]
    rw [updateUserLimit_userLimits]
  · simp only [SentCommand.execute, sendCommands, hf, hm.useLve, if_true]
    rw [updateUserLimit_userLimits]
    simp

/-- The limits that were written are those of the users whose last executed command is FREEZE. -/
def WrittenLimits (cfg : GovernorConfig) (w : World) : Prop :=
  ∀ u, w.mysql.userLimits u =
    if lastCommand u w.sender.executed = some .freeze then cfg.maxUserConnections else 0

theorem EnforcementInv.writtenLimits_work {w : World} (h : EnforcementInv cfg w)
    (hm : cfg.LimitMode) (hlimits : WrittenLimits cfg w) {cmd : Option Command} {rest : GList}
    (hworker : w.sender.worker = some (cmd :: rest))
    (hroom : ∀ c ∈ cmd, ¬ MeetsFull w.mysql ⟨w.userMap, c⟩) :
    WrittenLimits cfg (workOn cmd rest w) := by
  intro u
  cases cmd with
  | none => simpa [workOn, visitCommand, sendCommands] using hlimits u
  | some c =>
      have hproper : SentCommand.Proper ⟨w.userMap, c⟩ :=
        ⟨h.kinds c (h.handover.mem_enqueued hworker), h.uids⟩
      have hwritten := userLimits_execute hm.toEnforcing hproper (hroom c rfl) u
      have hexec : (workOn (some c) rest w).sender.executed = w.sender.executed ++ [c] := rfl
      have hmysql : (workOn (some c) rest w).mysql.userLimits u =
          (SentCommand.execute cfg w.mysql ⟨w.userMap, c⟩).userLimits u := by
        rw [← h.cfg_eq]
        rfl
      rw [hmysql, hwritten, hexec, lastCommand_append_singleton, hlimits u]
      by_cases hname : c.username = u
      · by_cases hon : cfg.maxUserConnections = 0
        · simp [hon]
        · simp [hname, hon]
      · simp [hname]

theorem WrittenLimits.of_unwritten {w v : World} (h : WrittenLimits cfg w) (hu : Unwritten w v) :
    WrittenLimits cfg v := by
  intro u
  rw [hu.userLimits, hu.sender]
  exact h u

theorem EnforcementInv.writtenLimits_step {w v : World} (h : EnforcementInv cfg w)
    (hm : cfg.LimitMode) (hlimits : WrittenLimits cfg w) (hs : EnforcementStep w v) :
    WrittenLimits cfg v := by
  cases hs with
  | increment u cpu read write tm =>
      rw [incrementCounters]
      split <;> exact hlimits
  | tick t => exact hlimits.of_unwritten (unwritten_proceedAccounts h.reachable.daemonInv t)
  | restrict command now ord =>
      exact hlimits.of_unwritten (unwritten_runDbctlCommand (.restrict command) now ord w)
  | unrestrict command now ord =>
      exact hlimits.of_unwritten (unwritten_runDbctlCommand (.unrestrict command) now ord w)
  | unrestrictA now ord =>
      exact hlimits.of_unwritten (unwritten_runDbctlCommand .unrestrictA now ord w)
  | mapRefresh dataCfg file file' ordMap ordAccounts =>
      exact hlimits.of_unwritten
        (unwritten_parseMapFileEveryHour dataCfg file file' ordMap ordAccounts w)
  | copy => exact hlimits
  | reinit => exact hlimits
  | spawn =>
      rw [spawnWorker]
      split <;> exact hlimits
  | work cmd rest _ hworker hroom => exact h.writtenLimits_work hm hlimits hworker hroom
  | finish => exact hlimits

/-- What the steps keep in limit mode. -/
structure PrivilegeInv (cfg : GovernorConfig) (s : PrivilegeWorld) : Prop where
  enforcement : EnforcementInv cfg s.world
  limits : WrittenLimits cfg s.world
  phase : FlushPhase s
  dataCfg : ∀ dataCfg, s.pc = .passing dataCfg → dataCfg = cfg

theorem PrivilegeInv.init (cfg : GovernorConfig) : PrivilegeInv cfg (.init cfg) where
  enforcement := .init cfg
  limits _ := rfl
  phase := .init cfg
  dataCfg := by
    rintro dataCfg ⟨⟩

theorem PrivilegeInv.not_turnedOn (h : PrivilegeInv cfg s) : ¬ s.TurnedOn := by
  rintro ⟨dataCfg, hpc, hzero, hon⟩
  rw [h.enforcement.cfg_eq, ← h.dataCfg dataCfg hpc] at hon
  exact hon hzero

theorem PrivilegeInv.step (h : PrivilegeInv cfg s) (hm : cfg.LimitMode)
    (hs : PrivilegeStep EnforcementStep s s') : PrivilegeInv cfg s' := by
  have hgpl : s.world.cfg.isGpl = false := h.enforcement.cfg_eq ▸ hm.isGpl
  have hinv := h.enforcement.reachable.daemonInv
  have hphase := h.phase.step hinv h.not_turnedOn (hs.daemonStep hgpl)
  cases hs with
  | other w' hstep hworker =>
      exact ⟨h.enforcement.step hm hstep, h.enforcement.writtenLimits_step hm h.limits hstep,
        hphase, h.dataCfg⟩
  | begin =>
      refine ⟨h.enforcement, h.limits, hphase, ?_⟩
      rintro dataCfg ⟨⟩
      exact h.enforcement.cfg_eq
  | work cmd rest dataCfg _ _ hstep =>
      exact ⟨h.enforcement.step hm hstep, h.enforcement.writtenLimits_step hm h.limits hstep,
        hphase, h.dataCfg⟩
  | flush dataCfg _ hpc =>
      refine ⟨h.enforcement, h.limits, hphase, ?_⟩
      rintro dataCfg ⟨⟩
  | finish _ _ hstep =>
      refine ⟨h.enforcement.step hm hstep, h.limits, hphase, ?_⟩
      rintro dataCfg ⟨⟩
  | reload => exact ⟨h.enforcement, h.limits, hphase, h.dataCfg⟩

theorem PrivilegeReachable.inv (h : PrivilegeReachable EnforcementStep cfg s)
    (hm : cfg.LimitMode) : PrivilegeInv cfg s := by
  induction h with
  | refl => exact .init cfg
  | tail _ hs ih => exact ih.step hm hs

end Restricted

/-! ### A user with a limit -/

/-- The cycle that hands the decision of `decidedWorld` over, before its flush. -/
def limitedPass : PrivilegeWorld :=
  let created := { PrivilegeWorld.init (shippedConfig true) with world := spawnedWorld }
  (created.begin.work none [some ⟨sampleUser, .freeze⟩]).work (some ⟨sampleUser, .freeze⟩) []

theorem limitedPass_reachable :
    PrivilegeReachable EnforcementStep (shippedConfig true) limitedPass := by
  have hquiet : ∀ e ∈ (gatherStats (sampleTickInput 0) overloadedWorld).accounts.entries,
      e.2.timeout = 0 := by
    decide +kernel
  have hjoin : ¬ TickJoins (sampleTickInput 0) overloadedWorld := by
    rintro ⟨a, ac, hac, ht, -⟩
    exact ht (hquiet ⟨a, ac⟩ (AList.mem_lookup_iff.mp hac))
  have hstart : PrivilegeReachable EnforcementStep (shippedConfig true)
      (.init (shippedConfig true)) := .refl
  have hcounted := hstart.tail (.other _ _ (.increment sampleUser 500 0 0 0 _) (.inl rfl))
  have hdecided := hcounted.tail (.other _ _
    (.tick (sampleTickInput 0) overloadedWorld (by decide +kernel) hjoin)
    (.inl (by decide +kernel)))
  have hcopied := hdecided.tail (.other _ _
    (.copy decidedWorld (by decide +kernel) (by decide +kernel)) (.inl (by decide +kernel)))
  have hreinited := hcopied.tail (.other _ _ (.reinit copiedWorld rfl) (.inl (by decide +kernel)))
  have hspawned := hreinited.tail (.other _ _ (.spawn reinitedWorld rfl)
    (.inl (by decide +kernel)))
  have hbegun := hspawned.tail (.begin _ (by decide +kernel) rfl)
  have hpassed := hbegun.tail (.work _ none [some ⟨sampleUser, .freeze⟩] (shippedConfig true)
    (by decide +kernel) rfl
    (.work none [some ⟨sampleUser, .freeze⟩] spawnedWorld (by decide +kernel) (by simp)))
  exact hpassed.tail (.work _ (some ⟨sampleUser, .freeze⟩) [] (shippedConfig true)
    (by decide +kernel) rfl
    (.work (some ⟨sampleUser, .freeze⟩) [] _ (by decide +kernel) frozenWorld_room))

end DbGovernor
