import DbGovernor.Model.Daemon
import DbGovernor.Verification.Commands.Equations
import DbGovernor.Verification.Shared.Runs
import DbGovernor.Verification.SharedMemory.Table

/-!
# Executed commands and the finite map

A sequence of FREEZE and UNFREEZE commands acts on the list as on a map from users to uids,
as long as no FREEZE meets a full list.
-/

namespace DbGovernor

/-! ### Commands -/

/-- One call of `send_commands`, with the dbuser map it finds. -/
structure SentCommand where
  userMap : Option (HashTable UserMap)
  command : Command

def SentCommand.execute (cfg : GovernorConfig) (m : MysqlSide) (c : SentCommand) : MysqlSide :=
  sendCommands cfg c.userMap m (some c.command)

/-- The call is a FREEZE or an UNFREEZE, and every uid of the map is at least 1. -/
structure SentCommand.Proper (c : SentCommand) : Prop where
  toggles : c.command.command = .freeze ∨ c.command.command = .unfreeze
  uids : ∀ u um, findUid c.userMap u = some um → 1 ≤ um.uid

/-- A FREEZE of a user that is not listed, on a list without a free slot. -/
def MeetsFull (m : MysqlSide) (c : SentCommand) : Prop :=
  c.command.command = .freeze ∧ m.badList.listedUid c.command.username = none ∧
    m.badList.numbers + 1 = maxItemsInTable

theorem SentCommand.Proper.getUid_pos {c : SentCommand} (h : c.Proper) (u : Username) :
    1 ≤ getUid c.userMap u := by
  rw [getUid]
  split
  · exact h.uids u _ ‹_›
  · decide

section Commands

variable {cfg : GovernorConfig} {m : MysqlSide} {c : SentCommand} {v : Username}

@[simp] theorem updateUserLimit_badList (cfg : GovernorConfig) (u : Username) (limit : ℕ)
    (m : MysqlSide) : (updateUserLimit cfg u limit m).badList = m.badList := by
  rw [updateUserLimit]
  split <;> rfl

theorem execute_freeze (hu : cfg.useLve = true) (ha : cfg.allLve = false)
    (hc : c.command.command = .freeze) :
    (c.execute cfg m).badList =
      (addUserToList true m.badList c.command.username false
        (getUid c.userMap c.command.username)).2 := by
  simp only [SentCommand.execute, sendCommands, hc, hu, ha, if_true]
  split <;> simp

theorem execute_unfreeze (hu : cfg.useLve = true) (hc : c.command.command = .unfreeze) :
    (c.execute cfg m).badList = (deleteUserFromList true m.badList c.command.username).2 := by
  simp [SentCommand.execute, sendCommands, hc, hu]

theorem ShmInv.execute (hinv : ShmInv m.badList) (hu : cfg.useLve = true)
    (ha : cfg.allLve = false) (hc : c.Proper) : ShmInv (c.execute cfg m).badList := by
  rcases hc.toggles with hf | hf
  · rw [execute_freeze hu ha hf]
    exact hinv.addUserToList _ _
  · rw [execute_unfreeze hu hf]
    exact hinv.deleteUserFromList _

end Commands

/-! ### The finite map -/

/-- What the list is for: each restricted user has the uid of the LVE it is put into. -/
abbrev BadMap := Username → Option ℤ

def BadMap.execute (f : BadMap) (c : SentCommand) : BadMap :=
  match c.command.command with
  | .freeze =>
      if (f c.command.username).isSome then f
      else Function.update f c.command.username (some (getUid c.userMap c.command.username))
  | .unfreeze => Function.update f c.command.username none
  | _ => f

/-- Unless a FREEZE meets a full list, a command does to the list what it does to the map. -/
theorem listedUid_execute {cfg : GovernorConfig} {m : MysqlSide} {c : SentCommand}
    (hinv : ShmInv m.badList) (hu : cfg.useLve = true) (ha : cfg.allLve = false) (hc : c.Proper)
    (hroom : ¬ MeetsFull m c) :
    (c.execute cfg m).badList.listedUid = BadMap.execute m.badList.listedUid c := by
  funext v
  rcases hc.toggles with hf | hf
  · rw [execute_freeze hu ha hf, addUserToList_eq]
    simp only [BadMap.execute, hf]
    by_cases hlisted : (m.badList.listedUid c.command.username).isSome
    · simp [hlisted]
    · have hnone : m.badList.listedUid c.command.username = none := by simpa using hlisted
      have hfull : m.badList.numbers + 1 ≠ maxItemsInTable := fun h => hroom ⟨hf, hnone, h⟩
      rw [if_neg hlisted, if_neg hfull, if_neg hlisted]
      simp only [listedUid_appendItem hinv hnone, Function.update_apply]
  · rw [execute_unfreeze hu hf, listedUid_deleteUserFromList hinv]
    simp only [BadMap.execute, hf, Function.update_apply]

/-- The call that last inserted `u`: a FREEZE of a user that was not frozen, with no UNFREEZE
after it. `uid` is what `get_uid` answered there. -/
def InsertedWith (run : List SentCommand) (u : Username) (uid : ℤ) : Prop :=
  ∃ before c after, run = before ++ c :: after ∧ c.command = ⟨u, .freeze⟩ ∧
    lastCommand u (before.map SentCommand.command) ≠ some .freeze ∧
    (∀ d ∈ after, d.command ≠ ⟨u, .unfreeze⟩) ∧ uid = getUid c.userMap u

/-- The map says of each user what the commands of a run said last. -/
structure MapTells (run : List SentCommand) (f : BadMap) : Prop where
  frozen : ∀ u, (f u).isSome ↔ lastCommand u (run.map SentCommand.command) = some .freeze
  inserted : ∀ u uid, f u = some uid → InsertedWith run u uid

theorem InsertedWith.append {run : List SentCommand} {u : Username} {uid : ℤ}
    (h : InsertedWith run u uid) {c : SentCommand} (hc : c.command ≠ ⟨u, .unfreeze⟩) :
    InsertedWith (run ++ [c]) u uid := by
  obtain ⟨before, d, after, rfl, hd, hlast, hafter, huid⟩ := h
  refine ⟨before, d, after ++ [c], by simp, hd, hlast, ?_, huid⟩
  intro e he
  rcases List.mem_append.mp he with hmem | hmem
  · exact hafter e hmem
  · rwa [List.mem_singleton.mp hmem]

section Tells

variable {run : List SentCommand} {f : BadMap} {c : SentCommand}

/-- A command leaves what the map tells of other users. -/
theorem MapTells.other (h : MapTells run f) {u : Username} (hne : c.command.username ≠ u) :
    ((f u).isSome ↔
        lastCommand u ((run ++ [c]).map SentCommand.command) = some .freeze) ∧
      ∀ uid, f u = some uid → InsertedWith (run ++ [c]) u uid := by
  constructor
  · rw [List.map_append, List.map_singleton, lastCommand_append_singleton, if_neg hne]
    exact h.frozen u
  · intro uid huid
    refine (h.inserted u uid huid).append fun heq => hne ?_
    rw [heq]

theorem MapTells.freeze (h : MapTells run f) (hc : c.command.command = .freeze) :
    MapTells (run ++ [c]) (f.execute c) := by
  have hcmd : c.command = ⟨c.command.username, .freeze⟩ := by rw [← hc]
  have hlast : lastCommand c.command.username ((run ++ [c]).map SentCommand.command) =
      some .freeze := by
    rw [List.map_append, List.map_singleton, lastCommand_append_singleton, if_pos rfl, hc]
  simp only [BadMap.execute, hc]
  split
  · rename_i hlisted
    refine ⟨?_, ?_⟩
    · intro u
      by_cases hu : c.command.username = u
      · subst hu
        exact ⟨fun _ => hlast, fun _ => hlisted⟩
      · exact (h.other hu).1
    · intro u uid huid
      exact (h.inserted u uid huid).append (by rw [hcmd]; simp)
  · rename_i hfree
    refine ⟨?_, ?_⟩
    · intro u
      by_cases hu : c.command.username = u
      · subst hu
        rw [Function.update_self]
        exact ⟨fun _ => hlast, fun _ => rfl⟩
      · rw [Function.update_of_ne (Ne.symm hu)]
        exact (h.other hu).1
    · intro u uid huid
      by_cases hu : c.command.username = u
      · subst hu
        rw [Function.update_self] at huid
        refine ⟨run, c, [], rfl, hcmd, ?_, by simp, (Option.some.inj huid).symm⟩
        rwa [Ne, ← h.frozen]
      · rw [Function.update_of_ne (Ne.symm hu)] at huid
        exact (h.other hu).2 uid huid

theorem MapTells.unfreeze (h : MapTells run f) (hc : c.command.command = .unfreeze) :
    MapTells (run ++ [c]) (f.execute c) := by
  simp only [BadMap.execute, hc]
  refine ⟨?_, ?_⟩
  · intro u
    by_cases hu : c.command.username = u
    · subst hu
      simp [lastCommand_append_singleton, hc]
    · rw [Function.update_of_ne (Ne.symm hu)]
      exact (h.other hu).1
  · intro u uid huid
    by_cases hu : c.command.username = u
    · subst hu
      simp at huid
    · rw [Function.update_of_ne (Ne.symm hu)] at huid
      exact (h.other hu).2 uid huid

end Tells

/-! ### Runs -/

/-- The state of the list after a run. -/
structure ListTells (run : List SentCommand) (shm : ShmStructure) : Prop where
  listed : ∀ u, isUserInList shm u = true ↔
    lastCommand u (run.map SentCommand.command) = some .freeze
  client_listed : ∀ u waits, isUserInList shm u = true →
    InsertedWith run u (isUserInBadListCleintPersistent shm (.acquired :: waits) u.bytes) ∧
      isUserInBadListCleintPersistent shm (.acquired :: waits) u.bytes ≠ 0
  client_other : ∀ u waits, isUserInList shm u = false →
    isUserInBadListCleintPersistent shm (.acquired :: waits) u.bytes = 0

theorem InsertedWith.uid_pos {run : List SentCommand} {u : Username} {uid : ℤ}
    (h : InsertedWith run u uid) (hrun : ∀ c ∈ run, c.Proper) : 1 ≤ uid := by
  obtain ⟨before, c, after, rfl, -, -, -, rfl⟩ := h
  exact (hrun c (by simp)).getUid_pos u

theorem MapTells.listTells {run : List SentCommand} {shm : ShmStructure}
    (h : MapTells run shm.listedUid) (hrun : ∀ c ∈ run, c.Proper) : ListTells run shm := by
  refine ⟨?_, ?_, ?_⟩
  · intro u
    rw [isUserInList_iff]
    exact h.frozen u
  · intro u waits hu
    obtain ⟨uid, huid⟩ := Option.isSome_iff_exists.mp ((isUserInList_iff shm u).mp hu)
    have hins := h.inserted u uid huid
    have hpos := hins.uid_pos hrun
    rw [isUserInBadListCleintPersistent_eq, huid]
    exact ⟨hins, by simpa using by omega⟩
  · intro u waits hu
    have hnone : shm.listedUid u = none := by
      simpa [hu] using (isUserInList_iff shm u).not
    rw [isUserInBadListCleintPersistent_eq, hnone]
    rfl

theorem shmInv_run {cfg : GovernorConfig} (hu : cfg.useLve = true) (ha : cfg.allLve = false)
    {m : MysqlSide} (hm : ShmInv m.badList) {run : List SentCommand}
    (hrun : ∀ c ∈ run, c.Proper) :
    ShmInv (run.foldl (SentCommand.execute cfg) m).badList := by
  let inv : MysqlSide → Prop := fun m => ShmInv m.badList
  have hstep : ∀ m (c : SentCommand), inv m → c.Proper → inv (c.execute cfg m) := fun _ _ hinv hc =>
    ShmInv.execute hinv hu ha hc
  exact (Runs.meets_of_forall m run fun c hc _ => hrun c hc).invariant hstep hm

/-- As long as no FREEZE meets a full list, the list tells what the map tells. -/
theorem mapTells_run {cfg : GovernorConfig} (hu : cfg.useLve = true) (ha : cfg.allLve = false)
    {m : MysqlSide} (hm : m.badList = clearBadUsersList) {run : List SentCommand}
    (hrun : ∀ c ∈ run, c.Proper)
    (hroom : Runs.Meets (SentCommand.execute cfg) (fun m c => ¬ MeetsFull m c) m run) :
    MapTells run (run.foldl (SentCommand.execute cfg) m).badList.listedUid := by
  induction run using List.reverseRecOn with
  | nil =>
      refine ⟨?_, ?_⟩
      · intro u
        simp [hm, listedUid_eq, findIndex, clearBadUsersList]
      · intro u uid huid
        simp [hm, listedUid_eq, findIndex, clearBadUsersList] at huid
  | append_singleton run c ih =>
      obtain ⟨hbefore, hlast, -⟩ := Runs.meets_append.mp hroom
      have hrun' : ∀ d ∈ run, d.Proper := fun d hd => hrun d (List.mem_append_left _ hd)
      have hc : c.Proper := hrun c (by simp)
      have htells := ih hrun' hbefore
      have hinv := shmInv_run hu ha (hm ▸ ShmInv.clear) hrun'
      rw [List.foldl_append, List.foldl_cons, List.foldl_nil,
        listedUid_execute hinv hu ha hc hlast]
      rcases hc.toggles with hf | hf
      · exact htells.freeze hf
      · exact htells.unfreeze hf

/-- Every run of FREEZE and UNFREEZE commands from a cleared list keeps the table sound; without
a FREEZE on a full list it is the map of the frozen users; a FREEZE on a full list fails and
changes nothing. -/
theorem commands_refine_map (cfg : GovernorConfig) (hu : cfg.useLve = true)
    (ha : cfg.allLve = false) (m : MysqlSide) (hm : m.badList = clearBadUsersList)
    (run : List SentCommand) (hrun : ∀ c ∈ run, c.Proper) :
    ShmInv (run.foldl (SentCommand.execute cfg) m).badList ∧
      (Runs.Meets (SentCommand.execute cfg) (fun m c => ¬ MeetsFull m c) m run →
        ListTells run (run.foldl (SentCommand.execute cfg) m).badList) ∧
      ∀ c : SentCommand, c.command.command = .freeze →
        (run.foldl (SentCommand.execute cfg) m).badList.numbers = maxItemsInTable - 1 →
        isUserInList (run.foldl (SentCommand.execute cfg) m).badList c.command.username = false →
        addUserToList true (run.foldl (SentCommand.execute cfg) m).badList c.command.username
            cfg.allLve (getUid c.userMap c.command.username) =
          (-2, (run.foldl (SentCommand.execute cfg) m).badList) ∧
        (c.execute cfg (run.foldl (SentCommand.execute cfg) m)).badList =
          (run.foldl (SentCommand.execute cfg) m).badList := by
  refine ⟨shmInv_run hu ha (hm ▸ ShmInv.clear) hrun, ?_, ?_⟩
  · intro hroom
    exact (mapTells_run hu ha hm hrun hroom).listTells hrun
  · intro c hc hn hl
    generalize run.foldl (SentCommand.execute cfg) m = m' at hn hl ⊢
    have hnone : ¬ (m'.badList.listedUid c.command.username).isSome := by
      rw [← isUserInList_iff, hl]
      decide
    have hfail : addUserToList true m'.badList c.command.username false
        (getUid c.userMap c.command.username) = (-2, m'.badList) := by
      rw [addUserToList_eq, if_neg hnone, if_pos (by omega)]
    rw [execute_freeze hu ha hc, ha, hfail]
    exact ⟨rfl, rfl⟩

/-- A user that is frozen, released and frozen again, without a map. -/
def sampleRun : List SentCommand :=
  [⟨none, ⟨strlcpy [117], .freeze⟩⟩, ⟨none, ⟨strlcpy [117], .unfreeze⟩⟩,
    ⟨none, ⟨strlcpy [117], .freeze⟩⟩]

theorem sampleRun_proper : ∀ c ∈ sampleRun, c.Proper := by
  intro c hc
  have hmap : c.userMap = none ∧
      (c.command.command = .freeze ∨ c.command.command = .unfreeze) := by
    revert c
    simp [sampleRun]
  exact ⟨hmap.2, fun u um h => by simp [hmap.1, findUid] at h⟩

theorem commands_refine_map_sample :
    ShmInv (sampleRun.foldl (SentCommand.execute (shippedConfig true)) .init).badList ∧
      ListTells sampleRun
        (sampleRun.foldl (SentCommand.execute (shippedConfig true)) .init).badList := by
  obtain ⟨hinv, htells, -⟩ := commands_refine_map (shippedConfig true) rfl rfl .init rfl sampleRun
    sampleRun_proper
  refine ⟨hinv, htells ?_⟩
  simp only [sampleRun, Runs.Meets, MeetsFull]
  decide

end DbGovernor
