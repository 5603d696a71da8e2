import DbGovernor.Verification.Daemon.Enforcement
import DbGovernor.Verification.Shared.Settling

/-!
# The hand-over catches up

While no thread decides, the sections of the hand-over carry out what was decided. The state they
begin in is one that the steps of `EnforcementStep` lead to; see there what these leave out.
-/

namespace DbGovernor

/-- One section of the hand-over. The worker has room for the user it lists. -/
inductive HandoverSection : World → World → Prop where
  | copy (w) (hpc : w.sender.pc = .idle) (hbusy : w.sender.isSendCommandCycle = false) :
      HandoverSection w { w with sender := copySection w.globals w.sender }
  | reinit (w) (hpc : w.sender.pc = .copied) :
      HandoverSection w { w with
        globals := reinitCommandList w.globals
        sender := { w.sender with pc := .reinited } }
  | spawn (w) (hpc : w.sender.pc = .reinited) :
      HandoverSection w { w with sender := spawnWorker w.sender }
  | work (cmd rest w) (hworker : w.sender.worker = some (cmd :: rest))
      (hroom : ∀ c ∈ cmd, ¬ MeetsFull w.mysql ⟨w.userMap, c⟩) :
      HandoverSection w (workOn cmd rest w)
  | finish (w) (hworker : w.sender.worker = some []) :
      HandoverSection w { w with sender := finishWorker w.sender }

/-- The sections of a pass that begins with a copy of the list; none if the list is empty. -/
def passLeft (g : Globals) : ℕ := if g.listed = [] then 0 else g.listed.length + 5

/-- The sections until every command is carried out. -/
def sectionsLeft (w : World) : ℕ :=
  match w.sender.worker, w.sender.pc with
  | some rest, _ => rest.length + (passLeft w.globals + 1)
  | none, .idle => passLeft w.globals
  | none, .copied => w.sender.commandListSend.length + 3
  | none, .reinited => w.sender.commandListSend.length + 1 + (passLeft w.globals + 1)

/-- Every command was carried out. -/
def CaughtUp (w : World) : Prop := w.sender.executed = w.globals.enqueued

variable {cfg : GovernorConfig} {w v : World}

theorem HandoverSection.enforcementStep (h : HandoverSection w v) : EnforcementStep w v := by
  cases h with
  | copy _ hpc hbusy => exact .copy w hpc hbusy
  | reinit _ hpc => exact .reinit w hpc
  | spawn _ hpc => exact .spawn w hpc
  | work cmd rest _ hworker hroom => exact .work cmd rest w hworker hroom
  | finish _ hworker => exact .finish w hworker

/-- A section neither decides nor registers. -/
theorem HandoverSection.frame (h : HandoverSection w v) :
    v.accounts = w.accounts ∧ v.users = w.users ∧ v.userMap = w.userMap := by
  cases h <;> exact ⟨rfl, rfl, rfl⟩

/-! ### The sections that are left -/

theorem length_copyCommands (l send : GList) :
    (copyCommands l send).length = send.length + l.reduceOption.length := by
  induction l generalizing send with
  | nil => simp [copyCommands]
  | cons cmd l ih =>
      cases cmd with
      | none => simpa [copyCommands] using ih send
      | some c =>
          have hone := ih (send ++ [some c])
          rw [List.length_append, List.length_singleton] at hone
          rw [List.reduceOption_cons_of_some, List.length_cons, copyCommands, List.foldl_cons,
            ← copyCommands, hone]
          omega

theorem length_copySection (g : Globals) (s : Sender) :
    (copySection g s).commandListSend.length = g.listed.length + 1 := by
  cases hl : g.commandList with
  | none => simp [copySection, Globals.listed, hl, gListAlloc]
  | some l =>
      simp [copySection, Globals.listed, hl, gListAlloc, length_copyCommands, Nat.add_comm]

theorem passLeft_reinit (g : Globals) : passLeft (reinitCommandList g) = 0 := by
  rw [passLeft, listed_reinitCommandList, if_pos rfl]

theorem HandoverSection.caughtUp (hphase : HandoverPhase w.globals w.sender)
    (h : HandoverSection w v) (hcaught : CaughtUp w) : CaughtUp v := by
  cases h with
  | copy => exact hcaught
  | reinit => exact hcaught
  | finish => exact hcaught
  | spawn =>
      rw [CaughtUp, spawnWorker]
      split <;> exact hcaught
  | work cmd rest _ hworker =>
      cases hphase with
      | sending _ rest' hw _ hlog =>
          obtain rfl : rest' = cmd :: rest := Option.some.inj (hw.symm.trans hworker)
          cases cmd with
          | none =>
              rw [CaughtUp, workOn, visitCommand, Option.toList_none, List.append_nil]
              exact hcaught
          | some c =>
              -- a command that waits for its visit was not carried out
              exfalso
              have hlength := congrArg List.length hlog
              rw [← hcaught] at hlength
              simp at hlength
      | waiting _ hw _ => simp [hworker] at hw
      | copied _ hw _ _ _ => simp [hworker] at hw
      | reinited _ hw _ _ => simp [hworker] at hw

theorem HandoverSection.sectionsLeft_lt (hphase : HandoverPhase w.globals w.sender)
    (h : HandoverSection w v) : CaughtUp w ∨ sectionsLeft v < sectionsLeft w := by
  cases h with
  | copy _ hpc hbusy =>
      cases hphase with
      | waiting _ hw hlog =>
          by_cases hlisted : w.globals.listed = []
          · left
            rw [CaughtUp, hlog, hlisted, List.append_nil]
          · right
            have hworker : (copySection w.globals w.sender).worker = none := hw
            have hcopied : (copySection w.globals w.sender).pc = .copied := rfl
            simp only [sectionsLeft, hw, hpc, hworker, hcopied, length_copySection, passLeft,
              if_neg hlisted]
            omega
      | copied hp _ _ _ _ => simp [hpc] at hp
      | reinited hp _ _ _ => simp [hpc] at hp
      | sending _ _ _ hb _ => simp [hbusy] at hb
  | reinit _ hpc =>
      cases hphase with
      | copied _ hw _ _ _ =>
          right
          simp only [sectionsLeft, hw, hpc, passLeft_reinit]
          omega
      | waiting hp _ _ => simp [hpc] at hp
      | reinited hp _ _ _ => simp [hpc] at hp
      | sending hp _ _ _ _ => simp [hpc] at hp
  | spawn _ hpc =>
      cases hphase with
      | reinited _ hw _ _ =>
          right
          rw [spawnWorker]
          split
          · simp only [sectionsLeft, hw, hpc]
            omega
          · simp only [sectionsLeft, hw, hpc]
            omega
      | waiting hp _ _ => simp [hpc] at hp
      | copied hp _ _ _ _ => simp [hpc] at hp
      | sending hp _ _ _ _ => simp [hpc] at hp
  | work cmd rest _ hworker =>
      right
      have hleft : sectionsLeft (workOn cmd rest w) = rest.length + (passLeft w.globals + 1) := rfl
      rw [hleft]
      simp only [sectionsLeft, hworker, List.length_cons]
      omega
  | finish _ hworker =>
      cases hphase with
      | sending hp _ _ _ _ =>
          right
          have hnone : (finishWorker w.sender).worker = none := rfl
          have hidle : (finishWorker w.sender).pc = .idle := hp
          simp only [sectionsLeft, hworker, hnone, hidle, List.length_nil]
          omega
      | waiting _ hw _ => simp [hworker] at hw
      | copied _ hw _ _ _ => simp [hworker] at hw
      | reinited _ hw _ _ => simp [hworker] at hw

theorem caughtUp_of_sectionsLeft (hphase : HandoverPhase w.globals w.sender)
    (h : sectionsLeft w = 0) : CaughtUp w := by
  cases hphase with
  | waiting hp hw hlog =>
      by_cases hlisted : w.globals.listed = []
      · rw [CaughtUp, hlog, hlisted, List.append_nil]
      · simp [sectionsLeft, hw, hp, passLeft, hlisted] at h
  | copied hp hw _ _ _ => simp [sectionsLeft, hw, hp] at h
  | reinited hp hw _ _ => simp [sectionsLeft, hw, hp] at h
  | sending _ rest hw _ _ => simp [sectionsLeft, hw] at h

theorem handover_settles (hm : cfg.LimitMode) :
    Settling.Settles HandoverSection (EnforcementInv cfg) CaughtUp sectionsLeft where
  keeps h hstep := h.step hm hstep.enforcementStep
  stays h hstep := hstep.caughtUp h.handover.phase
  nears h hstep := hstep.sectionsLeft_lt h.handover.phase
  ends h hleft := caughtUp_of_sectionsLeft h.handover.phase hleft

/-! ### The room in the list -/

/-- Nobody is listed whom the daemon does not know. -/
theorem EnforcementInv.known_of_listed (h : EnforcementInv cfg w) {u : Username}
    (hu : u ∈ w.mysql.badList.entries.map ItemsStructure.username) : u ∈ w.users.keys := by
  have hlisted : w.mysql.badList.listedUid u ≠ none := by
    rw [ShmStructure.listedUid, Ne, Option.map_eq_none_iff, SlotTable.get_eq_none_iff]
    exact fun hnot => hnot hu
  rw [h.listed] at hlisted
  have hlast : lastCommand u w.sender.executed = some .freeze := by
    by_contra hne
    exact hlisted (if_neg hne)
  obtain ⟨rest, hlog, -⟩ := h.handover.delivered
  obtain ⟨cmd, hcmd, -⟩ := Option.map_eq_some_iff.mp hlast
  have hkey : cmd.username = u := by simpa using List.find?_some hcmd
  have hexecuted : cmd ∈ w.sender.executed :=
    List.mem_reverse.mp (List.mem_of_find?_eq_some hcmd)
  have hmem : cmd ∈ w.globals.enqueued := hlog ▸ List.mem_append_left rest hexecuted
  rw [← hkey]
  exact AList.lookup_isSome.mp (h.reachable.daemonInv.logged cmd hmem)

/-- With fewer users than items the list has room for each of them. -/
theorem EnforcementInv.not_meetsFull (h : EnforcementInv cfg w)
    (hfew : w.users.keys.length < maxItemsInTable) {c : Command}
    (hmem : c ∈ w.globals.enqueued) : ¬ MeetsFull w.mysql ⟨w.userMap, c⟩ := by
  rintro ⟨-, hunlisted, hfull⟩
  have hnew : c.username ∉ w.mysql.badList.entries.map ItemsStructure.username := by
    rwa [ShmStructure.listedUid, Option.map_eq_none_iff, SlotTable.get_eq_none_iff] at hunlisted
  have hnodup : (c.username :: w.mysql.badList.entries.map ItemsStructure.username).Nodup :=
    List.nodup_cons.mpr ⟨hnew, h.shm.nodup⟩
  have hknown : c.username ∈ w.users.keys :=
    AList.lookup_isSome.mp (h.reachable.daemonInv.logged c hmem)
  have hsub : c.username :: w.mysql.badList.entries.map ItemsStructure.username ⊆ w.users.keys :=
    List.cons_subset.mpr ⟨hknown, fun u hu => h.known_of_listed hu⟩
  have hlength := (hnodup.subperm hsub).length_le
  rw [List.length_cons, List.length_map, ShmStructure.entries, SlotTable.length_entries] at hlength
  have hnonneg := h.shm.nonneg
  omega

/-- A section can be taken, as long as the list has room. -/
theorem EnforcementInv.exists_section (h : EnforcementInv cfg w)
    (hfew : w.users.keys.length < maxItemsInTable) : ∃ v, HandoverSection w v := by
  cases h.handover.phase with
  | copied hp _ _ _ _ => exact ⟨_, .reinit w hp⟩
  | reinited hp _ _ _ => exact ⟨_, .spawn w hp⟩
  | waiting hp hw _ => exact ⟨_, .copy w hp (h.flag hp hw)⟩
  | sending _ rest hw _ hlog =>
      cases rest with
      | nil => exact ⟨_, .finish w hw⟩
      | cons cmd rest =>
          refine ⟨_, .work cmd rest w hw ?_⟩
          rintro c hc
          obtain rfl : cmd = some c := hc
          refine h.not_meetsFull hfew ?_
          dsimp only at hlog
          simp [hlog]

/-! ### The plugin, some sections later -/

theorem userRestricted_congr (h : v.accounts = w.accounts) (u : Username) :
    UserRestricted v u ↔ UserRestricted w u := by
  rw [UserRestricted, UserRestricted, h]

theorem handover_frame {run : ℕ → World} {n : ℕ}
    (hrun : ∀ i < n, HandoverSection (run i) (run (i + 1))) :
    (run n).accounts = (run 0).accounts ∧ (run n).users = (run 0).users ∧
      (run n).userMap = (run 0).userMap := by
  induction n with
  | zero => exact ⟨rfl, rfl, rfl⟩
  | succ n ih =>
      obtain ⟨haccounts, husers, hmap⟩ := ih fun i hi => hrun i (by omega)
      obtain ⟨haccounts', husers', hmap'⟩ := (hrun n (by omega)).frame
      exact ⟨haccounts'.trans haccounts, husers'.trans husers, hmap'.trans hmap⟩

/-- The hand-over after the tick that restricts the user. -/
def sampleHandover (i : ℕ) : World :=
  [decidedWorld, copiedWorld, reinitedWorld, spawnedWorld,
    workOn none [some ⟨sampleUser, .freeze⟩] spawnedWorld, frozenWorld].getD i enforcedWorld

theorem sampleHandover_sections :
    ∀ i < 6, HandoverSection (sampleHandover i) (sampleHandover (i + 1))
  | 0, _ => .copy _ (by decide +kernel) (by decide +kernel)
  | 1, _ => .reinit _ (by decide +kernel)
  | 2, _ => .spawn _ (by decide +kernel)
  | 3, _ => .work none [some ⟨sampleUser, .freeze⟩] spawnedWorld (by decide +kernel) (by simp)
  | 4, _ => .work (some ⟨sampleUser, .freeze⟩) [] _ (by decide +kernel) frozenWorld_room
  | 5, _ => .finish _ (by decide +kernel)

end DbGovernor
