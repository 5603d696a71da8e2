import DbGovernor.Verification.Commands.Handover
import DbGovernor.Verification.Daemon.Ownership
import DbGovernor.Verification.SharedMemory.Table

/-!
# A refresh of the dbuser map

`reinit_users_list` empties the shared list and fills it again only under `all_lve`. The
accounts are left as they are, so a restricted account loses its enforcement.
-/

namespace DbGovernor

/-! ### Full delivery -/

/-- The rest of the worker's pass, to its end. -/
def deliverRest : GList → World → World
  | [], w => { w with sender := finishWorker w.sender }
  | cmd :: rest, w => deliverRest rest (workOn cmd rest w)

/-- One hand-over from the copy section to the end of the worker. -/
def deliver (w : World) : World :=
  let w := { w with sender := copySection w.globals w.sender }
  let w := { w with
    globals := reinitCommandList w.globals
    sender := { w.sender with pc := .reinited } }
  let w := { w with sender := spawnWorker w.sender }
  deliverRest (w.sender.worker.getD []) w

theorem Reachable.deliverRest {w : World} (h : Reachable w) {l : GList}
    (hl : w.sender.worker = some l) : Reachable (deliverRest l w) := by
  induction l generalizing w with
  | nil => exact .step h (.finish w hl)
  | cons cmd rest ih => exact ih (.step h (.work cmd rest w hl)) rfl

theorem length_le_copyCommands (l send : GList) :
    send.length ≤ (copyCommands l send).length := by
  induction l generalizing send with
  | nil => exact le_refl _
  | cons cmd l ih =>
      cases cmd with
      | none => exact ih send
      | some c =>
          refine le_trans ?_ (ih (send ++ [some c]))
          simp

/-- The copy always has the node that `g_list_alloc` makes, so a worker is created. -/
theorem spawnWorker_copySection (g : Globals) (s : Sender) :
    ∃ l, (spawnWorker { copySection g s with pc := .reinited }).worker = some l := by
  have hpos : 0 < (copySection g s).commandListSend.length := by
    cases hg : g.commandList with
    | none => simp [copySection, hg, gListAlloc]
    | some l =>
        have hone : 0 < (copyCommands l gListAlloc).length := length_le_copyCommands l gListAlloc
        simpa only [copySection, hg] using hone
  exact ⟨(copySection g s).commandListSend, by simp [spawnWorker, hpos]⟩

/-- A hand-over is a run of the daemon. -/
theorem Reachable.deliver {w : World} (h : Reachable w) (hgpl : w.cfg.isGpl = false)
    (hpc : w.sender.pc = .idle) (hbusy : w.sender.isSendCommandCycle = false) :
    Reachable (deliver w) := by
  have hcopy := Reachable.step h (.copy w hgpl hpc hbusy)
  have hreinit := Reachable.step hcopy (.reinit _ rfl)
  have hspawn := Reachable.step hreinit (.spawn _ rfl)
  obtain ⟨l, hl⟩ := spawnWorker_copySection w.globals w.sender
  have hrest := hspawn.deliverRest hl
  simpa [DbGovernor.deliver, hl] using hrest

/-! ### The refresh -/

theorem setDbuserMap_cfg (ord : IterOrder) (w : World) : (setDbuserMap ord w).cfg = w.cfg := by
  rw [setDbuserMap]
  split
  · rfl
  · refine List.foldlRecOn (motive := fun w' : World => w'.cfg = w.cfg) _ _ rfl ?_
    intro w' hw key _
    split
    · exact hw
    · exact (addEmptyStatsForUid_base _ w').1.trans hw

theorem isUserInList_clear (u : Username) : isUserInList clearBadUsersList u = false := by
  simp [isUserInList, findIndex, clearBadUsersList]

/-- After a refresh without `all_lve` nobody is listed. -/
theorem parseMapFileEveryHour_not_listed (dataCfg : GovernorConfig)
    (file file' : Option (List UInt8)) (ordMap ordAccounts : IterOrder) (w : World)
    (h : w.cfg.allLve = false) (u : Username) :
    isUserInList (parseMapFileEveryHour dataCfg file file' ordMap ordAccounts w).mysql.badList u =
      false := by
  have hcfg : (setDbuserMap ordMap
      { w with userMap := some (getMapFile dataCfg file).2 }).cfg.allLve = false := by
    rw [setDbuserMap_cfg]
    exact h
  simp only [parseMapFileEveryHour, reinitUsersList, hcfg, deleteAllusersFromList, if_true]
  exact isUserInList_clear u

/-- The user stays listed in the given state and, as long as the account stays restricted,
after each tick with full delivery. -/
def StaysListed (u a : Username) : World → List TickInput → Prop
  | w, [] => isUserInList w.mysql.badList u = true
  | w, t :: ticks => isUserInList w.mysql.badList u = true ∧
      ((∃ ac ∈ (deliver (proceedAccounts t w)).accounts.lookup a, ac.timeout ≠ 0) →
        StaysListed u a (deliver (proceedAccounts t w)) ticks)

theorem StaysListed.listed {u a : Username} {w : World} {ticks : List TickInput}
    (h : StaysListed u a w ticks) : isUserInList w.mysql.badList u = true := by
  cases ticks with
  | nil => exact h
  | cons t ticks => exact h.1

/-- Whatever the state, the files and the ticks, no user stays listed through a refresh. -/
theorem map_refresh_unlists (w : World) (h : w.cfg.allLve = false) (u a : Username)
    (dataCfg : GovernorConfig) (file file' : Option (List UInt8))
    (ordMap ordAccounts : IterOrder) (ticks : List TickInput) :
    ¬ StaysListed u a (parseMapFileEveryHour dataCfg file file' ordMap ordAccounts w) ticks := by
  intro hstay
  have hlisted := hstay.listed
  rw [parseMapFileEveryHour_not_listed dataCfg file file' ordMap ordAccounts w h u] at hlisted
  exact Bool.false_ne_true hlisted

/-! ### A restricted user that loses its entry -/

/-- Both lists of commands are empty and no worker runs. -/
def Drained (w : World) : Prop :=
  w.globals.listed = [] ∧ w.sender.worker = none ∧ w.sender.pc = .idle

/-- A tick in second `k` of a run. -/
def sampleTickInput (k : ℕ) : TickInput :=
  ⟨k + 1, fun _ => k + 1, 1000000 + k, .asListed, .asListed, .asListed, .asListed, false⟩

/-- The daemon after `k` seconds in each of which a user spent five seconds of CPU. -/
def busyWorld : ℕ → World
  | 0 => World.init (shippedConfig true)
  | k + 1 =>
      proceedAccounts (sampleTickInput k) (incrementCounters sampleUser 500 0 0 k (busyWorld k))

theorem busyWorld_reachable (k : ℕ) : Reachable (busyWorld k) := by
  induction k with
  | zero => exact .start (shippedConfig true)
  | succ k ih =>
      have hinc := Reachable.step ih (.increment sampleUser 500 0 0 k (busyWorld k))
      exact Reachable.step hinc (.tick (sampleTickInput k) _)

/-- The first of these seconds, with the delivery of its commands. -/
def listedWorld : World := deliver (busyWorld 1)

theorem listedWorld_reachable : Reachable listedWorld :=
  (busyWorld_reachable 1).deliver (by decide +kernel) (by decide +kernel) (by decide +kernel)

theorem map_refresh_unlists_sample :
    ¬ StaysListed sampleUser sampleUser
      (parseMapFileEveryHour (shippedConfig true) none none .asListed .asListed listedWorld)
      [] :=
  map_refresh_unlists listedWorld (by decide +kernel) sampleUser sampleUser (shippedConfig true)
    none none .asListed .asListed []

/-- The user of `listedWorld` is restricted and listed, and a refresh unlists it. -/
theorem map_refresh_loses_user :
    ¬ ∀ (w : World) (u a : Username) (ac : Account) (dataCfg : GovernorConfig)
      (file file' : Option (List UInt8)) (ordMap ordAccounts : IterOrder)
      (ticks : List TickInput), Reachable w → w.cfg.Enforcing → Drained w →
      w.accounts.lookup a = some ac → u ∈ ac.users → ac.timeout ≠ 0 →
      isUserInList w.mysql.badList u = true →
      StaysListed u a (parseMapFileEveryHour dataCfg file file' ordMap ordAccounts w) ticks := by
  intro h
  have hrestricted : ∃ ac ∈ listedWorld.accounts.lookup sampleUser,
      sampleUser ∈ ac.users ∧ ac.timeout ≠ 0 := by
    decide +kernel
  obtain ⟨ac, hac, hu, ht⟩ := hrestricted
  have hcfg : listedWorld.cfg.Enforcing :=
    ⟨by decide +kernel, by decide +kernel, by decide +kernel⟩
  have hdrained : Drained listedWorld :=
    ⟨by decide +kernel, by decide +kernel, by decide +kernel⟩
  have hstay := h listedWorld sampleUser sampleUser ac (shippedConfig true) none none .asListed
    .asListed [] listedWorld_reachable hcfg hdrained hac hu ht (by decide +kernel)
  have hlisted := hstay.listed
  rw [parseMapFileEveryHour_not_listed _ _ _ _ _ _ hcfg.allLve] at hlisted
  exact Bool.false_ne_true hlisted

end DbGovernor
