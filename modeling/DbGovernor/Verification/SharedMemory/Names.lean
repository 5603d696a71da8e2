import DbGovernor.Model.NameCopies
import DbGovernor.Verification.Shared.Segments
import DbGovernor.Verification.SharedMemory.Refinement

/-!
# The two paths of a user name

The daemon lists the copy of a name that the messages carried; a client searches for the name
itself. They meet exactly for the names that fit a `username_t` with their terminator.
-/

namespace DbGovernor

/-! ### The copies -/

theorem copyName_eq (n : Username) : copyName n = n := by
  have htake := Segments.takeWhile_ne n.noNul
  have hlength : n.bytes.length ≤ usernamemaxlen - 1 := Nat.le_pred_of_lt n.fits
  ext1
  rw [copyName, strlcpy]
  dsimp only
  rw [htake, List.take_of_length_le hlength]

/-- Only the copy in `send_info` can change a name. -/
theorem frozenName_sendInfo (u : List UInt8) (type pid tid : ℤ) (usage : ThreadUsage)
    (tvSec tvNsec : ℤ) :
    frozenName (sendInfo u type pid tid usage tvSec tvNsec) = strlcpy u := by
  simp only [frozenName, sentCommandName, commandName, accountUserName, counterName, tidName,
    copyName_eq]
  rfl

theorem strlcpy_bytes_of_fits {u : List UInt8} (hnul : 0 ∉ u) (hfits : u.length < usernamemaxlen) :
    (strlcpy u).bytes = u := by
  have hsame := copyName_eq ⟨u, hnul, hfits⟩
  exact congrArg Username.bytes hsame

/-! ### The search of a client -/

/-- A name that does not fit differs from every listed one. -/
theorem isUserInBadListCleintPersistent_of_long {u : List UInt8} (h : usernamemaxlen ≤ u.length)
    (shm : ShmStructure) (waits : List TryWait) :
    isUserInBadListCleintPersistent shm (.acquired :: waits) u = 0 := by
  have hnever : ∀ stored : Username, sameName stored u = false := by
    intro stored
    have hlength : (u.take usernamemaxlen).length = usernamemaxlen := by
      rw [List.length_take, min_eq_left h]
    rw [sameName, beq_eq_false_iff_ne]
    intro heq
    have hfits := stored.fits
    rw [heq, hlength] at hfits
    exact lt_irrefl _ hfits
  have hnone : findIndex shm u = none := by
    rw [findIndex, List.find?_eq_none]
    intro index _
    simp [hnever]
  rw [isUserInBadListCleintPersistent, cleintLoop, hnone]

/-! ### The two paths -/

/-- The calls of `send_commands` for a user. -/
def sentFreeze (userMap : Option (HashTable UserMap)) (name : Username) : SentCommand :=
  ⟨userMap, ⟨name, .freeze⟩⟩

def sentUnfreeze (userMap : Option (HashTable UserMap)) (name : Username) : SentCommand :=
  ⟨userMap, ⟨name, .unfreeze⟩⟩

/-- What `governor_enter_lve` learns about `u` when its first try gets the semaphore. -/
def containerLve (shm : ShmStructure) (waits : List TryWait) (u : List UInt8) : ℤ :=
  isUserInBadListCleintPersistent shm (.acquired :: waits) u

/-- If the daemon freezes the user that reported itself as `u` and the list has room,
`governor_enter_lve` finds the uid of the entry, and none after the UNFREEZE. -/
def PathsAgree (u : List UInt8) : Prop :=
  ∀ (cfg : GovernorConfig) (m : MysqlSide) (userMap userMap' : Option (HashTable UserMap))
    (message : ClientData) (waits waits' : List TryWait),
    cfg.useLve = true → cfg.allLve = false → ShmInv m.badList →
    (∃ type pid tid usage tvSec tvNsec, message = sendInfo u type pid tid usage tvSec tvNsec) →
    ¬ MeetsFull m (sentFreeze userMap (frozenName message)) →
    let frozen := (sentFreeze userMap (frozenName message)).execute cfg m
    let released := (sentUnfreeze userMap' (frozenName message)).execute cfg frozen
    frozen.badList.listedUid (itemName (frozenName message)) =
        some (containerLve frozen.badList waits u) ∧
      containerLve released.badList waits' u = 0

section Freeze

variable {cfg : GovernorConfig} {m : MysqlSide} {userMap : Option (HashTable UserMap)}
  {name : Username}

theorem listedUid_sentFreeze (hu : cfg.useLve = true) (ha : cfg.allLve = false)
    (hinv : ShmInv m.badList) (hnone : m.badList.listedUid name = none)
    (hfull : m.badList.numbers + 1 ≠ maxItemsInTable) :
    ((sentFreeze userMap name).execute cfg m).badList.listedUid name =
      some (getUid userMap name) := by
  have hadd : (addUserToList true m.badList name false (getUid userMap name)).2 =
      appendItem m.badList name (getUid userMap name) := by
    rw [addUserToList_eq, hnone]
    simp [hfull]
  rw [execute_freeze hu ha rfl]
  change (addUserToList true m.badList name false (getUid userMap name)).2.listedUid name = _
  rw [hadd, listedUid_appendItem hinv hnone, if_pos rfl]

theorem isSome_listedUid_sentFreeze (hu : cfg.useLve = true) (ha : cfg.allLve = false)
    (hinv : ShmInv m.badList) (hroom : ¬ MeetsFull m (sentFreeze userMap name)) :
    (((sentFreeze userMap name).execute cfg m).badList.listedUid name).isSome := by
  cases hlisted : m.badList.listedUid name with
  | none =>
      have hfull : m.badList.numbers + 1 ≠ maxItemsInTable := fun h => hroom ⟨rfl, hlisted, h⟩
      rw [listedUid_sentFreeze hu ha hinv hlisted hfull]
      rfl
  | some uid =>
      have hadd : (addUserToList true m.badList name false (getUid userMap name)).2 =
          m.badList := by
        rw [addUserToList_eq, hlisted]
        rfl
      rw [execute_freeze hu ha rfl]
      change ((addUserToList true m.badList name false (getUid userMap name)).2.listedUid name).isSome
      rw [hadd, hlisted]
      rfl

end Freeze

theorem pathsAgree_of_fits {u : List UInt8} (hnul : 0 ∉ u) (hfits : u.length < usernamemaxlen) :
    PathsAgree u := by
  rintro cfg m userMap userMap' message waits waits' hu ha hinv
    ⟨type, pid, tid, usage, tvSec, tvNsec, rfl⟩ hroom
  rw [frozenName_sendInfo] at hroom ⊢
  have hbytes := strlcpy_bytes_of_fits hnul hfits
  have hread : ∀ (shm : ShmStructure) (waits : List TryWait),
      containerLve shm waits u = (shm.listedUid (strlcpy u)).getD 0 := by
    intro shm waits
    rw [← isUserInBadListCleintPersistent_eq shm (strlcpy u) waits, hbytes, containerLve]
  obtain ⟨uid, huid⟩ :=
    Option.isSome_iff_exists.mp (isSome_listedUid_sentFreeze hu ha hinv hroom)
  constructor
  · rw [itemName, copyName_eq, hread, huid]
    rfl
  · have hinv' : ShmInv ((sentFreeze userMap (strlcpy u)).execute cfg m).badList := by
      rw [execute_freeze hu ha rfl]
      exact hinv.addUserToList _ _
    rw [hread, execute_unfreeze hu rfl, listedUid_deleteUserFromList hinv']
    simp [sentUnfreeze]

theorem not_pathsAgree_of_long {u : List UInt8} (hlong : usernamemaxlen ≤ u.length) :
    ¬ PathsAgree u := by
  intro h
  have hnone : MysqlSide.init.badList.listedUid (strlcpy u) = none := by
    simp [MysqlSide.init, ShmStructure.listedUid, ShmStructure.entries, clearBadUsersList,
      SlotTable.entries]
  have hroom : MysqlSide.init.badList.numbers + 1 ≠ maxItemsInTable := by decide
  have hagree := (h (shippedConfig true) .init none none (sendInfo u 0 0 0 ⟨0, 0, 0⟩ 0 0) [] [] rfl
    rfl ShmInv.clear ⟨0, 0, 0, ⟨0, 0, 0⟩, 0, 0, rfl⟩ fun hfull => hroom hfull.2.2).1
  rw [frozenName_sendInfo, itemName, copyName_eq,
    listedUid_sentFreeze rfl rfl ShmInv.clear hnone hroom, containerLve,
    isUserInBadListCleintPersistent_of_long hlong] at hagree
  exact absurd hagree (by simp [getUid, findUid, badLve])

/-- Reports and enforcement agree on the names that fit, and on no others. -/
theorem paths_agree_iff_fits (u : List UInt8) (hnul : 0 ∉ u) :
    PathsAgree u ↔ u.length < usernamemaxlen := by
  constructor
  · intro h
    by_contra hlong
    exact not_pathsAgree_of_long (not_lt.mp hlong) h
  · intro hfits
    exact pathsAgree_of_fits hnul hfits

theorem paths_agree_iff_fits_sample : PathsAgree (List.replicate 63 97) :=
  (paths_agree_iff_fits (List.replicate 63 97) (by decide)).mpr (by decide)

/-- Sixteen characters of four bytes. -/
theorem paths_disagree_on_64_bytes : ¬ PathsAgree (List.replicate 64 97) :=
  not_pathsAgree_of_long (by decide)

end DbGovernor
