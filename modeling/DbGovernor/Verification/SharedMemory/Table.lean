import DbGovernor.Model.SharedMemory
import DbGovernor.Verification.Shared.SlotTable

/-!
# The shared list as a table

The slots below `numbers` are a table from names to uids. Each operation of the daemon is
the expected operation of the table, and a client reads the table.
-/

namespace DbGovernor

/-- The entries of the list. -/
def ShmStructure.entries (shm : ShmStructure) : List ItemsStructure :=
  SlotTable.entries shm.numbers.toNat shm.items

/-- The uid under which a user is listed. -/
def ShmStructure.listedUid (shm : ShmStructure) (u : Username) : Option ℤ :=
  (SlotTable.get ItemsStructure.username u shm.entries).map ItemsStructure.uid

/-- The counter is in range, and no name is listed twice. -/
structure ShmInv (shm : ShmStructure) : Prop where
  nonneg : 0 ≤ shm.numbers
  lt_max : shm.numbers < maxItemsInTable
  nodup : (shm.entries.map ItemsStructure.username).Nodup

theorem ShmInv.clear : ShmInv clearBadUsersList := by
  refine ⟨le_refl 0, by decide, ?_⟩
  simp [ShmStructure.entries, clearBadUsersList, SlotTable.entries]

/-! ### The search -/

theorem sameName_eq (stored u : Username) : sameName stored u.bytes = decide (stored = u) := by
  have htake : u.bytes.take usernamemaxlen = u.bytes := List.take_of_length_le u.fits.le
  rw [sameName, htake, beq_eq_decide]
  exact decide_eq_decide.mpr Username.ext_iff.symm

theorem listedUid_eq (shm : ShmStructure) (u : Username) :
    shm.listedUid u = (findIndex shm u.bytes).map fun index => (shm.items index).uid := by
  simp only [ShmStructure.listedUid, ShmStructure.entries, SlotTable.get_entries, findIndex,
    sameName_eq, Option.map_map]
  rfl

theorem isUserInList_iff (shm : ShmStructure) (u : Username) :
    isUserInList shm u = true ↔ (shm.listedUid u).isSome := by
  rw [isUserInList, listedUid_eq, Option.isSome_map]

/-- A client that gets the semaphore reads the uid of a listed user, and 0 for others. -/
theorem isUserInBadListCleintPersistent_eq (shm : ShmStructure) (u : Username)
    (waits : List TryWait) :
    isUserInBadListCleintPersistent shm (.acquired :: waits) u.bytes =
      (shm.listedUid u).getD 0 := by
  rw [listedUid_eq, isUserInBadListCleintPersistent, cleintLoop]
  cases findIndex shm u.bytes <;> rfl

/-! ### Operations -/

section Operations

variable {shm : ShmStructure} {u v : Username} {uid : ℤ}

theorem get_eq_none_of_listedUid (h : shm.listedUid u = none) :
    SlotTable.get ItemsStructure.username u shm.entries = none := by
  simpa [ShmStructure.listedUid] using h

theorem entries_appendItem (hinv : ShmInv shm) :
    (appendItem shm u uid).entries = shm.entries ++ [⟨u, uid⟩] := by
  have hn : (shm.numbers + 1).toNat = shm.numbers.toNat + 1 := by
    have := hinv.nonneg
    omega
  simp only [ShmStructure.entries, appendItem, hn]
  exact SlotTable.entries_succ_update _ _ _

theorem numbers_removeItem (shm : ShmStructure) (index : ℕ) :
    (removeItem shm index).numbers = shm.numbers - 1 := by
  rw [removeItem]
  split <;> rfl

/-- The protected section removes the entry at its index, whichever search it comes from. -/
theorem entries_removeItem_of_lt {index : ℕ} (hlt : (index : ℤ) < shm.numbers) :
    (removeItem shm index).entries = shm.entries.eraseIdx index := by
  have hidx : index < shm.numbers.toNat := by omega
  have hn : (shm.numbers - 1).toNat = shm.numbers.toNat - 1 := by omega
  by_cases hlast : (index : ℤ) = shm.numbers - 1
  · simp only [ShmStructure.entries, removeItem, if_pos hlast, hn]
    exact SlotTable.entries_shift hidx _ _ (fun _ _ => rfl) fun j hj hj' => by omega
  · simp only [ShmStructure.entries, removeItem, if_neg hlast, hn]
    refine SlotTable.entries_shift hidx _ _ (?_) ?_
    · intro j hj
      exact if_neg (by omega)
    · intro j hj hj'
      exact if_pos (by omega)

theorem lt_numbers_of_findIndex {index : ℕ} {name : List UInt8}
    (h : findIndex shm name = some index) : (index : ℤ) < shm.numbers := by
  have hmem := List.mem_of_find?_eq_some h
  rw [List.mem_range] at hmem
  omega

theorem entries_removeItem {index : ℕ} (h : findIndex shm u.bytes = some index) :
    (removeItem shm index).entries = shm.entries.eraseP fun e => e.username = u := by
  have hidx : (shm.entries.findIdx? fun e => e.username = u) = some index := by
    rw [← h, findIndex]
    simp only [sameName_eq]
    exact (SlotTable.find?_range_eq _ shm.items fun e => e.username = u).symm
  rw [List.eraseP_eq_eraseIdx, hidx]
  exact entries_removeItem_of_lt (lt_numbers_of_findIndex h)

theorem listedUid_appendItem (hinv : ShmInv shm) (h : shm.listedUid u = none) :
    (appendItem shm u uid).listedUid v = if v = u then some uid else shm.listedUid v := by
  have hget := get_eq_none_of_listedUid h
  rw [ShmStructure.listedUid, entries_appendItem hinv, SlotTable.get_append_singleton hget]
  split <;> rfl

theorem listedUid_removeItem (hinv : ShmInv shm) {index : ℕ}
    (h : findIndex shm u.bytes = some index) :
    (removeItem shm index).listedUid v = if v = u then none else shm.listedUid v := by
  rw [ShmStructure.listedUid, entries_removeItem h, SlotTable.get_eraseP hinv.nodup]
  split <;> rfl

theorem ShmInv.appendItem (hinv : ShmInv shm) (h : shm.listedUid u = none)
    (hfull : shm.numbers + 1 ≠ maxItemsInTable) (uid : ℤ) : ShmInv (appendItem shm u uid) := by
  refine ⟨?_, ?_, ?_⟩
  · have := hinv.nonneg
    simp only [DbGovernor.appendItem]
    omega
  · have := hinv.lt_max
    simp only [DbGovernor.appendItem]
    omega
  · rw [entries_appendItem hinv]
    exact SlotTable.nodup_append_singleton hinv.nodup (get_eq_none_of_listedUid h)

theorem ShmInv.removeItem (hinv : ShmInv shm) {index : ℕ} (hlt : (index : ℤ) < shm.numbers) :
    ShmInv (removeItem shm index) := by
  have hnumbers := numbers_removeItem shm index
  refine ⟨?_, ?_, ?_⟩
  · omega
  · have := hinv.lt_max
    omega
  · rw [entries_removeItem_of_lt hlt]
    exact hinv.nodup.sublist ((List.eraseIdx_sublist _ _).map _)

/-- The result of a FREEZE: nothing changes for a listed user or on a full list. -/
theorem addUserToList_eq (shm : ShmStructure) (u : Username) (uid : ℤ) :
    addUserToList true shm u false uid =
      if (shm.listedUid u).isSome then (0, shm)
      else if shm.numbers + 1 = maxItemsInTable then (-2, shm)
      else (0, appendItem shm u uid) := by
  simp [addUserToList, isUserInList_iff]

theorem ShmInv.addUserToList {shm : ShmStructure} (hinv : ShmInv shm) (u : Username) (uid : ℤ) :
    ShmInv (addUserToList true shm u false uid).2 := by
  rw [addUserToList_eq]
  split
  · exact hinv
  · rename_i hnone
    split
    · exact hinv
    · rename_i hfull
      exact hinv.appendItem (by simpa using hnone) hfull uid

theorem ShmInv.deleteUserFromList {shm : ShmStructure} (hinv : ShmInv shm) (u : Username) :
    ShmInv (deleteUserFromList true shm u).2 := by
  rw [DbGovernor.deleteUserFromList]
  split
  · exact hinv
  · exact hinv.removeItem (lt_numbers_of_findIndex ‹_›)

theorem listedUid_deleteUserFromList {shm : ShmStructure} (hinv : ShmInv shm) (u v : Username) :
    (deleteUserFromList true shm u).2.listedUid v =
      if v = u then none else shm.listedUid v := by
  rw [deleteUserFromList]
  split
  · rename_i hnone
    split
    · rename_i hv
      rw [hv, listedUid_eq, hnone]
      rfl
    · rfl
  · exact listedUid_removeItem hinv ‹_›

end Operations

end DbGovernor
