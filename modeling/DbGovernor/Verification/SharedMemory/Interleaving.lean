import DbGovernor.Model.TableThreads
import DbGovernor.Verification.Shared.Runs
import DbGovernor.Verification.SharedMemory.Table

/-!
# Interleavings at the shared list

The search of `add_user_to_list` and `delete_user_from_list` is outside the semaphore, so its
answer may be stale when the update uses it. The list stays well formed exactly in the runs
in which no update acts on such an answer.
-/

namespace DbGovernor

variable {τ : Type*} [DecidableEq τ]

/-- The list is well formed, and no `memmove` had a negative length. -/
structure TableSound (s : TableThreads τ) : Prop where
  table : ShmInv s.badList
  moved : ∀ length ∈ s.moved, 0 ≤ length

/-- What an update needs of the list: a user to add is not listed and there is room, the
index of an entry to delete is in range. -/
def UpToDate (shm : ShmStructure) : TablePc → Prop
  | .outside => True
  | .adding username _ => isUserInList shm username = false ∧ shm.numbers + 1 ≠ maxItemsInTable
  | .deleting _ index => (index : ℤ) < shm.numbers

instance (shm : ShmStructure) : ∀ pc, Decidable (UpToDate shm pc)
  | .outside => inferInstanceAs (Decidable True)
  | .adding _ _ => inferInstanceAs (Decidable (_ ∧ _))
  | .deleting _ _ => inferInstanceAs (Decidable (_ < _))

/-- If the step is an update that gets the semaphore, the answer of its search still holds. -/
def FreshUpdate (s : TableThreads τ) : TableStep τ → Prop
  | .update t true => UpToDate s.badList (s.pc t)
  | _ => True

instance (s : TableThreads τ) : ∀ i, Decidable (FreshUpdate s i)
  | .update _ true => inferInstanceAs (Decidable (UpToDate _ _))
  | .update _ false | .addSearch _ _ _ _ | .deleteSearch _ _ | .deleteAll _ _ =>
      inferInstanceAs (Decidable True)

/-! ### The search and the update of one thread -/

/-- With no other thread in between, the two steps are `add_user_to_list`. -/
theorem addUserToList_eq_steps (s : TableThreads τ) (t : τ) (hpc : s.pc t = .outside)
    (u : Username) (isAll sem : Bool) (uid : ℤ) :
    (TableStep.update t sem).apply ((TableStep.addSearch t u isAll uid).apply s) =
      { s with badList := (addUserToList sem s.badList u isAll uid).2 } := by
  have hback : ∀ pc, Function.update (Function.update s.pc t pc) t .outside = s.pc := by
    intro pc
    rw [Function.update_idem, ← hpc, Function.update_eq_self]
  simp only [TableStep.apply, if_pos hpc, TableThreads.goto, TableThreads.update,
    Function.update_self, addSearch, addUserToList]
  split_ifs <;> simp_all

theorem deleteSearch_zero (shm : ShmStructure) (u : Username) :
    deleteSearch shm u 0 = (findIndex shm u.bytes).elim .outside (TablePc.deleting u) := by
  have hfind : ((List.range shm.numbers.toNat).find? fun index =>
      decide (0 ≤ index) && sameName (shm.items index).username u.bytes) =
      findIndex shm u.bytes := by
    simp [findIndex]
  cases hindex : findIndex shm u.bytes with
  | none => simp only [deleteSearch, hfind, hindex, Option.elim]
  | some index => simp only [deleteSearch, hfind, hindex, Option.elim]

/-- With no other thread in between, the two steps are `delete_user_from_list`. -/
theorem deleteUserFromList_eq_steps (s : TableThreads τ) (t : τ) (hpc : s.pc t = .outside)
    (u : Username) :
    ((TableStep.update t true).apply ((TableStep.deleteSearch t u).apply s)).badList =
      (deleteUserFromList true s.badList u).2 := by
  simp only [TableStep.apply, if_pos hpc, TableThreads.goto, TableThreads.update,
    Function.update_self, deleteUserFromList, deleteSearch_zero]
  cases findIndex s.badList u.bytes <;> rfl

/-! ### One update -/

theorem shmInv_appendItem_iff {shm : ShmStructure} (hinv : ShmInv shm) (u : Username) (uid : ℤ) :
    ShmInv (appendItem shm u uid) ↔
      isUserInList shm u = false ∧ shm.numbers + 1 ≠ maxItemsInTable := by
  have hlisted : isUserInList shm u = false ↔ shm.listedUid u = none := by
    rw [← Bool.not_eq_true, isUserInList_iff]
    simp
  rw [hlisted]
  constructor
  · intro happ
    constructor
    · have hnd := happ.nodup
      rw [entries_appendItem hinv, List.map_append, List.nodup_append] at hnd
      have hnot : u ∉ shm.entries.map ItemsStructure.username := by
        intro hmem
        exact hnd.2.2 u hmem u (by simp) rfl
      rw [ShmStructure.listedUid, SlotTable.get_eq_none_iff.mpr hnot]
      rfl
    · have hlt : shm.numbers + 1 < maxItemsInTable := happ.lt_max
      exact hlt.ne
  · rintro ⟨hnone, hfull⟩
    exact hinv.appendItem hnone hfull uid

theorem shmInv_removeItem_iff {shm : ShmStructure} (hinv : ShmInv shm) (index : ℕ) :
    (ShmInv (removeItem shm index) ∧ ∀ length ∈ memmoveLength shm index, 0 ≤ length) ↔
      (index : ℤ) < shm.numbers := by
  constructor
  · rintro ⟨-, hlength⟩
    by_contra hge
    have hmove : memmoveLength shm index = some (shm.numbers - index - 1) := if_neg (by omega)
    have := hlength _ hmove
    omega
  · intro hlt
    refine ⟨hinv.removeItem hlt, ?_⟩
    intro length hmove
    rw [memmoveLength] at hmove
    split at hmove
    · cases hmove
    · simp only [Option.mem_def, Option.some.injEq] at hmove
      omega

/-! ### Whole runs -/

theorem TableSound.goto {s : TableThreads τ} (h : TableSound s) (t : τ) (pc : TablePc) :
    TableSound (s.goto t pc) := ⟨h.table, h.moved⟩

theorem tableSound_update_iff {s : TableThreads τ} (h : TableSound s) (t : τ) :
    TableSound (s.update t true) ↔ UpToDate s.badList (s.pc t) := by
  rw [TableThreads.update]
  cases hpc : s.pc t with
  | outside => exact iff_of_true h trivial
  | adding u uid =>
      rw [UpToDate, ← shmInv_appendItem_iff h.table u uid]
      constructor
      · intro happ
        exact happ.table
      · intro happ
        exact ⟨happ, h.moved⟩
  | deleting u index =>
      rw [UpToDate, ← shmInv_removeItem_iff h.table index]
      constructor
      · intro hrem
        refine ⟨hrem.table, ?_⟩
        intro length hlength
        exact hrem.moved length (List.mem_append_right _ (by simpa using hlength))
      · rintro ⟨htable, hlength⟩
        refine ⟨htable, ?_⟩
        intro length hmem
        rcases List.mem_append.mp hmem with hold | hnew
        · exact h.moved length hold
        · exact hlength length (by simpa using hnew)

/-- A step keeps the list well formed exactly if it is no update on a stale answer. -/
theorem tableSound_apply_iff {s : TableThreads τ} (h : TableSound s) (i : TableStep τ) :
    TableSound (i.apply s) ↔ FreshUpdate s i := by
  cases i with
  | addSearch t u isAll uid =>
      refine iff_of_true ?_ trivial
      rw [TableStep.apply]
      split
      · exact h.goto t _
      · exact h
  | deleteSearch t u =>
      refine iff_of_true ?_ trivial
      rw [TableStep.apply]
      split
      · exact h.goto t _
      · exact h
  | update t sem =>
      cases sem with
      | true => exact tableSound_update_iff h t
      | false =>
          refine iff_of_true ?_ trivial
          rw [TableStep.apply, TableThreads.update]
          split
          · exact h
          · exact h.goto t _
          · exact h.goto t _
  | deleteAll t sem =>
      refine iff_of_true ?_ trivial
      rw [TableStep.apply]
      split
      · cases sem with
        | true => exact ⟨ShmInv.clear, h.moved⟩
        | false => exact ⟨h.table, h.moved⟩
      · exact h

/-- From a well-formed list, in whichever functions the threads stand, a schedule keeps the
list well formed throughout exactly if no update of it acts on a stale answer. -/
theorem table_sound_iff_fresh_updates (s : TableThreads τ) (hs : TableSound s)
    (schedule : List (TableStep τ)) :
    (∀ part, part <+: schedule → TableSound (part.foldl TableStep.apply s)) ↔
      Runs.Meets TableStep.apply FreshUpdate s schedule := by
  rw [← Runs.meets_iff_forall_isPrefix hs]
  have hiff : ∀ (s : TableThreads τ) (i : TableStep τ), TableSound s → True →
      (TableSound (i.apply s) ↔ FreshUpdate s i) :=
    fun _ i h _ => tableSound_apply_iff h i
  have hstep : ∀ (s : TableThreads τ) (i : TableStep τ), TableSound s → True →
      TableSound (i.apply s) → TableSound (i.apply s) :=
    fun _ _ _ _ h => h
  exact Runs.meets_congr hiff hstep (Runs.meets_of_forall s schedule fun _ _ _ => trivial) hs

omit [DecidableEq τ] in
theorem TableSound.init : TableSound (TableThreads.init τ) :=
  ⟨ShmInv.clear, by simp [TableThreads.init]⟩

/-- The worker (`false`) freezes and unfreezes a user; the map thread (`true`) empties the
list between the search and the update of the second command. -/
def staleDelete : List (TableStep Bool) :=
  let u := strlcpy [117]
  [.addSearch false u false 500, .update false true, .deleteSearch false u, .deleteAll true true,
    .update false true]

theorem table_sound_iff_fresh_updates_sample :
    TableSound (TableThreads.init Bool) ∧ ∀ part, part <+: staleDelete.take 4 →
      TableSound (part.foldl TableStep.apply (TableThreads.init Bool)) :=
  ⟨TableSound.init,
    (table_sound_iff_fresh_updates _ TableSound.init _).mpr (by decide +kernel)⟩

theorem stale_delete_breaks_table :
    let s := staleDelete.foldl TableStep.apply (TableThreads.init Bool)
    s.badList.numbers = -1 ∧ s.moved = [-1] ∧ ¬ TableSound s := by
  have hnumbers : (staleDelete.foldl TableStep.apply (TableThreads.init Bool)).badList.numbers =
      -1 := by decide +kernel
  refine ⟨hnumbers, by decide +kernel, ?_⟩
  intro h
  have := h.table.nonneg
  omega

end DbGovernor
