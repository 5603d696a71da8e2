import DbGovernor.Model.Commands
import Mathlib.Logic.Function.Basic

/-!
# The shared list of restricted users

`numbers` counts the entries in use. A slot at or above it keeps whatever an earlier
operation left there. `sem` is the outcome of the `sem_wait` of a call.
-/

namespace DbGovernor

/-- `MAX_ITEMS_IN_TABLE`. -/
def maxItemsInTable : ℤ := 100000

structure ItemsStructure where
  username : Username
  uid : ℤ
deriving DecidableEq

/-- `shm_structure`. -/
structure ShmStructure where
  numbers : ℤ
  items : ℕ → ItemsStructure

/-- An item whose bytes are all zero. -/
def ItemsStructure.zero : ItemsStructure := ⟨⟨[], by simp, by decide⟩, 0⟩

/-- `clear_bad_users_list`: the whole structure is zeroed. -/
def clearBadUsersList : ShmStructure := ⟨0, fun _ => .zero⟩

/-- `strncmp (items[index].username, username, USERNAMEMAXLEN) == 0`, for a searched name
of any length: a name of 64 bytes or more differs from every stored one. -/
def sameName (stored : Username) (username : List UInt8) : Bool :=
  stored.bytes == username.take usernamemaxlen

/-- The search loop: the first index below `numbers` that holds `username`. -/
def findIndex (shm : ShmStructure) (username : List UInt8) : Option ℕ :=
  (List.range shm.numbers.toNat).find? fun index => sameName (shm.items index).username username

/-- `is_user_in_list`, with the list mapped. -/
def isUserInList (shm : ShmStructure) (username : Username) : Bool :=
  (findIndex shm username.bytes).isSome

/-- The protected section of `add_user_to_list`. -/
def appendItem (shm : ShmStructure) (username : Username) (uid : ℤ) : ShmStructure :=
  ⟨shm.numbers + 1, Function.update shm.items shm.numbers.toNat ⟨username, uid⟩⟩

/-- `add_user_to_list` after `get_uid` has answered `uid`. -/
def addUserToList (sem : Bool) (shm : ShmStructure) (username : Username) (isAll : Bool)
    (uid : ℤ) : ℤ × ShmStructure :=
  let uid := if isAll && uid == badLve then 0 else uid
  if isUserInList shm username then (0, shm)
  else if shm.numbers + 1 = maxItemsInTable then (-2, shm)
  else if sem then (0, appendItem shm username uid)
  else (0, shm)

/-- `memmove (items + dst, items + (dst + 1), n * sizeof (items_structure))`. -/
def memmoveDown (items : ℕ → ItemsStructure) (dst n : ℕ) : ℕ → ItemsStructure :=
  fun i => if dst ≤ i ∧ i < dst + n then items (i + 1) else items i

/-- The protected section of `delete_user_from_list` for the index the search found. -/
def removeItem (shm : ShmStructure) (index : ℕ) : ShmStructure :=
  if (index : ℤ) = shm.numbers - 1 then { shm with numbers := shm.numbers - 1 }
  else ⟨shm.numbers - 1, memmoveDown shm.items index (shm.numbers - index - 1).toNat⟩

/-- `delete_user_from_list`. -/
def deleteUserFromList (sem : Bool) (shm : ShmStructure) (username : Username) :
    ℤ × ShmStructure :=
  match findIndex shm username.bytes with
  | none => (-2, shm)
  | some index => if sem then (0, removeItem shm index) else (-2, shm)

/-- `delete_allusers_from_list`. -/
def deleteAllusersFromList (sem : Bool) (shm : ShmStructure) : ℤ × ShmStructure :=
  if sem then (0, clearBadUsersList) else (-2, shm)

/-- What one `sem_trywait` of a client returns. -/
inductive TryWait where
  | acquired | again | failed
deriving DecidableEq, Repr

/-- The loop of `is_user_in_bad_list_cleint_persistent` on the successive answers of
`sem_trywait`: a hundred tries reopen the semaphore, the fourth reopening gives up. -/
def cleintLoop (shm : ShmStructure) (username : List UInt8) (trys semReopen : ℕ) :
    List TryWait → ℤ
  | [] => 0
  | .acquired :: _ =>
      match findIndex shm username with
      | none => 0
      | some index => (shm.items index).uid
  | .again :: rest =>
      if trys + 1 = 100 then
        if semReopen + 1 = 4 then 0 else cleintLoop shm username 1 (semReopen + 1) rest
      else cleintLoop shm username (trys + 1) semReopen rest
  | .failed :: _ => 0

/-- `is_user_in_bad_list_cleint_persistent`, with the semaphore opened and the list mapped. -/
def isUserInBadListCleintPersistent (shm : ShmStructure) (waits : List TryWait)
    (username : List UInt8) : ℤ :=
  cleintLoop shm username 1 0 waits

end DbGovernor
