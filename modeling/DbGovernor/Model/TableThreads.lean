import DbGovernor.Model.SharedMemory

/-!
# The threads of the daemon at the shared list

`add_user_to_list` and `delete_user_from_list` search the list before they wait for the
semaphore and change it after. Each is cut there into two steps; `delete_allusers_from_list`
has only the second. Any thread may take its next step at any time.
-/

namespace DbGovernor

/-- Where a thread stands: outside the three functions, or between its search and its
`sem_wait` with what the search has fixed. -/
inductive TablePc where
  | outside
  | adding (username : Username) (uid : ℤ)
  | deleting (username : Username) (index : ℕ)
deriving DecidableEq

/-- The list and the threads `τ` of the daemon. `moved` is a history of the lengths, in items,
that were passed to `memmove`; no code reads it. -/
structure TableThreads (τ : Type*) where
  badList : ShmStructure
  pc : τ → TablePc
  moved : List ℤ

/-- The list after start-up, with no thread at it. -/
def TableThreads.init (τ : Type*) : TableThreads τ :=
  ⟨clearBadUsersList, fun _ => .outside, []⟩

/-- `add_user_to_list` up to `sem_wait`, after `get_uid` has answered `uid`. -/
def addSearch (shm : ShmStructure) (username : Username) (isAll : Bool) (uid : ℤ) : TablePc :=
  let uid := if isAll && uid == badLve then 0 else uid
  if isUserInList shm username then .outside
  else if shm.numbers + 1 = maxItemsInTable then .outside
  else .adding username uid

/-- The loop of `delete_user_from_list` from the index `start` up to `sem_wait`. -/
def deleteSearch (shm : ShmStructure) (username : Username) (start : ℕ) : TablePc :=
  let found := (List.range shm.numbers.toNat).find? fun index =>
    decide (start ≤ index) && sameName (shm.items index).username username.bytes
  match found with
  | none => .outside
  | some index => .deleting username index

/-- The length of the `memmove` of `delete_user_from_list`, if it gets to one. -/
def memmoveLength (shm : ShmStructure) (index : ℕ) : Option ℤ :=
  if (index : ℤ) = shm.numbers - 1 then none else some (shm.numbers - index - 1)

/-- A step of the thread `t`. `sem` tells whether its `sem_wait` succeeds. -/
inductive TableStep (τ : Type*) where
  | addSearch (t : τ) (username : Username) (isAll : Bool) (uid : ℤ)
  | deleteSearch (t : τ) (username : Username)
  | update (t : τ) (sem : Bool)
  | deleteAll (t : τ) (sem : Bool)
deriving DecidableEq

section Step

variable {τ : Type*} [DecidableEq τ]

/-- The thread `t` moves to `pc`, the list stays. -/
def TableThreads.goto (s : TableThreads τ) (t : τ) (pc : TablePc) : TableThreads τ :=
  { s with pc := Function.update s.pc t pc }

/-- The protected section of the function in which `t` stands. After a failed `sem_wait`
`add_user_to_list` returns, and the loop of `delete_user_from_list` goes on behind the index
it had found. -/
def TableThreads.update (s : TableThreads τ) (t : τ) (sem : Bool) : TableThreads τ :=
  match s.pc t with
  | .outside => s
  | .adding username uid =>
      if sem then { s.goto t .outside with badList := appendItem s.badList username uid }
      else s.goto t .outside
  | .deleting username index =>
      if sem then
        { s.goto t .outside with
          badList := removeItem s.badList index
          moved := s.moved ++ (memmoveLength s.badList index).toList }
      else s.goto t (deleteSearch s.badList username (index + 1))

/-- One step; a thread inside one of the functions does not enter another. -/
def TableStep.apply (s : TableThreads τ) : TableStep τ → TableThreads τ
  | .addSearch t username isAll uid =>
      if s.pc t = .outside then s.goto t (DbGovernor.addSearch s.badList username isAll uid)
      else s
  | .deleteSearch t username =>
      if s.pc t = .outside then s.goto t (DbGovernor.deleteSearch s.badList username 0) else s
  | .update t sem => s.update t sem
  | .deleteAll t sem =>
      if s.pc t = .outside then { s with badList := (deleteAllusersFromList sem s.badList).2 }
      else s

end Step

end DbGovernor
