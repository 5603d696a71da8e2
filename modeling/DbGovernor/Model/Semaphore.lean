import DbGovernor.Model.SharedMemory

/-!
# The semaphore of the shared list

The parties are calls of the client functions and of the three functions of the daemon.
A client tries in a loop and posts behind it, whichever way it left the loop. The semaphore
is found under its name at every `sem_open`.
-/

namespace DbGovernor

/-- The two loops of the clients: `is_user_in_bad_list_cleint`,
`is_user_in_bad_list_cleint_persistent` and `printf_bad_list_cleint_persistent` have the
same one, `user_in_bad_list_cleint_show` has its own. -/
inductive CleintKind where
  | lookup
  | listing
deriving DecidableEq, Repr

/-- A party is a client or one of the functions of the daemon, which wait. -/
inductive SemRole where
  | client (kind : CleintKind)
  | daemon
deriving DecidableEq, Repr

/-- Where a party stands. `trying` is the head of a client's loop, `inside` lies between a
successful wait and its post, `reposting` is the `sem_post` in the loop of
`user_in_bad_list_cleint_show`, and `leaving` the `sem_post` behind a loop that was left
without the semaphore. -/
inductive SemPc where
  | outside
  | trying (kind : CleintKind) (trys semReopen : ℕ)
  | waiting
  | inside
  | reposting
  | leaving
deriving DecidableEq, Repr

/-- The value of the semaphore and the parties `τ`. -/
structure SemState (τ : Type*) where
  value : ℕ
  pc : τ → SemPc

/-- `sem_open (SHARED_MEMORY_SEM, O_CREAT, 0600, 1)`, with no party at it. -/
def SemState.init (τ : Type*) : SemState τ := ⟨1, fun _ => .outside⟩

/-- A party before its first access. -/
def SemRole.enter : SemRole → SemPc
  | .client kind => .trying kind 1 0
  | .daemon => .waiting

/-- The rest of a round of a client's loop, given what its `sem_trywait` returned. -/
def afterTryWait (kind : CleintKind) (trys semReopen : ℕ) : TryWait → SemPc
  | .acquired => .inside
  | .again =>
      if trys + 1 = 100 then
        match kind with
        | .lookup => if semReopen + 1 = 4 then .leaving else .trying .lookup 1 (semReopen + 1)
        | .listing => .reposting
      else .trying kind (trys + 1) semReopen
  | .failed => .leaving

/-- A step of the party `t`. `err` tells that its `sem_trywait` ends with an error other
than EAGAIN. -/
inductive SemStep (τ : Type*) where
  | start (t : τ) (role : SemRole)
  | tryWait (t : τ) (err : Bool)
  | wait (t : τ)
  | post (t : τ)
deriving DecidableEq

section Step

variable {τ : Type*} [DecidableEq τ]

/-- The answer of `sem_trywait` for a semaphore with this value. -/
def semTrywait (value : ℕ) (err : Bool) : TryWait :=
  if err then .failed else if 0 < value then .acquired else .again

/-- One step; where the party stands elsewhere, nothing happens, and a `sem_wait` blocks
as long as the value is 0. -/
def SemStep.apply (s : SemState τ) : SemStep τ → SemState τ
  | .start t role =>
      match s.pc t with
      | .outside => { s with pc := Function.update s.pc t role.enter }
      | _ => s
  | .tryWait t err =>
      match s.pc t with
      | .trying kind trys semReopen =>
          let answer := semTrywait s.value err
          { value := if answer = .acquired then s.value - 1 else s.value
            pc := Function.update s.pc t (afterTryWait kind trys semReopen answer) }
      | _ => s
  | .wait t =>
      match s.pc t with
      | .waiting =>
          if 0 < s.value then ⟨s.value - 1, Function.update s.pc t .inside⟩ else s
      | _ => s
  | .post t =>
      match s.pc t with
      | .inside | .leaving => ⟨s.value + 1, Function.update s.pc t .outside⟩
      | .reposting => ⟨s.value + 1, Function.update s.pc t (.trying .listing 1 0)⟩
      | _ => s

end Step

end DbGovernor
