import DbGovernor.Model.Data

/-!
# The LVE of a MySQL thread

The thread-local state of `libgovernordl`, with the hooks installed by `gr_init_hooks` and
the LVE library loaded. The kernel holds the truth about the thread: `inside` is set by a
successful `lve_enter_flags` and cleared by `lve_exit`.
-/

namespace DbGovernor

/-- How `lve_enter_flags` returns: 0, an error with errno EPERM, another error. -/
inductive LveEnter where
  | entered | eperm | error
deriving DecidableEq, Repr

/-- The hooks that `libgovernordl` calls. -/
inductive LveHook where
  | enter | enterLight | exit
deriving DecidableEq, Repr

/-- The thread-local variables of `ld.c` and `lve_uid`. `inside` is the state of the kernel, and
`hookCalls` a history of the hooks called, each with `inside` at its call; no code reads them. -/
structure LveThread where
  inLve : Bool
  inMutexRefcnt : ℤ
  inHook : Bool
  lveUid : ℤ
  inside : Bool
  hookCalls : List (LveHook × Bool)
deriving DecidableEq

def LveThread.init : LveThread := ⟨false, 0, false, 0, false, []⟩

/-- `lve_enter_flags`. -/
def lveEnterFlags (answer : LveEnter) (th : LveThread) : LveThread :=
  match answer with
  | .entered => { th with inside := true }
  | .eperm | .error => th

/-- The result of the two functions below for an answer of `lve_enter_flags`; EPERM means that
the thread is already inside an LVE. -/
def LveEnter.rc : LveEnter → ℤ
  | .entered | .eperm => 0
  | .error => -1

/-- `governor_enter_lve`, with `containerLve` the answer of
`is_user_in_bad_list_cleint_persistent`. -/
def governorEnterLve (containerLve : ℤ) (answer : LveEnter) (th : LveThread) : ℤ × LveThread :=
  let th := { th with lveUid := 0 }
  if containerLve ≠ 0 then
    let th := lveEnterFlags answer th
    (answer.rc, if answer = .entered then { th with lveUid := containerLve } else th)
  else (1, th)

/-- `governor_enter_lve_light`. -/
def governorEnterLveLight (answer : LveEnter) (th : LveThread) : ℤ × LveThread :=
  if th.lveUid ≠ 0 then (answer.rc, lveEnterFlags answer th) else (1, th)

/-- `governor_lve_exit`. -/
def governorLveExit (th : LveThread) : LveThread := { th with inside := false }

/-- The call of a hook begins: `in_hook = 1`. -/
def LveThread.callHook (th : LveThread) (hook : LveHook) : LveThread :=
  { th with inHook := true, hookCalls := th.hookCalls ++ [(hook, th.inside)] }

/-- `gr_lve_begin`. -/
def grLveBegin (containerLve : ℤ) (answer : LveEnter) (th : LveThread) : LveThread :=
  if !th.inLve then
    let (rc, th) := governorEnterLve containerLve answer (th.callHook .enter)
    let th := if rc = 0 then { th with inLve := true, inMutexRefcnt := 0 } else th
    { th with inHook := false }
  else th

/-- `gr_lve_end`. -/
def grLveEnd (th : LveThread) : LveThread :=
  let th :=
    if th.inLve && th.inMutexRefcnt == 0 then
      { governorLveExit (th.callHook .exit) with inHook := false }
    else th
  { th with inLve := false, inMutexRefcnt := 0 }

/-- `__mutex_enter`. -/
def mutexEnter (th : LveThread) : LveThread :=
  let refcnt := th.inMutexRefcnt
  let th := { th with inMutexRefcnt := refcnt + 1 }
  if refcnt = 0 then { governorLveExit (th.callHook .exit) with inHook := false } else th

/-- `__mutex_leave`. -/
def mutexLeave (answer : LveEnter) (th : LveThread) : LveThread :=
  if th.inMutexRefcnt ≠ 0 then
    let th := { th with inMutexRefcnt := th.inMutexRefcnt - 1 }
    if th.inMutexRefcnt = 0 then
      { (governorEnterLveLight answer (th.callHook .enterLight)).2 with inHook := false }
    else th
  else th

/-- The body of `pthread_mutex_lock` and `pthread_mutex_trylock`; `ok` tells that the real
function returned 0. -/
def lockThrough (ok : Bool) (answer : LveEnter) (th : LveThread) : LveThread :=
  let th := if th.inLve && !th.inHook then mutexEnter th else th
  if !ok && th.inLve && !th.inHook then mutexLeave answer th else th

/-- `pthread_mutex_lock`. -/
def pthreadMutexLock (ok : Bool) (answer : LveEnter) (th : LveThread) : LveThread :=
  lockThrough ok answer th

/-- `pthread_mutex_trylock`. -/
def pthreadMutexTrylock (ok : Bool) (answer : LveEnter) (th : LveThread) : LveThread :=
  lockThrough ok answer th

/-- `pthread_mutex_unlock`. -/
def pthreadMutexUnlock (ok : Bool) (answer : LveEnter) (th : LveThread) : LveThread :=
  if ok && th.inLve && !th.inHook then mutexLeave answer th else th

/-- A call that the thread makes. `μ` are the mutexes, `ok` the outcome of the real function and
`answer` that of `lve_enter_flags` should it be called. -/
inductive LveCall (μ : Type*) where
  | lveBegin (containerLve : ℤ) (answer : LveEnter)
  | lveEnd
  | lock (mutex : μ) (ok : Bool) (answer : LveEnter)
  | trylock (mutex : μ) (ok : Bool) (answer : LveEnter)
  | unlock (mutex : μ) (ok : Bool) (answer : LveEnter)
deriving DecidableEq

def LveCall.apply {μ : Type*} (th : LveThread) : LveCall μ → LveThread
  | .lveBegin containerLve answer => grLveBegin containerLve answer th
  | .lveEnd => grLveEnd th
  | .lock _ ok answer => pthreadMutexLock ok answer th
  | .trylock _ ok answer => pthreadMutexTrylock ok answer th
  | .unlock _ ok answer => pthreadMutexUnlock ok answer th

end DbGovernor
