import DbGovernor.Model.Lve

/-!
# The audit plugin

`governor_notify` on one MySQL thread, with `gr_lve_begin`, `gr_lve_end` and `lve_hooks.enter`
resolved.
-/

namespace DbGovernor

inductive AuditSubclass where
  | log | error | result | status
deriving DecidableEq, Repr

/-- An audit event and what the code reads while it handles it. `generalQuery` tells that the query
pointer is set. `sendInfo` is the result of `send_info_begin`, `containerLve` the answer of the
shared list for the user and `answer` that of `lve_enter_flags`. -/
structure AuditEvent where
  generalClass : Bool
  eventSubclass : AuditSubclass
  generalQuery : Bool
  generalUser : Option (List UInt8)
  sockStatus : Bool
  governorGetCommand : ℤ
  sendInfo : ℤ
  containerLve : ℤ
  answer : LveEnter
deriving DecidableEq

/-- `getunlen`: the length of the name in front of the first `[`. -/
def getunlen : Option (List UInt8) → ℕ
  | none => 0
  | some uname => (uname.takeWhile fun c => c != 91 && c != 0).length

/-- The thread with `is_begined`. -/
structure PluginThread where
  lve : LveThread
  isBegined : Bool

def PluginThread.init : PluginThread := ⟨.init, false⟩

/-- The event carries a query and a user name. -/
def AuditEvent.named (e : AuditEvent) : Bool :=
  e.generalQuery && getunlen e.generalUser != 0

/-- The case `MYSQL_AUDIT_GENERAL_LOG`. -/
def notifyLog (e : AuditEvent) (s : PluginThread) : PluginThread :=
  let s := { s with isBegined := false }
  if e.named && e.sockStatus && e.governorGetCommand != 0 then
    let s := if e.sendInfo = 0 then { s with isBegined := true } else s
    if s.isBegined && e.governorGetCommand == 2 then
      { s with lve := grLveBegin e.containerLve e.answer s.lve }
    else s
  else s

/-- The case `MYSQL_AUDIT_GENERAL_STATUS`, without the message of `send_info_end`. -/
def notifyStatus (e : AuditEvent) (s : PluginThread) : PluginThread :=
  if e.named && s.isBegined then ⟨grLveEnd s.lve, false⟩ else s

/-- `governor_notify`. -/
def governorNotify (s : PluginThread) (e : AuditEvent) : PluginThread :=
  if e.generalClass then
    match e.eventSubclass with
    | .log => notifyLog e s
    | .error | .result => s
    | .status => notifyStatus e s
  else s

end DbGovernor
