import Mathlib.Data.Int.Notation
import Mathlib.Data.Nat.Notation
import Mathlib.Logic.Function.Basic
import Mathlib.Logic.Relation

/-!
# The connection of the plugin

What `governor_write_data.c` and `plugin.c` do with `sd`, on any number of threads of the MySQL
server. A section under `mtx_write` is a step, but for `connect_to_server`, whose thread may wait in
`poll` while others read `sd` without the mutex.
-/

namespace DbGovernor

/-- `sock_data`. -/
structure SockData where
  socket : ℤ
  status : Bool
deriving DecidableEq

/-- What a descriptor of the process is: a connection to the daemon, by its number among the calls
of `socket`, or one of the server's own. -/
inductive Holder where
  | connection (n : ℕ)
  | server
deriving DecidableEq

/-- The two callers of `send_info`. -/
inductive SendCall where
  | sendInfoBegin
  | sendInfoEnd
deriving DecidableEq

/-- Where a thread is: outside, in `send_info` before and after its first look at `sd`, at
`close_sock`, at `connect_to_server`, and in it before and after `socket`. -/
inductive SocketPc where
  | idle
  | called (call : SendCall)
  | measured (call : SendCall)
  | closing
  | closed
  | cleared
  | opened (fd n : ℕ)
deriving DecidableEq

/-- The process. `mtxWrite` tells who is in `connect_to_server`; `sockets` counts the descriptors
that `socket` gave. The last three fields are histories: the connection that `sd` stands for and
those that are open and forgotten, as descriptors with their numbers, and what each record was sent
to. -/
structure PluginSocket where
  sd : SockData
  mtxWrite : Option ℕ
  governorGetCommand : ℤ
  pc : ℕ → SocketPc
  isBegined : ℕ → Bool
  fds : ℕ → Option Holder
  sockets : ℕ
  current : Option (ℕ × ℕ)
  lost : List (ℕ × ℕ)
  sent : List (Option Holder)

/-- The server with its own descriptors when `governor_plugin_init`, on thread 0, comes to its call
of `connect_to_server`. -/
def PluginSocket.init (own : ℕ → Bool) : PluginSocket where
  sd := ⟨-1, false⟩
  mtxWrite := none
  governorGetCommand := 0
  pc := Function.update (fun _ => .idle) 0 .closed
  isBegined := fun _ => false
  fds := fun fd => if own fd then some .server else none
  sockets := 0
  current := none
  lost := []
  sent := []

def PluginSocket.goto (s : PluginSocket) (thread : ℕ) (pc : SocketPc) : PluginSocket :=
  { s with pc := Function.update s.pc thread pc }

def PluginSocket.setFd (s : PluginSocket) (fd : ℕ) (holder : Option Holder) : PluginSocket :=
  { s with fds := Function.update s.fds fd holder }

def PluginSocket.unlock (s : PluginSocket) : PluginSocket := { s with mtxWrite := none }

/-- What `send` on `sd.socket` would write to. -/
def PluginSocket.target (s : PluginSocket) : Option Holder :=
  if s.sd.socket < 0 then none else s.fds s.sd.socket.toNat

/-- `send_info` returns to `governor_notify`. -/
def PluginSocket.sendReturns (s : PluginSocket) (thread : ℕ) (call : SendCall) (rc : ℤ) :
    PluginSocket :=
  { s.goto thread .idle with
    isBegined := Function.update s.isBegined thread
      (match call with
        | .sendInfoBegin => rc == 0
        | .sendInfoEnd => false) }

/-- The case `MYSQL_AUDIT_GENERAL_LOG` up to its call. `named` tells that there are a query and a
user. -/
def PluginSocket.notifyLog (s : PluginSocket) (thread : ℕ) (named : Bool) : PluginSocket :=
  let s := { s with isBegined := Function.update s.isBegined thread false }
  if named && s.sd.status && s.governorGetCommand != 0 then
    s.goto thread (.called .sendInfoBegin)
  else s

/-- The case `MYSQL_AUDIT_GENERAL_STATUS` up to its call. -/
def PluginSocket.notifyStatus (s : PluginSocket) (thread : ℕ) (named : Bool) : PluginSocket :=
  if named && s.isBegined thread then s.goto thread (.called .sendInfoEnd) else s

/-- `send_info` up to the mutex. -/
def PluginSocket.sendInfo (s : PluginSocket) (thread : ℕ) (call : SendCall) : PluginSocket :=
  if s.sd.socket < 0 then s.sendReturns thread call 0 else s.goto thread (.measured call)

/-- `send_info` with the mutex. `whole` tells that `send` took all bytes. -/
def PluginSocket.send (s : PluginSocket) (thread : ℕ) (call : SendCall) (whole : Bool) :
    PluginSocket :=
  { s.sendReturns thread call (if s.target.isSome && whole then 0 else -1) with
    sent := s.sent ++ [s.target] }

/-- `close_sock_in`. -/
def PluginSocket.closeSockIn (s : PluginSocket) : PluginSocket :=
  if s.sd.status then
    { s.setFd s.sd.socket.toNat none with
      sd := { s.sd with status := false }
      current := none }
  else s

/-- `connect_to_server_in` up to `socket`. -/
def PluginSocket.clearSock (s : PluginSocket) (thread : ℕ) : PluginSocket :=
  { s.goto thread .cleared with
    sd := ⟨-1, false⟩
    mtxWrite := some thread
    current := none
    lost := s.lost ++ s.current.toList }

/-- `socket`. -/
def PluginSocket.openSocket (s : PluginSocket) (thread fd : ℕ) : PluginSocket :=
  { (s.setFd fd (some (.connection s.sockets))).goto thread (.opened fd s.sockets) with
    sockets := s.sockets + 1 }

/-- `connection_with_timeout_poll` returns before its call of `poll`, with the socket left open. -/
def PluginSocket.refuse (s : PluginSocket) (thread fd n : ℕ) : PluginSocket :=
  { (s.goto thread .idle).unlock with lost := s.lost ++ [(fd, n)] }

/-- `connection_with_timeout_poll` closes the socket. -/
def PluginSocket.timeOut (s : PluginSocket) (thread fd : ℕ) : PluginSocket :=
  ((s.setFd fd none).goto thread .idle).unlock

/-- The end of `connect_to_server_in`. -/
def PluginSocket.connected (s : PluginSocket) (thread fd n : ℕ) : PluginSocket :=
  { (s.goto thread .idle).unlock with
    sd := ⟨fd, true⟩
    current := some (fd, n) }

/-- The steps of the threads, and of the rest of the server on its own descriptors. A descriptor
that the kernel gives out is free. `reconnects` tells whether the server may be asked for
`governor_enable_reconnect` or `governor_enable_reconnect_lve`. -/
inductive PluginStep (reconnects : Bool) : PluginSocket → PluginSocket → Prop where
  | log (s thread named) (hpc : s.pc thread = .idle) :
      PluginStep reconnects s (s.notifyLog thread named)
  | status (s thread named) (hpc : s.pc thread = .idle) :
      PluginStep reconnects s (s.notifyStatus thread named)
  | sendInfo (s thread call) (hpc : s.pc thread = .called call) :
      PluginStep reconnects s (s.sendInfo thread call)
  | send (s thread call whole) (hpc : s.pc thread = .measured call) (hfree : s.mtxWrite = none) :
      PluginStep reconnects s (s.send thread call whole)
  | busy (s thread call) (hpc : s.pc thread = .measured call) :
      PluginStep reconnects s (s.sendReturns thread call (-1))
  | enable (s thread command) (hpc : s.pc thread = .idle) (hcommand : command = 1 ∨ command = 2) :
      PluginStep reconnects s { s with governorGetCommand := command }
  | enableReconnect (s thread command) (hallowed : reconnects = true) (hpc : s.pc thread = .idle)
      (hcommand : command = 1 ∨ command = 2) :
      PluginStep reconnects s { s.goto thread .closing with governorGetCommand := command }
  | closeSock (s thread) (hpc : s.pc thread = .closing) (hfree : s.mtxWrite = none) :
      PluginStep reconnects s (s.closeSockIn.goto thread .closed)
  | clearSock (s thread) (hpc : s.pc thread = .closed) (hfree : s.mtxWrite = none) :
      PluginStep reconnects s (s.clearSock thread)
  | socketFails (s thread) (hpc : s.pc thread = .cleared) :
      PluginStep reconnects s (s.goto thread .idle).unlock
  | openSocket (s thread fd) (hpc : s.pc thread = .cleared) (hfd : s.fds fd = none) :
      PluginStep reconnects s (s.openSocket thread fd)
  | refuse (s thread fd n) (hpc : s.pc thread = .opened fd n) :
      PluginStep reconnects s (s.refuse thread fd n)
  | timeOut (s thread fd n) (hpc : s.pc thread = .opened fd n) :
      PluginStep reconnects s (s.timeOut thread fd)
  | connected (s thread fd n) (hpc : s.pc thread = .opened fd n) :
      PluginStep reconnects s (s.connected thread fd n)
  | serverOpens (s fd) (hfd : s.fds fd = none) : PluginStep reconnects s (s.setFd fd (some .server))
  | serverCloses (s fd) (hfd : s.fds fd = some .server) : PluginStep reconnects s (s.setFd fd none)

/-- The states of the process. -/
def PluginReachable (reconnects : Bool) (s : PluginSocket) : Prop :=
  ∃ own, Relation.ReflTransGen (PluginStep reconnects) (.init own) s

end DbGovernor
