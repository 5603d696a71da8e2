import DbGovernor.Model.PollLoop
import Mathlib.Logic.Relation

/-!
# The descriptors of the server

The loop `for (;;)` of `get_data_from_client` with its calls of `accept`, `close` and
`create_socket`. A call of `poll` and a round of the pass after it are a step each.
-/

namespace DbGovernor

/-- The server. The other fields are histories: the descriptors that it was given and did not
close, those of other calls of `close`, and the entries that were removed without one. -/
structure PollServer where
  socket : ℤ
  pass : PollPass
  opened : List ℤ
  stray : List ℤ
  dropped : List PollFd

/-- The server before its first call of `poll`. -/
def PollServer.init (socket : ℤ) : PollServer where
  socket := socket
  pass := ⟨[⟨socket, 0, false⟩], 0, 0, [], []⟩
  opened := [socket]
  stray := []
  dropped := []

/-- The condition of the loop over the descriptors has failed. -/
def PollServer.PassDone (s : PollServer) : Prop := s.pass.fds.length ≤ s.pass.i ∨ s.pass.ret = 0

/-- `close`. -/
def PollServer.close (s : PollServer) (fd : ℤ) : PollServer :=
  if fd ∈ s.opened then { s with opened := s.opened.erase fd }
  else { s with stray := s.stray ++ [fd] }

/-- A call of `poll` that returns the number of entries with an event. -/
def PollServer.poll (revents : ℤ → UInt16) (s : PollServer) : PollServer :=
  let fds := polledFds (s.pass.fds.map fun entry => (entry.fd, revents entry.fd))
  { s with pass := ⟨fds, 0, fds.countP fun entry => entry.revents ≠ 0, [], []⟩ }

/-- The clean-up of all descriptors. -/
def PollServer.closeAll (s : PollServer) : PollServer :=
  s.pass.fds.foldl (fun s entry => s.close entry.fd) s

/-- What follows a call of `poll` that failed. The first entry keeps its `revents`, and `ret` is the
`int` `-1`. -/
def PollServer.recreate (socket : ℤ) (stale : UInt16) (s : PollServer) : PollServer :=
  { s.closeAll with
    socket := socket
    opened := s.closeAll.opened ++ [socket]
    pass := ⟨[⟨socket, stale, false⟩], 0, 0xffffffff, [], []⟩ }

/-- One round of the pass; where `accept` fails, its result is closed. -/
def PollServer.round (gnuSource : Bool) (calls : PollCalls) (entry : PollFd) (s : PollServer) :
    PollServer :=
  let next := { s with pass := pollRound gnuSource s.socket calls s.pass entry }
  if entry.revents = 0 then next
  else
    match pollAction gnuSource s.socket calls entry with
    | .kept => if entry.fd = s.socket ∧ entry.has pollIn then next.close calls.accept else next
    | .accepted => { next with opened := s.opened ++ [calls.accept] }
    | .removed =>
        if entry.has pollNval then { next with dropped := s.dropped ++ [entry] }
        else next.close entry.fd
    | .read => next

/-- The steps. A descriptor that the kernel gives out is not open; `poll` reports `POLLNVAL` of no
descriptor that is, and only `POLLIN` of a listening socket. -/
inductive PollStep (gnuSource : Bool) : PollServer → PollServer → Prop where
  | poll (s) (revents : ℤ → UInt16) (hdone : s.PassDone)
      (hopen : ∀ fd ∈ s.opened, revents fd &&& pollNval = 0)
      (hlisten : revents s.socket = 0 ∨ revents s.socket = pollIn) :
      PollStep gnuSource s (s.poll revents)
  | recreate (s) (socket : ℤ) (stale : UInt16) (hdone : s.PassDone) (hvalid : socket ≠ -1)
      (hfresh : socket ∉ s.closeAll.opened)
      (hstale : ∀ entry ∈ s.pass.fds.head?, stale = entry.revents) :
      PollStep gnuSource s (s.recreate socket stale)
  | round (s) (calls : PollCalls) (entry : PollFd) (hentry : s.pass.fds[s.pass.i]? = some entry)
      (hret : s.pass.ret ≠ 0) (hfresh : calls.accept ∉ s.opened) :
      PollStep gnuSource s (s.round gnuSource calls entry)

/-- The states of the server. -/
def PollReachable (gnuSource : Bool) (s : PollServer) : Prop :=
  ∃ socket, socket ≠ -1 ∧ Relation.ReflTransGen (PollStep gnuSource) (.init socket) s

end DbGovernor
