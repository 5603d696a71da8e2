import Mathlib.Data.Int.Notation
import Mathlib.Data.List.Basic

/-!
# The poll loop

The pass of `get_data_from_client` over its descriptors after a call of `poll` that did not fail.
The messages that it reads are for the table of threads.
-/

namespace DbGovernor

/-- A `struct pollfd`. `polled` is a history: the call of `poll` wrote `revents` for this
descriptor. -/
structure PollFd where
  fd : ℤ
  revents : UInt16
  polled : Bool
deriving DecidableEq

def pollIn : UInt16 := 0x001
def pollErr : UInt16 := 0x008
def pollHup : UInt16 := 0x010
def pollNval : UInt16 := 0x020
def pollRdhup : UInt16 := 0x2000

/-- `(fds + i)->revents & event`. -/
def PollFd.has (entry : PollFd) (event : UInt16) : Bool := entry.revents &&& event ≠ 0

/-- What the calls of one round return, and the `revents` in the memory that `realloc` adds. -/
structure PollCalls where
  accept : ℤ
  slot : UInt16
  fcntl : ℤ
  recv : ℤ

/-- The state of the pass: `nfds` is the length of `fds`. `tested` and `handled` are histories of
the entries whose `revents` was tested, and of those that were read, closed or removed. -/
structure PollPass where
  fds : List PollFd
  i : ℕ
  ret : ℕ
  tested : List PollFd
  handled : List PollFd

/-- What a round does with an entry that has an event. -/
inductive PollAction where
  | kept
  | accepted
  | removed
  | read
deriving DecidableEq

/-- The tests of a round. `gnuSource` says whether `_GNU_SOURCE` is defined. -/
def pollAction (gnuSource : Bool) (socket : ℤ) (calls : PollCalls) (entry : PollFd) : PollAction :=
  if entry.fd = socket ∧ entry.has pollIn then
    if calls.accept = -1 then .kept else .accepted
  else if entry.has pollNval then .removed
  else if entry.has pollHup then .removed
  else if gnuSource ∧ entry.has pollRdhup then .removed
  else if entry.has pollErr then .removed
  else if entry.has pollIn then
    if calls.recv ≤ 0 ∨ calls.fcntl < 0 then .removed else .read
  else .kept

/-- One round of the loop on the entry at its index. -/
def pollRound (gnuSource : Bool) (socket : ℤ) (calls : PollCalls) (s : PollPass)
    (entry : PollFd) : PollPass :=
  let next := { s with i := s.i + 1, tested := s.tested ++ [entry] }
  if entry.revents = 0 then next
  else
    match pollAction gnuSource socket calls entry with
    | .kept => { next with ret := s.ret - 1 }
    | .accepted =>
        { next with ret := s.ret - 1, fds := s.fds ++ [⟨calls.accept, calls.slot, false⟩] }
    | .removed =>
        { next with
          ret := s.ret - 1
          fds := s.fds.eraseIdx s.i
          handled := s.handled ++ [entry] }
    | .read => { next with ret := s.ret - 1, handled := s.handled ++ [entry] }

/-- The loop `for (i = 0; (i < nfds) && (ret); i++)`, with a bound on its rounds; `calls` gives
what the calls of the round at each index return. -/
def pollLoop (gnuSource : Bool) (socket : ℤ) (calls : ℕ → PollCalls) : ℕ → PollPass → PollPass
  | 0, s => s
  | fuel + 1, s =>
      match s.fds[s.i]? with
      | none => s
      | some entry =>
          if s.ret = 0 then s
          else pollLoop gnuSource socket calls fuel (pollRound gnuSource socket (calls s.i) s entry)

/-- The entries after `poll` wrote their `revents`. -/
def polledFds (events : List (ℤ × UInt16)) : List PollFd :=
  events.map fun event => ⟨event.1, event.2, true⟩

/-- The pass after a call of `poll`, which returns the number of entries with an event. -/
def pollPass (gnuSource : Bool) (socket : ℤ) (calls : ℕ → PollCalls)
    (events : List (ℤ × UInt16)) : PollPass :=
  let fds := polledFds events
  let ret := fds.countP fun entry => entry.revents ≠ 0
  pollLoop gnuSource socket calls (fds.length + ret) ⟨fds, 0, ret, [], []⟩

end DbGovernor
