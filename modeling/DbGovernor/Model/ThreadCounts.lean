import DbGovernor.Model.TidTable

/-!
# Counting the threads of a name

What `dbstat_add_to_table` asks `threads_list` for. `strncpy` fills the searched name with NULs up
to the last byte of its buffer, which keeps the value it has on the stack.
-/

namespace DbGovernor

/-- `threads_list`, by thread ids. -/
abbrev ThreadsList := AList (fun _ : ℤ => TidTable)

/-- The bytes of `CntUserThreads.username`, with `unset` the byte that is not written. -/
def cntUserThreadsUsername (username : Username) (unset : UInt8) : List UInt8 :=
  let copied := username.bytes.take (usernamemaxlen - 1)
  copied ++ List.replicate (usernamemaxlen - 1 - copied.length) 0 ++ [unset]

/-- `func_calc_threads`. Without a NUL in its buffer the searched name is longer than any stored
one. -/
def funcCalcThreads (username : List UInt8) (maxSimultaneousRequests : ℤ) (item : TidTable) : ℤ :=
  if item.username.bytes = username.takeWhile (· ≠ 0) then maxSimultaneousRequests + 1
  else maxSimultaneousRequests

/-- `get_cnt_threads`. -/
def getCntThreads (threads : ThreadsList) (unset : UInt8) (username : Username) : ℤ :=
  threads.entries.foldl
    (fun count entry => funcCalcThreads (cntUserThreadsUsername username unset) count entry.2) 0

end DbGovernor
