import DbGovernor.Model.DbtopServer
import DbGovernor.Verification.Daemon.Concurrency
import DbGovernor.Verification.TidTable.Framing

/-!
# The records of the list

A record that `send_account` writes is read back by `read_info`, whatever is on the stack of the
daemon.
-/

namespace DbGovernor

/-! ### The name -/

section Name

variable (u : Username) (unset : UInt8)

@[simp] theorem length_cntUserThreadsUsername :
    (cntUserThreadsUsername u unset).length = usernamemaxlen := by
  have hfits := u.fits
  simp only [cntUserThreadsUsername, List.length_append, List.length_take, List.length_replicate,
    List.length_singleton]
  simp only [usernamemaxlen] at hfits ⊢
  omega

/-- The name up to the first NUL of its 64 bytes. -/
def storedName : List UInt8 :=
  if Terminated u unset then u.bytes else u.bytes ++ [unset]

theorem strlcpy_storedName : strlcpy (storedName u unset) = u := by
  have hfits := u.fits
  rw [storedName]
  split
  case isTrue h =>
    ext1
    exact strlcpy_bytes_of_fits u.noNul u.fits
  case isFalse h =>
    have hlength : u.bytes.length = usernamemaxlen - 1 := by
      have hlong : ¬ u.bytes.length < usernamemaxlen - 1 := fun hlt => h (.inl hlt)
      omega
    have hunset : unset ≠ 0 := fun hz => h (.inr hz)
    ext1
    simp only [strlcpy]
    rw [Segments.takeWhile_ne_append u.noNul, List.takeWhile_cons_of_pos (by simpa using hunset),
      List.takeWhile_nil, ← hlength, List.take_left]

end Name

/-! ### The figures -/

/-- The integers of a `Stats` fit their C types. -/
structure ExchStats.Ranged (st : ExchStats) : Prop where
  cpu : FitsBytes 8 st.cpu
  write : FitsBytes 8 st.write
  read : FitsBytes 8 st.read

/-- The integers of a record fit their C types. -/
structure ExchFigures.Ranged (dt : ExchFigures) : Prop where
  current : dt.current.Ranged
  shortAverage : dt.shortAverage.Ranged
  midAverage : dt.midAverage.Ranged
  longAverage : dt.longAverage.Ranged
  restricted : FitsBytes 4 dt.restricted
  timeout : FitsBytes 4 dt.timeout
  fieldRestrict : FitsBytes 4 dt.fieldRestrict
  fieldLevelRestrict : FitsBytes 4 dt.fieldLevelRestrict
  startCount : FitsBytes 8 dt.startCount

@[simp] theorem ExchStats.length_encode (st : ExchStats) : st.encode.length = 24 := by
  simp [ExchStats.encode]

theorem ExchStats.decode_encode {st : ExchStats} (h : st.Ranged) : .decode st.encode = st := by
  simp only [ExchStats.encode, ExchStats.decode, List.append_assoc, bytesAt_front, bytesAt_rest,
    bytesAt_whole, length_leBytes, Nat.reduceLeDiff, Nat.reduceSub, leInt_leBytes h.cpu,
    leInt_leBytes h.write, leInt_leBytes h.read]

@[simp] theorem DbtopExch.length_encode (unset : UInt8) (dt : DbtopExch) :
    (dt.encode unset).length = dbtopExchSize := by
  simp [DbtopExch.encode, dbtopExchSize, usernamemaxlen]

/-- What `read_info` makes of a record. -/
def DbtopExch.received (unset : UInt8) (dt : DbtopExch) : RecvAccount :=
  { dt.toExchFigures with id := storedName dt.id unset }

theorem DbtopExch.decode_encode {dt : DbtopExch} (h : dt.Ranged) (unset : UInt8) :
    RecvAccount.decode (dt.encode unset) = dt.received unset := by
  have hname := takeWhile_cntUserThreadsUsername dt.id unset
  rw [← storedName] at hname
  simp only [DbtopExch.encode, RecvAccount.decode, DbtopExch.received, List.append_assoc,
    bytesAt_front, bytesAt_rest, bytesAt_whole, length_leBytes, length_cntUserThreadsUsername,
    ExchStats.length_encode, usernamemaxlen, Nat.reduceLeDiff, Nat.reduceSub, hname,
    ExchStats.decode_encode h.current, ExchStats.decode_encode h.shortAverage,
    ExchStats.decode_encode h.midAverage, ExchStats.decode_encode h.longAverage,
    leInt_leBytes h.restricted, leInt_leBytes h.timeout, leInt_leBytes h.fieldRestrict,
    leInt_leBytes h.fieldLevelRestrict, leInt_leBytes h.startCount]

/-- The name that `dbtop` shows is cut to its length. -/
theorem copyToShowedAccounts_received (unset : UInt8) (dt : DbtopExch) :
    copyToShowedAccounts (dt.received unset) = dt := by
  simp only [copyToShowedAccounts, DbtopExch.received, strlcpy_storedName]

end DbGovernor
