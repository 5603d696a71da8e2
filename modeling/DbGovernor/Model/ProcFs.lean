import DbGovernor.Model.CStrings

/-!
# Reading `/proc`

The daemon reads the CPU times and the I/O counters of a thread from two files of the kernel. A
file is the bytes that it holds, or nothing where it cannot be opened or read.
-/

namespace DbGovernor

/-- `BUFSIZ`. -/
def bufsiz : ℕ := 8192

/-- `try_file_to_buffer`: the string in the buffer, or nothing on an error. -/
def tryFileToBuffer (file : Option (List UInt8)) : Option CString :=
  file.map fun bytes => (bytes.take (bufsiz - 1)).takeWhile (· ≠ 0)

/-! ### Numbers -/

def isOctalDigit (c : UInt8) : Bool := 48 ≤ c && c ≤ 55

def octal (s : CString) : ℕ := s.foldl (fun n c => 8 * n + (c.toNat - 48)) 0

/-- The number at the front of a string, and what follows it, as the prefix of the number says
its base. -/
def unsignedNumber (s : CString) : Option (ℕ × CString) :=
  match s with
  | 48 :: x :: t =>
      if toLower x = 120 ∧ t.head?.any isHexDigit then
        some (hexadecimal (t.takeWhile isHexDigit), t.dropWhile isHexDigit)
      else some (octal ((x :: t).takeWhile isOctalDigit), (x :: t).dropWhile isOctalDigit)
  | _ =>
      let digits := s.takeWhile isDigit
      if digits = [] then none else some (decimal digits, s.dropWhile isDigit)

/-- `strtoull (s, &next, 0)`: the value and `next`. -/
def strtoull (s : CString) : UInt64 × CString :=
  let r := splitSign (s.dropWhile isSpace)
  match unsignedNumber r.2 with
  | none => (0, s)
  | some (n, next) =>
      if n ≥ 2 ^ 64 then (UInt64.ofNat (2 ^ 64 - 1), next)
      else (if r.1 then -UInt64.ofNat n else UInt64.ofNat n, next)

/-- The conversion of an `unsigned long long` to `long long`. -/
def longLongOf (u : UInt64) : ℤ := (u.toNat : ℤ).bmod (2 ^ 64)

/-! ### Tokens -/

/-- `next_token`. -/
def nextToken (p : CString) : CString := p.dropWhile isSpace

/-- `skip_token`. -/
def skipToken (p : CString) : CString := nextToken ((nextToken p).dropWhile (!isSpace ·))

/-- `skip_multiple_token`. -/
def skipMultipleToken (p : CString) : ℕ → CString
  | 0 => p
  | count + 1 => skipMultipleToken (skipToken p) count

/-- `proc_stat_after_cmd`: what follows the last closing parenthesis. -/
def procStatAfterCmd : CString → Option CString
  | [] => none
  | c :: p =>
      match procStatAfterCmd p with
      | some rest => some rest
      | none => if c = 41 then some p else none

/-! ### CPU times -/

/-- `dbgov_proc_time`. -/
structure DbgovProcTime where
  rtime : UInt64
  utime : UInt64
  stime : UInt64
  cutime : UInt64
  cstime : UInt64
  timeout : UInt64
  itRealValue : UInt64
  frequency : UInt64
deriving DecidableEq

def DbgovProcTime.zero : DbgovProcTime := ⟨0, 0, 0, 0, 0, 0, 0, 0⟩

/-- `get_proc_time`: its result, and the structure it fills. -/
def getProcTime (file : Option (List UInt8)) : ℤ × DbgovProcTime :=
  match tryFileToBuffer file with
  | none => (-2, .zero)
  | some buffer =>
      match procStatAfterCmd buffer with
      | none => (-1, .zero)
      | some p =>
          let utime := strtoull (skipMultipleToken p 11)
          let stime := strtoull utime.2
          let cutime := strtoull stime.2
          let cstime := strtoull cutime.2
          let itRealValue := strtoull (skipMultipleToken cstime.2 3)
          (0, {
            rtime := utime.1 + stime.1
            utime := utime.1
            stime := stime.1
            cutime := cutime.1
            cstime := cstime.1
            timeout := 0
            itRealValue := itRealValue.1
            frequency := 100 })

/-! ### I/O counters -/

/-- `strstr`: the string from the first occurrence on. -/
def strstr (s key : CString) : Option CString :=
  if key.isPrefixOf s then some s
  else match s with
    | [] => none
    | _ :: s => strstr s key

/-- `get_scaled_iostat`. -/
def getScaledIostat (buffer key : CString) : UInt64 :=
  match strstr buffer key with
  | none => 0
  | some ptr =>
      let value := strtoull (ptr.drop key.length)
      if 107 ∈ value.2 then value.1 * 1024
      else if 77 ∈ value.2 then value.1 * (1024 * 1024)
      else value.1

/-- `dbgov_iostat`. -/
structure DbgovIostat where
  rchar : ℤ
  wchar : ℤ
  readBytes : ℤ
  writeBytes : ℤ
  cancelledWriteBytes : ℤ
deriving DecidableEq

/-- `io_stat_reset`. -/
def ioStatReset : DbgovIostat := ⟨0, 0, 0, 0, 0⟩

/-- `get_io_stat`: its result, and the structure it fills. -/
def getIoStat (file : Option (List UInt8)) : ℤ × DbgovIostat :=
  match tryFileToBuffer file with
  | none => (-2, ioStatReset)
  | some buffer =>
      let writeBytes := longLongOf (getScaledIostat buffer (ascii "write_bytes:"))
      let cancelledWriteBytes := longLongOf (getScaledIostat buffer (ascii "cancelled_write_bytes:"))
      (0, {
        rchar := longLongOf (getScaledIostat buffer (ascii "rchar:"))
        wchar := longLongOf (getScaledIostat buffer (ascii "wchar:"))
        readBytes := longLongOf (getScaledIostat buffer (ascii "read_bytes:"))
        writeBytes :=
          if cancelledWriteBytes ≤ writeBytes then
            (writeBytes - cancelledWriteBytes).bmod (2 ^ 64)
          else 0
        cancelledWriteBytes })

end DbGovernor
