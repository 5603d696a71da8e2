import DbGovernor.Model.Xml
import Mathlib.Algebra.Group.Nat.Defs
import Mathlib.Logic.Function.Basic

/-!
# Columns of a result row

`db_mysql_get_string` as the stores it makes, and the columns that its callers copy with it. A
column is as long as `mysql_fetch_lengths` says; one that is NULL has length 0.
-/

namespace DbGovernor

/-- The bytes of a process from the start of a buffer on. -/
abbrev Memory := ℕ → UInt8

/-- The stores of `memcpy` to an index. -/
def storesAt : ℕ → List UInt8 → List (ℕ × UInt8)
  | _, [] => []
  | i, b :: bytes => (i, b) :: storesAt (i + 1) bytes

/-- The memory after some stores. -/
def Memory.store (m : Memory) (stores : List (ℕ × UInt8)) : Memory :=
  stores.foldl (fun m s => Function.update m s.1 s.2) m

/-- The index of the NUL: the arithmetic is that of `unsigned long`. -/
def stringEnd (length maxBuferLen : ℕ) : ℕ :=
  if maxBuferLen < length then (maxBuferLen + (2 ^ 64 - 1)) % 2 ^ 64 else length

/-- The stores of `db_mysql_get_string`. -/
def getStringStores (result : List UInt8) (maxBuferLen : ℕ) : List (ℕ × UInt8) :=
  let nlen := stringEnd result.length maxBuferLen
  storesAt 0 (result.take nlen) ++ [(nlen, 0)]

/-- `db_mysql_get_string`. -/
def dbMysqlGetString (buffer : Memory) (result : List UInt8) (maxBuferLen : ℕ) : Memory :=
  buffer.store (getStringStores result maxBuferLen)

/-- A `MYSQL_ROW` with the lengths of its columns. -/
abbrev MysqlRow := ℕ → List UInt8

/-- The functions that copy columns, with the user whose queries are logged. -/
inductive ColumnCaller where
  | parseSlowQuery
  | logUserQueries (userName : CString)
  | checkMysqlVersion
  | activatePlugin
deriving DecidableEq

def dbgovernorBuffer2048 : ℕ := 2048
def dbgovernorBuffer8192 : ℕ := 8192

/-- The columns of a row that a function copies to its buffer, in their order, and the
`max_bufer_len` it passes, which is the size of that buffer. -/
def ColumnCaller.copies (row : MysqlRow) : ColumnCaller → List (ℕ × ℕ)
  | .parseSlowQuery => [0, 1, 5, 6, 7].map (·, dbgovernorBuffer8192)
  | .logUserQueries userName =>
      if (row 1).takeWhile (· ≠ 0) = userName then [(7, dbgovernorBuffer8192)] else []
  | .checkMysqlVersion => [(0, dbgovernorBuffer2048)]
  | .activatePlugin => [(0, dbgovernorBuffer2048)]

end DbGovernor
