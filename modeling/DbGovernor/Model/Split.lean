import DbGovernor.Model.DbctlSet

/-!
# Splitting an option

`split` with its array of indices and the buffers of its fields, and the conversion of units in
such a buffer. The callers pass a comma or a newline.
-/

namespace DbGovernor

/-- A `SplitStr`: the string of a field, and the bytes that were allocated for it. -/
structure SplitField where
  str : CString
  size : ℕ
deriving DecidableEq

/-- `cnt`, the number of commas and one, or one field for a newline. -/
def splitCnt (str : CString) (t : UInt8) : ℕ := if t = 10 then 1 else str.count 44 + 1

/-- The loop that stores the positions of `t` from the index `i` of the string on. -/
def storeIndices (t : UInt8) : CString → ℕ → ℕ → List (Option ℕ) → ℕ × List (Option ℕ)
  | [], _, ind, strInd => (ind, strInd)
  | c :: rest, i, ind, strInd =>
      if c = t then storeIndices t rest (i + 1) (ind + 1) (strInd.set ind (some i))
      else storeIndices t rest (i + 1) ind strInd

/-- `str_ind` before the fields are copied: an entry that was not assigned is `none`. -/
def splitIndices (str : CString) (t : UInt8) : List (Option ℕ) :=
  let cnt := splitCnt str t
  let strInd := List.replicate cnt none
  let r := if cnt = 4 then storeIndices t str 0 0 strInd else (0, strInd)
  r.2.set r.1 (some str.length)

/-- The loop that copies the fields; `none` where it uses an entry that was not assigned. -/
def copyFields (str : CString) : List (Option ℕ) → ℕ → Option (List SplitField)
  | [], _ => some []
  | none :: _, _ => none
  | some ind :: rest, indPre =>
      let lenM := ind - indPre + 1
      (copyFields str rest (ind + 1)).map (⟨(str.drop indPre).take (ind - indPre), lenM + 8⟩ :: ·)

/-- `split`: the count it returns, and the fields. -/
def splitInto (str : CString) (t : UInt8) : Option (ℕ × List SplitField) :=
  let cnt := splitCnt str t
  if t ≠ 10 ∧ cnt < 4 then some (0, [])
  else (copyFields str (splitIndices str t) 0).map (cnt, ·)

/-- What `get_bb`, `get_kb` or `get_mb` prints into the string of a field of a limit for reads or
writes, if one of them is called. -/
def printedUnits (str : CString) : Option CString :=
  match (str.take 100).getLast? with
  | none => none
  | some units =>
      let rest := str.take ((str.take 100).length - 1)
      if units = 98 then if startsPrintable rest then some (getBb rest) else none
      else if units = 107 then if startsPrintable rest then some (getKb rest) else none
      else if units = 109 then if startsPrintable rest then some (getMb rest) else none
      else if startsPrintable str then some (getMb str) else none

end DbGovernor
