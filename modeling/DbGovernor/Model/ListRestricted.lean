import DbGovernor.Model.CStrings
import DbGovernor.Model.DbtopServer

/-!
# The list of restricted accounts

`print_list_rest` of `dbctl` on the accounts that `read_info` returned, with one reading of the
clock for a line.
-/

namespace DbGovernor

/-- The sign of `CompareAccountByUsername`. -/
def compareAccountByUsername (a b : RecvAccount) : Ordering :=
  compare (a.id.take usernamemaxlen) (b.id.take usernamemaxlen)

/-- `read_restrict_reriod`. -/
def readRestrictReriod (ac : RecvAccount) : CString :=
  if ac.fieldRestrict = 0 then []
  else if ac.fieldRestrict = 1 then ascii "current"
  else if ac.fieldRestrict = 2 then ascii "short"
  else if ac.fieldRestrict = 3 then ascii "mid"
  else if ac.fieldRestrict = 4 then ascii "long"
  else []

/-- `read_restrict_reason`. -/
def readRestrictReason (ac : RecvAccount) : CString :=
  if ac.fieldRestrict = 0 then []
  else if ac.fieldLevelRestrict = 4 then ascii "cpu"
  else if ac.fieldLevelRestrict = 5 then ascii "read"
  else if ac.fieldLevelRestrict = 6 then ascii "write"
  else []

/-- `get_restrict_level`. -/
def getRestrictLevel (restrictLevel : ℤ) : UInt8 :=
  if restrictLevel = 0 then 49
  else if restrictLevel = 1 then 50
  else if restrictLevel = 2 then 51
  else 52

/-- `"%-*s"`. -/
def padRight (width : ℕ) (s : CString) : CString := s ++ List.replicate (width - s.length) 32

/-- `" %-16s %-6s  %-6s   %c     %d\n"`. -/
def restrictedLine (name reason period : CString) (level : UInt8) (timeLeft : ℤ) : CString :=
  ascii " " ++ padRight 16 name ++ ascii " " ++ padRight 6 reason ++ ascii "  " ++
    padRight 6 period ++ ascii "   " ++ [level] ++ ascii "     " ++ lldText timeLeft ++ ascii "\n"

def restrictedHeader : CString := ascii " USER             REASON  PERIOD  LEVEL   TIME LEFT(s)\n"

/-- The `printf` of an account in `print_list_rest`. -/
def printRestricted (now : ℤ) (ac : RecvAccount) : CString :=
  restrictedLine ac.id (readRestrictReason ac) (readRestrictReriod ac)
    (getRestrictLevel ac.restricted) (getTimeToEnd now ac.toExchFigures)

/-- The lines of `print_list_rest`. -/
def printListRest (now : ℤ) (list : List RecvAccount) : List CString :=
  restrictedHeader ::
    ((list.mergeSort fun a b => (compareAccountByUsername a b).isLE).filter
      fun ac => ac.fieldRestrict ≠ 0).map (printRestricted now)

end DbGovernor
