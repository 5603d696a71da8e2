import DbGovernor.Model.ConfigInit

/-!
# Listing the limits

`dbctl list` on a parsed tree: `ReadCfg`, `addMemoryUser`, `GetDefaultForUsers` and `print_list`.
The result is `none` where the code reads through NULL. The sorting of the lines and their
layout are left out.
-/

namespace DbGovernor

/-- The limits that are listed. -/
inductive Resource where
  | cpu | read | write
deriving DecidableEq, Repr

def Resource.name : Resource → String
  | .cpu => "cpu"
  | .read => "read"
  | .write => "write"

/-- The periods of a limit. -/
inductive Period where
  | current | short | mid | long
deriving DecidableEq, Repr

def Period.name : Period → String
  | .current => "current"
  | .short => "short"
  | .mid => "mid"
  | .long => "long"

/-- `DbCtlLimitAttr`. -/
structure DbCtlLimitAttr where
  lName : CString
  text : Period → CString

/-- `DbCtlFoundTag`. The parser keeps the names of the attributes of an element apart, so the
table of attributes is the list of them. -/
structure DbCtlFoundTag where
  attr : List (String × CString)
  limitAttr : List DbCtlLimitAttr

/-- An attribute copied to a cleared buffer of 256 bytes, if it is there. -/
def copiedAttr (node : XmlNode) (attrName : String) : CString :=
  ((getElemAttr node attrName).getD []).take 255

/-- One round of the outer loop of `ReadCfg`. -/
def foundTag (node : XmlNode) : DbCtlFoundTag where
  attr := node.properties
  limitAttr := (childrenNamed node "limit").map fun limit =>
    ⟨copiedAttr limit "name", fun period => copiedAttr limit period.name⟩

/-- `ReadCfg`. -/
def readCfg (root : XmlNode) (tag : String) : List DbCtlFoundTag :=
  (childrenNamed root tag).map foundTag

/-- `GetAttr`. -/
def getAttr (attr : List (String × CString)) (nameAttr : String) : Option CString :=
  (attr.find? fun prop => prop.1 = nameAttr).map Prod.snd

/-- `GetUserName`. -/
def getUserName (attr : List (String × CString)) : Option CString := getAttr attr "name"

/-- `GetUserMysqlName`. -/
def getUserMysqlName (attr : List (String × CString)) : Option CString := getAttr attr "mysql_name"

/-- `GetLimitAttr`. -/
def getLimitAttr (limitAttr : List DbCtlLimitAttr) (nameLimit : Resource) (nameAttr : Period) :
    CString :=
  match limitAttr.find? fun attr => attr.lName = ascii nameLimit.name with
  | some attr => attr.text nameAttr
  | none => ascii "0"

/-- `get_mb_str`. -/
def getMbStr (s : CString) (flag : ℕ) : CString :=
  let divider : ℤ := if flag = 1 then 1024 else if flag = 2 then 1 else 1024 * 1024
  let mb := atoll s
  let mb := if mb ≠ -1 then mb.tdiv divider else mb
  lldText (if mb < -1 then 0 else mb)

/-- A limit for the CPU: the default stands in for 0. -/
def cpuValue (own : CString) (deflt : Option CString) : ℤ :=
  match deflt with
  | some deflt => if atoi own = 0 then atoi deflt else atoi own
  | none => atoi own

/-- A limit for reads or writes, of which `"%i"` prints the low 32 bits. -/
def sizeValue (flag : ℕ) (own : CString) (deflt : Option CString) : ℤ :=
  let realSize := atoll own
  let size := atoll (getMbStr own flag)
  let size := match deflt with
    | some deflt =>
        if size = 0 ∧ realSize ≤ 0 ∧ realSize ≠ -1 then atoll (getMbStr deflt flag) else size
    | none => size
  size.bmod (2 ^ 32)

/-- The numbers of a line. -/
def lineValue (flag : ℕ) (own : CString) (deflt : Option CString) : Resource → ℤ
  | .cpu => cpuValue own deflt
  | .read | .write => sizeValue flag own deflt

/-- `DbCtlPrintList`, with the numbers that `data` shows; a size below 1 is shown as `<1` unless
it is -1 or the unit is a byte. -/
structure DbCtlPrintList where
  name : CString
  data : Resource → Period → ℤ

/-- The texts of the default limits, as `print_list` passes them on. -/
abbrev DefaultTexts := Resource → Period → CString

/-- The numbers of an element. -/
def lineData (flag : ℕ) (limitAttr : List DbCtlLimitAttr) (defs : Option DefaultTexts) :
    Resource → Period → ℤ := fun resource period =>
  lineValue flag (getLimitAttr limitAttr resource period) (defs.map (· resource period)) resource

/-- The name of a user's line. A NULL is printed as glibc does. -/
def lineName (attr : List (String × CString)) : CString :=
  ((getUserName attr).or (getUserMysqlName attr)).getD (ascii "(null)")

/-- One round of the loop of `GetDefaultForUsers` for a user: no line for one that is ignored. -/
def userLine (flag : ℕ) (defs : DefaultTexts) (tag : DbCtlFoundTag) :
    Option (Option DbCtlPrintList) :=
  (getAttr tag.attr "mode").map fun mode =>
    if mode = ascii "ignore" then none
    else some ⟨lineName tag.attr, lineData flag tag.limitAttr defs⟩

/-- `GetDefaultForUsers`: the list it prints, before it is sorted. -/
def getDefaultForUsers (tags : List DbCtlFoundTag) (defs : Option DefaultTexts) (flag : ℕ) :
    Option (List DbCtlPrintList) :=
  match defs, tags with
  | some defs, tags => (tags.mapM (userLine flag defs)).map List.reduceOption
  | none, tag :: _ => some [⟨ascii "default", lineData flag tag.limitAttr none⟩]
  | none, [] => none

/-- `addMemoryUser`, with the accounts that the daemon sends. -/
def addMemoryUser (ids : List CString) (tags : List DbCtlFoundTag) : List DbCtlFoundTag :=
  ids.foldl (fun tags id =>
    if tags.any fun tag => getUserName tag.attr = some id then tags
    else tags ++ [⟨[("name", id), ("mode", ascii "restrict")], []⟩]) tags

/-- `strncpy` of 255 bytes to a buffer that is not cleared, with what lies behind them. -/
def strncpyOver (rest : CString) (src : CString) : CString :=
  if src.length < 255 then src else src.take 255 ++ rest

/-- `print_list`: the line of the default and the lines of the users. `unset` is what the three
structures on the stack hold behind the bytes that are copied. -/
def printList (unset : Resource → Period → CString) (flag : ℕ) (ids : List CString)
    (root : XmlNode) : Option (List DbCtlPrintList × List DbCtlPrintList) :=
  match readCfg root "default" with
  | [] => none
  | tag :: tags => do
      let defaultLines ← getDefaultForUsers (tag :: tags) none flag
      let defs : DefaultTexts := fun resource period =>
        strncpyOver (unset resource period) (getLimitAttr tag.limitAttr resource period)
      let userLines ←
        getDefaultForUsers (addMemoryUser ids (readCfg root "user")) (some defs) flag
      return (defaultLines, userLines)

end DbGovernor
