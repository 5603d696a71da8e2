import DbGovernor.Model.CStrings

/-!
# Editing the configuration

`setUser`, `setDefault`, `deleteUser`, `ignoreUser` and `watchUser` of `dbctl_set.c` on a parsed
tree. The result of a `set` is `none` where the code passes NULL to `strcmp` or reads an index that
it has not set. A limit that `removeBadLimit` has unlinked has no next sibling, so at most one is
removed.
-/

namespace DbGovernor

/-- The arguments of `set`; one that is not given is NULL. -/
structure LimitArgs where
  cpu : Option CString
  read : Option CString
  write : Option CString
  slow : Option CString

/-- The fields of an argument, one for each period. -/
structure SplitStr where
  current : CString
  short : CString
  mid : CString
  long : CString

/-- What `split` at commas gives. With more than four fields the ends of the fields are read
from indices that the function has not set. -/
inductive SplitResult where
  | tooFew
  | fields (data : SplitStr)
  | unset

/-- `split (&data, str, ',')`. -/
def split (str : CString) : SplitResult :=
  match str.splitOn 44 with
  | [current, short, mid, long] => .fields ⟨current, short, mid, long⟩
  | parts => if parts.length < 4 then .tooFew else .unset

/-- Whether `isprint` holds of the first byte, which is a NUL in an empty string. -/
def startsPrintable : CString → Bool
  | [] => false
  | c :: _ => isPrint c

/-- `get_bb`, `get_kb` and `get_mb`, which differ in the size of the unit. -/
def getUnits (unit : ℤ) (s : CString) : CString :=
  let n := (atoll s * unit).bmod (2 ^ 64)
  lldText (if n < 0 then -1 else n)

def getBb (s : CString) : CString := getUnits 1 s

def getKb (s : CString) : CString := getUnits 1024 s

def getMb (s : CString) : CString := getUnits (1024 * 1024) s

/-- A field of a limit for reads or writes in bytes: its unit is the last of its first hundred
bytes. -/
def unitsField (str : CString) : CString :=
  match (str.take 100).getLast? with
  | none => str
  | some units =>
      let rest := str.take ((str.take 100).length - 1)
      if units = 98 then if startsPrintable rest then getBb rest else rest
      else if units = 107 then if startsPrintable rest then getKb rest else rest
      else if units = 109 then if startsPrintable rest then getMb rest else rest
      else if startsPrintable str then getMb str else str

/-- The fields as they are set on a limit of some name. -/
def SplitStr.forLimit (data : SplitStr) (nameAttr : CString) : SplitStr :=
  if nameAttr = ascii "read" ∨ nameAttr = ascii "write" then
    ⟨unitsField data.current, unitsField data.short, unitsField data.mid, unitsField data.long⟩
  else data

/-- The four guarded calls of `setAttr`, as the attributes they set. -/
def SplitStr.updates (data : SplitStr) : List (String × CString) :=
  [("current", data.current), ("short", data.short), ("mid", data.mid), ("long", data.long)].filter
    fun update => startsPrintable update.2

/-- The attributes that `setLimitAttr` sets on a limit; `nameAttr` is NULL when the limit has
no name, or when there is no limit. -/
def limitUpdates (nameAttr : Option CString) (s : CString) : Option (List (String × CString)) :=
  match split s, nameAttr with
  | .unset, _ => none
  | .fields _, none => none
  | .fields data, some name => some (data.forLimit name).updates
  | .tooFew, name =>
      if name = some (ascii "slow") ∧ startsPrintable s then some [("current", s)] else some []

/-- A node after some calls of `setAttr`. -/
def setAttrs (node : XmlNode) (updates : List (String × CString)) : XmlNode :=
  updates.foldl (fun node update => setAttr node update.1 update.2) node

/-- `setLimitAttr` on a limit. -/
def setLimitAttr (limit : XmlNode) (s : CString) : Option XmlNode :=
  (limitUpdates (getElemAttr limit "name") s).map (setAttrs limit)

/-- `addLimit`: `setNodeWithAttr` gives NULL in place of a limit that is already somewhere. -/
def addLimit (child : XmlNode) (n : String) (s : CString) : Option XmlNode :=
  match setNodeWithAttr child "limit" "name" (ascii n) with
  | some limit => (setLimitAttr limit s).map child.append
  | none => (limitUpdates none s).map fun _ => child

/-- The limits of an element that have some name. -/
def limitsNamed (child : XmlNode) (s : String) : List XmlNode :=
  (childrenNamed child "limit").filter fun limit => getElemAttr limit "name" = some (ascii s)

/-- The attributes that `checkCorrectAttrs` asks of a limit of some name. -/
def checkedAttrs (s : String) : List String :=
  if s = "slow" then ["current"] else ["current", "short", "mid", "long"]

/-- `checkCorrectAttrs`, which counts over all limits of a name. -/
def checkCorrectAttrs (child : XmlNode) (s : String) : Bool :=
  let cnt := ((limitsNamed child s).map fun limit =>
    (checkedAttrs s).countP fun attrName => getElemAttr limit attrName = none).sum
  cnt = 4 || (s = "slow" && cnt ≠ 0)

/-- The loop of `removeBadLimit` over the children. -/
def removeFirst (s : String) : List XmlNode → Option (List XmlNode)
  | [] => some []
  | cur :: rest =>
      if cur.name = "limit" then
        match getElemAttr cur "name" with
        | none => none
        | some attr =>
            if attr = ascii s then some rest else (removeFirst s rest).map (cur :: ·)
      else (removeFirst s rest).map (cur :: ·)

/-- `removeBadLimit`. -/
def removeBadLimit (child : XmlNode) (s : String) : Option XmlNode :=
  (removeFirst s child.children).map fun children => { child with children }

/-- `if (checkCorrectAttrs (child, s)) removeBadLimit (child, s)`. -/
def pruneLimit (child : XmlNode) (s : String) : Option XmlNode :=
  if checkCorrectAttrs child s then removeBadLimit child s else some child

/-- The loop that sets an argument on the limits of its name. -/
def mergeChild (n : String) (s : CString) (cur : XmlNode) : Option XmlNode :=
  if cur.name = "limit" then
    match getElemAttr cur "name" with
    | none => none
    | some nameAttr => if nameAttr = ascii n then setLimitAttr cur s else some cur
  else some cur

/-- One argument on an element that is there. -/
def editLimit (child : XmlNode) (n : String) (s : CString) : Option XmlNode :=
  (child.children.mapM (mergeChild n s)).bind fun children =>
    let merged := { child with children }
    (if limitsNamed child n = [] then addLimit merged n s else some merged).bind (pruneLimit · n)

/-- The arguments under the names of their limits, in the order of the code. -/
def LimitArgs.named (args : LimitArgs) : List (String × Option CString) :=
  [("cpu", args.cpu), ("read", args.read), ("write", args.write), ("slow", args.slow)]

/-- A call for each argument that is given. -/
def forArgs (f : XmlNode → String → CString → Option XmlNode) (child : XmlNode)
    (args : List (String × Option CString)) : Option XmlNode :=
  args.foldlM (fun child arg => match arg.2 with
    | none => some child
    | some s => f child arg.1 s) child

/-- The limits of an element that is there. -/
def editLimits (args : LimitArgs) (child : XmlNode) : Option XmlNode :=
  forArgs editLimit child args.named

/-- The limits of an element that has just been created. -/
def newLimits (args : LimitArgs) (child : XmlNode) : Option XmlNode :=
  (forArgs addLimit child args.named).bind fun child =>
    args.named.foldlM (fun child arg => pruneLimit child arg.1) child

/-- `SearchTagByName`: the position of a child of the root. -/
def searchTagByName (root : XmlNode) (nameTag : String) (name : Option CString) : Option ℕ :=
  root.children.findIdx? fun cur => cur.name = nameTag ∧
    (name = none ∨ getElemAttr cur "name" = name ∨ getElemAttr cur "mysql_name" = name)

/-- An edit through the pointer to a child. -/
def editChild (f : XmlNode → Option XmlNode) (root : XmlNode) (i : ℕ) : Option XmlNode :=
  (root.children[i]?.bind f).map fun child => { root with children := root.children.set i child }

/-- The rest of `setDefault` and `setUser`, on what they found or created. With a NULL child
`addLimit` works on the root, and there is nothing to check. -/
def setLimits (args : LimitArgs) (root : XmlNode) (found : Option ℕ) (created : Option XmlNode) :
    Option XmlNode :=
  match found, created with
  | some i, _ => editChild (editLimits args) root i
  | none, some child => (newLimits args child).map root.append
  | none, none => forArgs addLimit root args.named

/-- `setDefault`. -/
def setDefault (args : LimitArgs) (root : XmlNode) : Option XmlNode :=
  setLimits args root (searchTagByName root "default" none) (setNode root "default")

/-- `setUser`. -/
def setUser (para : CString) (args : LimitArgs) (root : XmlNode) : Option XmlNode :=
  setLimits args root (searchTagByName root "user" (some para))
    ((setNodeWithAttr root "user" "name" para).map fun child =>
      setAttr child "mode" (ascii "restrict"))

/-- The `set` command on its first argument. -/
def dbctlSet (argv : CString) (args : LimitArgs) (root : XmlNode) : Option XmlNode :=
  if argv = ascii "default" then setDefault args root else setUser argv args root

/-- `!strncmp (user, "default", sizeof (username_t) - 1)`. -/
def isDefaultName (user : CString) : Bool :=
  user.take (usernamemaxlen - 1) = (ascii "default").take (usernamemaxlen - 1)

/-- `removeNode` of a child of the root. -/
def removeNode (root : XmlNode) (i : ℕ) : XmlNode :=
  { root with children := root.children.eraseIdx i }

/-- `deleteUser`. -/
def deleteUser (user : CString) (root : XmlNode) : XmlNode :=
  if isDefaultName user then root
  else
    match searchTagByName root "user" (some user) with
    | some i => removeNode root i
    | none => root

/-- The body that `ignoreUser` and `watchUser` share. A NULL child gets no attribute. -/
def setUserMode (mode : String) (user : CString) (root : XmlNode) : XmlNode :=
  if isDefaultName user then root
  else
    match searchTagByName root "user" (some user), setNodeWithAttr root "user" "name" user with
    | some i, _ =>
        { root with children := root.children.modify i fun child => setAttr child "mode" (ascii mode) }
    | none, some child => root.append (setAttr child "mode" (ascii mode))
    | none, none => root

/-- `ignoreUser`. -/
def ignoreUser (user : CString) (root : XmlNode) : XmlNode := setUserMode "ignore" user root

/-- `watchUser`. -/
def watchUser (user : CString) (root : XmlNode) : XmlNode := setUserMode "restrict" user root

end DbGovernor
