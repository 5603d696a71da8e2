import DbGovernor.Verification.Config.RepeatedEdits
import DbGovernor.Verification.Config.Setting
import DbGovernor.Verification.Shared.Upsert

/-!
# Edits of user elements

On a flat tree `setUser`, `ignoreUser` and `watchUser` put one element in the place of the user's,
or behind the others, and `deleteUser` takes it out.
-/

namespace DbGovernor

open Upsert

/-- An element of a user, by either of its names. -/
def isUser (u : CString) (cur : XmlNode) : Bool :=
  cur.name = "user" ∧ (getElemAttr cur "name" = some u ∨ getElemAttr cur "mysql_name" = some u)

/-- A tree whose user elements are children of the root, with limits as their children. -/
structure FlatTree (root : XmlNode) : Prop where
  users : ∀ cur ∈ root.children, findElementWithName "user" cur = none
  limits : ∀ cur ∈ root.children, cur.name = "user" → FlatLimits cur.children

/-- The element that `ignoreUser` and `watchUser` create, before its mode is set. -/
def namedUser (u : CString) : XmlNode := setAttr (xmlNewChild "user") "name" u

/-- The root with an element in the place of the user's. -/
def putUser (u : CString) (new root : XmlNode) : XmlNode :=
  { root with children := upsert (isUser u) new root.children }

/-- The element of a user that the commands find. -/
def userElement (u : CString) (root : XmlNode) : Option XmlNode := root.children.find? (isUser u)

/-- The element of a user after `setUser`, from the one that is there. -/
def setElement (u : CString) (args : LimitArgs) : Option XmlNode → XmlNode
  | some child => { child with children := editedBy args.named child.children }
  | none => { newUser u with children := prunedBy args.named (addedBy args.named) }

/-- The element of a user with a mode. -/
def modeElement (mode : String) (u : CString) (old : Option XmlNode) : XmlNode :=
  setAttr (old.getD (namedUser u)) "mode" (ascii mode)

/-- From `root` to `root'` the element `new` was put in the place of the user's, or behind the
other children. -/
structure PutsUser (u : CString) (root root' new : XmlNode) : Prop where
  name_eq : root'.name = root.name
  properties_eq : root'.properties = root.properties
  others : ∃ before after, root.children = before ++ (userElement u root).toList ++ after ∧
    root'.children = before ++ new :: after
  new_user : isUser u new = true

/-- The element `new` is `old` with a mode. -/
structure OnlyMode (mode : String) (old new : XmlNode) : Prop where
  name_eq : new.name = old.name
  children_eq : new.children = old.children
  mode_eq : getElemAttr new "mode" = some (ascii mode)
  others : ∀ a, a ≠ "mode" → getElemAttr new a = getElemAttr old a

section Users

variable {u : CString} {args : LimitArgs} {root child : XmlNode} {mode : String}

theorem isUser_iff : isUser u child = true ↔ child.name = "user" ∧
    (getElemAttr child "name" = some u ∨ getElemAttr child "mysql_name" = some u) := by
  simp [isUser]

theorem searchTagByName_user (u : CString) (root : XmlNode) :
    searchTagByName root "user" (some u) = root.children.findIdx? (isUser u) := by
  refine congrArg (List.findIdx? · root.children) (funext fun cur => ?_)
  simp [isUser]

theorem isUser_congr {cur : XmlNode} (hname : cur.name = child.name)
    (hproperties : cur.properties = child.properties) : isUser u cur = isUser u child := by
  rw [Bool.eq_iff_iff, isUser_iff, isUser_iff]
  simp only [getElemAttr, hname, hproperties]

theorem isUser_setAttr_mode (u : CString) (cur : XmlNode) (v : CString) :
    isUser u (setAttr cur "mode" v) = isUser u cur := by
  rw [isUser, getElemAttr_setAttr_ne (by decide), getElemAttr_setAttr_ne (by decide)]
  rfl

theorem isUser_namedUser (u : CString) : isUser u (namedUser u) = true := by
  rw [isUser_iff, namedUser, getElemAttr_setAttr_self]
  exact ⟨rfl, .inl rfl⟩

theorem isUser_newUser (u : CString) : isUser u (newUser u) = true := by
  rw [newUser, isUser_setAttr_mode]
  exact isUser_namedUser u

theorem isUser_setElement (args : LimitArgs) {old : Option XmlNode}
    (h : ∀ cur ∈ old, isUser u cur = true) : isUser u (setElement u args old) = true := by
  cases old with
  | none =>
      refine (isUser_congr ?_ ?_).trans (isUser_newUser u)
      · rfl
      · rfl
  | some cur =>
      refine (isUser_congr ?_ ?_).trans (h cur rfl)
      · rfl
      · rfl

theorem isUser_modeElement (mode : String) {old : Option XmlNode}
    (h : ∀ cur ∈ old, isUser u cur = true) : isUser u (modeElement mode u old) = true := by
  rw [modeElement, isUser_setAttr_mode]
  cases old with
  | none => exact isUser_namedUser u
  | some cur => exact h cur rfl

theorem isUser_of_mem_userElement : ∀ cur ∈ userElement u root, isUser u cur = true :=
  fun _ hcur => List.find?_some hcur

theorem notUser_of_userElement_eq_none (h : userElement u root = none) :
    ∀ cur ∈ root.children, isUser u cur = false := by
  intro cur hcur
  rw [Bool.eq_false_iff]
  exact List.find?_eq_none.mp h cur hcur

/-! ## The commands on a flat tree -/

theorem searchTagByName_eq_none (h : userElement u root = none) :
    searchTagByName root "user" (some u) = none := by
  rw [searchTagByName_user, List.findIdx?_eq_none_iff]
  exact notUser_of_userElement_eq_none h

theorem searchTagByName_eq_some_of_userElement (h : userElement u root = some child) :
    ∃ i, searchTagByName root "user" (some u) = some i ∧ root.children[i]? = some child ∧
      ∀ new, putUser u new root = { root with children := root.children.set i new } := by
  rw [userElement, List.find?_eq_bind_findIdx?_getElem?, Option.bind_eq_some_iff] at h
  obtain ⟨i, hi, hchild⟩ := h
  refine ⟨i, (searchTagByName_user u root).trans hi, hchild, fun new => ?_⟩
  rw [putUser, upsert_of_findIdx? hi]

/-- An element that the search does not find is created under the root. -/
theorem setNodeWithAttr_user (hflat : ∀ cur ∈ root.children, findElementWithName "user" cur = none)
    (hnone : userElement u root = none) :
    setNodeWithAttr root "user" "name" u = some (namedUser u) := by
  have hmissing : findElementWithNameAndAttr root "user" "name" u = none := by
    rw [findElementWithNameAndAttr, findAmongWithAttr_eq_none_iff]
    intro cur hcur
    refine ⟨?_, hflat cur hcur⟩
    rintro ⟨hname, hattr⟩
    exact List.find?_eq_none.mp hnone cur hcur (isUser_iff.mpr ⟨hname, .inl hattr⟩)
  rw [setNodeWithAttr, hmissing, namedUser]

theorem append_eq_putUser (hnone : userElement u root = none) (new : XmlNode) :
    root.append new = putUser u new root := by
  rw [XmlNode.append, putUser, upsert_of_find?_none hnone]

theorem setUser_eq (hargs : FieldsFit args.named)
    (hlimits : ∀ cur ∈ userElement u root, FlatLimits cur.children)
    (hflat : userElement u root = none →
      ∀ cur ∈ root.children, findElementWithName "user" cur = none) :
    setUser u args root = some (putUser u (setElement u args (userElement u root)) root) := by
  rw [setUser]
  unfold setLimits
  cases hfind : userElement u root with
  | none =>
      have hnew : newLimits args (setAttr (namedUser u) "mode" (ascii "restrict")) =
          some (setElement u args none) := by
        rw [newLimits_of_fits hargs rfl]
        rfl
      rw [searchTagByName_eq_none hfind, setNodeWithAttr_user (hflat hfind) hfind, Option.map_some]
      dsimp only
      rw [hnew, Option.map_some, append_eq_putUser hfind]
  | some child =>
      obtain ⟨i, hi, hchild, hput⟩ := searchTagByName_eq_some_of_userElement hfind
      have hedited := forArgs_editLimit_of_flat hargs (hlimits child hfind)
      rw [hi, hput]
      dsimp only
      rw [editChild, hchild, Option.bind_some, editLimits, hedited, Option.map_some, setElement]

theorem setUserMode_eq (mode : String) (hu : isDefaultName u = false)
    (hflat : userElement u root = none →
      ∀ cur ∈ root.children, findElementWithName "user" cur = none) :
    setUserMode mode u root = putUser u (modeElement mode u (userElement u root)) root := by
  rw [setUserMode, hu, if_neg Bool.false_ne_true]
  cases hfind : userElement u root with
  | none =>
      rw [searchTagByName_eq_none hfind, setNodeWithAttr_user (hflat hfind) hfind]
      dsimp only
      rw [append_eq_putUser hfind, modeElement, Option.getD_none]
  | some child =>
      obtain ⟨i, hi, hchild, hput⟩ := searchTagByName_eq_some_of_userElement hfind
      rw [hi, hput, modeElement, Option.getD_some]
      dsimp only
      rw [List.modify_eq_set_getElem?, hchild]
      rfl

theorem deleteUser_eq (hu : isDefaultName u = false) (root : XmlNode) :
    deleteUser u root = { root with children := root.children.eraseP (isUser u) } := by
  rw [deleteUser, hu, if_neg Bool.false_ne_true, searchTagByName_user, List.eraseP_eq_eraseIdx]
  cases root.children.findIdx? (isUser u) with
  | none => exact (XmlNode.mk_eta root).symm
  | some i => rfl

/-! ## Laws of the commands -/

theorem isDefaultName_eq_false (hu : u ≠ ascii "default") : isDefaultName u = false := by
  rw [isDefaultName, decide_eq_false_iff_not]
  intro htake
  have hlength : (u.take (usernamemaxlen - 1)).length = 7 := by
    rw [htake]
    rfl
  rw [List.length_take] at hlength
  have hshort : u.length ≤ usernamemaxlen - 1 := by
    have hmax : usernamemaxlen - 1 = 63 := rfl
    omega
  rw [List.take_of_length_le hshort] at htake
  exact hu htake

theorem userElement_putUser {new : XmlNode} (hnew : isUser u new = true) (root : XmlNode) :
    userElement u (putUser u new root) = some new :=
  find?_upsert hnew root.children

theorem putUser_putUser {new : XmlNode} (hnew : isUser u new = true) (new' root : XmlNode) :
    putUser u new' (putUser u new root) = putUser u new' root := by
  simp only [putUser, upsert_upsert hnew]

theorem putsUser_putUser {new : XmlNode} (hnew : isUser u new = true) (root : XmlNode) :
    PutsUser u root (putUser u new root) new :=
  ⟨rfl, rfl, upsert_split (isUser u) new root.children, hnew⟩

theorem onlyMode_modeElement (mode : String) (u : CString) (old : Option XmlNode) :
    OnlyMode mode (old.getD (namedUser u)) (modeElement mode u old) :=
  ⟨rfl, rfl, getElemAttr_setAttr_self _ _ _, fun _ ha => getElemAttr_setAttr_ne ha _ _⟩

theorem FlatTree.flatLimits (h : FlatTree root) {u : CString} :
    ∀ cur ∈ userElement u root, FlatLimits cur.children := by
  intro cur hcur
  have hname := (isUser_iff.mp (isUser_of_mem_userElement cur hcur)).1
  exact h.limits cur (List.mem_of_find?_eq_some hcur) hname

/-- The limits that `setUser` leaves lie flat and are settled by its arguments. -/
theorem FlatTree.setElement_children (h : FlatTree root) (u : CString) (args : LimitArgs) :
    FlatLimits (setElement u args (userElement u root)).children ∧
      SettledBy args.named (setElement u args (userElement u root)).children := by
  have hargs := (distinct_named args).pairwise
  cases hfind : userElement u root with
  | none =>
      have hnew := flatLimits_prunedBy hargs
      rw [setElement]
      dsimp only
      exact ⟨hnew, settledBy_prunedBy hargs⟩
  | some child =>
      have hlimits := h.flatLimits child hfind
      rw [setElement]
      dsimp only
      exact ⟨hlimits.editedBy args.named, hlimits.settledBy hargs⟩

/-- A second `setUser` with the same arguments finds its own element. -/
theorem FlatTree.setElement_setElement (h : FlatTree root) (u : CString) (args : LimitArgs) :
    setElement u args (some (setElement u args (userElement u root))) =
      setElement u args (userElement u root) := by
  obtain ⟨hflat, hsettled⟩ := h.setElement_children u args
  generalize setElement u args (userElement u root) = new at hflat hsettled ⊢
  rw [setElement, editedBy_of_settledBy hflat.nested hsettled, XmlNode.mk_eta]

theorem modeElement_modeElement (mode mode' : String) (u : CString) (old : Option XmlNode) :
    modeElement mode u (some (modeElement mode' u old)) = modeElement mode u old := by
  rw [modeElement, Option.getD_some, modeElement, setAttr_setAttr, modeElement]

end Users

/-! ## Edits are local, idempotent and undoable -/

section Laws

variable {root : XmlNode} {u : CString} {args : LimitArgs}

theorem isUser_setElement_userElement (u : CString) (args : LimitArgs) (root : XmlNode) :
    isUser u (setElement u args (userElement u root)) = true :=
  isUser_setElement args isUser_of_mem_userElement

theorem isUser_modeElement_userElement (mode : String) (u : CString) (root : XmlNode) :
    isUser u (modeElement mode u (userElement u root)) = true :=
  isUser_modeElement mode isUser_of_mem_userElement

/-- What a second `setUser` with the same arguments finds is what it would make. -/
theorem setUser_putUser (hflat : FlatTree root) (hargs : FieldsFit args.named) :
    setUser u args (putUser u (setElement u args (userElement u root)) root) =
      some (putUser u (setElement u args (userElement u root)) root) := by
  have hset := isUser_setElement_userElement u args root
  have hfind := userElement_putUser hset root
  rw [setUser_eq hargs, hfind, hflat.setElement_setElement, putUser_putUser hset]
  · intro cur hcur
    rw [hfind, Option.mem_some] at hcur
    rw [← hcur]
    exact (hflat.setElement_children u args).1
  · intro hnone
    rw [hfind] at hnone
    cases hnone

theorem deleteUser_putUser (hu : u ≠ ascii "default") (hnone : userElement u root = none) :
    deleteUser u (putUser u (setElement u args (userElement u root)) root) = root := by
  rw [deleteUser_eq (isDefaultName_eq_false hu), putUser]
  dsimp only
  rw [eraseP_upsert (isUser_setElement_userElement u args root) hnone, XmlNode.mk_eta]

theorem setUserMode_of_flat (hflat : FlatTree root) (hu : u ≠ ascii "default") (mode : String) :
    setUserMode mode u root = putUser u (modeElement mode u (userElement u root)) root :=
  setUserMode_eq mode (isDefaultName_eq_false hu) fun _ => hflat.users

/-- A mode takes the place of one that was set before. -/
theorem setUserMode_setUserMode (hflat : FlatTree root) (hu : u ≠ ascii "default")
    (mode mode' : String) :
    setUserMode mode' u (setUserMode mode u root) = setUserMode mode' u root := by
  have hmode := isUser_modeElement_userElement mode u root
  have hfind := userElement_putUser hmode root
  rw [setUserMode_of_flat hflat hu, setUserMode_of_flat hflat hu,
    setUserMode_eq _ (isDefaultName_eq_false hu), hfind, modeElement_modeElement,
    putUser_putUser hmode]
  intro hnone
  rw [hfind] at hnone
  cases hnone

theorem setUserMode_puts (hflat : FlatTree root) (hu : u ≠ ascii "default") (mode : String) :
    ∃ new, PutsUser u root (setUserMode mode u root) new ∧
      OnlyMode mode ((userElement u root).getD (namedUser u)) new := by
  rw [setUserMode_of_flat hflat hu]
  exact ⟨_, putsUser_putUser (isUser_modeElement_userElement mode u root) root,
    onlyMode_modeElement mode u _⟩

end Laws

/-- On a flat tree each command puts one element in the place of the user's. `setUser` is
idempotent and undone by `deleteUser` when it made the element; the others set a mode, of which
the last stays. -/
theorem user_edits_laws {root : XmlNode} (hflat : FlatTree root) {u : CString}
    (hu : u ≠ ascii "default") {args : LimitArgs} (hargs : FieldsFit args.named) :
    (∃ root', setUser u args root = some root' ∧ (∃ new, PutsUser u root root' new) ∧
      setUser u args root' = some root' ∧
      (userElement u root = none → deleteUser u root' = root)) ∧
    (∃ new, PutsUser u root (ignoreUser u root) new ∧
      OnlyMode "ignore" ((userElement u root).getD (namedUser u)) new) ∧
    (∃ new, PutsUser u root (watchUser u root) new ∧
      OnlyMode "restrict" ((userElement u root).getD (namedUser u)) new) ∧
    watchUser u (ignoreUser u root) = watchUser u root := by
  have hset : setUser u args root =
      some (putUser u (setElement u args (userElement u root)) root) :=
    setUser_eq hargs hflat.flatLimits fun _ => hflat.users
  have hputs := putsUser_putUser (isUser_setElement_userElement u args root) root
  exact ⟨⟨_, hset, ⟨_, hputs⟩, setUser_putUser hflat hargs, deleteUser_putUser hu⟩,
    setUserMode_puts hflat hu "ignore", setUserMode_puts hflat hu "restrict",
    setUserMode_setUserMode hflat hu "ignore" "restrict"⟩

/-- Arguments for the CPU, reads and writes with four fields each. -/
theorem FourFields.fieldsFit {args : LimitArgs} (h : FourFields args) (hslow : args.slow = none) :
    FieldsFit args.named := by
  have hfields : ∀ arg ∈ args.named, ∀ s ∈ arg.2, ∃ data, split s = .fields data := by
    intro arg harg s hs
    refine h s ?_
    simp only [LimitArgs.named, List.mem_cons, List.not_mem_nil, or_false] at harg
    simp only [List.mem_append, Option.mem_toList]
    rcases harg with rfl | rfl | rfl | rfl
    · exact .inl (.inl hs)
    · exact .inl (.inr hs)
    · exact .inr hs
    · rw [Option.mem_def, hslow] at hs
      cases hs
  intro arg harg s hs
  obtain ⟨data, hdata⟩ := hfields arg harg s hs
  rw [hdata]
  exact SplitResult.noConfusion

/-- A flat tree with one user. -/
def oneUserRoot : XmlNode :=
  element "governor" [] [
    element "default" [] [],
    element "user" [("mysql_name", "u"), ("mode", "ignore")] [
      limitElement "cpu" "400" "380" "350" "300"]]

theorem oneUserRoot_flat : FlatTree oneUserRoot := by
  refine ⟨?_, ?_⟩
  · have hnone : ∀ cur ∈ oneUserRoot.children, (findElementWithName "user" cur).isNone = true := by
      decide +kernel
    intro cur hcur
    exact Option.isNone_iff_eq_none.mp (hnone cur hcur)
  · intro cur hcur hname
    refine ⟨?_, ?_, ?_⟩
    · have hnested : ∀ cur ∈ oneUserRoot.children, nestedLimit cur.children = false := by
        decide +kernel
      exact hnested cur hcur
    · have hnamed : ∀ cur ∈ oneUserRoot.children, ∀ limit ∈ cur.children,
          (getElemAttr limit "name").isSome = true := by
        decide +kernel
      exact fun limit hlimit _ => hnamed cur hcur limit hlimit
    · have hone : ∀ cur ∈ oneUserRoot.children, cur.children.length ≤ 1 := by
        decide +kernel
      exact fun a => (List.length_filter_le _ _).trans (hone cur hcur)

/-- A user that is set and deleted again. -/
theorem user_edits_laws_sample :
    ∃ root', setUser (ascii "v") (cpuArgs "40,38,,") oneUserRoot = some root' ∧
      deleteUser (ascii "v") root' = oneUserRoot := by
  have hfields : FourFields (cpuArgs "40,38,,") := by
    intro s hs
    rw [List.mem_singleton.mp hs]
    exact ⟨⟨ascii "40", ascii "38", [], []⟩, by rfl⟩
  have hmissing : (userElement (ascii "v") oneUserRoot).isNone = true := by
    decide +kernel
  have hname : ascii "v" ≠ ascii "default" := by
    decide
  obtain ⟨⟨root', hset, -, -, hdelete⟩, -⟩ :=
    user_edits_laws oneUserRoot_flat hname (hfields.fieldsFit rfl)
  exact ⟨root', hset, hdelete (Option.isNone_iff_eq_none.mp hmissing)⟩

end DbGovernor
