import DbGovernor.Verification.Config.Positions
import DbGovernor.Verification.Config.Rereads

/-!
# The duplicate configuration

`save_duplicate_config` writes the file without the first connector element. What the readers of
the duplicate see depends on the attributes of any other connector element.
-/

namespace DbGovernor

open Results

variable {root root' node node' child cur : XmlNode} {path first : NodePath} {name : String}

/-! ### Labels -/

/-- The name and the attributes of the node that a pointer leads to. -/
def XmlNode.label (node : XmlNode) (path : NodePath) :
    Option (String × List (String × CString)) :=
  (node.at? path).map fun cur => (cur.name, cur.properties)

theorem XmlNode.label_nil (node : XmlNode) : node.label [] = some (node.name, node.properties) := by
  rw [XmlNode.label, XmlNode.at?_nil, Option.map_some]

theorem XmlNode.label_cons (node : XmlNode) (i : ℕ) (tail : NodePath) :
    node.label (i :: tail) = node.children[i]?.bind fun child => child.label tail := by
  rw [XmlNode.label, XmlNode.at?_cons, Option.map_bind]
  rfl

/-- The labels of the children themselves. -/
theorem XmlNode.bind_label_nil (child : Option XmlNode) :
    (child.bind fun child => child.label []) =
      child.map fun child => (child.name, child.properties) := by
  cases child with
  | none => rfl
  | some child => rw [Option.bind_some, XmlNode.label_nil, Option.map_some]

/-- A tree is given by the labels at its positions. -/
theorem eq_of_label (h : ∀ path, node.label path = node'.label path) : node = node' := by
  induction node using XmlNode.induction generalizing node' with
  | h node ih =>
      obtain ⟨name, properties, children⟩ := node
      obtain ⟨name', properties', children'⟩ := node'
      have hroot := h []
      rw [XmlNode.label_nil, XmlNode.label_nil, Option.some.injEq, Prod.mk.injEq] at hroot
      obtain ⟨rfl, rfl⟩ : name = name' ∧ properties = properties' := hroot
      have hlabel : ∀ (i : ℕ) tail, (children[i]?.bind fun child => child.label tail) =
          children'[i]?.bind fun child => child.label tail := by
        intro i tail
        simpa only [XmlNode.label_cons] using h (i :: tail)
      have hchildren : children = children' := by
        refine List.ext_getElem? fun i => ?_
        have hhere := hlabel i []
        rw [XmlNode.bind_label_nil, XmlNode.bind_label_nil] at hhere
        cases hchild : children[i]? with
        | none =>
            rw [hchild, Option.map_none] at hhere
            exact (Option.map_eq_none_iff.mp hhere.symm).symm
        | some child =>
            rw [hchild, Option.map_some] at hhere
            obtain ⟨child', hchild', -⟩ := Option.map_eq_some_iff.mp hhere.symm
            have hmem : child ∈ children := List.mem_of_getElem? hchild
            rw [hchild']
            refine congrArg some (ih child hmem fun tail => ?_)
            have htail := hlabel i tail
            rwa [hchild, hchild'] at htail
      rw [hchildren]

/-! ### Removal -/

/-- The position in the tree before a removal. -/
def NodePath.before : NodePath → NodePath → NodePath
  | [i], j :: tail => if j < i then j :: tail else (j + 1) :: tail
  | i :: path, j :: tail => if i = j then j :: NodePath.before path tail else j :: tail
  | _, tail => tail

theorem NodePath.before_nil (path : NodePath) : NodePath.before path [] = [] := by
  cases path with
  | nil => rfl
  | cons i path => cases path <;> rfl

theorem NodePath.before_cons_cons (i k j : ℕ) (path tail : NodePath) :
    NodePath.before (i :: k :: path) (j :: tail) =
      if i = j then j :: NodePath.before (k :: path) tail else j :: tail := by
  rw [NodePath.before]
  simp

theorem XmlNode.removeNode_cons_cons (node : XmlNode) (i k : ℕ) (path : NodePath) :
    node.removeNode (i :: k :: path) =
      { node with children := node.children.modify i fun cur => cur.removeNode (k :: path) } := by
  rw [XmlNode.removeNode]
  simp

/-- A removal does not change the root itself. -/
theorem XmlNode.removeNode_root (node : XmlNode) (path : NodePath) :
    (node.removeNode path).name = node.name ∧
      (node.removeNode path).properties = node.properties := by
  cases path with
  | nil => exact ⟨rfl, rfl⟩
  | cons i path =>
      cases path with
      | nil => exact ⟨rfl, rfl⟩
      | cons k path =>
          rw [XmlNode.removeNode_cons_cons]
          exact ⟨rfl, rfl⟩

theorem label_removeNode (node : XmlNode) (removed path : NodePath) :
    (node.removeNode removed).label path = node.label (removed.before path) := by
  induction removed generalizing node path with
  | nil =>
      rw [XmlNode.removeNode]
      cases path <;> rfl
  | cons i removed ih =>
      cases path with
      | nil =>
          obtain ⟨hname, hproperties⟩ := node.removeNode_root (i :: removed)
          rw [NodePath.before_nil, XmlNode.label_nil, XmlNode.label_nil, hname, hproperties]
      | cons j tail =>
          cases removed with
          | nil =>
              rw [XmlNode.removeNode, NodePath.before, XmlNode.label_cons, List.getElem?_eraseIdx]
              split <;> rw [XmlNode.label_cons]
          | cons k removed =>
              rw [XmlNode.removeNode_cons_cons, NodePath.before_cons_cons, XmlNode.label_cons,
                List.getElem?_modify]
              split
              case isTrue heq =>
                rw [XmlNode.label_cons]
                cases node.children[j]? with
                | none => rfl
                | some child => exact ih child tail
              case isFalse heq =>
                rw [XmlNode.label_cons]
                cases node.children[j]? <;> rfl

theorem not_prefix_before (hne : path ≠ []) (tail : NodePath) : ¬ path <+: path.before tail := by
  induction path generalizing tail with
  | nil => exact absurd rfl hne
  | cons i path ih =>
      cases tail with
      | nil => simp [NodePath.before_nil]
      | cons j tail =>
          cases path with
          | nil =>
              rw [NodePath.before]
              split <;> simp only [List.cons_prefix_cons, List.nil_prefix, and_true] <;> omega
          | cons k path =>
              rw [NodePath.before_cons_cons]
              split
              case isTrue heq =>
                rw [List.cons_prefix_cons]
                exact fun h => ih (List.cons_ne_nil k path) tail h.2
              case isFalse hne =>
                rw [List.cons_prefix_cons]
                exact fun h => hne h.1

theorem exists_before {other : NodePath} (h : ¬ path <+: other) :
    ∃ tail, path.before tail = other := by
  induction path generalizing other with
  | nil => exact absurd List.nil_prefix h
  | cons i path ih =>
      cases other with
      | nil => exact ⟨[], NodePath.before_nil _⟩
      | cons j tail =>
          rw [List.cons_prefix_cons, not_and] at h
          cases path with
          | nil =>
              rcases lt_trichotomy j i with hlt | rfl | hgt
              · exact ⟨j :: tail, by rw [NodePath.before, if_pos hlt]⟩
              · exact absurd List.nil_prefix (h rfl)
              · refine ⟨(j - 1) :: tail, ?_⟩
                rw [NodePath.before, if_neg (by omega), Nat.sub_add_cancel (by omega)]
          | cons k path =>
              by_cases heq : i = j
              · obtain ⟨tail', rfl⟩ := ih (h heq)
                exact ⟨j :: tail', by rw [NodePath.before_cons_cons, if_pos heq]⟩
              · exact ⟨j :: tail, by rw [NodePath.before_cons_cons, if_neg heq]⟩

/-- After a removal two trees are equal if their other positions have the same labels. -/
theorem removeNode_eq_iff (hne : path ≠ []) : node.removeNode path = node'.removeNode path ↔
    ∀ other, ¬ path <+: other → node.label other = node'.label other := by
  constructor
  · intro heq other hother
    obtain ⟨tail, rfl⟩ := exists_before hother
    rw [← label_removeNode, ← label_removeNode, heq]
  · intro h
    refine eq_of_label fun tail => ?_
    rw [label_removeNode, label_removeNode]
    exact h _ (not_prefix_before hne tail)

/-! ### Trees that differ in their connectors -/

/-- Two trees that differ only in the attributes of their connector elements. -/
def DifferInConnectors (root root' : XmlNode) : Prop :=
  ∀ path, root.label path = root'.label path ∨ ∃ attrs attrs',
    root.label path = some ("connector", attrs) ∧ root'.label path = some ("connector", attrs')

theorem DifferInConnectors.symm (h : DifferInConnectors root root') :
    DifferInConnectors root' root := by
  intro path
  rcases h path with heq | ⟨attrs, attrs', hlabel, hlabel'⟩
  · exact .inl heq.symm
  · exact .inr ⟨attrs', attrs, hlabel', hlabel⟩

theorem label_eq_some_iff {attrs : List (String × CString)} : node.label path = some (name, attrs) ↔
    ∃ cur, node.at? path = some cur ∧ cur.name = name ∧ cur.properties = attrs := by
  simp only [XmlNode.label, Option.map_eq_some_iff, Prod.mk.injEq]

theorem mem_named_iff : path ∈ node.named name ↔
    path ≠ [] ∧ ∃ attrs, node.label path = some (name, attrs) := by
  simp only [XmlNode.named, Set.mem_ofPred_eq, label_eq_some_iff]
  grind

theorem DifferInConnectors.named_subset (h : DifferInConnectors root root') (name : String) :
    root.named name ⊆ root'.named name := by
  intro path hpath
  obtain ⟨hne, attrs, hlabel⟩ := mem_named_iff.mp hpath
  rcases h path with heq | ⟨other, attrs', hother, hlabel'⟩
  · exact mem_named_iff.mpr ⟨hne, attrs, heq ▸ hlabel⟩
  · obtain ⟨rfl, rfl⟩ := Prod.mk.inj (Option.some.inj (hother.symm.trans hlabel))
    exact mem_named_iff.mpr ⟨hne, attrs', hlabel'⟩

/-- The searches find the same positions. -/
theorem DifferInConnectors.findPath_eq (h : DifferInConnectors root root') (name : String) :
    findPath name root = findPath name root' := by
  have hsame : root.named name = root'.named name :=
    (h.named_subset name).antisymm (h.symm.named_subset name)
  have hfirst := firstOf_findPath name root
  rw [hsame] at hfirst
  exact hfirst.unique (firstOf_findPath name root')

/-! ### Acceptance -/

theorem XmlNode.at?_append (node : XmlNode) (path tail : NodePath) :
    node.at? (path ++ tail) = (node.at? path).bind fun cur => cur.at? tail := by
  induction path generalizing node with
  | nil => rw [List.nil_append, XmlNode.at?_nil, Option.bind_some]
  | cons i path ih =>
      rw [List.cons_append, XmlNode.at?_cons, XmlNode.at?_cons, Option.bind_assoc]
      exact Option.bind_congr fun child _ => ih child

theorem label_append_of_at? (hat : root.at? path = some cur) (tail : NodePath) :
    root.label (path ++ tail) = cur.label tail := by
  rw [XmlNode.label, XmlNode.at?_append, hat, Option.bind_some, XmlNode.label]

/-- The nodes at one position differ in their connectors as the trees do. -/
theorem DifferInConnectors.at_ (h : DifferInConnectors root root')
    (hat : root.at? path = some cur) :
    ∃ cur', root'.at? path = some cur' ∧ DifferInConnectors cur cur' := by
  have hlabel : root.label path = some (cur.name, cur.properties) := by
    rw [XmlNode.label, hat, Option.map_some]
  have hsome : ∃ attrs', root'.label path = some (cur.name, attrs') := by
    rcases h path with heq | ⟨attrs, attrs', hlabel', hother⟩
    · exact ⟨_, heq ▸ hlabel⟩
    · obtain ⟨hname, -⟩ := Prod.mk.inj (Option.some.inj (hlabel.symm.trans hlabel'))
      exact ⟨attrs', hname ▸ hother⟩
  obtain ⟨attrs', hattrs'⟩ := hsome
  obtain ⟨cur', hat', -, -⟩ := label_eq_some_iff.mp hattrs'
  refine ⟨cur', hat', fun tail => ?_⟩
  rw [← label_append_of_at? hat, ← label_append_of_at? hat']
  exact h (path ++ tail)

theorem DifferInConnectors.name_eq (h : DifferInConnectors node node') :
    node.name = node'.name := by
  rcases h [] with heq | ⟨attrs, attrs', hlabel, hlabel'⟩
  · rw [XmlNode.label_nil, XmlNode.label_nil, Option.some.injEq, Prod.mk.injEq] at heq
    exact heq.1
  · rw [XmlNode.label_nil, Option.some.injEq, Prod.mk.injEq] at hlabel hlabel'
    exact hlabel.1.trans hlabel'.1.symm

/-- The attributes of a node that is not a connector. -/
theorem DifferInConnectors.getElemAttr_eq (h : DifferInConnectors node node')
    (hname : node.name ≠ "connector") (attrName : String) :
    getElemAttr node attrName = getElemAttr node' attrName := by
  rcases h [] with heq | ⟨attrs, attrs', hlabel, -⟩
  · rw [XmlNode.label_nil, XmlNode.label_nil, Option.some.injEq, Prod.mk.injEq] at heq
    rw [getElemAttr, getElemAttr, heq.2]
  · rw [XmlNode.label_nil, Option.some.injEq, Prod.mk.injEq] at hlabel
    exact absurd hlabel.1 hname

/-- An element that is found has a position. -/
theorem findElementWithName_eq_some_iff : findElementWithName name root = some node ↔
    ∃ path, findPath name root = some path ∧ root.at? path = some node := by
  have hleads := findPath_leads name root
  constructor
  · intro hfind
    rw [hfind, Option.map_some] at hleads
    exact Option.map_eq_some_iff.mp hleads
  · rintro ⟨path, hpath, hat⟩
    rw [hpath, Option.map_some, hat] at hleads
    obtain ⟨found, hfound, heq⟩ := Option.map_eq_some_iff.mp hleads.symm
    rw [hfound, ← Option.some.inj heq]

theorem name_of_findElementWithName (h : findElementWithName name root = some node) :
    node.name = name := by
  obtain ⟨path, hpath, hat⟩ := findElementWithName_eq_some_iff.mp h
  obtain ⟨⟨-, cur, hcur, hname⟩, -⟩ := (firstOf_findPath name root).least path hpath
  rw [hat, Option.some.injEq] at hcur
  rw [hcur, hname]

/-- An element that is found is found in the other tree. -/
theorem DifferInConnectors.find (h : DifferInConnectors root root')
    (hfind : findElementWithName name root = some node) :
    ∃ node', findElementWithName name root' = some node' ∧ DifferInConnectors node node' := by
  obtain ⟨path, hpath, hat⟩ := findElementWithName_eq_some_iff.mp hfind
  obtain ⟨node', hat', hdiffer⟩ := h.at_ hat
  exact ⟨node', findElementWithName_eq_some_iff.mpr ⟨path, h.findPath_eq name ▸ hpath, hat'⟩,
    hdiffer⟩

/-- An element of another name is found with the same attributes. -/
theorem DifferInConnectors.find_attr (h : DifferInConnectors root root')
    (hfind : findElementWithName name root = some node) (hname : name ≠ "connector") :
    ∃ node', findElementWithName name root' = some node' ∧
      ∀ attrName, getElemAttr node attrName = getElemAttr node' attrName := by
  obtain ⟨node', hfind', hdiffer⟩ := h.find hfind
  refine ⟨node', hfind', hdiffer.getElemAttr_eq ?_⟩
  rwa [name_of_findElementWithName hfind]

/-- The children of another name have a counterpart with the same attributes. -/
theorem DifferInConnectors.child_attr (h : DifferInConnectors node node')
    (hname : name ≠ "connector") (hchild : child ∈ childrenNamed node' name) :
    ∃ other ∈ childrenNamed node name, DifferInConnectors other child ∧
      ∀ attrName, getElemAttr other attrName = getElemAttr child attrName := by
  obtain ⟨hmem, hchildname⟩ := List.mem_filter.mp hchild
  obtain ⟨i, hi⟩ := List.mem_iff_getElem?.mp hmem
  have hat : node'.at? [i] = some child := by
    rw [XmlNode.at?_cons, hi, Option.bind_some, XmlNode.at?_nil]
  obtain ⟨other, hother, hdiffer⟩ := h.symm.at_ hat
  obtain ⟨found, hfound, hself⟩ := XmlNode.at?_cons_eq_some_iff.mp hother
  rw [XmlNode.at?_nil, Option.some.injEq] at hself
  subst hself
  have hothername : found.name = name := hdiffer.name_eq.symm.trans (of_decide_eq_true hchildname)
  refine ⟨found, ?_, hdiffer.symm, hdiffer.symm.getElemAttr_eq (by rwa [hothername])⟩
  exact List.mem_filter.mpr ⟨List.mem_of_getElem? hfound, decide_eq_true hothername⟩

theorem LimitsAccepted.transfer (h : DifferInConnectors node node')
    (haccepted : LimitsAccepted node) : LimitsAccepted node' := by
  intro limit' hlimit'
  obtain ⟨limit, hlimit, -, hattr⟩ := h.child_attr (by decide) hlimit'
  obtain ⟨hcurrent, hname, hslow⟩ := haccepted limit hlimit
  refine ⟨?_, ?_, ?_⟩
  · rwa [← hattr]
  · rwa [← hattr]
  · rwa [← hattr, ← hattr]

theorem UserAccepted.transfer (h : DifferInConnectors node node')
    (hattr : ∀ attrName, getElemAttr node attrName = getElemAttr node' attrName)
    (haccepted : UserAccepted node) : UserAccepted node' := by
  obtain ⟨hname, hmode, hlimits⟩ := haccepted
  refine ⟨?_, ?_, hlimits.transfer h⟩
  · rwa [← hattr, ← hattr]
  · rwa [← hattr]

theorem SettingsAccepted.transfer (h : DifferInConnectors root root')
    (haccepted : SettingsAccepted root) : SettingsAccepted root' := by
  obtain ⟨⟨log, hlog, hmode⟩, hintervals, hunlimit, ⟨restrict, hrestrict, hperiods⟩, hconnector⟩ :=
    haccepted
  have hfound : ∀ name, (findElementWithName name root).isSome →
      (findElementWithName name root').isSome := by
    intro name hsome
    obtain ⟨node, hnode⟩ := Option.isSome_iff_exists.mp hsome
    obtain ⟨node', hnode', -⟩ := h.find hnode
    rw [hnode']
    rfl
  refine ⟨?_, hfound _ hintervals, ?_, ?_, hfound _ hconnector⟩
  · obtain ⟨log', hlog', hattr⟩ := h.find_attr hlog (by decide)
    exact ⟨log', hlog', hattr "mode" ▸ hmode⟩
  · intro period hperiod
    obtain ⟨mode', hmode', hunlimit'⟩ := Option.bind_eq_some_iff.mp hperiod
    obtain ⟨mode, hmode, hattr⟩ := h.symm.find_attr hmode' (by decide)
    refine hunlimit period ?_
    rw [hmode, Option.bind_some, ← hattr]
    exact hunlimit'
  · obtain ⟨restrict', hrestrict', hattr⟩ := h.find_attr hrestrict (by decide)
    refine ⟨restrict', hrestrict', fun attrName hmem => ?_⟩
    exact hattr attrName ▸ hperiods attrName hmem

/-- A file is accepted whatever the attributes of its connectors. -/
theorem DifferInConnectors.accepted {liblve : Bool} (h : DifferInConnectors root root')
    (haccepted : Succeeds (configInit liblve root)) : Succeeds (configInit liblve root') := by
  rw [configInit_succeeds, readSettings_succeeds] at haccepted ⊢
  obtain ⟨hsettings, ⟨default, hdefault, hlimits⟩, husers⟩ := haccepted
  refine ⟨hsettings.transfer h, ?_, fun user' huser' => ?_⟩
  · obtain ⟨default', hdefault', hdiffer⟩ := h.find hdefault
    exact ⟨default', hdefault', hlimits.transfer hdiffer⟩
  · obtain ⟨user, huser, hdiffer, hattr⟩ := h.child_attr (by decide) huser'
    exact (husers user huser).transfer hdiffer hattr

/-! ### Secrets -/

/-- The duplicates of two trees that differ only in their connectors are equal exactly when the
connectors that differ are removed: the first one below the root or one inside of it. -/
theorem saveDuplicateConfig_eq_iff (h : DifferInConnectors root root') :
    saveDuplicateConfig root = saveDuplicateConfig root' ↔
      ∀ path, root.label path ≠ root'.label path →
        ∃ first, IsLeast (root.named "connector") first ∧ first <+: path := by
  have hfirst := firstOf_findPath "connector" root
  rw [saveDuplicateConfig, saveDuplicateConfig, ← h.findPath_eq]
  cases hfind : findPath "connector" root with
  | none =>
      rw [hfind, firstOf_none_iff] at hfirst
      constructor
      · rintro heq path hne
        exact absurd (congrArg (XmlNode.label · path) heq) hne
      · intro hprefix
        refine eq_of_label fun path => ?_
        by_contra hne
        obtain ⟨first, hleast, -⟩ := hprefix path hne
        exact absurd hleast.1 (hfirst ▸ Set.notMem_empty first)
  | some first =>
      rw [hfind, firstOf_some_iff] at hfirst
      refine (removeNode_eq_iff (mem_named_iff.mp hfirst.1).1).trans ?_
      constructor
      · intro hsame path hne
        refine ⟨first, hfirst, ?_⟩
        by_contra hother
        exact hne (hsame path hother)
      · intro hprefix path hother
        by_contra hne
        obtain ⟨least, hleast, hpath⟩ := hprefix path hne
        exact hother (hleast.unique hfirst ▸ hpath)

/-- A tree with one more attribute at a position. -/
def XmlNode.withAttribute (attr : String × CString) (node : XmlNode) : NodePath → XmlNode
  | [] => { node with properties := node.properties ++ [attr] }
  | i :: path =>
      { node with children := node.children.modify i fun cur => cur.withAttribute attr path }

theorem label_withAttribute (attr : String × CString) (node : XmlNode) (changed path : NodePath) :
    (node.withAttribute attr changed).label path =
      if path = changed then (node.label path).map fun label => (label.1, label.2 ++ [attr])
      else node.label path := by
  induction changed generalizing node path with
  | nil =>
      cases path with
      | nil => simp [XmlNode.withAttribute, XmlNode.label_nil]
      | cons j tail => simp [XmlNode.withAttribute, XmlNode.label_cons]
  | cons i changed ih =>
      cases path with
      | nil => simp [XmlNode.withAttribute, XmlNode.label_nil]
      | cons j tail =>
          rw [XmlNode.withAttribute, XmlNode.label_cons, XmlNode.label_cons, List.getElem?_modify]
          by_cases heq : i = j
          · subst heq
            cases hchild : node.children[i]? with
            | none => simp
            | some child => simpa using ih child tail
          · have hne : ¬ (j = i) := fun h => heq h.symm
            cases node.children[j]? <;> simp [heq, hne]

/-- A connector can have another attribute. -/
theorem differInConnectors_withAttribute (attr : String × CString)
    {attrs : List (String × CString)} (hlabel : root.label path = some ("connector", attrs)) :
    DifferInConnectors root (root.withAttribute attr path) := by
  intro other
  rw [label_withAttribute]
  split
  case isTrue heq =>
    rw [heq, hlabel]
    exact .inr ⟨attrs, attrs ++ [attr], rfl, rfl⟩
  case isFalse => exact .inl rfl

/-- The only connectors are one below the root and those inside of it. -/
def OneConnector (root : XmlNode) : Prop :=
  ∃ first, IsLeast (root.named "connector") first ∧ ∀ path attrs,
    root.label path = some ("connector", attrs) → first <+: path

/-- The duplicates of an accepted file for all attributes of its connectors are the same exactly
when there is no second connector. -/
theorem one_duplicate_iff (liblve : Bool) (haccepted : Succeeds (configInit liblve root)) :
    (∀ root', Succeeds (configInit liblve root') → DifferInConnectors root root' →
      saveDuplicateConfig root = saveDuplicateConfig root') ↔ OneConnector root := by
  constructor
  · intro h
    have hsettings := (readSettings_succeeds liblve root).mp
      ((configInit_succeeds liblve root).mp haccepted).1
    obtain ⟨node, hnode⟩ := Option.isSome_iff_exists.mp hsettings.connector
    obtain ⟨first, hfirst, -⟩ := findElementWithName_eq_some_iff.mp hnode
    have hleast := (firstOf_findPath "connector" root).least first hfirst
    refine ⟨first, hleast, fun path attrs hlabel => ?_⟩
    have hdiffer := differInConnectors_withAttribute ("password", []) hlabel
    have hsame := h _ (hdiffer.accepted haccepted) hdiffer
    have hchanged : root.label path ≠ (root.withAttribute ("password", []) path).label path := by
      rw [label_withAttribute, if_pos rfl, hlabel]
      simp
    obtain ⟨least, hleast', hprefix⟩ := (saveDuplicateConfig_eq_iff hdiffer).mp hsame path hchanged
    exact hleast'.unique hleast ▸ hprefix
  · rintro ⟨first, hleast, hprefix⟩ root' - hdiffer
    refine (saveDuplicateConfig_eq_iff hdiffer).mpr fun path hne => ⟨first, hleast, ?_⟩
    rcases hdiffer path with heq | ⟨attrs, -, hlabel, -⟩
    · exact absurd heq hne
    · exact hprefix path attrs hlabel

/-- The connectors that differ between two accepted files have to be removed for their duplicates
to be equal, and no attribute of a connector shows in the duplicate of a file exactly when it has no
second connector. -/
theorem duplicate_independent_iff (liblve : Bool) (root : XmlNode)
    (haccepted : Succeeds (configInit liblve root)) :
    (∀ root', Succeeds (configInit liblve root') → DifferInConnectors root root' →
      (saveDuplicateConfig root = saveDuplicateConfig root' ↔
        ∀ path, root.label path ≠ root'.label path →
          ∃ first, IsLeast (root.named "connector") first ∧ first <+: path)) ∧
    ((∀ root', Succeeds (configInit liblve root') → DifferInConnectors root root' →
      saveDuplicateConfig root = saveDuplicateConfig root') ↔ OneConnector root) :=
  ⟨fun _ _ hdiffer => saveDuplicateConfig_eq_iff hdiffer, one_duplicate_iff liblve haccepted⟩

/-- A file whose duplicate has no connector left has no second one. -/
theorem oneConnector_of_none_left (hroot : root.name ≠ "connector") {first : NodePath}
    (hfind : findPath "connector" root = some first)
    (hleft : findPath "connector" (root.removeNode first) = none) : OneConnector root := by
  have hleast := firstOf_findPath "connector" root
  rw [hfind, firstOf_some_iff] at hleast
  have hnone := firstOf_findPath "connector" (root.removeNode first)
  rw [hleft, firstOf_none_iff] at hnone
  refine ⟨first, hleast, fun path attrs hlabel => ?_⟩
  by_contra hother
  obtain ⟨tail, rfl⟩ := exists_before hother
  have hne : tail ≠ [] := by
    rintro rfl
    rw [NodePath.before_nil, XmlNode.label_nil] at hlabel
    exact hroot (Prod.mk.inj (Option.some.inj hlabel)).1
  have hmem : tail ∈ (root.removeNode first).named "connector" :=
    mem_named_iff.mpr ⟨hne, attrs, (label_removeNode root first tail).trans hlabel⟩
  rw [hnone] at hmem
  exact hmem

/-- The password of the shipped file is not in its duplicate. -/
theorem duplicate_independent_iff_shipped :
    saveDuplicateConfig (shippedRoot []) =
      saveDuplicateConfig ((shippedRoot []).withAttribute ("password", ascii "secret") [1]) := by
  have haccepted : Succeeds (configInit true (shippedRoot [])) := ⟨_, configInit_shippedRoot⟩
  have hlabel : (shippedRoot []).label [1] =
      some ("connector", [("prefix_separator", ascii "_")]) := by
    decide +kernel
  have hdiffer := differInConnectors_withAttribute ("password", ascii "secret") hlabel
  have hfind : findPath "connector" (shippedRoot []) = some [1] := by decide +kernel
  have hone : OneConnector (shippedRoot []) :=
    oneConnector_of_none_left (by decide) hfind (by decide +kernel)
  exact (duplicate_independent_iff true (shippedRoot []) haccepted).2.mpr hone _
    (hdiffer.accepted haccepted) hdiffer

/-- The shipped file with a second connector. -/
def twoConnectors : XmlNode := shippedRoot [element "connector" [("host", "backup")] []]

/-- The same file with a password in the second connector. -/
def twoConnectorsPassword : XmlNode :=
  twoConnectors.withAttribute ("password", ascii "secret") [7]

/-- The password of the second connector is in the duplicate. -/
theorem second_connector_in_duplicate :
    Succeeds (configInit true twoConnectors) ∧ Succeeds (configInit true twoConnectorsPassword) ∧
      DifferInConnectors twoConnectors twoConnectorsPassword ∧
      saveDuplicateConfig twoConnectors ≠ saveDuplicateConfig twoConnectorsPassword := by
  have haccepted : Succeeds (configInit true twoConnectors) := by
    have hsome : (configInit true twoConnectors).toOption.isSome := by decide +kernel
    obtain ⟨cfg, hcfg⟩ := Option.isSome_iff_exists.mp hsome
    exact ⟨cfg, eq_ok_of_toOption hcfg⟩
  have hlabel : twoConnectors.label [7] = some ("connector", [("host", ascii "backup")]) := by
    decide +kernel
  have hdiffer : DifferInConnectors twoConnectors twoConnectorsPassword :=
    differInConnectors_withAttribute _ hlabel
  refine ⟨haccepted, hdiffer.accepted haccepted, hdiffer, fun heq => ?_⟩
  have hwritten := congrArg (XmlNode.label · [6]) heq
  revert hwritten
  decide +kernel

end DbGovernor
