import DbGovernor.Model.XmlPath
import DbGovernor.Verification.Config.Search
import DbGovernor.Verification.Shared.FirstOf
import Mathlib.Data.List.Lex

/-!
# Positions in a tree

The lexicographic order of pointers is the order of the nodes in the document, parents before
children. A search by name finds the first position of the name. A search by name and attribute
looks for the name alone below the children of the node it starts at.
-/

namespace DbGovernor

variable {nodeName attrName : String} {attrValue : CString} {node child cur : XmlNode}
  {children rest : List XmlNode} {path tail : NodePath} {q : NodePath → XmlNode → Prop}

/-- A property of a node holds if it holds whenever it does of the children. -/
theorem XmlNode.induction {p : XmlNode → Prop}
    (h : ∀ node : XmlNode, (∀ child ∈ node.children, p child) → p node) (node : XmlNode) :
    p node := by
  refine @XmlNode.rec p (fun children => ∀ child ∈ children, p child) ?_ ?_ ?_ node
  · intro name properties children hchildren
    exact h ⟨name, properties, children⟩ hchildren
  · simp
  · intro head tail hhead htail
    exact List.forall_mem_cons.mpr ⟨hhead, htail⟩

/-! ### Pointers -/

@[simp] theorem XmlNode.at?_nil (node : XmlNode) : node.at? [] = some node := by
  rw [XmlNode.at?]

theorem XmlNode.at?_cons (node : XmlNode) (i : ℕ) (tail : NodePath) :
    node.at? (i :: tail) = node.children[i]?.bind fun child => child.at? tail := by
  rw [XmlNode.at?]
  cases node.children[i]? <;> rfl

theorem XmlNode.at?_cons_eq_some_iff {i : ℕ} : node.at? (i :: tail) = some cur ↔
    ∃ child, node.children[i]? = some child ∧ child.at? tail = some cur := by
  rw [XmlNode.at?_cons, Option.bind_eq_some_iff]

theorem NodePath.nil_le (path : NodePath) : ([] : NodePath) ≤ path :=
  not_lt.mp (List.not_lt_nil path)

theorem NodePath.cons_le_cons_iff {i j : ℕ} {path path' : NodePath} :
    (i :: path : NodePath) ≤ j :: path' ↔ i < j ∨ i = j ∧ path ≤ path' := by
  rw [← not_lt, List.cons_lt_cons_iff, not_or, not_lt, not_and]
  constructor
  · rintro ⟨hle, hpath⟩
    rcases hle.lt_or_eq with hlt | rfl
    · exact .inl hlt
    · exact .inr ⟨rfl, not_lt.mp (hpath rfl)⟩
  · rintro (hlt | ⟨rfl, hle⟩)
    · exact ⟨hlt.le, fun heq => absurd heq hlt.ne'⟩
    · exact ⟨le_rfl, fun _ => not_lt.mpr hle⟩

theorem monotone_cons (i : ℕ) : Monotone (List.cons i : NodePath → NodePath) :=
  fun _ _ h => NodePath.cons_le_cons_iff.mpr (.inr ⟨rfl, h⟩)

theorem next_monotone : Monotone NodePath.next := by
  intro path path' h
  cases path with
  | nil => exact NodePath.nil_le _
  | cons i path =>
      cases path' with
      | nil => exact absurd h (not_le.mpr (List.nil_lt_cons i path))
      | cons j path' =>
          rw [NodePath.next, NodePath.next, NodePath.cons_le_cons_iff, Nat.add_lt_add_iff_right,
            Nat.add_right_cancel_iff]
          exact NodePath.cons_le_cons_iff.mp h

/-! ### What a search visits -/

/-- The pointers from a node to itself or to a node below with a property. -/
def reached (q : NodePath → XmlNode → Prop) (node : XmlNode) : Set NodePath :=
  {path | ∃ cur, node.at? path = some cur ∧ q path cur}

/-- The pointers that start at a child. -/
def reachedAmong (q : NodePath → XmlNode → Prop) (children : List XmlNode) : Set NodePath :=
  {path | ∃ i tail child, path = i :: tail ∧ children[i]? = some child ∧ tail ∈ reached q child}

/-- A loop over the children of a node that searches each of them. -/
def searchAmong (below : XmlNode → Option NodePath) : List XmlNode → Option NodePath
  | [] => none
  | cur :: rest =>
      ((below cur).map (List.cons 0)).or ((searchAmong below rest).map NodePath.next)

theorem reachedAmong_cons (q : NodePath → XmlNode → Prop) (cur : XmlNode) (rest : List XmlNode) :
    reachedAmong q (cur :: rest) =
      Set.image (List.cons 0) (reached q cur) ∪ Set.image NodePath.next (reachedAmong q rest) := by
  ext path
  constructor
  · rintro ⟨i, tail, child, rfl, hchild, htail⟩
    cases i with
    | zero =>
        rw [List.getElem?_cons_zero, Option.some.injEq] at hchild
        exact .inl ⟨tail, hchild ▸ htail, rfl⟩
    | succ i =>
        rw [List.getElem?_cons_succ] at hchild
        exact .inr ⟨i :: tail, ⟨i, tail, child, rfl, hchild, htail⟩, rfl⟩
  · rintro (⟨tail, htail, rfl⟩ | ⟨_, ⟨i, tail, child, rfl, hchild, htail⟩, rfl⟩)
    · exact ⟨0, tail, cur, rfl, rfl, htail⟩
    · exact ⟨i + 1, tail, child, rfl, hchild, htail⟩

/-- What the loop finds comes first if what it finds in each child does. -/
theorem firstOf_searchAmong {below : XmlNode → Option NodePath}
    (h : ∀ child ∈ children, FirstOf (reached q child) (below child)) :
    FirstOf (reachedAmong q children) (searchAmong below children) := by
  induction children with
  | nil =>
      have hempty : reachedAmong q [] = ∅ := by
        ext path
        simp [reachedAmong]
      rw [hempty, searchAmong]
      exact firstOf_empty
  | cons cur rest ih =>
      obtain ⟨hcur, hrest⟩ := List.forall_mem_cons.mp h
      rw [reachedAmong_cons, searchAmong]
      refine (hcur.map (monotone_cons 0)).or ((ih hrest).map next_monotone) ?_
      rintro _ ⟨tail, -, rfl⟩ _ ⟨_, ⟨i, tail', child, rfl, -, -⟩, rfl⟩
      exact NodePath.cons_le_cons_iff.mpr (.inl (Nat.succ_pos i))

/-- The node that a pointer leads to from one of some siblings. -/
def atAmong (children : List XmlNode) : NodePath → Option XmlNode
  | [] => none
  | i :: tail => children[i]?.bind fun child => child.at? tail

theorem atAmong_next (cur : XmlNode) (rest : List XmlNode) (path : NodePath) :
    atAmong (cur :: rest) path.next = atAmong rest path := by
  cases path <;> rfl

theorem map_at?_searchAmong (below : XmlNode → Option NodePath) (node : XmlNode)
    (children : List XmlNode) :
    (searchAmong below children).map node.at? =
      (searchAmong below children).map (atAmong node.children) := by
  have hne : ∀ path ∈ searchAmong below children, path ≠ [] := by
    induction children with
    | nil => simp [searchAmong]
    | cons cur rest ih =>
        intro path hpath
        rw [searchAmong, Option.mem_def, Option.or_eq_some_iff] at hpath
        rcases hpath with hhere | ⟨-, hnext⟩
        · obtain ⟨tail, -, rfl⟩ := Option.map_eq_some_iff.mp hhere
          exact List.cons_ne_nil 0 tail
        · obtain ⟨other, hother, rfl⟩ := Option.map_eq_some_iff.mp hnext
          obtain ⟨i, tail, rfl⟩ := List.exists_cons_of_ne_nil (ih other hother)
          exact List.cons_ne_nil (i + 1) tail
  refine Option.map_congr fun path hpath => ?_
  obtain ⟨i, tail, rfl⟩ := List.exists_cons_of_ne_nil (hne path hpath)
  exact XmlNode.at?_cons node i tail

/-- The pointer of a loop leads to the node that the loop finds if the pointers into the children
do. -/
theorem searchAmong_leads {below : XmlNode → Option NodePath} {found : XmlNode → Option XmlNode}
    (h : ∀ child ∈ node.children, (below child).map child.at? = (found child).map some) :
    (searchAmong below node.children).map node.at? =
      (node.children.findSome? found).map some := by
  rw [map_at?_searchAmong]
  generalize node.children = children at h ⊢
  induction children with
  | nil => rfl
  | cons cur rest ih =>
      obtain ⟨hcur, hrest⟩ := List.forall_mem_cons.mp h
      rw [searchAmong, List.findSome?_cons]
      cases hbelow : below cur with
      | none =>
          cases hfound : found cur with
          | some found => simp [hbelow, hfound] at hcur
          | none =>
              rw [Option.map_none, Option.none_or, Option.map_map, ← ih hrest]
              exact congrArg (Option.map · _) (funext fun path => atAmong_next cur rest path)
      | some tail =>
          cases hfound : found cur with
          | none => simp [hbelow, hfound] at hcur
          | some found =>
              rw [hbelow, hfound, Option.map_some, Option.map_some, Option.some.injEq] at hcur
              rw [Option.map_some, Option.some_or, Option.map_some, Option.map_some, ← hcur]
              rfl

/-! ### Search by name -/

/-- The positions of a name below a node. -/
def XmlNode.named (node : XmlNode) (nodeName : String) : Set NodePath :=
  {path | path ≠ [] ∧ ∃ cur, node.at? path = some cur ∧ cur.name = nodeName}

theorem named_eq_reachedAmong (node : XmlNode) (nodeName : String) :
    node.named nodeName = reachedAmong (fun _ cur => cur.name = nodeName) node.children := by
  ext path
  cases path with
  | nil => simp [XmlNode.named, reachedAmong]
  | cons i tail =>
      simp only [XmlNode.named, reachedAmong, reached, Set.mem_ofPred_eq,
        XmlNode.at?_cons_eq_some_iff]
      grind

/-- The search of a child by name: the child itself, or below it. -/
def findPathBelow (nodeName : String) (cur : XmlNode) : Option NodePath :=
  if cur.name = nodeName then some [] else findPath nodeName cur

theorem findPath_eq_searchAmong (nodeName : String) (node : XmlNode) :
    findPath nodeName node = searchAmong (findPathBelow nodeName) node.children := by
  obtain ⟨name, properties, children⟩ := node
  rw [findPath]
  induction children with
  | nil => rw [findPathAmong, searchAmong]
  | cons cur rest ih =>
      rw [findPathAmong, searchAmong, ih, findPathBelow]
      split
      · rfl
      · cases findPath nodeName cur <;> rfl

/-- A node that is searched itself is found first. -/
theorem isLeast_nil {s : Set NodePath} (h : [] ∈ s) : IsLeast s [] :=
  ⟨h, fun _ _ => NodePath.nil_le _⟩

theorem firstOf_findPathBelow (h : FirstOf (child.named nodeName) (findPath nodeName child)) :
    FirstOf (reached (fun _ cur => cur.name = nodeName) child) (findPathBelow nodeName child) := by
  rw [findPathBelow]
  split
  case isTrue hname =>
    exact firstOf_some_iff.mpr (isLeast_nil ⟨child, child.at?_nil, hname⟩)
  case isFalse hname =>
    have hsame : reached (fun _ cur => cur.name = nodeName) child = child.named nodeName := by
      ext path
      refine ⟨fun ⟨cur, hat, hcur⟩ => ⟨?_, cur, hat, hcur⟩, fun ⟨_, hcur⟩ => hcur⟩
      rintro rfl
      rw [XmlNode.at?_nil, Option.some.injEq] at hat
      exact hname (hat ▸ hcur)
    rw [hsame]
    exact h

/-- `FindElementWithName` finds the first node of that name. -/
theorem firstOf_findPath (nodeName : String) (node : XmlNode) :
    FirstOf (node.named nodeName) (findPath nodeName node) := by
  induction node using XmlNode.induction with
  | h node ih =>
      rw [named_eq_reachedAmong, findPath_eq_searchAmong]
      exact firstOf_searchAmong fun child hchild => firstOf_findPathBelow (ih child hchild)

theorem findAmong_eq_findSome? (nodeName : String) (children : List XmlNode) :
    findAmong nodeName children = children.findSome? (findBelow nodeName) := by
  induction children with
  | nil => simp
  | cons cur rest ih =>
      rw [findAmong_cons, List.findSome?_cons, ih]
      cases findBelow nodeName cur <;> rfl

/-- `FindElementWithName` returns the node that its pointer leads to. -/
theorem findPath_leads (nodeName : String) (node : XmlNode) :
    (findPath nodeName node).map node.at? = (findElementWithName nodeName node).map some := by
  induction node using XmlNode.induction with
  | h node ih =>
      rw [findPath_eq_searchAmong, findElementWithName_eq, findAmong_eq_findSome?]
      refine searchAmong_leads fun child hchild => ?_
      rw [findPathBelow, findBelow]
      split
      · rfl
      · exact ih child hchild

/-! ### Search by name and attribute -/

/-- The positions of a name with an attribute below a node. -/
def XmlNode.namedWithAttr (node : XmlNode) (nodeName attrName : String) (attrValue : CString) :
    Set NodePath :=
  {path | path ≠ [] ∧ ∃ cur, node.at? path = some cur ∧ cur.name = nodeName ∧
    getElemAttr cur attrName = some attrValue}

/-- What the search accepts: the attribute counts for the children of the node alone. -/
def accepted (nodeName attrName : String) (attrValue : CString) (tail : NodePath)
    (cur : XmlNode) : Prop :=
  cur.name = nodeName ∧ (tail = [] → getElemAttr cur attrName = some attrValue)

/-- The search of a child by name and attribute. -/
def findPathBelowWithAttr (nodeName attrName : String) (attrValue : CString) (cur : XmlNode) :
    Option NodePath :=
  if cur.name = nodeName ∧ getElemAttr cur attrName = some attrValue then some []
  else findPath nodeName cur

theorem findPathWithAttr_eq_searchAmong (node : XmlNode) (nodeName attrName : String)
    (attrValue : CString) :
    findPathWithAttr node nodeName attrName attrValue =
      searchAmong (findPathBelowWithAttr nodeName attrName attrValue) node.children := by
  rw [findPathWithAttr]
  induction node.children with
  | nil => rw [findPathAmongWithAttr, searchAmong]
  | cons cur rest ih =>
      rw [findPathAmongWithAttr, searchAmong, ih, findPathBelowWithAttr]
      split
      · rfl
      · cases findPath nodeName cur <;> rfl

/-- `FindElementWithNameAndAttr` returns the node that its pointer leads to. -/
theorem findPathWithAttr_leads (node : XmlNode) (nodeName attrName : String)
    (attrValue : CString) :
    (findPathWithAttr node nodeName attrName attrValue).map node.at? =
      (findElementWithNameAndAttr node nodeName attrName attrValue).map some := by
  have hfound : findElementWithNameAndAttr node nodeName attrName attrValue =
      node.children.findSome? fun cur =>
        if cur.name = nodeName ∧ getElemAttr cur attrName = some attrValue then some cur
        else findElementWithName nodeName cur := by
    rw [findElementWithNameAndAttr]
    induction node.children with
    | nil => rw [findAmongWithAttr, List.findSome?_nil]
    | cons cur rest ih =>
        rw [findAmongWithAttr, List.findSome?_cons, ih]
        split
        · rfl
        · cases findElementWithName nodeName cur <;> rfl
  rw [findPathWithAttr_eq_searchAmong, hfound]
  refine searchAmong_leads fun child _ => ?_
  rw [findPathBelowWithAttr]
  split
  · rfl
  · exact findPath_leads nodeName child

theorem firstOf_findPathBelowWithAttr (child : XmlNode) :
    FirstOf (reached (accepted nodeName attrName attrValue) child)
      (findPathBelowWithAttr nodeName attrName attrValue child) := by
  rw [findPathBelowWithAttr]
  split
  case isTrue hboth =>
    exact firstOf_some_iff.mpr (isLeast_nil ⟨child, child.at?_nil, hboth.1, fun _ => hboth.2⟩)
  case isFalse hboth =>
    have hsame : reached (accepted nodeName attrName attrValue) child = child.named nodeName := by
      ext path
      constructor
      · rintro ⟨cur, hat, hname, hattr⟩
        refine ⟨?_, cur, hat, hname⟩
        rintro rfl
        rw [XmlNode.at?_nil, Option.some.injEq] at hat
        exact hboth ⟨hat ▸ hname, hat ▸ hattr rfl⟩
      · rintro ⟨hne, cur, hat, hname⟩
        exact ⟨cur, hat, hname, fun hnil => absurd hnil hne⟩
    rw [hsame]
    exact firstOf_findPath nodeName child

/-- The positions that the search accepts. -/
def XmlNode.acceptedPositions (node : XmlNode) (nodeName attrName : String) (attrValue : CString) :
    Set NodePath :=
  reachedAmong (accepted nodeName attrName attrValue) node.children

theorem firstOf_findPathWithAttr (node : XmlNode) (nodeName attrName : String)
    (attrValue : CString) :
    FirstOf (node.acceptedPositions nodeName attrName attrValue)
      (findPathWithAttr node nodeName attrName attrValue) := by
  rw [findPathWithAttr_eq_searchAmong]
  exact firstOf_searchAmong fun child _ => firstOf_findPathBelowWithAttr child

theorem mem_acceptedPositions_iff : path ∈ node.acceptedPositions nodeName attrName attrValue ↔
    path ≠ [] ∧ ∃ cur, node.at? path = some cur ∧ cur.name = nodeName ∧
      (path.length = 1 → getElemAttr cur attrName = some attrValue) := by
  cases path with
  | nil => simp [XmlNode.acceptedPositions, reachedAmong]
  | cons i tail =>
      simp only [XmlNode.acceptedPositions, reachedAmong, reached, accepted, Set.mem_ofPred_eq,
        XmlNode.at?_cons_eq_some_iff, List.length_cons, Nat.add_eq_right, List.length_eq_zero_iff]
      grind

/-- The search by name and attribute finds the first node of that name and attribute exactly when
each node of the name without the attribute, further down than a child, comes after such a node. -/
theorem findPathWithAttr_first_iff (node : XmlNode) (nodeName attrName : String)
    (attrValue : CString) :
    FirstOf (node.namedWithAttr nodeName attrName attrValue)
        (findPathWithAttr node nodeName attrName attrValue) ↔
      ∀ path cur, 2 ≤ path.length → node.at? path = some cur → cur.name = nodeName →
        getElemAttr cur attrName ≠ some attrValue →
        ∃ before ∈ node.namedWithAttr nodeName attrName attrValue, before < path := by
  have hsub : node.namedWithAttr nodeName attrName attrValue ⊆
      node.acceptedPositions nodeName attrName attrValue := by
    rintro path ⟨hne, cur, hat, hname, hattr⟩
    exact mem_acceptedPositions_iff.mpr ⟨hne, cur, hat, hname, fun _ => hattr⟩
  rw [(firstOf_findPathWithAttr node nodeName attrName attrValue).of_subset_iff hsub]
  constructor
  · intro h path cur hlength hat hname hattr
    refine h path ⟨mem_acceptedPositions_iff.mpr ⟨?_, cur, hat, hname, ?_⟩, ?_⟩
    · rintro rfl
      cases hlength
    · omega
    · rintro ⟨-, cur', hat', -, hattr'⟩
      obtain rfl := Option.some.inj (hat.symm.trans hat')
      exact hattr hattr'
  · rintro h path ⟨hpath, hnot⟩
    obtain ⟨hne, cur, hat, hname, hattr⟩ := mem_acceptedPositions_iff.mp hpath
    have hother : getElemAttr cur attrName ≠ some attrValue := by
      intro heq
      exact hnot ⟨hne, cur, hat, hname, heq⟩
    have hlength : 2 ≤ path.length := by
      have hpos := List.length_pos_iff.mpr hne
      have hone : path.length ≠ 1 := fun hone => hother (hattr hone)
      omega
    exact h path cur hlength hat hname hother

/-- A tree with one limit, below a child of the root. -/
def limitBelow : XmlNode :=
  ⟨"governor", [], [⟨"default", [], [⟨"limit", [("name", ascii "read")], []⟩]⟩]⟩

/-- The limit is found although it is for reads. -/
theorem nested_limit_not_first :
    ¬ FirstOf (limitBelow.namedWithAttr "limit" "name" (ascii "cpu"))
      (findPathWithAttr limitBelow "limit" "name" (ascii "cpu")) := by
  intro h
  have hfound : findPathWithAttr limitBelow "limit" "name" (ascii "cpu") = some [0, 0] := by
    decide
  obtain ⟨⟨-, cur, hat, -, hattr⟩, -⟩ := h.least [0, 0] hfound
  have hcpu : (limitBelow.at? [0, 0]).map (getElemAttr · "name") = some (some (ascii "cpu")) := by
    rw [hat, Option.map_some, hattr]
  exact absurd hcpu (by decide)

end DbGovernor
