import DbGovernor.Model.Xml

/-!
# Searching a tree

What `FindElementWithName` finds when the children of a node are replaced, extended or left
out. `findBelow` is the part of the search that concerns one child.
-/

namespace DbGovernor

variable {name : String} {node cur : XmlNode} {children before after : List XmlNode}

/-- What the search finds in a child: the child itself, or below it. -/
def findBelow (name : String) (cur : XmlNode) : Option XmlNode :=
  if cur.name = name then some cur else findElementWithName name cur

theorem findElementWithName_eq (name : String) (node : XmlNode) :
    findElementWithName name node = findAmong name node.children := by
  cases node
  rw [findElementWithName]

@[simp] theorem findAmong_nil (name : String) : findAmong name [] = none := by
  rw [findAmong]

theorem findAmong_cons (name : String) (cur : XmlNode) (rest : List XmlNode) :
    findAmong name (cur :: rest) = (findBelow name cur).or (findAmong name rest) := by
  rw [findAmong, findBelow]
  split
  · rfl
  · cases findElementWithName name cur <;> rfl

theorem findAmong_append (name : String) (before after : List XmlNode) :
    findAmong name (before ++ after) = (findAmong name before).or (findAmong name after) := by
  induction before with
  | nil => simp
  | cons cur before ih =>
      rw [List.cons_append, findAmong_cons, findAmong_cons, ih, Option.or_assoc]

theorem findAmong_eq_none_iff :
    findAmong name children = none ↔ ∀ cur ∈ children, findBelow name cur = none := by
  induction children with
  | nil => simp
  | cons cur children ih => rw [findAmong_cons, Option.or_eq_none_iff, ih, List.forall_mem_cons]

/-- A change of the children that the search does not see. -/
theorem findAmong_map {g : XmlNode → XmlNode} (h : ∀ cur, findBelow name (g cur) = findBelow name cur)
    (children : List XmlNode) : findAmong name (children.map g) = findAmong name children := by
  induction children with
  | nil => rfl
  | cons cur children ih => rw [List.map_cons, findAmong_cons, findAmong_cons, h, ih]

/-- A node of another name without children holds nothing. -/
theorem findBelow_leaf (hname : cur.name ≠ name) (hleaf : cur.children = []) :
    findBelow name cur = none := by
  rw [findBelow, if_neg hname, findElementWithName_eq, hleaf, findAmong_nil]

/-- Below a child of another name the search depends on its children alone. -/
theorem findBelow_of_findAmong {cur' : XmlNode} (hname : cur.name ≠ name)
    (hsame : cur'.name = cur.name)
    (h : findAmong name cur'.children = findAmong name cur.children) :
    findBelow name cur' = findBelow name cur := by
  have hname' : cur'.name ≠ name := hsame ▸ hname
  rw [findBelow, findBelow, if_neg hname, if_neg hname', findElementWithName_eq,
    findElementWithName_eq, h]

/-- The search does not look at the properties of a node of another name. -/
theorem findBelow_congr {cur' : XmlNode} (hname : cur.name ≠ name) (hsame : cur'.name = cur.name)
    (hchildren : cur'.children = cur.children) : findBelow name cur' = findBelow name cur :=
  findBelow_of_findAmong hname hsame (by rw [hchildren])

end DbGovernor
