import DbGovernor.Model.Xml

/-!
# Pointers into a tree

The searches of `xml.c` return pointers. Here a pointer to a node is the way to it from the node
that the search starts at: the position of a child, then the position of a child of this child.
`save_duplicate_config` removes the node that such a pointer leads to.
-/

namespace DbGovernor

abbrev NodePath := List ℕ

/-- The node that a pointer leads to. -/
def XmlNode.at? (node : XmlNode) : NodePath → Option XmlNode
  | [] => some node
  | i :: path =>
      match node.children[i]? with
      | none => none
      | some cur => cur.at? path

/-- A pointer counted from the sibling before. -/
def NodePath.next : NodePath → NodePath
  | [] => []
  | i :: path => (i + 1) :: path

mutual

/-- `FindElementWithName`. -/
def findPath (nodeName : String) : XmlNode → Option NodePath
  | ⟨_, _, children⟩ => findPathAmong nodeName children

/-- The loop of `FindElementWithName` over the children of a node. -/
def findPathAmong (nodeName : String) : List XmlNode → Option NodePath
  | [] => none
  | cur :: rest =>
      if cur.name = nodeName then some [0]
      else match findPath nodeName cur with
        | some nodef => some (0 :: nodef)
        | none => (findPathAmong nodeName rest).map NodePath.next

end

/-- The loop of `FindElementWithNameAndAttr` over the children of a node. -/
def findPathAmongWithAttr (nodeName attrName : String) (attrValue : CString) :
    List XmlNode → Option NodePath
  | [] => none
  | cur :: rest =>
      if cur.name = nodeName ∧ getElemAttr cur attrName = some attrValue then some [0]
      else match findPath nodeName cur with
        | some nodef => some (0 :: nodef)
        | none => (findPathAmongWithAttr nodeName attrName attrValue rest).map NodePath.next

/-- `FindElementWithNameAndAttr`. -/
def findPathWithAttr (node : XmlNode) (nodeName attrName : String) (attrValue : CString) :
    Option NodePath :=
  findPathAmongWithAttr nodeName attrName attrValue node.children

/-- `removeNode`: the node that a pointer leads to is unlinked from its parent. The root has no
parent. -/
def XmlNode.removeNode (node : XmlNode) : NodePath → XmlNode
  | [] => node
  | [i] => { node with children := node.children.eraseIdx i }
  | i :: path => { node with children := node.children.modify i fun cur => cur.removeNode path }

/-- The tree that `save_duplicate_config` writes. -/
def saveDuplicateConfig (root : XmlNode) : XmlNode :=
  match findPath "connector" root with
  | some tmpXml => root.removeNode tmpXml
  | none => root

end DbGovernor
