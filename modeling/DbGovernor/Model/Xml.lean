import Mathlib.Data.List.Basic

/-!
# Configuration trees

What `xml.c` does to a tree that libxml2 has parsed. A text or a comment is a node with
the name libxml2 gives it and no properties; a pointer to a child is its position.
-/

namespace DbGovernor

/-- A C string: the bytes before its NUL. -/
abbrev CString := List UInt8

/-- The bytes of a literal of the source. -/
def ascii (s : String) : CString := s.toList.map fun c => UInt8.ofNat c.toNat

/-- An `xmlNode`. -/
structure XmlNode where
  name : String
  properties : List (String × CString)
  children : List XmlNode

mutual

/-- `FindElementWithName`: the first descendant of that name, parents before children. -/
def findElementWithName (nodeName : String) : XmlNode → Option XmlNode
  | ⟨_, _, children⟩ => findAmong nodeName children

/-- The loop of `FindElementWithName` over the children of a node. -/
def findAmong (nodeName : String) : List XmlNode → Option XmlNode
  | [] => none
  | cur :: rest =>
      if cur.name = nodeName then some cur
      else match findElementWithName nodeName cur with
        | some nodef => some nodef
        | none => findAmong nodeName rest

end

/-- `getElemAttr`. -/
def getElemAttr (node : XmlNode) (attrName : String) : Option CString :=
  (node.properties.find? fun prop => prop.1 = attrName).map Prod.snd

/-- The loop of `FindElementWithNameAndAttr` over the children of a node. Below them it
looks for the name only. -/
def findAmongWithAttr (nodeName attrName : String) (attrValue : CString) :
    List XmlNode → Option XmlNode
  | [] => none
  | cur :: rest =>
      if cur.name = nodeName ∧ getElemAttr cur attrName = some attrValue then some cur
      else match findElementWithName nodeName cur with
        | some nodef => some nodef
        | none => findAmongWithAttr nodeName attrName attrValue rest

/-- `FindElementWithNameAndAttr`. -/
def findElementWithNameAndAttr (node : XmlNode) (nodeName attrName : String)
    (attrValue : CString) : Option XmlNode :=
  findAmongWithAttr nodeName attrName attrValue node.children

/-- The nodes that a loop with `getNextChild` visits. -/
def childrenNamed (node : XmlNode) (childName : String) : List XmlNode :=
  node.children.filter fun cur => cur.name = childName

/-- `xmlSetProp` on the properties of a node. -/
def xmlSetProp (attrName : String) (value : CString) :
    List (String × CString) → List (String × CString)
  | [] => [(attrName, value)]
  | prop :: rest =>
      if prop.1 = attrName then (attrName, value) :: rest
      else prop :: xmlSetProp attrName value rest

/-- `setAttr` on a node. -/
def setAttr (node : XmlNode) (attrName : String) (value : CString) : XmlNode :=
  { node with properties := xmlSetProp attrName value node.properties }

/-- `xmlNewChild` without a value. -/
def xmlNewChild (nodeName : String) : XmlNode := ⟨nodeName, [], []⟩

/-- `setNode` without a value, on a node: the new child, or `none` where the code returns
NULL because an element of that name is there. -/
def setNode (node : XmlNode) (nodeName : String) : Option XmlNode :=
  match findElementWithName nodeName node with
  | some _ => none
  | none => some (xmlNewChild nodeName)

/-- `setNodeWithAttr` without a value, on a node: the new child, or `none` where the code
returns NULL because it found an element. -/
def setNodeWithAttr (node : XmlNode) (nodeName attrName : String) (attrValue : CString) :
    Option XmlNode :=
  match findElementWithNameAndAttr node nodeName attrName attrValue with
  | some _ => none
  | none => some (setAttr (xmlNewChild nodeName) attrName attrValue)

/-- A node after `xmlAddChild`. -/
def XmlNode.append (node child : XmlNode) : XmlNode :=
  { node with children := node.children ++ [child] }

end DbGovernor
