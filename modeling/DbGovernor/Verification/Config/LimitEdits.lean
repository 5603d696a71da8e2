import DbGovernor.Model.DbctlSet
import DbGovernor.Verification.Config.Acceptance
import DbGovernor.Verification.Config.Search

/-!
# Limits of one element under `set`

What becomes of the limits of an element, name by name: an argument is merged into the limits of
its name or adds one, and at most one limit is left out again.
-/

namespace DbGovernor

open Results

/-! ## Attributes -/

section Attributes

variable {node : XmlNode} {a : String} {v : CString} {updates : List (String × CString)}

@[simp] theorem getElemAttr_setAttr_self (node : XmlNode) (a : String) (v : CString) :
    getElemAttr (setAttr node a v) a = some v := by
  obtain ⟨name, properties, children⟩ := node
  simp only [getElemAttr, setAttr]
  induction properties with
  | nil => simp [xmlSetProp]
  | cons prop properties ih =>
      rw [xmlSetProp]
      by_cases h : prop.1 = a
      · simp [h]
      · rw [if_neg h, List.find?_cons_of_neg (by simpa using h)]
        exact ih

theorem getElemAttr_setAttr_ne {b : String} (h : b ≠ a) (node : XmlNode) (v : CString) :
    getElemAttr (setAttr node a v) b = getElemAttr node b := by
  obtain ⟨name, properties, children⟩ := node
  simp only [getElemAttr, setAttr]
  induction properties with
  | nil => simp [xmlSetProp, Ne.symm h]
  | cons prop properties ih =>
      rw [xmlSetProp]
      by_cases ha : prop.1 = a
      · have hb : ¬ prop.1 = b := fun heq => h (heq.symm.trans ha)
        rw [if_pos ha, List.find?_cons_of_neg (by simpa using Ne.symm h),
          List.find?_cons_of_neg (by simpa using hb)]
      · rw [if_neg ha]
        by_cases hb : prop.1 = b
        · rw [List.find?_cons_of_pos (by simpa using hb), List.find?_cons_of_pos (by simpa using hb)]
        · rw [List.find?_cons_of_neg (by simpa using hb), List.find?_cons_of_neg (by simpa using hb)]
          exact ih

/-- The last update of an attribute is what it has afterwards. -/
theorem getElemAttr_setAttrs (node : XmlNode) (updates : List (String × CString)) (a : String) :
    getElemAttr (setAttrs node updates) a =
      ((KeyedLog.last Prod.fst a updates).map Prod.snd).or (getElemAttr node a) := by
  induction updates using List.reverseRecOn with
  | nil => rfl
  | append_singleton updates update ih =>
      rw [setAttrs, List.foldl_append, List.foldl_cons, List.foldl_nil,
        KeyedLog.last_append_singleton]
      by_cases h : update.1 = a
      · rw [if_pos h, ← h, getElemAttr_setAttr_self]
        rfl
      · rw [if_neg h, getElemAttr_setAttr_ne (Ne.symm h)]
        exact ih

theorem setAttrs_frame (node : XmlNode) (updates : List (String × CString)) :
    (setAttrs node updates).name = node.name ∧ (setAttrs node updates).children = node.children := by
  induction updates using List.reverseRecOn with
  | nil => exact ⟨rfl, rfl⟩
  | append_singleton updates update ih =>
      rw [setAttrs, List.foldl_append, List.foldl_cons, List.foldl_nil]
      exact ih

/-- An attribute that no update names stays. -/
theorem getElemAttr_setAttrs_of_notMem (h : a ∉ updates.map Prod.fst) :
    getElemAttr (setAttrs node updates) a = getElemAttr node a := by
  have hnone : KeyedLog.last Prod.fst a ([] ++ updates) = KeyedLog.last Prod.fst a [] := by
    refine KeyedLog.last_append_of_ne Prod.fst a [] updates fun update hmem heq => ?_
    exact h (List.mem_map.mpr ⟨update, hmem, heq⟩)
  rw [List.nil_append] at hnone
  rw [getElemAttr_setAttrs, hnone]
  rfl

/-- An attribute that an update names has the value of one of them. -/
theorem exists_mem_of_mem_updates (h : a ∈ updates.map Prod.fst) :
    ∃ v, (a, v) ∈ updates ∧ getElemAttr (setAttrs node updates) a = some v := by
  rw [getElemAttr_setAttrs]
  cases hlast : KeyedLog.last Prod.fst a updates with
  | none =>
      obtain ⟨update, hmem, heq⟩ := List.mem_map.mp h
      rw [KeyedLog.last, List.find?_eq_none] at hlast
      exact absurd (by simpa using heq) (hlast update (List.mem_reverse.mpr hmem))
  | some update =>
      have hmem := List.mem_reverse.mp (List.mem_of_find?_eq_some hlast)
      have hkey := List.find?_some hlast
      rw [decide_eq_true_eq] at hkey
      exact ⟨update.2, hkey ▸ hmem, rfl⟩

theorem getElemAttr_setAttrs_eq_none_iff :
    getElemAttr (setAttrs node updates) a = none ↔
      getElemAttr node a = none ∧ a ∉ updates.map Prod.fst := by
  constructor
  · intro h
    have hnot : a ∉ updates.map Prod.fst := by
      intro hmem
      obtain ⟨v, -, hv⟩ := exists_mem_of_mem_updates hmem
      rw [h] at hv
      cases hv
    exact ⟨by rwa [getElemAttr_setAttrs_of_notMem hnot] at h, hnot⟩
  · rintro ⟨h, hnot⟩
    rwa [getElemAttr_setAttrs_of_notMem hnot]

end Attributes

/-! ## Limits by name -/

/-- A limit of some name. -/
def isLimit (a : CString) (cur : XmlNode) : Bool :=
  cur.name = "limit" ∧ getElemAttr cur "name" = some a

def limitsOf (children : List XmlNode) (a : CString) : List XmlNode := children.filter (isLimit a)

theorem isLimit_iff {a : CString} {cur : XmlNode} :
    isLimit a cur = true ↔ cur.name = "limit" ∧ getElemAttr cur "name" = some a := by
  simp [isLimit]

/-- A limit has one name. -/
theorem isLimit_unique {a b : CString} {cur : XmlNode} (ha : isLimit a cur = true)
    (hb : isLimit b cur = true) : a = b :=
  Option.some.inj ((isLimit_iff.mp ha).2.symm.trans (isLimit_iff.mp hb).2)

theorem limitsNamed_eq (child : XmlNode) (n : String) :
    limitsNamed child n = limitsOf child.children (ascii n) := by
  rw [limitsNamed, childrenNamed, List.filter_filter, limitsOf]
  refine List.filter_congr fun cur _ => ?_
  simp [isLimit, Bool.and_comm]

theorem filter_eraseP_self {α : Type} (p : α → Bool) (l : List α) :
    (l.eraseP p).filter p = (l.filter p).tail := by
  induction l with
  | nil => rfl
  | cons x l ih =>
      by_cases h : p x
      · simp [h]
      · simp [h, ih]

theorem filter_eraseP_of_disjoint {α : Type} {p q : α → Bool} (h : ∀ x, q x = true → p x = false)
    (l : List α) : (l.eraseP p).filter q = l.filter q := by
  induction l with
  | nil => rfl
  | cons x l ih =>
      by_cases hp : p x
      · have hq : q x = false := by
          rw [Bool.eq_false_iff]
          intro hq
          exact absurd (h x hq) (by simp [hp])
        simp [hp, hq]
      · rw [List.eraseP_cons_of_neg hp, List.filter_cons, List.filter_cons, ih]

/-! ## One argument -/

/-- The attributes that an argument sets on a limit of its name. -/
def updatesOf (n : String) (s : CString) : List (String × CString) :=
  (limitUpdates (some (ascii n)) s).getD []

/-- The periods that an argument sets. -/
def periodsSet (n : String) (s : CString) : List String := (updatesOf n s).map Prod.fst

/-- A limit after an argument of its name. -/
def mergeNode (n : String) (s : CString) (cur : XmlNode) : XmlNode :=
  if isLimit (ascii n) cur then setAttrs cur (updatesOf n s) else cur

/-- The limit that an argument adds. -/
def newLimit (n : String) (s : CString) : XmlNode :=
  setAttrs (setAttr (xmlNewChild "limit") "name" (ascii n)) (updatesOf n s)

/-- A limit lies deeper than among the children. -/
def nestedLimit (children : List XmlNode) : Bool :=
  children.any fun cur => (findElementWithName "limit" cur).isSome

/-- What `checkCorrectAttrs` says of the limits of some name. -/
def badLimits (n : String) (limits : List XmlNode) : Bool :=
  let cnt := (limits.map fun limit =>
    (checkedAttrs n).countP fun attrName => getElemAttr limit attrName = none).sum
  cnt = 4 || (n = "slow" && cnt ≠ 0)

/-- The children after the check of the limits of some name. -/
def prunedChildren (n : String) (children : List XmlNode) : List XmlNode :=
  if badLimits n (limitsOf children (ascii n)) then children.eraseP (isLimit (ascii n))
  else children

/-- The limits of one name after their check. -/
def prunedLimits (n : String) (limits : List XmlNode) : List XmlNode :=
  if badLimits n limits then limits.tail else limits

theorem prunedChildren_subset (n : String) (children : List XmlNode) :
    prunedChildren n children ⊆ children := by
  rw [prunedChildren]
  split
  · exact List.eraseP_subset
  · exact List.Subset.refl children

theorem name_notMem_updates {nameAttr : Option CString} {s : CString}
    {updates : List (String × CString)} (h : limitUpdates nameAttr s = some updates) :
    "name" ∉ updates.map Prod.fst := by
  have hfields : ∀ data : SplitStr, "name" ∉ data.updates.map Prod.fst := by
    intro data hmem
    obtain ⟨update, hupdate, hname⟩ := List.mem_map.mp hmem
    have hin := (List.mem_filter.mp hupdate).1
    simp only [List.mem_cons, List.not_mem_nil, or_false] at hin
    rcases hin with rfl | rfl | rfl | rfl <;> simp at hname
  unfold limitUpdates at h
  cases hsplit : split s with
  | tooFew =>
      rw [hsplit] at h
      dsimp only at h
      split at h <;> cases h <;> simp
  | fields data =>
      rw [hsplit] at h
      cases nameAttr with
      | none => cases h
      | some name =>
          cases h
          exact hfields _
  | unset =>
      rw [hsplit] at h
      cases h

theorem name_notMem_periodsSet (n : String) (s : CString) : "name" ∉ periodsSet n s := by
  rw [periodsSet, updatesOf]
  cases h : limitUpdates (some (ascii n)) s with
  | none => simp
  | some updates => exact name_notMem_updates h

theorem mergeNode_frame (n : String) (s : CString) (cur : XmlNode) :
    (mergeNode n s cur).name = cur.name ∧ (mergeNode n s cur).children = cur.children ∧
      getElemAttr (mergeNode n s cur) "name" = getElemAttr cur "name" := by
  rw [mergeNode]
  split
  · obtain ⟨hname, hchildren⟩ := setAttrs_frame cur (updatesOf n s)
    exact ⟨hname, hchildren, getElemAttr_setAttrs_of_notMem (name_notMem_periodsSet n s)⟩
  · exact ⟨rfl, rfl, rfl⟩

theorem isLimit_mergeNode (n : String) (s : CString) (a : CString) (cur : XmlNode) :
    isLimit a (mergeNode n s cur) = isLimit a cur := by
  obtain ⟨hname, -, hattr⟩ := mergeNode_frame n s cur
  simp only [isLimit, hname, hattr]

theorem newLimit_frame (n : String) (s : CString) :
    isLimit (ascii n) (newLimit n s) = true ∧ (newLimit n s).children = [] := by
  obtain ⟨hname, hchildren⟩ := setAttrs_frame
    (setAttr (xmlNewChild "limit") "name" (ascii n)) (updatesOf n s)
  refine ⟨isLimit_iff.mpr ⟨hname, ?_⟩, hchildren⟩
  rw [newLimit, getElemAttr_setAttrs_of_notMem (name_notMem_periodsSet n s),
    getElemAttr_setAttr_self]

/-! ## What one argument does to the children -/

/-- The children after one argument, without the failures. -/
def editedChildren (n : String) (s : CString) (children : List XmlNode) : List XmlNode :=
  prunedChildren n <|
    if limitsOf children (ascii n) = [] then
      if nestedLimit children then children else children ++ [newLimit n s]
    else children.map (mergeNode n s)

@[simp] theorem XmlNode.mk_eta (node : XmlNode) :
    (⟨node.name, node.properties, node.children⟩ : XmlNode) = node := by
  cases node
  rfl

section Steps

variable {n : String} {s : CString} {child child' : XmlNode} {children : List XmlNode}

/-- A limit is of a name if it has this name. -/
theorem isLimit_eq_decide {a b : CString} {cur : XmlNode} (hlimit : cur.name = "limit")
    (hattr : getElemAttr cur "name" = some b) : isLimit a cur = decide (b = a) := by
  rw [Bool.eq_iff_iff, isLimit_iff, hattr, decide_eq_true_iff, Option.some.injEq]
  exact and_iff_right hlimit

theorem mergeChild_eq {cur cur' : XmlNode} (h : mergeChild n s cur = some cur') :
    cur' = mergeNode n s cur := by
  rw [mergeChild] at h
  by_cases hlimit : cur.name = "limit"
  · rw [if_pos hlimit] at h
    cases hattr : getElemAttr cur "name" with
    | none => simp [hattr] at h
    | some a =>
        simp only [hattr] at h
        by_cases ha : a = ascii n
        · subst ha
          rw [if_pos rfl, setLimitAttr, Option.map_eq_some_iff, hattr] at h
          obtain ⟨updates, hupdates, rfl⟩ := h
          rw [mergeNode, if_pos (isLimit_iff.mpr ⟨hlimit, hattr⟩), updatesOf, hupdates,
            Option.getD_some]
        · rw [if_neg ha] at h
          cases h
          rw [mergeNode, isLimit_eq_decide hlimit hattr, if_neg (by simpa using ha)]
  · rw [if_neg hlimit] at h
    cases h
    rw [mergeNode, if_neg fun hn => hlimit (isLimit_iff.mp hn).1]

theorem limitsOf_eq_nil_iff {a : CString} :
    limitsOf children a = [] ↔ ∀ cur ∈ children, isLimit a cur = false := by
  simp [limitsOf, List.filter_eq_nil_iff]

/-- Without a limit of the name there is nothing to merge into. -/
theorem map_mergeNode_of_nil (h : limitsOf children (ascii n) = []) :
    children.map (mergeNode n s) = children := by
  have hsame : ∀ cur ∈ children, mergeNode n s cur = id cur := by
    intro cur hcur
    rw [mergeNode, limitsOf_eq_nil_iff.mp h cur hcur]
    rfl
  rw [List.map_congr_left hsame, List.map_id]

theorem findAmongWithAttr_eq_none_iff {nodeName attrName : String} {v : CString} :
    findAmongWithAttr nodeName attrName v children = none ↔ ∀ cur ∈ children,
      ¬ (cur.name = nodeName ∧ getElemAttr cur attrName = some v) ∧
        findElementWithName nodeName cur = none := by
  induction children with
  | nil => simp [findAmongWithAttr]
  | cons cur children ih =>
      rw [findAmongWithAttr, List.forall_mem_cons, ← ih]
      by_cases h : cur.name = nodeName ∧ getElemAttr cur attrName = some v
      · simp [h]
      · rw [if_neg h]
        cases findElementWithName nodeName cur <;> simp [h]

/-- A limit is added unless there is one deeper in the element. -/
theorem setNodeWithAttr_limit (hnone : limitsOf child.children (ascii n) = []) :
    setNodeWithAttr child "limit" "name" (ascii n) =
      if nestedLimit child.children then none
      else some (setAttr (xmlNewChild "limit") "name" (ascii n)) := by
  have hfind : findElementWithNameAndAttr child "limit" "name" (ascii n) = none ↔
      nestedLimit child.children = false := by
    rw [findElementWithNameAndAttr, findAmongWithAttr_eq_none_iff, nestedLimit, List.any_eq_false]
    refine forall₂_congr fun cur hcur => ?_
    have hnot : ¬ (cur.name = "limit" ∧ getElemAttr cur "name" = some (ascii n)) := by
      rw [← isLimit_iff, limitsOf_eq_nil_iff.mp hnone cur hcur]
      exact Bool.false_ne_true
    simp [hnot]
  rw [setNodeWithAttr]
  cases h : findElementWithNameAndAttr child "limit" "name" (ascii n) with
  | none => rw [hfind.mp h, if_neg Bool.false_ne_true]
  | some found =>
      have hnested : nestedLimit child.children = true := by
        rw [← Bool.not_eq_false, ← hfind, h]
        exact Option.some_ne_none found
      rw [if_pos hnested]

theorem addLimit_eq (hnone : limitsOf child.children (ascii n) = [])
    (h : addLimit child n s = some child') :
    child' = { child with children :=
      (if nestedLimit child.children then child.children
        else child.children ++ [newLimit n s]) } := by
  rw [addLimit, setNodeWithAttr_limit hnone] at h
  by_cases hnested : nestedLimit child.children
  · rw [if_pos hnested] at h
    obtain ⟨updates, -, rfl⟩ := Option.map_eq_some_iff.mp h
    rw [if_pos hnested, XmlNode.mk_eta]
  · rw [if_neg hnested] at h
    obtain ⟨limit, hlimit, rfl⟩ := Option.map_eq_some_iff.mp h
    rw [setLimitAttr, getElemAttr_setAttr_self, Option.map_eq_some_iff] at hlimit
    obtain ⟨updates, hupdates, rfl⟩ := hlimit
    rw [if_neg hnested, XmlNode.append, newLimit, updatesOf, hupdates, Option.getD_some]

theorem removeFirst_eq {rest : List XmlNode} (h : removeFirst n children = some rest) :
    rest = children.eraseP (isLimit (ascii n)) := by
  induction children generalizing rest with
  | nil =>
      cases h
      rfl
  | cons cur children ih =>
      rw [removeFirst] at h
      by_cases hlimit : cur.name = "limit"
      · rw [if_pos hlimit] at h
        cases hattr : getElemAttr cur "name" with
        | none => simp [hattr] at h
        | some a =>
            simp only [hattr] at h
            by_cases ha : a = ascii n
            · rw [if_pos ha] at h
              cases h
              rw [List.eraseP_cons_of_pos (by simpa [isLimit_eq_decide hlimit hattr] using ha)]
            · rw [if_neg ha, Option.map_eq_some_iff] at h
              obtain ⟨tail, htail, rfl⟩ := h
              rw [List.eraseP_cons_of_neg (by simpa [isLimit_eq_decide hlimit hattr] using ha),
                ih htail]
      · rw [if_neg hlimit, Option.map_eq_some_iff] at h
        obtain ⟨tail, htail, rfl⟩ := h
        rw [List.eraseP_cons_of_neg fun hn => hlimit (isLimit_iff.mp hn).1, ih htail]

theorem pruneLimit_eq (h : pruneLimit child n = some child') :
    child' = { child with children := prunedChildren n child.children } := by
  have hcheck : checkCorrectAttrs child n = badLimits n (limitsOf child.children (ascii n)) := by
    rw [checkCorrectAttrs, limitsNamed_eq, badLimits]
  rw [pruneLimit, hcheck] at h
  rw [prunedChildren]
  split at h
  · rename_i hbad
    rw [removeBadLimit, Option.map_eq_some_iff] at h
    obtain ⟨rest, hrest, rfl⟩ := h
    rw [if_pos hbad, removeFirst_eq hrest]
  · rename_i hbad
    rw [if_neg hbad]
    rw [XmlNode.mk_eta]
    exact (Option.some.inj h).symm

/-- One argument on an element that is there. -/
theorem editLimit_eq (h : editLimit child n s = some child') :
    child' = { child with children := editedChildren n s child.children } := by
  rw [editLimit, Option.bind_eq_some_iff] at h
  obtain ⟨merged, hmerged, h⟩ := h
  obtain ⟨added, hadded, hpruned⟩ := Option.bind_eq_some_iff.mp h
  have hmap := mapM_eq_some_map (fun _ _ => mergeChild_eq) hmerged
  rw [pruneLimit_eq hpruned, editedChildren]
  rw [limitsNamed_eq] at hadded
  by_cases hnone : limitsOf child.children (ascii n) = []
  · rw [map_mergeNode_of_nil hnone] at hmap
    rw [if_pos hnone, hmap, XmlNode.mk_eta] at hadded
    rw [addLimit_eq hnone hadded, if_pos hnone]
  · rw [if_neg hnone, Option.some.injEq] at hadded
    rw [← hadded, hmap, if_neg hnone]

end Steps

/-! ## The limits of one name after an argument -/

/-- The limits of the argument's name after it, from those before. -/
def editedLimits (n : String) (s : CString) (nested : Bool) (limits : List XmlNode) : List XmlNode :=
  prunedLimits n <|
    if limits = [] then if nested then [] else [newLimit n s] else limits.map (mergeNode n s)

/-- The value that an argument gives to `current`. -/
def setsCurrent (n : String) (s : CString) : Option CString :=
  (KeyedLog.last Prod.fst "current" (updatesOf n s)).map Prod.snd

/-- An argument leaves limits that the reader accepts: a new limit for the CPU, for reads or for
writes has its first field, unless it has none at all, and a time for slow queries is a period.
No limit is new where one lies deeper in the element. -/
structure ArgAccepted (n : String) (s : CString) (nested : Bool) (limits : List XmlNode) : Prop where
  first : n ≠ "slow" → limits = [] → nested = false →
    periodsSet n s = [] ∨ "current" ∈ periodsSet n s
  period : n = "slow" → (limits = [] → nested = false) →
    ∀ v ∈ setsCurrent n s, Succeeds (parsePeriod v)

section Names

variable {n : String} {s : CString} {children limits : List XmlNode} {nested : Bool}

theorem limitsOf_prunedChildren_self (n : String) (children : List XmlNode) :
    limitsOf (prunedChildren n children) (ascii n) = prunedLimits n (limitsOf children (ascii n)) := by
  rw [prunedChildren, prunedLimits]
  split
  · exact filter_eraseP_self _ _
  · rfl

theorem limitsOf_prunedChildren_ne {a : CString} (ha : a ≠ ascii n) (children : List XmlNode) :
    limitsOf (prunedChildren n children) a = limitsOf children a := by
  rw [prunedChildren]
  split
  · refine filter_eraseP_of_disjoint (fun cur hcur => ?_) children
    rw [Bool.eq_false_iff]
    exact fun hn => ha (isLimit_unique hcur hn)
  · rfl

theorem limitsOf_map_mergeNode (n : String) (s a : CString) (children : List XmlNode) :
    limitsOf (children.map (mergeNode n s)) a = (limitsOf children a).map (mergeNode n s) := by
  have hsame : isLimit a ∘ mergeNode n s = isLimit a := funext (isLimit_mergeNode n s a)
  rw [limitsOf, List.filter_map, hsame, limitsOf]

theorem limitsOf_append (children children' : List XmlNode) (a : CString) :
    limitsOf (children ++ children') a = limitsOf children a ++ limitsOf children' a :=
  List.filter_append ..

theorem limitsOf_editedChildren_self (n : String) (s : CString) (children : List XmlNode) :
    limitsOf (editedChildren n s children) (ascii n) =
      editedLimits n s (nestedLimit children) (limitsOf children (ascii n)) := by
  rw [editedChildren, editedLimits, limitsOf_prunedChildren_self]
  congr 1
  by_cases hnone : limitsOf children (ascii n) = []
  · rw [if_pos hnone, if_pos hnone]
    split
    · exact hnone
    · have hnew : limitsOf [newLimit n s] (ascii n) = [newLimit n s] :=
        List.filter_eq_self.mpr fun cur hcur => by
          rw [List.mem_singleton.mp hcur]
          exact (newLimit_frame n s).1
      rw [limitsOf_append, hnone, hnew, List.nil_append]
  · rw [if_neg hnone, if_neg hnone, limitsOf_map_mergeNode]

theorem limitsOf_newLimit_ne {a : CString} (ha : a ≠ ascii n) (s : CString) :
    limitsOf [newLimit n s] a = [] := by
  refine limitsOf_eq_nil_iff.mpr fun cur hcur => ?_
  rw [List.mem_singleton.mp hcur, Bool.eq_false_iff]
  exact fun hlimit => ha (isLimit_unique hlimit (newLimit_frame n s).1)

theorem limitsOf_editedChildren_ne {a : CString} (ha : a ≠ ascii n) (s : CString)
    (children : List XmlNode) : limitsOf (editedChildren n s children) a = limitsOf children a := by
  rw [editedChildren, limitsOf_prunedChildren_ne ha]
  split
  · split
    · rfl
    · rw [limitsOf_append, limitsOf_newLimit_ne ha, List.append_nil]
  · have hsame : ∀ cur ∈ limitsOf children a, mergeNode n s cur = id cur := by
      intro cur hcur
      rw [mergeNode, if_neg]
      · rfl
      · exact fun hn => ha (isLimit_unique (List.mem_filter.mp hcur).2 hn)
    rw [limitsOf_map_mergeNode, List.map_congr_left hsame, List.map_id]

theorem mem_periodsSet {period : String} (h : period ∈ periodsSet n s) :
    period ∈ ["current", "short", "mid", "long"] := by
  have hfields : ∀ data : SplitStr, period ∈ data.updates.map Prod.fst →
      period ∈ ["current", "short", "mid", "long"] := by
    intro data hmem
    obtain ⟨update, hupdate, rfl⟩ := List.mem_map.mp hmem
    have hin := (List.mem_filter.mp hupdate).1
    simp only [List.mem_cons, List.not_mem_nil, or_false] at hin ⊢
    rcases hin with rfl | rfl | rfl | rfl <;> simp
  rw [periodsSet, updatesOf] at h
  unfold limitUpdates at h
  cases hsplit : split s with
  | tooFew =>
      simp only [hsplit] at h
      split at h <;> simp at h
      simp [h]
  | fields data =>
      simp only [hsplit, Option.getD_some] at h
      exact hfields _ h
  | unset => simp [hsplit] at h

theorem mem_periodsSet_current : "current" ∈ periodsSet n s ↔ (setsCurrent n s).isSome := by
  rw [setsCurrent, Option.isSome_map]
  constructor
  · intro h
    obtain ⟨update, hmem, hkey⟩ := List.mem_map.mp h
    rw [KeyedLog.last, List.find?_isSome]
    exact ⟨update, List.mem_reverse.mpr hmem, by simpa using hkey⟩
  · intro h
    rw [KeyedLog.last, List.find?_isSome] at h
    obtain ⟨update, hmem, hkey⟩ := h
    exact List.mem_map.mpr ⟨update, List.mem_reverse.mp hmem, by simpa using hkey⟩

/-! ### Whether the reader accepts them -/

/-- The names of the four arguments. -/
def limitNames : List String := ["cpu", "read", "write", "slow"]

theorem ascii_eq_slow (hn : n ∈ limitNames) : ascii n = ascii "slow" ↔ n = "slow" := by
  simp only [limitNames, List.mem_cons, List.not_mem_nil, or_false] at hn
  rcases hn with rfl | rfl | rfl | rfl <;> decide

theorem limitAccepted_iff_of_name {limit : XmlNode} (hn : n ∈ limitNames)
    (hlimit : isLimit (ascii n) limit = true) :
    LimitAccepted limit ↔ (getElemAttr limit "current").isSome ∧
      (n = "slow" → ∀ v ∈ getElemAttr limit "current", Succeeds (parsePeriod v)) := by
  have hname := (isLimit_iff.mp hlimit).2
  constructor
  · intro h
    refine ⟨h.current, fun hslow => h.slow ?_⟩
    rw [hname, hslow]
  · rintro ⟨hcurrent, hslow⟩
    refine ⟨hcurrent, by simp [hname], fun heq => hslow ?_⟩
    exact (ascii_eq_slow hn).mp (Option.some.inj (hname.symm.trans heq))

theorem getElemAttr_mergeNode_current {limit : XmlNode} (hlimit : isLimit (ascii n) limit = true) :
    getElemAttr (mergeNode n s limit) "current" =
      (setsCurrent n s).or (getElemAttr limit "current") := by
  rw [mergeNode, if_pos hlimit, getElemAttr_setAttrs, setsCurrent]

/-- A limit that was accepted has to pass with the new value of `current`. -/
theorem limitAccepted_mergeNode {limit : XmlNode} (hn : n ∈ limitNames)
    (hlimit : isLimit (ascii n) limit = true) (h : LimitAccepted limit) :
    LimitAccepted (mergeNode n s limit) ↔
      (n = "slow" → ∀ v ∈ setsCurrent n s, Succeeds (parsePeriod v)) := by
  have hmerged : isLimit (ascii n) (mergeNode n s limit) = true := by
    rw [isLimit_mergeNode, hlimit]
  obtain ⟨hcurrent, hslow⟩ := (limitAccepted_iff_of_name hn hlimit).mp h
  rw [limitAccepted_iff_of_name hn hmerged, getElemAttr_mergeNode_current hlimit]
  cases hset : setsCurrent n s with
  | none => simpa [hcurrent] using hslow
  | some v => simp

theorem getElemAttr_newLimit_eq_none_iff {a : String} (ha : a ≠ "name") :
    getElemAttr (newLimit n s) a = none ↔ a ∉ periodsSet n s := by
  have hbase : getElemAttr (setAttr (xmlNewChild "limit") "name" (ascii n)) a = none := by
    rw [getElemAttr_setAttr_ne ha]
    rfl
  rw [newLimit, getElemAttr_setAttrs_eq_none_iff]
  simp [hbase, periodsSet]

theorem limitAccepted_newLimit (hn : n ∈ limitNames) :
    LimitAccepted (newLimit n s) ↔ "current" ∈ periodsSet n s ∧
      (n = "slow" → ∀ v ∈ setsCurrent n s, Succeeds (parsePeriod v)) := by
  have hbase : getElemAttr (setAttr (xmlNewChild "limit") "name" (ascii n)) "current" = none := by
    rw [getElemAttr_setAttr_ne (by decide)]
    rfl
  have hcurrent : getElemAttr (newLimit n s) "current" = setsCurrent n s := by
    rw [newLimit, getElemAttr_setAttrs, hbase, Option.or_none, setsCurrent]
  rw [limitAccepted_iff_of_name hn (newLimit_frame n s).1, hcurrent, mem_periodsSet_current]

/-- One limit is bad when it has none of the attributes asked for. -/
theorem badLimits_singleton (n : String) (limit : XmlNode) :
    badLimits n [limit] = true ↔ ∀ a ∈ checkedAttrs n, getElemAttr limit a = none := by
  have hlength : (checkedAttrs n).length = if n = "slow" then 1 else 4 := by
    rw [checkedAttrs]
    split <;> rfl
  have hall := List.countP_eq_length (l := checkedAttrs n) (p := fun a => getElemAttr limit a = none)
  have hle := List.countP_le_length (l := checkedAttrs n) (p := fun a => getElemAttr limit a = none)
  simp only [badLimits, List.map_cons, List.map_nil, List.sum_cons, List.sum_nil, Nat.add_zero]
  rw [hlength] at hall hle
  simp only [decide_eq_true_eq] at hall
  rw [← hall]
  by_cases hslow : n = "slow"
  · subst hslow
    rw [if_pos rfl] at hle ⊢
    simp only [Bool.or_eq_true, Bool.and_eq_true, decide_eq_true_eq, true_and]
    omega
  · simp [hslow]

/-- A new limit is left out again when the argument sets none of the attributes asked for. -/
theorem badLimits_newLimit (n : String) (s : CString) :
    badLimits n [newLimit n s] = true ↔ ∀ a ∈ checkedAttrs n, a ∉ periodsSet n s := by
  rw [badLimits_singleton]
  refine forall₂_congr fun a ha => getElemAttr_newLimit_eq_none_iff ?_
  rintro rfl
  rw [checkedAttrs] at ha
  split at ha <;> simp at ha

/-- With `current` on each of them no limit for slow queries is bad. -/
theorem badLimits_slow (h : ∀ limit ∈ limits, (getElemAttr limit "current").isSome) :
    badLimits "slow" limits = false := by
  have hzero : (limits.map fun limit =>
      (checkedAttrs "slow").countP fun a => getElemAttr limit a = none).sum = 0 := by
    refine List.sum_eq_zero ?_
    intro cnt hcnt
    obtain ⟨limit, hmem, rfl⟩ := List.mem_map.mp hcnt
    rw [List.countP_eq_zero]
    intro a ha
    have hcurrent := h limit hmem
    rw [checkedAttrs, if_pos rfl, List.mem_singleton] at ha
    subst ha
    rw [decide_eq_true_eq]
    exact Option.isSome_iff_ne_none.mp hcurrent
  simp [badLimits, hzero]

theorem prunedLimits_subset (n : String) (limits : List XmlNode) : prunedLimits n limits ⊆ limits := by
  rw [prunedLimits]
  split
  · exact (List.tail_sublist limits).subset
  · exact List.Subset.refl limits

/-- An argument that adds a limit. -/
theorem prunedLimits_newLimit_accepted (hn : n ∈ limitNames) :
    (∀ limit ∈ prunedLimits n [newLimit n s], LimitAccepted limit) ↔ ArgAccepted n s false [] := by
  have hsplit : (∀ limit ∈ prunedLimits n [newLimit n s], LimitAccepted limit) ↔
      (∀ a ∈ checkedAttrs n, a ∉ periodsSet n s) ∨ LimitAccepted (newLimit n s) := by
    rw [← badLimits_newLimit, prunedLimits]
    by_cases hbad : badLimits n [newLimit n s] = true
    · simp [hbad]
    · simp [hbad]
  rw [hsplit, limitAccepted_newLimit hn]
  by_cases hslow : n = "slow"
  · subst hslow
    have hchecked : (∀ a ∈ checkedAttrs "slow", a ∉ periodsSet "slow" s) ↔
        setsCurrent "slow" s = none := by
      rw [checkedAttrs, if_pos rfl]
      simp [mem_periodsSet_current]
    rw [hchecked, mem_periodsSet_current]
    constructor
    · rintro (hnone | ⟨-, hperiod⟩)
      · exact ⟨fun h => absurd rfl h, fun _ _ v hv => by simp [hnone] at hv⟩
      · exact ⟨fun h => absurd rfl h, fun _ _ => hperiod rfl⟩
    · intro h
      cases hset : setsCurrent "slow" s with
      | none => exact .inl rfl
      | some v => exact .inr ⟨rfl, fun _ => hset ▸ h.period rfl fun _ => rfl⟩
  · have hchecked : (∀ a ∈ checkedAttrs n, a ∉ periodsSet n s) ↔ periodsSet n s = [] := by
      rw [checkedAttrs, if_neg hslow, List.eq_nil_iff_forall_not_mem]
      exact ⟨fun h a ha => h a (mem_periodsSet ha) ha, fun h a _ => h a⟩
    rw [hchecked]
    constructor
    · rintro (hnone | ⟨hcurrent, -⟩)
      · exact ⟨fun _ _ _ => .inl hnone, fun h => absurd h hslow⟩
      · exact ⟨fun _ _ _ => .inr hcurrent, fun h => absurd h hslow⟩
    · intro h
      rcases h.first hslow rfl rfl with hnone | hcurrent
      · exact .inl hnone
      · exact .inr ⟨hcurrent, fun h => absurd h hslow⟩

/-- A name whose limits were accepted keeps that exactly if its argument is accepted. -/
theorem editedLimits_accepted (hn : n ∈ limitNames)
    (hlimits : ∀ limit ∈ limits, isLimit (ascii n) limit = true)
    (h : ∀ limit ∈ limits, LimitAccepted limit) :
    (∀ limit ∈ editedLimits n s nested limits, LimitAccepted limit) ↔
      ArgAccepted n s nested limits := by
  by_cases hnil : limits = []
  · subst hnil
    cases nested with
    | true =>
        have hedited : editedLimits n s true [] = [] := by
          rw [editedLimits, if_pos rfl, if_pos rfl, prunedLimits]
          split <;> rfl
        rw [hedited]
        refine iff_of_true (by simp) ⟨fun _ _ hnested => ?_, fun _ hnested => ?_⟩
        · cases hnested
        · exact absurd (hnested rfl) (by simp)
    | false =>
        rw [editedLimits, if_pos rfl, if_neg Bool.false_ne_true]
        exact prunedLimits_newLimit_accepted hn
  · have hmerged : ∀ limit ∈ limits, (LimitAccepted (mergeNode n s limit) ↔
        (n = "slow" → ∀ v ∈ setsCurrent n s, Succeeds (parsePeriod v))) := fun limit hmem =>
      limitAccepted_mergeNode hn (hlimits limit hmem) (h limit hmem)
    have harg : ArgAccepted n s nested limits ↔
        (n = "slow" → ∀ v ∈ setsCurrent n s, Succeeds (parsePeriod v)) :=
      ⟨fun ha hslow => ha.period hslow fun hn => absurd hn hnil,
        fun hq => ⟨fun _ hn => absurd hn hnil, fun hslow _ => hq hslow⟩⟩
    rw [editedLimits, if_neg hnil, harg]
    constructor
    · intro hall hslow
      subst hslow
      obtain ⟨limit, hmem⟩ := List.exists_mem_of_ne_nil limits hnil
      have hbad : badLimits "slow" (limits.map (mergeNode "slow" s)) = false := by
        refine badLimits_slow fun limit' hmem' => ?_
        obtain ⟨limit, hmem, rfl⟩ := List.mem_map.mp hmem'
        rw [getElemAttr_mergeNode_current (hlimits limit hmem), Option.isSome_or]
        simp [(h limit hmem).current]
      rw [prunedLimits, hbad, if_neg Bool.false_ne_true] at hall
      exact (hmerged limit hmem).mp (hall _ (List.mem_map_of_mem hmem)) rfl
    · intro hq limit hmem
      obtain ⟨limit', hmem', rfl⟩ := List.mem_map.mp (prunedLimits_subset n _ hmem)
      exact (hmerged limit' hmem').mpr hq

end Names

end DbGovernor
