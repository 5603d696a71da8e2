import DbGovernor.Verification.Config.LimitEdits

/-!
# One element under `set`

The arguments are carried out one after the other. What the search finds below the element
depends only on the limits that are left out on the way, and what the reader makes of it only
on the arguments and on the limits that were there.
-/

namespace DbGovernor

open Results

/-- The check leaves out one of the limits of a name: with the periods that the argument sets
they lack four of the attributes asked for, or one of them lacks the time for slow queries. -/
def leavesOut (n : String) (s : CString) (limits : List XmlNode) : Bool :=
  let cnt := (limits.map fun limit => (checkedAttrs n).countP fun a =>
    getElemAttr limit a = none ∧ a ∉ periodsSet n s).sum
  cnt = 4 || (n = "slow" && cnt ≠ 0)

/-- The children that an argument does not leave out. -/
def leftChildren (n : String) (s : CString) (children : List XmlNode) : List XmlNode :=
  if leavesOut n s (limitsOf children (ascii n)) then children.eraseP (isLimit (ascii n))
  else children

/-- The children that a list of arguments does not leave out. -/
def leftBy (args : List (String × Option CString)) (children : List XmlNode) : List XmlNode :=
  args.foldl (fun children arg => match arg.2 with
    | none => children
    | some s => leftChildren arg.1 s children) children

/-- The children after a list of arguments. -/
def editedBy (args : List (String × Option CString)) (children : List XmlNode) : List XmlNode :=
  args.foldl (fun children arg => match arg.2 with
    | none => children
    | some s => editedChildren arg.1 s children) children

/-- Each argument of a list leaves limits that the reader accepts. -/
def ArgsAccepted : List (String × Option CString) → List XmlNode → Prop
  | [], _ => True
  | (_, none) :: args, children => ArgsAccepted args children
  | (n, some s) :: args, children =>
      ArgAccepted n s (nestedLimit children) (limitsOf children (ascii n)) ∧
        ArgsAccepted args (leftChildren n s children)

/-- The children are those that were left, limits of some names with other periods, and behind
them new limits of these names. -/
structure Tracks (names : List String) (left children : List XmlNode) (g : XmlNode → XmlNode)
    (fresh : List XmlNode) : Prop where
  eq : children = left.map g ++ fresh
  frame : ∀ cur, (g cur).name = cur.name ∧ (g cur).children = cur.children ∧
    getElemAttr (g cur) "name" = getElemAttr cur "name"
  fixes : ∀ cur, (∀ n ∈ names, isLimit (ascii n) cur = false) → g cur = cur
  fresh : ∀ cur ∈ fresh, cur.children = [] ∧ ∃ n ∈ names, isLimit (ascii n) cur = true

section Tracking

variable {names : List String} {left children fresh : List XmlNode} {g : XmlNode → XmlNode}
  {n : String} {s : CString}

theorem tracks_refl (children : List XmlNode) : Tracks [] children children id [] where
  eq := by simp
  frame := fun _ => ⟨rfl, rfl, rfl⟩
  fixes := fun _ _ => rfl
  fresh := by simp

theorem Tracks.isLimit_map (h : Tracks names left children g fresh) (a : CString) :
    isLimit a ∘ g = isLimit a := by
  funext cur
  obtain ⟨hname, -, hattr⟩ := h.frame cur
  simp only [Function.comp_apply, isLimit, hname, hattr]

theorem Tracks.limitsOf_fresh (h : Tracks names left children g fresh) {a : CString}
    (ha : ∀ n ∈ names, a ≠ ascii n) : limitsOf fresh a = [] := by
  refine limitsOf_eq_nil_iff.mpr fun cur hcur => ?_
  obtain ⟨-, n, hn, hlimit⟩ := h.fresh cur hcur
  rw [Bool.eq_false_iff]
  exact fun hcur => ha n hn (isLimit_unique hcur hlimit)

/-- The limits of other names are those that were left. -/
theorem Tracks.limitsOf_eq (h : Tracks names left children g fresh) {a : CString}
    (ha : ∀ n ∈ names, a ≠ ascii n) : limitsOf children a = limitsOf left a := by
  have hsame : ∀ cur ∈ limitsOf left a, g cur = id cur := by
    intro cur hcur
    refine h.fixes cur fun n hn => ?_
    rw [Bool.eq_false_iff]
    exact fun hlimit => ha n hn (isLimit_unique (List.mem_filter.mp hcur).2 hlimit)
  have hmap : limitsOf (left.map g) a = limitsOf left a := by
    rw [limitsOf, List.filter_map, h.isLimit_map, ← limitsOf, List.map_congr_left hsame,
      List.map_id]
  rw [h.eq, limitsOf_append, h.limitsOf_fresh ha, List.append_nil, hmap]

/-- The search for another name finds the same. -/
theorem Tracks.findAmong_eq (h : Tracks names left children g fresh) {name : String}
    (hname : name ≠ "limit") : findAmong name children = findAmong name left := by
  have hfresh : findAmong name fresh = none := by
    refine findAmong_eq_none_iff.mpr fun cur hcur => ?_
    obtain ⟨hleaf, n, -, hlimit⟩ := h.fresh cur hcur
    refine findBelow_leaf ?_ hleaf
    rw [(isLimit_iff.mp hlimit).1]
    exact Ne.symm hname
  have hmap : ∀ cur, findBelow name (g cur) = findBelow name cur := by
    intro cur
    by_cases hcur : cur.name = name
    · have hfixed : g cur = cur := by
        refine h.fixes cur fun n _ => ?_
        rw [Bool.eq_false_iff]
        exact fun hlimit => hname (hcur.symm.trans (isLimit_iff.mp hlimit).1)
      rw [hfixed]
    · exact findBelow_congr hcur (h.frame cur).1 (h.frame cur).2.1
  rw [h.eq, findAmong_append, hfresh, Option.or_none, findAmong_map hmap]

theorem Tracks.nestedLimit_eq (h : Tracks names left children g fresh) :
    nestedLimit children = nestedLimit left := by
  have hbelow : ∀ cur : XmlNode, findElementWithName "limit" (g cur) =
      findElementWithName "limit" cur := by
    intro cur
    rw [findElementWithName_eq, findElementWithName_eq, (h.frame cur).2.1]
  have hfresh : nestedLimit fresh = false := by
    rw [nestedLimit, List.any_eq_false]
    intro cur hcur
    rw [findElementWithName_eq, (h.fresh cur hcur).1, findAmong_nil]
    simp
  rw [h.eq, nestedLimit, List.any_append, ← nestedLimit, ← nestedLimit, hfresh, Bool.or_false,
    nestedLimit, List.any_map, nestedLimit]
  congr 1
  funext cur
  rw [Function.comp_apply, hbelow]

/-- Every limit has a name when those that were left have one. -/
theorem Tracks.named (h : Tracks names left children g fresh)
    (hleft : ∀ cur ∈ left, cur.name = "limit" → (getElemAttr cur "name").isSome) :
    ∀ cur ∈ children, cur.name = "limit" → (getElemAttr cur "name").isSome := by
  intro cur hcur hlimit
  rw [h.eq, List.mem_append] at hcur
  rcases hcur with hcur | hcur
  · obtain ⟨cur', hcur', rfl⟩ := List.mem_map.mp hcur
    obtain ⟨hname, -, hattr⟩ := h.frame cur'
    rw [hattr]
    exact hleft cur' hcur' (hname.symm.trans hlimit)
  · obtain ⟨-, n, -, hnamed⟩ := h.fresh cur hcur
    rw [(isLimit_iff.mp hnamed).2]
    rfl

/-! ## One more argument -/

theorem badLimits_map_mergeNode {limits : List XmlNode}
    (h : ∀ limit ∈ limits, isLimit (ascii n) limit = true) :
    badLimits n (limits.map (mergeNode n s)) = leavesOut n s limits := by
  have hcount : (limits.map (mergeNode n s)).map (fun limit =>
      (checkedAttrs n).countP fun a => getElemAttr limit a = none) =
      limits.map fun limit => (checkedAttrs n).countP fun a =>
        getElemAttr limit a = none ∧ a ∉ periodsSet n s := by
    rw [List.map_map]
    refine List.map_congr_left fun limit hmem => List.countP_congr fun a _ => ?_
    rw [decide_eq_true_eq, decide_eq_true_eq, mergeNode, if_pos (h limit hmem),
      getElemAttr_setAttrs_eq_none_iff, periodsSet]
  rw [badLimits, hcount, leavesOut]

theorem leftChildren_of_nil (h : limitsOf left (ascii n) = []) : leftChildren n s left = left := by
  have hnone : leavesOut n s [] = false := by simp [leavesOut]
  rw [leftChildren, h, hnone, if_neg Bool.false_ne_true]

theorem eraseP_of_limitsOf_nil {a : CString} (h : limitsOf children a = [])
    (children' : List XmlNode) :
    (children ++ children').eraseP (isLimit a) = children ++ children'.eraseP (isLimit a) := by
  refine List.eraseP_append_right children' fun cur hcur => ?_
  rw [limitsOf_eq_nil_iff.mp h cur hcur]
  exact Bool.false_ne_true

theorem Tracks.weaken (h : Tracks names left children g fresh) (n : String) :
    Tracks (n :: names) left children g fresh where
  eq := h.eq
  frame := h.frame
  fixes := fun cur hcur => h.fixes cur fun m hm => hcur m (List.mem_cons_of_mem n hm)
  fresh := by
    intro cur hcur
    obtain ⟨hleaf, m, hm, hlimit⟩ := h.fresh cur hcur
    exact ⟨hleaf, m, List.mem_cons_of_mem n hm, hlimit⟩

/-- An argument that finds no limit of its name. -/
theorem Tracks.add (h : Tracks names left children g fresh)
    (hnone : limitsOf children (ascii n) = []) (s : CString) :
    ∃ fresh', Tracks (n :: names) left (editedChildren n s children) g fresh' := by
  have hempty : badLimits n [] = false := by simp [badLimits]
  rw [editedChildren, if_pos hnone]
  by_cases hnested : nestedLimit children = true
  · rw [if_pos hnested, prunedChildren, hnone, hempty, if_neg Bool.false_ne_true]
    exact ⟨fresh, h.weaken n⟩
  · rw [if_neg hnested, prunedChildren]
    split
    · have herase : (children ++ [newLimit n s]).eraseP (isLimit (ascii n)) = children := by
        rw [eraseP_of_limitsOf_nil hnone, List.eraseP_cons_of_pos (newLimit_frame n s).1,
          List.append_nil]
      rw [herase]
      exact ⟨fresh, h.weaken n⟩
    · refine ⟨fresh ++ [newLimit n s], ?_, h.frame, (h.weaken n).fixes, ?_⟩
      · rw [h.eq, List.append_assoc]
      · intro cur hcur
        rcases List.mem_append.mp hcur with hcur | hcur
        · exact (h.weaken n).fresh cur hcur
        · obtain ⟨hlimit, hleaf⟩ := newLimit_frame n s
          rw [List.mem_singleton.mp hcur]
          exact ⟨hleaf, n, List.mem_cons_self, hlimit⟩

/-- An argument that is merged into the limits of its name. -/
theorem Tracks.merge (h : Tracks names left children g fresh) (hn : ∀ m ∈ names, ascii n ≠ ascii m)
    (hsome : limitsOf children (ascii n) ≠ []) (s : CString) :
    Tracks (n :: names) (leftChildren n s left) (editedChildren n s children)
      (mergeNode n s ∘ g) fresh := by
  have hlimits := h.limitsOf_eq hn
  have hfresh : fresh.map (mergeNode n s) = fresh := map_mergeNode_of_nil (h.limitsOf_fresh hn)
  have hmap : children.map (mergeNode n s) = left.map (mergeNode n s ∘ g) ++ fresh := by
    rw [h.eq, List.map_append, List.map_map, hfresh]
  have hpred : isLimit (ascii n) ∘ (mergeNode n s ∘ g) = isLimit (ascii n) := by
    funext cur
    rw [Function.comp_apply, Function.comp_apply, isLimit_mergeNode]
    exact congrFun (h.isLimit_map (ascii n)) cur
  have hbad : badLimits n (limitsOf (children.map (mergeNode n s)) (ascii n)) =
      leavesOut n s (limitsOf left (ascii n)) := by
    rw [limitsOf_map_mergeNode, hlimits]
    exact badLimits_map_mergeNode fun limit hmem => (List.mem_filter.mp hmem).2
  refine ⟨?_, ?_, ?_, (h.weaken n).fresh⟩
  · rw [editedChildren, if_neg hsome, prunedChildren, hbad, leftChildren, hmap]
    split
    · have hany : (left.map (mergeNode n s ∘ g)).any (isLimit (ascii n)) = true := by
        rw [hlimits] at hsome
        obtain ⟨cur, hcur⟩ := List.exists_mem_of_ne_nil _ hsome
        obtain ⟨hmem, hlimit⟩ := List.mem_filter.mp hcur
        rw [List.any_map, hpred, List.any_eq_true]
        exact ⟨cur, hmem, hlimit⟩
      rw [List.eraseP_append, if_pos hany, List.eraseP_map, hpred]
    · rfl
  · intro cur
    obtain ⟨hname, hchildren, hattr⟩ := h.frame cur
    obtain ⟨hname', hchildren', hattr'⟩ := mergeNode_frame n s (g cur)
    exact ⟨hname'.trans hname, hchildren'.trans hchildren, hattr'.trans hattr⟩
  · intro cur hcur
    have hg := h.fixes cur fun m hm => hcur m (List.mem_cons_of_mem n hm)
    rw [Function.comp_apply, hg, mergeNode, hcur n List.mem_cons_self, if_neg Bool.false_ne_true]

theorem Tracks.edit (h : Tracks names left children g fresh) (hn : ∀ m ∈ names, ascii n ≠ ascii m)
    (s : CString) : ∃ g' fresh', Tracks (n :: names) (leftChildren n s left)
      (editedChildren n s children) g' fresh' := by
  by_cases hnone : limitsOf children (ascii n) = []
  · have hleft : limitsOf left (ascii n) = [] := by rw [← h.limitsOf_eq hn, hnone]
    obtain ⟨fresh', hfresh⟩ := h.add hnone s
    rw [leftChildren_of_nil hleft]
    exact ⟨g, fresh', hfresh⟩
  · exact ⟨_, fresh, h.merge hn hnone s⟩

/-! ## All arguments -/

variable {args : List (String × Option CString)}

theorem limitsOf_editedBy_ne {a : CString} (ha : ∀ arg ∈ args, a ≠ ascii arg.1)
    (children : List XmlNode) : limitsOf (editedBy args children) a = limitsOf children a := by
  rw [editedBy]
  refine List.foldlRecOn (motive := fun (cs : List XmlNode) => limitsOf cs a = limitsOf children a)
    _ _ rfl fun cs hcs arg harg => ?_
  cases hvalue : arg.2 with
  | none => exact hcs
  | some s => exact (limitsOf_editedChildren_ne (ha arg harg) s cs).trans hcs

/-- The names of the arguments are different, and others than those that are through. -/
structure Distinct (names : List String) (args : List (String × Option CString)) : Prop where
  new : ∀ arg ∈ args, ∀ m ∈ names, ascii arg.1 ≠ ascii m
  pairwise : args.Pairwise fun arg arg' => ascii arg.1 ≠ ascii arg'.1

theorem Distinct.tail {arg : String × Option CString} (h : Distinct names (arg :: args)) :
    Distinct (arg.1 :: names) args where
  new := by
    intro arg' harg' m hm
    rcases List.mem_cons.mp hm with rfl | hm
    · exact ((List.pairwise_cons.mp h.pairwise).1 arg' harg').symm
    · exact h.new arg' (List.mem_cons_of_mem arg harg') m hm
  pairwise := (List.pairwise_cons.mp h.pairwise).2

theorem Tracks.editAll (h : Tracks names left children g fresh) (hargs : Distinct names args) :
    ∃ names' g' fresh', Tracks names' (leftBy args left) (editedBy args children) g' fresh' := by
  induction args generalizing names left children g fresh with
  | nil => exact ⟨names, g, fresh, h⟩
  | cons arg args ih =>
      obtain ⟨n, value⟩ := arg
      cases value with
      | none => exact ih (h.weaken n) hargs.tail
      | some s =>
          obtain ⟨g', fresh', hstep⟩ := h.edit (hargs.new _ List.mem_cons_self) s
          exact ih hstep hargs.tail

/-- The limits stay accepted exactly if the arguments are. -/
theorem Tracks.accepted_iff (h : Tracks names left children g fresh) (hargs : Distinct names args)
    (hnames : ∀ arg ∈ args, arg.1 ∈ limitNames)
    (haccepted : ∀ a, ∀ limit ∈ limitsOf children a, LimitAccepted limit) :
    (∀ a, ∀ limit ∈ limitsOf (editedBy args children) a, LimitAccepted limit) ↔
      ArgsAccepted args left := by
  induction args generalizing names left children g fresh with
  | nil => exact iff_of_true haccepted trivial
  | cons arg args ih =>
      obtain ⟨n, value⟩ := arg
      have hrest : ∀ arg ∈ args, arg.1 ∈ limitNames := fun arg harg =>
        hnames arg (List.mem_cons_of_mem _ harg)
      cases value with
      | none => exact ih (h.weaken n) hargs.tail hrest haccepted
      | some s =>
          have hn := hargs.new _ List.mem_cons_self
          obtain ⟨g', fresh', hstep⟩ := h.edit hn s
          have hself : (∀ limit ∈ limitsOf (editedChildren n s children) (ascii n),
              LimitAccepted limit) ↔
              ArgAccepted n s (nestedLimit left) (limitsOf left (ascii n)) := by
            rw [limitsOf_editedChildren_self, ← h.nestedLimit_eq, ← h.limitsOf_eq hn]
            exact editedLimits_accepted (hnames _ List.mem_cons_self)
              (fun limit hmem => (List.mem_filter.mp hmem).2) (haccepted _)
          have hlast : limitsOf (editedBy args (editedChildren n s children)) (ascii n) =
              limitsOf (editedChildren n s children) (ascii n) :=
            limitsOf_editedBy_ne (fun arg harg =>
              (List.pairwise_cons.mp hargs.pairwise).1 arg harg) _
          have hedited (harg : ArgAccepted n s (nestedLimit left) (limitsOf left (ascii n))) :
              ∀ a, ∀ limit ∈ limitsOf (editedChildren n s children) a, LimitAccepted limit := by
            intro a
            by_cases ha : a = ascii n
            · exact ha ▸ hself.mpr harg
            · rw [limitsOf_editedChildren_ne ha]
              exact haccepted a
          constructor
          · intro hall
            have harg := hself.mp (hlast ▸ hall (ascii n))
            exact ⟨harg, (ih hstep hargs.tail hrest (hedited harg)).mp hall⟩
          · rintro ⟨harg, hargs'⟩
            exact (ih hstep hargs.tail hrest (hedited harg)).mpr hargs'

end Tracking

/-! ## An element that is there -/

section Elements

variable {child child' : XmlNode} {args : List (String × Option CString)}

theorem limitsAccepted_iff (node : XmlNode) :
    LimitsAccepted node ↔
      (∀ cur ∈ node.children, cur.name = "limit" → (getElemAttr cur "name").isSome) ∧
        ∀ a, ∀ limit ∈ limitsOf node.children a, LimitAccepted limit := by
  have hmem : ∀ cur, cur ∈ childrenNamed node "limit" ↔
      cur ∈ node.children ∧ cur.name = "limit" := by simp [childrenNamed]
  constructor
  · intro h
    refine ⟨fun cur hcur hlimit => (h cur ((hmem cur).mpr ⟨hcur, hlimit⟩)).name, ?_⟩
    intro a limit hlimit
    obtain ⟨hcur, hname⟩ := List.mem_filter.mp hlimit
    exact h limit ((hmem limit).mpr ⟨hcur, (isLimit_iff.mp hname).1⟩)
  · rintro ⟨hnamed, hall⟩ limit hlimit
    obtain ⟨hcur, hname⟩ := (hmem limit).mp hlimit
    obtain ⟨a, ha⟩ := Option.isSome_iff_exists.mp (hnamed limit hcur hname)
    exact hall a limit (List.mem_filter.mpr ⟨hcur, isLimit_iff.mpr ⟨hname, ha⟩⟩)

theorem forArgs_editLimit (h : forArgs editLimit child args = some child') :
    child' = { child with children := editedBy args child.children } := by
  induction args generalizing child with
  | nil =>
      cases h
      exact (XmlNode.mk_eta _).symm
  | cons arg args ih =>
      rw [forArgs, List.foldlM_cons, Option.bind_eq_bind, Option.bind_eq_some_iff] at h
      obtain ⟨middle, hmiddle, h⟩ := h
      obtain ⟨n, value⟩ := arg
      rw [ih h]
      cases value with
      | none =>
          cases hmiddle
          rfl
      | some s =>
          rw [editLimit_eq hmiddle]
          rfl

theorem leftBy_subset (args : List (String × Option CString)) (children : List XmlNode) :
    leftBy args children ⊆ children := by
  rw [leftBy]
  refine List.foldlRecOn (motive := fun (cs : List XmlNode) => cs ⊆ children) _ _
    (List.Subset.refl children) fun cs hcs arg _ => ?_
  cases arg.2 with
  | none => exact hcs
  | some s =>
      dsimp only
      rw [leftChildren]
      split
      · exact fun cur hcur => hcs (List.eraseP_subset hcur)
      · exact hcs

theorem distinct_named (args : LimitArgs) : Distinct [] args.named where
  new := by simp
  pairwise := by
    simp only [LimitArgs.named, List.pairwise_cons, List.mem_cons, List.not_mem_nil, or_false,
      forall_eq_or_imp, forall_eq, IsEmpty.forall_iff, implies_true, List.Pairwise.nil, and_true]
    decide

theorem named_mem_limitNames {args : LimitArgs} : ∀ arg ∈ args.named, arg.1 ∈ limitNames := by
  simp [LimitArgs.named, limitNames]

/-- The limits of an element that was accepted stay accepted exactly if the arguments are. -/
theorem editLimits_accepted {args : LimitArgs} (haccepted : LimitsAccepted child)
    (h : editLimits args child = some child') :
    LimitsAccepted child' ↔ ArgsAccepted args.named child.children := by
  obtain ⟨hnamed, hlimits⟩ := (limitsAccepted_iff child).mp haccepted
  have htracks := tracks_refl child.children
  obtain ⟨names, g, fresh, hfinal⟩ := htracks.editAll (distinct_named args)
  rw [limitsAccepted_iff, forArgs_editLimit h,
    ← htracks.accepted_iff (distinct_named args) named_mem_limitNames hlimits]
  refine and_iff_right ?_
  exact hfinal.named fun cur hcur => hnamed cur (leftBy_subset _ _ hcur)

/-! ## An element that is created -/

/-- Limits without children. -/
def LeafLimits (children : List XmlNode) : Prop :=
  ∀ cur ∈ children, cur.name = "limit" ∧ cur.children = []

/-- The limits that a list of arguments adds. -/
def addedBy (args : List (String × Option CString)) : List XmlNode :=
  args.flatMap fun arg => (arg.2.map (newLimit arg.1)).toList

/-- The children after the check of the limits of some names. -/
def prunedBy (args : List (String × Option CString)) (children : List XmlNode) : List XmlNode :=
  args.foldl (fun children arg => prunedChildren arg.1 children) children

variable {children : List XmlNode}

theorem LeafLimits.nestedLimit_eq (h : LeafLimits children) : nestedLimit children = false := by
  rw [nestedLimit, List.any_eq_false]
  intro cur hcur
  rw [findElementWithName_eq, (h cur hcur).2, findAmong_nil]
  simp

theorem LeafLimits.findAmong_eq_none (h : LeafLimits children) {name : String}
    (hname : name ≠ "limit") : findAmong name children = none :=
  findAmong_eq_none_iff.mpr fun cur hcur =>
    findBelow_leaf ((h cur hcur).1 ▸ Ne.symm hname) (h cur hcur).2

theorem leafLimits_newLimit (n : String) (s : CString) : LeafLimits [newLimit n s] := by
  intro cur hcur
  obtain ⟨hlimit, hleaf⟩ := newLimit_frame n s
  rw [List.mem_singleton.mp hcur]
  exact ⟨(isLimit_iff.mp hlimit).1, hleaf⟩

theorem LeafLimits.append {children' : List XmlNode} (h : LeafLimits children)
    (h' : LeafLimits children') : LeafLimits (children ++ children') := by
  intro cur hcur
  rcases List.mem_append.mp hcur with hcur | hcur
  · exact h cur hcur
  · exact h' cur hcur

/-- On an element whose limits have other names each argument that is given adds its limit. -/
theorem forArgs_addLimit_new (hleaf : LeafLimits child.children)
    (hnone : ∀ arg ∈ args, limitsOf child.children (ascii arg.1) = [])
    (hargs : args.Pairwise fun arg arg' => ascii arg.1 ≠ ascii arg'.1)
    (h : forArgs addLimit child args = some child') :
    child' = { child with children := child.children ++ addedBy args } := by
  induction args generalizing child with
  | nil =>
      cases h
      simp [addedBy]
  | cons arg args ih =>
      rw [forArgs, List.foldlM_cons, Option.bind_eq_bind, Option.bind_eq_some_iff] at h
      obtain ⟨middle, hmiddle, h⟩ := h
      obtain ⟨hfirst, hrest⟩ := List.pairwise_cons.mp hargs
      have hnone' : ∀ arg ∈ args, limitsOf child.children (ascii arg.1) = [] := fun arg harg =>
        hnone arg (List.mem_cons_of_mem _ harg)
      obtain ⟨n, value⟩ := arg
      cases value with
      | none =>
          cases hmiddle
          exact ih hleaf hnone' hrest h
      | some s =>
          have hadd := addLimit_eq (hnone _ List.mem_cons_self) hmiddle
          rw [hleaf.nestedLimit_eq, if_neg Bool.false_ne_true] at hadd
          subst hadd
          have hstep := ih (hleaf.append (leafLimits_newLimit n s)) (fun arg harg => by
            rw [limitsOf_append, hnone' arg harg,
              limitsOf_newLimit_ne (Ne.symm (hfirst arg harg)), List.nil_append]) hrest h
          rw [hstep, List.append_assoc]
          rfl

theorem foldlM_pruneLimit
    (h : args.foldlM (fun child arg => pruneLimit child arg.1) child = some child') :
    child' = { child with children := prunedBy args child.children } := by
  induction args generalizing child with
  | nil =>
      cases h
      exact (XmlNode.mk_eta _).symm
  | cons arg args ih =>
      rw [List.foldlM_cons, Option.bind_eq_bind, Option.bind_eq_some_iff] at h
      obtain ⟨middle, hmiddle, h⟩ := h
      rw [ih h, pruneLimit_eq hmiddle]
      rfl

theorem limitsOf_prunedBy_ne {a : CString} (ha : ∀ arg ∈ args, a ≠ ascii arg.1)
    (children : List XmlNode) : limitsOf (prunedBy args children) a = limitsOf children a := by
  rw [prunedBy]
  exact List.foldlRecOn (motive := fun (cs : List XmlNode) => limitsOf cs a = limitsOf children a)
    _ _ rfl fun cs hcs arg harg => (limitsOf_prunedChildren_ne (ha arg harg) cs).trans hcs

theorem limitsOf_prunedBy_self {arg : String × Option CString} (harg : arg ∈ args)
    (hargs : args.Pairwise fun arg arg' => ascii arg.1 ≠ ascii arg'.1) (children : List XmlNode) :
    limitsOf (prunedBy args children) (ascii arg.1) =
      prunedLimits arg.1 (limitsOf children (ascii arg.1)) := by
  induction args generalizing children with
  | nil => exact absurd harg List.not_mem_nil
  | cons first args ih =>
      obtain ⟨hfirst, hrest⟩ := List.pairwise_cons.mp hargs
      rw [prunedBy, List.foldl_cons, ← prunedBy]
      rcases List.mem_cons.mp harg with rfl | harg
      · rw [limitsOf_prunedBy_ne hfirst, limitsOf_prunedChildren_self]
      · rw [ih harg hrest, limitsOf_prunedChildren_ne (Ne.symm (hfirst arg harg))]

theorem prunedBy_subset (args : List (String × Option CString)) (children : List XmlNode) :
    prunedBy args children ⊆ children := by
  rw [prunedBy]
  exact List.foldlRecOn (motive := fun (cs : List XmlNode) => cs ⊆ children) _ _
    (List.Subset.refl children) fun cs hcs arg _ => List.Subset.trans (prunedChildren_subset arg.1 cs) hcs

theorem mem_addedBy {cur : XmlNode} :
    cur ∈ addedBy args ↔ ∃ arg ∈ args, ∃ s ∈ arg.2, newLimit arg.1 s = cur := by
  simp [addedBy, List.mem_flatMap]

theorem limitsOf_addedBy {arg : String × Option CString} (harg : arg ∈ args)
    (hargs : args.Pairwise fun arg arg' => ascii arg.1 ≠ ascii arg'.1) :
    limitsOf (addedBy args) (ascii arg.1) = (arg.2.map (newLimit arg.1)).toList := by
  have hself : ∀ arg : String × Option CString,
      limitsOf (arg.2.map (newLimit arg.1)).toList (ascii arg.1) =
        (arg.2.map (newLimit arg.1)).toList := by
    rintro ⟨n, _ | s⟩
    · rfl
    · exact List.filter_eq_self.mpr fun cur hcur => by
        rw [List.mem_singleton.mp hcur]
        exact (newLimit_frame n s).1
  induction args with
  | nil => exact absurd harg List.not_mem_nil
  | cons first args ih =>
      obtain ⟨hfirst, hrest⟩ := List.pairwise_cons.mp hargs
      rw [addedBy, List.flatMap_cons, ← addedBy, limitsOf_append]
      rcases List.mem_cons.mp harg with rfl | harg
      · have hnone : limitsOf (addedBy args) (ascii arg.1) = [] := by
          refine limitsOf_eq_nil_iff.mpr fun cur hcur => ?_
          obtain ⟨arg', harg', s, -, rfl⟩ := mem_addedBy.mp hcur
          rw [Bool.eq_false_iff]
          exact fun hlimit => hfirst arg' harg' (isLimit_unique hlimit (newLimit_frame _ s).1)
        rw [hself, hnone, List.append_nil]
      · rw [ih harg hrest]
        rcases hvalue : first.2 with _ | s
        · rfl
        · rw [Option.map_some, Option.toList_some,
            limitsOf_newLimit_ne (Ne.symm (hfirst arg harg)), List.nil_append]

/-- On an element without children every argument is one that adds a limit. -/
theorem argsAccepted_nil :
    ArgsAccepted args [] ↔ ∀ arg ∈ args, ∀ s ∈ arg.2, ArgAccepted arg.1 s false [] := by
  induction args with
  | nil => exact iff_of_true trivial (by simp)
  | cons arg args ih =>
      obtain ⟨n, _ | s⟩ := arg
      · rw [ArgsAccepted, ih, List.forall_mem_cons]
        simp
      · have hleft : leftChildren n s [] = [] := leftChildren_of_nil rfl
        rw [ArgsAccepted, hleft, ih, List.forall_mem_cons]
        simp [nestedLimit, limitsOf]

theorem leafLimits_addedBy (args : List (String × Option CString)) : LeafLimits (addedBy args) := by
  intro cur hcur
  obtain ⟨arg, -, s, -, rfl⟩ := mem_addedBy.mp hcur
  obtain ⟨hlimit, hleaf⟩ := newLimit_frame arg.1 s
  exact ⟨(isLimit_iff.mp hlimit).1, hleaf⟩

theorem LeafLimits.subset {children' : List XmlNode} (h : LeafLimits children)
    (hsubset : children' ⊆ children) : LeafLimits children' :=
  fun cur hcur => h cur (hsubset hcur)

/-- What is added and not pruned again is accepted exactly if the arguments are. -/
theorem prunedBy_addedBy_accepted (hnames : ∀ arg ∈ args, arg.1 ∈ limitNames)
    (hargs : args.Pairwise fun arg arg' => ascii arg.1 ≠ ascii arg'.1) :
    (∀ a, ∀ limit ∈ limitsOf (prunedBy args (addedBy args)) a, LimitAccepted limit) ↔
      ArgsAccepted args [] := by
  have hlimits : ∀ arg ∈ args, ∀ s ∈ arg.2,
      limitsOf (prunedBy args (addedBy args)) (ascii arg.1) = prunedLimits arg.1 [newLimit arg.1 s] := by
    intro arg harg s hs
    rw [limitsOf_prunedBy_self harg hargs, limitsOf_addedBy harg hargs, Option.mem_def.mp hs]
    rfl
  rw [argsAccepted_nil]
  constructor
  · intro hall arg harg s hs
    rw [← prunedLimits_newLimit_accepted (hnames arg harg), ← hlimits arg harg s hs]
    exact hall (ascii arg.1)
  · intro hall a limit hlimit
    obtain ⟨hcur, hname⟩ := List.mem_filter.mp hlimit
    obtain ⟨arg, harg, s, hs, rfl⟩ := mem_addedBy.mp (prunedBy_subset args _ hcur)
    have haccepted := (prunedLimits_newLimit_accepted (hnames arg harg)).mpr (hall arg harg s hs)
    rw [← hlimits arg harg s hs,
      ← isLimit_unique hname (newLimit_frame arg.1 s).1] at haccepted
    exact haccepted _ hlimit

theorem named_of_addedBy {cur : XmlNode} (hcur : cur ∈ prunedBy args (addedBy args)) :
    (getElemAttr cur "name").isSome := by
  obtain ⟨arg, -, s, -, rfl⟩ := mem_addedBy.mp (prunedBy_subset args _ hcur)
  rw [(isLimit_iff.mp (newLimit_frame arg.1 s).1).2]
  rfl

/-- The children of a new element after the arguments. -/
theorem newLimits_eq {args : LimitArgs} (hempty : child.children = [])
    (h : newLimits args child = some child') :
    child' = { child with children := prunedBy args.named (addedBy args.named) } := by
  rw [newLimits, Option.bind_eq_some_iff] at h
  obtain ⟨added, hadded, hpruned⟩ := h
  have hadd := forArgs_addLimit_new (by rw [hempty]; simp [LeafLimits])
    (by rw [hempty]; exact fun _ _ => rfl) (distinct_named args).pairwise hadded
  rw [hempty, List.nil_append] at hadd
  have hfinal := foldlM_pruneLimit hpruned
  generalize args.named = named at hadd hfinal ⊢
  subst hadd
  exact hfinal

theorem newLimits_frame {args : LimitArgs} (hempty : child.children = [])
    (h : newLimits args child = some child') :
    child'.name = child.name ∧ (∀ a, getElemAttr child' a = getElemAttr child a) ∧
      LeafLimits child'.children := by
  have hleaf := (leafLimits_addedBy args.named).subset
    (prunedBy_subset args.named (addedBy args.named))
  have hfinal := newLimits_eq hempty h
  generalize prunedBy args.named (addedBy args.named) = pruned at hleaf hfinal
  subst hfinal
  exact ⟨rfl, fun _ => rfl, hleaf⟩

/-- The limits of a new element are accepted exactly if the arguments are. -/
theorem newLimits_accepted {args : LimitArgs} (hempty : child.children = [])
    (h : newLimits args child = some child') :
    LimitsAccepted child' ↔ ArgsAccepted args.named [] := by
  have hnames : ∀ arg ∈ args.named, arg.1 ∈ limitNames := named_mem_limitNames
  have hargs := (distinct_named args).pairwise
  rw [newLimits_eq hempty h, limitsAccepted_iff]
  generalize args.named = named at hnames hargs ⊢
  rw [← prunedBy_addedBy_accepted hnames hargs]
  exact and_iff_right fun cur hcur _ => named_of_addedBy hcur

end Elements

end DbGovernor
