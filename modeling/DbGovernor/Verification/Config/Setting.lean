import DbGovernor.Verification.Config.ElementEdits

/-!
# What `set` writes

Whether the reader accepts the tree that `setUser` or `setDefault` writes, on a tree that it
accepted before.
-/

namespace DbGovernor

open Results

/-! ## A child of the root -/

/-- The root with another node in the place of one child. -/
def replaceChild (root : XmlNode) (i : ℕ) (cur : XmlNode) : XmlNode :=
  { root with children := root.children.take i ++ cur :: root.children.drop (i + 1) }

section Root

variable {root child cur cur' : XmlNode} {name : String} {i : ℕ}

theorem replaceChild_self (h : root.children[i]? = some child) : replaceChild root i child = root := by
  obtain ⟨hlt, hget⟩ := List.getElem?_eq_some_iff.mp h
  have hchildren : root.children.take i ++ child :: root.children.drop (i + 1) = root.children := by
    rw [← hget, List.getElem_cons_drop, List.take_append_drop]
  rw [replaceChild, hchildren]
  exact XmlNode.mk_eta root

theorem findElementWithName_replaceChild (name : String) (root : XmlNode) (i : ℕ) (cur : XmlNode) :
    findElementWithName name (replaceChild root i cur) =
      (findAmong name (root.children.take i)).or
        ((findBelow name cur).or (findAmong name (root.children.drop (i + 1)))) := by
  rw [findElementWithName_eq, replaceChild, findAmong_append, findAmong_cons]

theorem findElementWithName_congr (h : findBelow name cur = findBelow name cur') :
    findElementWithName name (replaceChild root i cur) =
      findElementWithName name (replaceChild root i cur') := by
  rw [findElementWithName_replaceChild, findElementWithName_replaceChild, h]

theorem forall_users_replaceChild (P : XmlNode → Prop) :
    (∀ node ∈ childrenNamed (replaceChild root i cur) "user", P node) ↔
      (∀ node ∈ root.children.take i ++ root.children.drop (i + 1), node.name = "user" → P node) ∧
        (cur.name = "user" → P cur) := by
  simp only [childrenNamed, replaceChild, List.mem_filter, List.mem_append, List.mem_cons,
    decide_eq_true_eq]
  constructor
  · intro h
    refine ⟨fun node hnode huser => h node ⟨?_, huser⟩, fun huser => h cur ⟨.inr (.inl rfl), huser⟩⟩
    exact hnode.imp_right .inr
  · rintro ⟨hothers, hcur⟩ node ⟨hnode, huser⟩
    rcases hnode with hnode | rfl | hnode
    · exact hothers node (.inl hnode) huser
    · exact hcur huser
    · exact hothers node (.inr hnode) huser

end Root

/-! ## An element that is there -/

/-- The element without the limits that the arguments leave out. -/
def leftElement (args : LimitArgs) (child : XmlNode) : XmlNode :=
  { child with children := leftBy args.named child.children }

/-- The reader takes its limits from the element: from every user element, and from a default
element unless one that lies deeper stands before it. -/
def ReadAt (root : XmlNode) (i : ℕ) (child : XmlNode) : Prop :=
  child.name = "default" → findAmong "default" (root.children.take i) = none

section Existing

variable {liblve : Bool} {root child child' : XmlNode} {args : LimitArgs} {i : ℕ}

theorem findBelow_edited {name : String} (hedit : editLimits args child = some child')
    (hlimit : name ≠ "limit") (hchild : child.name ≠ name) :
    findBelow name child' = findBelow name (leftElement args child) := by
  obtain ⟨names, g, fresh, htracks⟩ := (tracks_refl child.children).editAll (distinct_named args)
  rw [forArgs_editLimit hedit]
  exact findBelow_of_findAmong hchild rfl (htracks.findAmong_eq hlimit)

theorem readSettings_edited (hedit : editLimits args child = some child')
    (hname : child.name = "user" ∨ child.name = "default") :
    readSettings liblve (replaceChild root i child') =
      readSettings liblve (replaceChild root i (leftElement args child)) := by
  refine readSettings_congr liblve fun name hmem => findElementWithName_congr ?_
  have hother : name ≠ "limit" ∧ "user" ≠ name ∧ "default" ≠ name := by
    revert hmem
    revert name
    decide
  refine findBelow_edited hedit hother.1 ?_
  rcases hname with hname | hname
  · exact hname ▸ hother.2.1
  · exact hname ▸ hother.2.2

theorem editLimits_frame (hedit : editLimits args child = some child') :
    child'.name = child.name ∧ ∀ a, getElemAttr child' a = getElemAttr child a := by
  rw [forArgs_editLimit hedit]
  exact ⟨rfl, fun _ => rfl⟩

theorem limitsAccepted_leftElement (h : LimitsAccepted child) :
    LimitsAccepted (leftElement args child) := by
  intro limit hlimit
  obtain ⟨hmem, hname⟩ := List.mem_filter.mp hlimit
  exact h limit (List.mem_filter.mpr ⟨leftBy_subset _ _ hmem, hname⟩)

theorem userAccepted_edited (haccepted : UserAccepted child)
    (hedit : editLimits args child = some child') :
    UserAccepted child' ↔ ArgsAccepted args.named child.children := by
  obtain ⟨-, hattr⟩ := editLimits_frame hedit
  rw [← editLimits_accepted haccepted.limits hedit]
  refine ⟨fun h => h.limits, fun h => ⟨?_, ?_, h⟩⟩
  · rw [hattr, hattr]
    exact haccepted.name
  · rw [hattr]
    exact haccepted.mode

theorem findBelow_self {cur : XmlNode} : findBelow cur.name cur = some cur := if_pos rfl

/-- The default element that is read, with another node in the place of one child. -/
theorem defaultAccepted_replaceChild {cur : XmlNode} (hname : cur.name = "default") :
    DefaultAccepted (replaceChild root i cur) ↔
      match findAmong "default" (root.children.take i) with
      | none => LimitsAccepted cur
      | some node => LimitsAccepted node := by
  have hbelow : findBelow "default" cur = some cur := hname ▸ findBelow_self
  rw [DefaultAccepted, findElementWithName_replaceChild, hbelow]
  cases findAmong "default" (root.children.take i) <;> simp

/-- An edited user element. -/
theorem user_written_accepted (haccepted : Succeeds (configInit liblve root))
    (hchild : root.children[i]? = some child) (hname : child.name = "user")
    (hedit : editLimits args child = some child') :
    Succeeds (configInit liblve (replaceChild root i child')) ↔
      ArgsAccepted args.named child.children ∧
        Succeeds (readSettings liblve (replaceChild root i (leftElement args child))) ∧
        DefaultAccepted (replaceChild root i (leftElement args child)) := by
  rw [← replaceChild_self hchild, configInit_succeeds, forall_users_replaceChild] at haccepted
  obtain ⟨-, -, hothers, huser⟩ := haccepted
  have hdefault : DefaultAccepted (replaceChild root i child') ↔
      DefaultAccepted (replaceChild root i (leftElement args child)) := by
    have hbelow : findBelow "default" child' = findBelow "default" (leftElement args child) :=
      findBelow_edited hedit (by decide) (by rw [hname]; decide)
    rw [DefaultAccepted, DefaultAccepted, findElementWithName_congr hbelow]
  have hself : child'.name = "user" := (editLimits_frame hedit).1.trans hname
  rw [configInit_succeeds, forall_users_replaceChild, readSettings_edited hedit (.inl hname), hdefault,
    ← userAccepted_edited (huser hname) hedit]
  constructor
  · rintro ⟨hsettings, hdefault, -, huser'⟩
    exact ⟨huser' hself, hsettings, hdefault⟩
  · rintro ⟨huser', hsettings, hdefault⟩
    exact ⟨hsettings, hdefault, hothers, fun _ => huser'⟩

/-- An edited default element. -/
theorem default_written_accepted (haccepted : Succeeds (configInit liblve root))
    (hchild : root.children[i]? = some child) (hname : child.name = "default")
    (hedit : editLimits args child = some child') :
    Succeeds (configInit liblve (replaceChild root i child')) ↔
      (findAmong "default" (root.children.take i) = none →
        ArgsAccepted args.named child.children) ∧
        Succeeds (readSettings liblve (replaceChild root i (leftElement args child))) ∧
        DefaultAccepted (replaceChild root i (leftElement args child)) := by
  rw [← replaceChild_self hchild, configInit_succeeds, forall_users_replaceChild,
    defaultAccepted_replaceChild hname] at haccepted
  obtain ⟨-, hdefault, hothers, -⟩ := haccepted
  have hself : child'.name = "default" := (editLimits_frame hedit).1.trans hname
  have hleft : (leftElement args child).name = "default" := hname
  have husers : child'.name = "user" → UserAccepted child' := by
    rw [hself]
    exact fun h => absurd h (by decide)
  rw [configInit_succeeds, forall_users_replaceChild, readSettings_edited hedit (.inr hname),
    defaultAccepted_replaceChild hself, defaultAccepted_replaceChild hleft]
  cases hfound : findAmong "default" (root.children.take i) with
  | none =>
      rw [hfound] at hdefault
      simp only [editLimits_accepted hdefault hedit]
      constructor
      · rintro ⟨hsettings, hargs, -, -⟩
        exact ⟨fun _ => hargs, hsettings, limitsAccepted_leftElement hdefault⟩
      · rintro ⟨hargs, hsettings, -⟩
        exact ⟨hsettings, hargs trivial, hothers, husers⟩
  | some node =>
      rw [hfound] at hdefault
      constructor
      · rintro ⟨hsettings, -, -, -⟩
        exact ⟨fun h => absurd h (Option.some_ne_none node), hsettings, hdefault⟩
      · rintro ⟨-, hsettings, -⟩
        exact ⟨hsettings, hdefault, hothers, husers⟩

end Existing

/-! ## Children behind the others -/

section Appended

variable {liblve : Bool} {root root' : XmlNode} {added : List XmlNode}

/-- Children in which no other element is found, and which are no users but accepted ones. -/
theorem appended_accepted (haccepted : Succeeds (configInit liblve root))
    (hfind : ∀ name, name ≠ "limit" → name ≠ "user" → findAmong name added = none) :
    Succeeds (configInit liblve { root with children := root.children ++ added }) ↔
      ∀ node ∈ added, node.name = "user" → UserAccepted node := by
  have hsame : ∀ name, name ≠ "limit" → name ≠ "user" →
      findElementWithName name { root with children := root.children ++ added } =
        findElementWithName name root := by
    intro name hlimit huser
    rw [findElementWithName_eq, findElementWithName_eq, findAmong_append, hfind name hlimit huser,
      Option.or_none]
  have hsettings : readSettings liblve { root with children := root.children ++ added } =
      readSettings liblve root := by
    refine readSettings_congr liblve fun name hmem => ?_
    have hother : name ≠ "limit" ∧ name ≠ "user" := by
      revert hmem
      revert name
      decide
    exact hsame name hother.1 hother.2
  obtain ⟨hset, ⟨node, hnode, hlimits⟩, husers⟩ := (configInit_succeeds liblve root).mp haccepted
  rw [configInit_succeeds, hsettings]
  constructor
  · rintro ⟨-, -, hall⟩ node hmem huser
    exact hall node (List.mem_filter.mpr ⟨List.mem_append_right _ hmem, by simpa using huser⟩)
  · intro hall
    refine ⟨hset, ⟨node, (hsame "default" (by decide) (by decide)).trans hnode, hlimits⟩, ?_⟩
    intro node hmem
    obtain ⟨hmem, huser⟩ := List.mem_filter.mp hmem
    rcases List.mem_append.mp hmem with hmem | hmem
    · exact husers node (List.mem_filter.mpr ⟨hmem, huser⟩)
    · exact hall node hmem (by simpa using huser)

theorem addLimit_cases {child child' : XmlNode} {n : String} {s : CString}
    (h : addLimit child n s = some child') :
    child' = child ∨ child' = child.append (newLimit n s) := by
  rw [addLimit] at h
  cases hnode : setNodeWithAttr child "limit" "name" (ascii n) with
  | none =>
      rw [hnode] at h
      obtain ⟨updates, -, heq⟩ := Option.map_eq_some_iff.mp h
      exact .inl heq.symm
  | some limit =>
      rw [hnode] at h
      obtain ⟨limit', hlimit, heq⟩ := Option.map_eq_some_iff.mp h
      have hnew : limit = setAttr (xmlNewChild "limit") "name" (ascii n) := by
        rw [setNodeWithAttr] at hnode
        split at hnode
        · cases hnode
        · exact (Option.some.inj hnode).symm
      rw [setLimitAttr, hnew, getElemAttr_setAttr_self, Option.map_eq_some_iff] at hlimit
      obtain ⟨updates, hupdates, rfl⟩ := hlimit
      rw [← heq, newLimit, updatesOf, hupdates]
      exact .inr rfl

/-- Without an element the limits are put under the root. -/
theorem forArgs_addLimit_root {args : List (String × Option CString)}
    (h : forArgs addLimit root args = some root') :
    ∃ added, LeafLimits added ∧ root' = { root with children := root.children ++ added } := by
  induction args generalizing root with
  | nil =>
      cases h
      exact ⟨[], by simp [LeafLimits], by simp⟩
  | cons arg args ih =>
      rw [forArgs, List.foldlM_cons, Option.bind_eq_bind, Option.bind_eq_some_iff] at h
      obtain ⟨middle, hmiddle, h⟩ := h
      obtain ⟨added, hleaf, rfl⟩ := ih h
      obtain ⟨n, _ | s⟩ := arg
      · cases hmiddle
        exact ⟨added, hleaf, rfl⟩
      · rcases addLimit_cases hmiddle with rfl | rfl
        · exact ⟨added, hleaf, rfl⟩
        · refine ⟨newLimit n s :: added, (leafLimits_newLimit n s).append hleaf, ?_⟩
          simp [XmlNode.append]

theorem detached_written_accepted {args : List (String × Option CString)}
    (haccepted : Succeeds (configInit liblve root)) (h : forArgs addLimit root args = some root') :
    Succeeds (configInit liblve root') := by
  obtain ⟨added, hleaf, rfl⟩ := forArgs_addLimit_root h
  refine (appended_accepted haccepted fun name hlimit _ => hleaf.findAmong_eq_none hlimit).mpr ?_
  intro node hmem huser
  exact absurd ((hleaf node hmem).1.symm.trans huser) (by decide)

/-- The element that `setUser` creates. -/
def newUser (para : CString) : XmlNode :=
  setAttr (setAttr (xmlNewChild "user") "name" para) "mode" (ascii "restrict")

/-- A new user element. -/
theorem new_user_written_accepted {args : LimitArgs} {para : CString} {child' : XmlNode}
    (haccepted : Succeeds (configInit liblve root)) (h : newLimits args (newUser para) = some child') :
    Succeeds (configInit liblve (root.append child')) ↔ ArgsAccepted args.named [] := by
  obtain ⟨hname, hattr, hleaf⟩ := newLimits_frame rfl h
  have hself : child'.name = "user" := hname
  have hfind : ∀ name, name ≠ "limit" → name ≠ "user" → findAmong name [child'] = none := by
    intro name hlimit huser
    rw [findAmong_cons, findBelow, if_neg (by rw [hself]; exact Ne.symm huser),
      findElementWithName_eq, hleaf.findAmong_eq_none hlimit, findAmong_nil]
    rfl
  have hmysql : getElemAttr (newUser para) "mysql_name" = none := by
    simp [newUser, getElemAttr, setAttr, xmlSetProp, xmlNewChild]
  have haccount : getElemAttr (newUser para) "name" = some para := by
    simp [newUser, getElemAttr, setAttr, xmlSetProp, xmlNewChild]
  have huser : UserAccepted child' ↔ LimitsAccepted child' := by
    refine ⟨fun h => h.limits, fun h => ⟨?_, ?_, h⟩⟩
    · simp [hattr, hmysql, haccount]
    · intro mode hmode
      rw [hattr, newUser, getElemAttr_setAttr_self, Option.mem_some] at hmode
      subst hmode
      exact ⟨.restrictMode, by rfl⟩
  rw [XmlNode.append, appended_accepted haccepted hfind, ← newLimits_accepted rfl h, ← huser]
  simp [hself]

end Appended

/-! ## The command -/

/-- The element that `set` finds. -/
def targetOf (argv : CString) (root : XmlNode) : Option ℕ :=
  if argv = ascii "default" then searchTagByName root "default" none
  else searchTagByName root "user" (some argv)

/-- What the reader asks of the arguments. On an element that it reads, or on a new user element,
each argument leaves limits that it accepts; and without the limits that an element loses to the
check the tree still has its settings and its default element. -/
def ArgumentsFit (liblve : Bool) (argv : CString) (args : LimitArgs) (root : XmlNode) : Prop :=
  match targetOf argv root with
  | some i => ∀ child ∈ root.children[i]?,
      (ReadAt root i child → ArgsAccepted args.named child.children) ∧
        Succeeds (readSettings liblve (replaceChild root i (leftElement args child))) ∧
        DefaultAccepted (replaceChild root i (leftElement args child))
  | none => argv ≠ ascii "default" →
      findElementWithNameAndAttr root "user" "name" argv = none → ArgsAccepted args.named []

theorem searchTagByName_eq_some {root : XmlNode} {nameTag : String} {name : Option CString} {i : ℕ}
    (h : searchTagByName root nameTag name = some i) :
    ∃ child, root.children[i]? = some child ∧ child.name = nameTag := by
  obtain ⟨hlt, hfound, -⟩ := List.findIdx?_eq_some_iff_getElem.mp h
  rw [decide_eq_true_eq] at hfound
  exact ⟨root.children[i], List.getElem?_eq_getElem hlt, hfound.1⟩

section Command

variable {liblve : Bool} {argv : CString} {args : LimitArgs} {root root' : XmlNode}

theorem dbctlSet_found {i : ℕ} (htarget : targetOf argv root = some i)
    (hset : dbctlSet argv args root = some root') :
    ∃ child child', root.children[i]? = some child ∧ editLimits args child = some child' ∧
      root' = replaceChild root i child' := by
  have hedit : editChild (editLimits args) root i = some root' := by
    rw [dbctlSet] at hset
    rw [targetOf] at htarget
    split at hset
    · rw [if_pos ‹_›] at htarget
      rwa [setDefault, htarget] at hset
    · rw [if_neg ‹_›] at htarget
      rwa [setUser, htarget] at hset
  obtain ⟨child', hchild', rfl⟩ := Option.map_eq_some_iff.mp hedit
  obtain ⟨child, hchild, hlimits⟩ := Option.bind_eq_some_iff.mp hchild'
  obtain ⟨hlt, -⟩ := List.getElem?_eq_some_iff.mp hchild
  refine ⟨child, child', hchild, hlimits, ?_⟩
  rw [replaceChild, List.set_eq_take_append_cons_drop, if_pos hlt]

/-- The element that is found is a user or the default one. -/
theorem targetOf_name {i : ℕ} {child : XmlNode} (htarget : targetOf argv root = some i)
    (hchild : root.children[i]? = some child) : child.name = "user" ∨ child.name = "default" := by
  rw [targetOf] at htarget
  split at htarget
  all_goals
    obtain ⟨child', hchild', hname⟩ := searchTagByName_eq_some htarget
    rw [hchild, Option.some.injEq] at hchild'
    subst hchild'
  · exact .inr hname
  · exact .inl hname

/-- The reader accepts what `set` writes exactly if the arguments fit. -/
theorem written_accepted_iff (haccepted : Succeeds (configInit liblve root))
    (hset : dbctlSet argv args root = some root') :
    Succeeds (configInit liblve root') ↔ ArgumentsFit liblve argv args root := by
  rw [ArgumentsFit]
  cases htarget : targetOf argv root with
  | some i =>
      obtain ⟨child, child', hchild, hedit, rfl⟩ := dbctlSet_found htarget hset
      simp only [hchild, Option.mem_some, forall_eq']
      rcases targetOf_name htarget hchild with hname | hname
      · have hread : ReadAt root i child := fun h => absurd (hname.symm.trans h) (by decide)
        rw [user_written_accepted haccepted hchild hname hedit]
        exact and_congr_left fun _ => ⟨fun h _ => h, fun h => h hread⟩
      · have hread : ReadAt root i child ↔ findAmong "default" (root.children.take i) = none :=
          forall_prop_of_true hname
        rw [default_written_accepted haccepted hchild hname hedit, hread]
  | none =>
      dsimp only
      by_cases hdefault : argv = ascii "default"
      · rw [targetOf, if_pos hdefault] at htarget
        rw [dbctlSet, if_pos hdefault, setDefault, htarget] at hset
        obtain ⟨-, ⟨node, hnode, -⟩, -⟩ := (configInit_succeeds liblve root).mp haccepted
        have hcreated : setNode root "default" = none := by rw [setNode, hnode]
        rw [hcreated] at hset
        exact iff_of_true (detached_written_accepted haccepted hset) fun h => absurd hdefault h
      · rw [targetOf, if_neg hdefault] at htarget
        rw [dbctlSet, if_neg hdefault, setUser, htarget, setNodeWithAttr] at hset
        cases hfind : findElementWithNameAndAttr root "user" "name" argv with
        | some found =>
            rw [hfind] at hset
            refine iff_of_true (detached_written_accepted haccepted hset) fun _ h => ?_
            exact absurd h (Option.some_ne_none found)
        | none =>
            rw [hfind] at hset
            obtain ⟨child', hnew, rfl⟩ := Option.map_eq_some_iff.mp hset
            rw [new_user_written_accepted haccepted hnew]
            exact ⟨fun h _ _ => h, fun h => h hdefault rfl⟩

end Command


/-- `--cpu` and nothing else. -/
def cpuArgs (cpu : String) : LimitArgs := ⟨some (ascii cpu), none, none, none⟩

/-- A new user with all four limits for the CPU. -/
theorem written_accepted_iff_sample :
    ∃ root', dbctlSet (ascii "u") (cpuArgs "40,38,35,30") (shippedRoot []) = some root' ∧
      Succeeds (configInit true root') := by
  have hwritten : (dbctlSet (ascii "u") (cpuArgs "40,38,35,30") (shippedRoot [])).isSome = true := by
    decide +kernel
  obtain ⟨root', hset⟩ := Option.isSome_iff_exists.mp hwritten
  refine ⟨root', hset, (written_accepted_iff ⟨_, configInit_shippedRoot⟩ hset).mpr ?_⟩
  have htarget : targetOf (ascii "u") (shippedRoot []) = none := by decide +kernel
  rw [ArgumentsFit, htarget]
  intro _ _
  have hcurrent : "current" ∈ periodsSet "cpu" (ascii "40,38,35,30") := by decide +kernel
  exact ⟨⟨fun _ _ _ => .inr hcurrent, fun h => absurd h (by decide)⟩, trivial⟩

/-- Arguments that `GetOptList` lets through, with four fields. -/
def FourFields (args : LimitArgs) : Prop :=
  ∀ s ∈ args.cpu.toList ++ args.read.toList ++ args.write.toList, ∃ data, split s = .fields data

/-- A new limit without its first field is written, and the daemon exits on it. -/
theorem limit_without_current_written :
    ¬ ∀ (liblve : Bool) (argv : CString) (args : LimitArgs) (root root' : XmlNode), FourFields args →
      Succeeds (configInit liblve root) → dbctlSet argv args root = some root' →
      Succeeds (configInit liblve root') := by
  intro haccepts
  have hfields : FourFields (cpuArgs ",38,35,30") := by
    intro s hs
    rw [List.mem_singleton.mp hs]
    exact ⟨⟨[], ascii "38", ascii "35", ascii "30"⟩, by rfl⟩
  have hwritten : (dbctlSet (ascii "u") (cpuArgs ",38,35,30") (shippedRoot [])).any
      (fun root => (configInit true root).toOption.isNone) = true := by
    decide +kernel
  obtain ⟨root', hset, hnone⟩ := (Option.any_eq_true _ _).mp hwritten
  obtain ⟨cfg, hcfg⟩ := haccepts true _ _ _ root' hfields ⟨_, configInit_shippedRoot⟩ hset
  rw [hcfg] at hnone
  cases hnone

end DbGovernor
