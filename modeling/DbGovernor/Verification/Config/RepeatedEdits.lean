import DbGovernor.Verification.Config.ElementEdits

/-!
# Repeated edits of the limits of an element

An element whose limits have different names is settled by an argument: the limits of its name
are as another edit with the same argument leaves them. An edit settles its own name and does not
look at the others, so the second edit of an element changes nothing.
-/

namespace DbGovernor

/-! ## Attributes that are set again -/

section Attributes

variable {node : XmlNode} {a : String} {v w : CString} {updates : List (String × CString)}

theorem setAttr_self (h : getElemAttr node a = some v) : setAttr node a v = node := by
  obtain ⟨name, properties, children⟩ := node
  simp only [getElemAttr] at h
  simp only [setAttr, XmlNode.mk.injEq, true_and, and_true]
  induction properties with
  | nil => simp at h
  | cons prop properties ih =>
      rw [xmlSetProp]
      by_cases ha : prop.1 = a
      · rw [List.find?_cons_of_pos (by simpa using ha), Option.map_some, Option.some.injEq] at h
        rw [if_pos ha, ← ha, ← h]
      · rw [List.find?_cons_of_neg (by simpa using ha)] at h
        rw [if_neg ha, ih h]

theorem setAttr_setAttr (node : XmlNode) (a : String) (v w : CString) :
    setAttr (setAttr node a w) a v = setAttr node a v := by
  obtain ⟨name, properties, children⟩ := node
  simp only [setAttr, XmlNode.mk.injEq, true_and, and_true]
  induction properties with
  | nil => simp [xmlSetProp]
  | cons prop properties ih =>
      by_cases ha : prop.1 = a
      · simp [xmlSetProp, ha]
      · simp [xmlSetProp, ha, ih]

/-- Updates of different attributes that a node has already change nothing. -/
theorem setAttrs_self (h : ∀ update ∈ updates, getElemAttr node update.1 = some update.2) :
    setAttrs node updates = node := by
  induction updates with
  | nil => rfl
  | cons update updates ih =>
      obtain ⟨hupdate, hrest⟩ := List.forall_mem_cons.mp h
      rw [setAttrs, List.foldl_cons, setAttr_self hupdate]
      exact ih hrest

theorem getElemAttr_setAttrs_of_mem (hnd : (updates.map Prod.fst).Nodup) {update : String × CString}
    (hmem : update ∈ updates) : getElemAttr (setAttrs node updates) update.1 = some update.2 := by
  have hkey : update.1 ∈ updates.map Prod.fst := List.mem_map.mpr ⟨update, hmem, rfl⟩
  obtain ⟨v, hv, hget⟩ := @exists_mem_of_mem_updates node _ _ hkey
  have hsame : (update.1, v) = update := List.inj_on_of_nodup_map hnd hv hmem rfl
  rw [hget, ← hsame]

theorem setAttrs_setAttrs (hnd : (updates.map Prod.fst).Nodup) (node : XmlNode) :
    setAttrs (setAttrs node updates) updates = setAttrs node updates :=
  setAttrs_self fun _ hmem => getElemAttr_setAttrs_of_mem hnd hmem

end Attributes

/-! ## One argument -/

section Argument

variable {n : String} {s : CString} {children limits : List XmlNode} {cur : XmlNode}

theorem updates_nodup (data : SplitStr) : (data.updates.map Prod.fst).Nodup := by
  have hkeys : ([("current", data.current), ("short", data.short), ("mid", data.mid),
      ("long", data.long)].map Prod.fst).Nodup := by
    simp
  exact hkeys.sublist (List.filter_sublist.map Prod.fst)

theorem periodsSet_nodup (n : String) (s : CString) : (periodsSet n s).Nodup := by
  rw [periodsSet, updatesOf]
  unfold limitUpdates
  cases split s with
  | tooFew =>
      dsimp only
      split <;> simp
  | fields data => exact updates_nodup _
  | unset => simp

theorem mergeNode_mergeNode (n : String) (s : CString) (cur : XmlNode) :
    mergeNode n s (mergeNode n s cur) = mergeNode n s cur := by
  by_cases hlimit : isLimit (ascii n) cur = true
  · have hlimit' := hlimit
    rw [← isLimit_mergeNode n s] at hlimit'
    rw [mergeNode, if_pos hlimit', mergeNode, if_pos hlimit]
    exact setAttrs_setAttrs (periodsSet_nodup n s) cur
  · rw [mergeNode, if_neg]
    rw [isLimit_mergeNode]
    exact hlimit

theorem mergeNode_newLimit (n : String) (s : CString) : mergeNode n s (newLimit n s) = newLimit n s := by
  rw [mergeNode, if_pos (newLimit_frame n s).1, newLimit]
  exact setAttrs_setAttrs (periodsSet_nodup n s) _

/-- The limits of the argument's name are as an edit with the argument leaves them. -/
def SettledLimits (n : String) (s : CString) (limits : List XmlNode) : Prop :=
  limits = [] ∧ badLimits n [newLimit n s] = true ∨
    limits ≠ [] ∧ limits.map (mergeNode n s) = limits ∧ badLimits n limits = false

/-- An argument with which a limit is bad sets none of the attributes asked for. -/
theorem badLimits_newLimit_of_merged (hlimit : isLimit (ascii n) cur = true)
    (h : badLimits n [mergeNode n s cur] = true) : badLimits n [newLimit n s] = true := by
  rw [badLimits_singleton] at h
  rw [badLimits_newLimit]
  intro a ha
  have hnone := h a ha
  rw [mergeNode, if_pos hlimit, getElemAttr_setAttrs_eq_none_iff] at hnone
  exact hnone.2

/-- An edit settles the one limit of its name, or adds it. -/
theorem settled_editedLimits (s : CString)
    (hlimits : ∀ limit ∈ limits, isLimit (ascii n) limit = true)
    (hone : limits.length ≤ 1) : SettledLimits n s (editedLimits n s false limits) := by
  match limits, hone with
  | [], _ =>
      rw [editedLimits, if_pos rfl, if_neg Bool.false_ne_true, prunedLimits]
      by_cases hbad : badLimits n [newLimit n s] = true
      · rw [if_pos hbad]
        exact .inl ⟨rfl, hbad⟩
      · rw [if_neg hbad]
        refine .inr ⟨by simp, ?_, by simpa using hbad⟩
        simp [mergeNode_newLimit]
  | [limit], _ =>
      have hlimit := hlimits limit (by simp)
      rw [editedLimits, if_neg (by simp), List.map_singleton, prunedLimits]
      by_cases hbad : badLimits n [mergeNode n s limit] = true
      · rw [if_pos hbad]
        exact .inl ⟨rfl, badLimits_newLimit_of_merged hlimit hbad⟩
      · rw [if_neg hbad]
        refine .inr ⟨by simp, ?_, by simpa using hbad⟩
        simp [mergeNode_mergeNode]

/-- An edit of an element that is settled changes nothing. -/
theorem editedChildren_of_settled (hnested : nestedLimit children = false)
    (h : SettledLimits n s (limitsOf children (ascii n))) :
    editedChildren n s children = children := by
  rcases h with ⟨hnone, hbad⟩ | ⟨hsome, hmerged, hgood⟩
  · have hnew : limitsOf [newLimit n s] (ascii n) = [newLimit n s] := by
      simp [limitsOf, (newLimit_frame n s).1]
    rw [editedChildren, if_pos hnone, hnested, if_neg Bool.false_ne_true, prunedChildren,
      limitsOf_append, hnone, hnew, List.nil_append, if_pos hbad, eraseP_of_limitsOf_nil hnone]
    simp [(newLimit_frame n s).1]
  · have hfixed : ∀ limit ∈ limitsOf children (ascii n), mergeNode n s limit = id limit := by
      rw [← List.map_inj_left, hmerged, List.map_id]
    have hsame : ∀ cur ∈ children, mergeNode n s cur = id cur := by
      intro cur hcur
      by_cases hlimit : isLimit (ascii n) cur = true
      · exact hfixed cur (List.mem_filter.mpr ⟨hcur, hlimit⟩)
      · rw [mergeNode, if_neg hlimit]
        rfl
    rw [editedChildren, if_neg hsome, List.map_congr_left hsame, List.map_id, prunedChildren, hgood,
      if_neg Bool.false_ne_true]

end Argument

/-! ## The limits of an element of a flat tree -/

/-- Limits that lie directly under their element and have different names. -/
structure FlatLimits (children : List XmlNode) : Prop where
  nested : nestedLimit children = false
  named : ∀ cur ∈ children, cur.name = "limit" → (getElemAttr cur "name").isSome
  unique : ∀ a, (limitsOf children a).length ≤ 1

/-- The limits of each argument's name are as an edit with it leaves them. -/
def SettledBy (args : List (String × Option CString)) (children : List XmlNode) : Prop :=
  ∀ arg ∈ args, ∀ s ∈ arg.2, SettledLimits arg.1 s (limitsOf children (ascii arg.1))

section Flat

variable {n : String} {s : CString} {children : List XmlNode}
  {args : List (String × Option CString)}

theorem mem_editedChildren {cur : XmlNode} (hcur : cur ∈ editedChildren n s children) :
    cur = newLimit n s ∨ ∃ old ∈ children, cur = mergeNode n s old ∨ cur = old := by
  have hmem := prunedChildren_subset n _ hcur
  split at hmem
  · split at hmem
    · exact .inr ⟨cur, hmem, .inr rfl⟩
    · rcases List.mem_append.mp hmem with hold | hnew
      · exact .inr ⟨cur, hold, .inr rfl⟩
      · exact .inl (List.mem_singleton.mp hnew)
  · obtain ⟨old, hold, rfl⟩ := List.mem_map.mp hmem
    exact .inr ⟨old, hold, .inl rfl⟩

theorem FlatLimits.edited (h : FlatLimits children) (n : String) (s : CString) :
    FlatLimits (editedChildren n s children) := by
  obtain ⟨hlimit, hleaf⟩ := newLimit_frame n s
  refine ⟨?_, ?_, ?_⟩
  · rw [nestedLimit, List.any_eq_false]
    intro cur hcur
    have hbelow : findElementWithName "limit" cur = none := by
      rcases mem_editedChildren hcur with rfl | ⟨old, hold, heq⟩
      · rw [findElementWithName_eq, hleaf, findAmong_nil]
      · have hnone := List.any_eq_false.mp h.nested old hold
        rw [Option.not_isSome_iff_eq_none] at hnone
        rcases heq with rfl | rfl
        · obtain ⟨-, hchildren, -⟩ := mergeNode_frame n s old
          rw [findElementWithName_eq, hchildren, ← findElementWithName_eq]
          exact hnone
        · exact hnone
    simp [hbelow]
  · intro cur hcur hname
    rcases mem_editedChildren hcur with rfl | ⟨old, hold, heq⟩
    · rw [(isLimit_iff.mp hlimit).2]
      rfl
    · rcases heq with rfl | rfl
      · obtain ⟨hsame, -, hattr⟩ := mergeNode_frame n s old
        rw [hattr]
        exact h.named old hold (hsame ▸ hname)
      · exact h.named cur hold hname
  · intro a
    by_cases ha : a = ascii n
    · subst ha
      have hone := h.unique (ascii n)
      rw [limitsOf_editedChildren_self, h.nested, editedLimits, if_neg Bool.false_ne_true,
        prunedLimits]
      by_cases hnone : limitsOf children (ascii n) = []
      · rw [if_pos hnone]
        split <;> simp
      · rw [if_neg hnone]
        split
        · rw [List.length_tail, List.length_map]
          omega
        · rw [List.length_map]
          exact hone
    · rw [limitsOf_editedChildren_ne ha]
      exact h.unique a

theorem FlatLimits.editedBy (h : FlatLimits children) (args : List (String × Option CString)) :
    FlatLimits (editedBy args children) := by
  rw [DbGovernor.editedBy]
  refine List.foldlRecOn args _ h fun cs hcs arg _ => ?_
  split
  · exact hcs
  · exact hcs.edited _ _

/-- After the edits of all arguments each one finds its limits settled. -/
theorem FlatLimits.settledBy (h : FlatLimits children)
    (hargs : args.Pairwise fun arg arg' => ascii arg.1 ≠ ascii arg'.1) :
    SettledBy args (DbGovernor.editedBy args children) := by
  induction args generalizing children with
  | nil => exact fun arg harg => absurd harg List.not_mem_nil
  | cons arg args ih =>
      obtain ⟨hfirst, hrest⟩ := List.pairwise_cons.mp hargs
      obtain ⟨n, s⟩ := arg
      cases s with
      | none =>
          intro arg' harg' s' hs'
          rcases List.mem_cons.mp harg' with rfl | hmem
          · cases hs'
          · exact ih h hrest arg' hmem s' hs'
      | some s =>
          intro arg' harg' s' hs'
          rcases List.mem_cons.mp harg' with rfl | hmem
          · cases hs'
            have hlater :
                limitsOf (DbGovernor.editedBy args (editedChildren n s children)) (ascii n) =
                  limitsOf (editedChildren n s children) (ascii n) :=
              limitsOf_editedBy_ne hfirst _
            have hsettled := settled_editedLimits s
              (fun limit hlimit => (List.mem_filter.mp hlimit).2) (h.unique (ascii n))
            rw [DbGovernor.editedBy, List.foldl_cons, ← DbGovernor.editedBy, hlater,
              limitsOf_editedChildren_self, h.nested]
            exact hsettled
          · exact ih (h.edited n s) hrest arg' hmem s' hs'

/-- The edits of an element that is settled change nothing. -/
theorem editedBy_of_settledBy (hnested : nestedLimit children = false)
    (h : SettledBy args children) : DbGovernor.editedBy args children = children := by
  induction args with
  | nil => rfl
  | cons arg args ih =>
      obtain ⟨hfirst, hrest⟩ := List.forall_mem_cons.mp h
      obtain ⟨n, s⟩ := arg
      rw [DbGovernor.editedBy, List.foldl_cons]
      cases s with
      | none => exact ih hrest
      | some s =>
          dsimp only
          rw [editedChildren_of_settled hnested (hfirst s rfl)]
          exact ih hrest

end Flat

/-! ## Edits that come to their end -/

/-- Arguments of at most four fields each. -/
def FieldsFit (args : List (String × Option CString)) : Prop :=
  ∀ arg ∈ args, ∀ s ∈ arg.2, split s ≠ .unset

section Succeeding

variable {n : String} {s : CString} {child cur : XmlNode} {children : List XmlNode}
  {args : List (String × Option CString)}

theorem limitUpdates_isSome (hs : split s ≠ .unset) (name : CString) :
    (limitUpdates (some name) s).isSome := by
  unfold limitUpdates
  cases hsplit : split s with
  | tooFew =>
      dsimp only
      split <;> rfl
  | fields data => rfl
  | unset => exact absurd hsplit hs

theorem mergeChild_isSome (hs : split s ≠ .unset)
    (hnamed : cur.name = "limit" → (getElemAttr cur "name").isSome) :
    (mergeChild n s cur).isSome := by
  rw [mergeChild]
  split
  · rename_i hlimit
    obtain ⟨a, ha⟩ := Option.isSome_iff_exists.mp (hnamed hlimit)
    rw [ha]
    dsimp only
    split
    · rw [setLimitAttr, ha, Option.isSome_map]
      exact limitUpdates_isSome hs a
    · rfl
  · rfl

theorem removeFirst_isSome (n : String)
    (hnamed : ∀ cur ∈ children, cur.name = "limit" → (getElemAttr cur "name").isSome) :
    (removeFirst n children).isSome := by
  induction children with
  | nil => rfl
  | cons cur children ih =>
      obtain ⟨hcur, hrest⟩ := List.forall_mem_cons.mp hnamed
      have htail : ((removeFirst n children).map (cur :: ·)).isSome := by
        rw [Option.isSome_map]
        exact ih hrest
      rw [removeFirst]
      split
      · rename_i hlimit
        obtain ⟨a, ha⟩ := Option.isSome_iff_exists.mp (hcur hlimit)
        rw [ha]
        dsimp only
        split
        · rfl
        · exact htail
      · exact htail

theorem pruneLimit_of_named (n : String)
    (hnamed : ∀ cur ∈ child.children, cur.name = "limit" → (getElemAttr cur "name").isSome) :
    pruneLimit child n = some { child with children := prunedChildren n child.children } := by
  have hsome : (pruneLimit child n).isSome := by
    rw [pruneLimit]
    split
    · rw [removeBadLimit, Option.isSome_map]
      exact removeFirst_isSome n hnamed
    · rfl
  obtain ⟨child', hchild'⟩ := Option.isSome_iff_exists.mp hsome
  rw [hchild', pruneLimit_eq hchild']

theorem addLimit_of_new (hs : split s ≠ .unset)
    (hnested : nestedLimit child.children = false) (hnone : limitsOf child.children (ascii n) = []) :
    addLimit child n s = some { child with children := child.children ++ [newLimit n s] } := by
  have hsome : (addLimit child n s).isSome := by
    rw [addLimit, setNodeWithAttr_limit hnone, hnested]
    simp only [Bool.false_eq_true, if_false]
    rw [Option.isSome_map, setLimitAttr, getElemAttr_setAttr_self, Option.isSome_map]
    exact limitUpdates_isSome hs (ascii n)
  obtain ⟨child', hchild'⟩ := Option.isSome_iff_exists.mp hsome
  rw [hchild', addLimit_eq hnone hchild', hnested, if_neg Bool.false_ne_true]

theorem editLimit_of_flat (hs : split s ≠ .unset)
    (h : FlatLimits child.children) :
    editLimit child n s = some { child with children := editedChildren n s child.children } := by
  have hmerged : child.children.mapM (mergeChild n s) =
      some (child.children.map (mergeNode n s)) := by
    refine Results.mapM_of_forall_some fun cur hcur => ?_
    obtain ⟨cur', hcur'⟩ := Option.isSome_iff_exists.mp (mergeChild_isSome hs (h.named cur hcur))
    rw [hcur', mergeChild_eq hcur']
  rw [editLimit, hmerged, Option.bind_some, limitsNamed_eq, editedChildren, h.nested,
    if_neg Bool.false_ne_true]
  by_cases hnone : limitsOf child.children (ascii n) = []
  · have hnamed : ∀ cur ∈ child.children ++ [newLimit n s], cur.name = "limit" →
        (getElemAttr cur "name").isSome := by
      intro cur hcur hlimit
      rcases List.mem_append.mp hcur with hold | hnew
      · exact h.named cur hold hlimit
      · rw [List.mem_singleton.mp hnew, (isLimit_iff.mp (newLimit_frame n s).1).2]
        rfl
    rw [map_mergeNode_of_nil hnone, XmlNode.mk_eta, if_pos hnone]
    dsimp only
    rw [if_pos hnone, addLimit_of_new hs h.nested hnone, Option.bind_some,
      pruneLimit_of_named n hnamed]
  · have hnamed : ∀ cur ∈ child.children.map (mergeNode n s), cur.name = "limit" →
        (getElemAttr cur "name").isSome := by
      intro cur hcur hlimit
      obtain ⟨old, hold, rfl⟩ := List.mem_map.mp hcur
      obtain ⟨hname, -, hattr⟩ := mergeNode_frame n s old
      rw [hattr]
      exact h.named old hold (hname ▸ hlimit)
    rw [if_neg hnone]
    dsimp only
    rw [if_neg hnone, Option.bind_some, pruneLimit_of_named n hnamed]

theorem forArgs_editLimit_of_flat (hargs : FieldsFit args) (h : FlatLimits child.children) :
    forArgs editLimit child args = some { child with children := editedBy args child.children } := by
  induction args generalizing child with
  | nil => simp [forArgs, editedBy]
  | cons arg args ih =>
      obtain ⟨hfirst, hrest⟩ := List.forall_mem_cons.mp hargs
      obtain ⟨n, s⟩ := arg
      rw [forArgs, List.foldlM_cons, editedBy, List.foldl_cons]
      cases s with
      | none => exact ih hrest h
      | some s =>
          dsimp only
          rw [editLimit_of_flat (hfirst s rfl) h]
          exact ih hrest (h.edited n s)

theorem forArgs_addLimit_of_new (child : XmlNode) (hargs : FieldsFit args)
    (hpairwise : args.Pairwise fun arg arg' => ascii arg.1 ≠ ascii arg'.1)
    (hnested : nestedLimit child.children = false)
    (hnone : ∀ arg ∈ args, limitsOf child.children (ascii arg.1) = []) :
    forArgs addLimit child args =
      some { child with children := child.children ++ addedBy args } := by
  induction args generalizing child with
  | nil => simp [forArgs, addedBy]
  | cons arg args ih =>
      obtain ⟨hfirst, hrest⟩ := List.forall_mem_cons.mp hargs
      obtain ⟨hnew, hpairs⟩ := List.pairwise_cons.mp hpairwise
      obtain ⟨hnone, hothers⟩ := List.forall_mem_cons.mp hnone
      obtain ⟨n, s⟩ := arg
      rw [forArgs, List.foldlM_cons]
      cases s with
      | none => simpa [forArgs, addedBy] using ih _ hrest hpairs hnested hothers
      | some s =>
          dsimp only
          rw [addLimit_of_new (hfirst s rfl) hnested hnone]
          have hnested' : nestedLimit (child.children ++ [newLimit n s]) = false := by
            have hleaf := (leafLimits_newLimit n s).nestedLimit_eq
            rw [nestedLimit] at hnested hleaf ⊢
            rw [List.any_append, hnested, hleaf, Bool.or_false]
          have hothers' : ∀ arg ∈ args,
              limitsOf (child.children ++ [newLimit n s]) (ascii arg.1) = [] := by
            intro arg harg
            rw [limitsOf_append, hothers arg harg, limitsOf_newLimit_ne (Ne.symm (hnew arg harg)),
              List.append_nil]
          have htail := @ih { child with children := child.children ++ [newLimit n s] } hrest hpairs
            hnested' hothers'
          simpa [forArgs, addedBy] using htail

theorem foldlM_pruneLimit_of_named
    (hnamed : ∀ cur ∈ child.children, cur.name = "limit" → (getElemAttr cur "name").isSome) :
    args.foldlM (fun child arg => pruneLimit child arg.1) child =
      some { child with children := prunedBy args child.children } := by
  induction args generalizing child with
  | nil => simp [prunedBy]
  | cons arg args ih =>
      rw [List.foldlM_cons, pruneLimit_of_named arg.1 hnamed, prunedBy, List.foldl_cons]
      exact ih fun cur hcur => hnamed cur (prunedChildren_subset arg.1 _ hcur)

theorem newLimits_of_fits {args : LimitArgs} (hargs : FieldsFit args.named)
    (hempty : child.children = []) :
    newLimits args child =
      some { child with children := prunedBy args.named (addedBy args.named) } := by
  have hadded := forArgs_addLimit_of_new child hargs (distinct_named args).pairwise
    (by rw [hempty]; rfl) (fun arg _ => by rw [hempty]; rfl)
  have hnamed : ∀ cur ∈ addedBy args.named, cur.name = "limit" →
      (getElemAttr cur "name").isSome := by
    intro cur hcur _
    obtain ⟨arg, -, s, -, rfl⟩ := mem_addedBy.mp hcur
    rw [(isLimit_iff.mp (newLimit_frame arg.1 s).1).2]
    rfl
  rw [hempty, List.nil_append] at hadded
  rw [newLimits, hadded, Option.bind_some]
  exact @foldlM_pruneLimit_of_named { child with children := addedBy args.named } args.named hnamed

end Succeeding

/-! ## The limits of a new element -/

section New

variable {args : List (String × Option CString)}

theorem settledBy_prunedBy (hargs : args.Pairwise fun arg arg' => ascii arg.1 ≠ ascii arg'.1) :
    SettledBy args (prunedBy args (addedBy args)) := by
  intro arg harg s hs
  have hnew : (arg.2.map (newLimit arg.1)).toList = [newLimit arg.1 s] := by
    rw [Option.mem_def.mp hs]
    rfl
  have hsettled := @settled_editedLimits arg.1 [] s (by simp) (by simp)
  rw [limitsOf_prunedBy_self harg hargs, limitsOf_addedBy harg hargs, hnew]
  exact hsettled

theorem flatLimits_prunedBy (hargs : args.Pairwise fun arg arg' => ascii arg.1 ≠ ascii arg'.1) :
    FlatLimits (prunedBy args (addedBy args)) := by
  refine ⟨?_, fun cur hcur _ => named_of_addedBy hcur, ?_⟩
  · exact ((leafLimits_addedBy args).subset (prunedBy_subset args _)).nestedLimit_eq
  · intro a
    by_cases ha : ∃ arg ∈ args, a = ascii arg.1
    · obtain ⟨arg, harg, rfl⟩ := ha
      rw [limitsOf_prunedBy_self harg hargs, limitsOf_addedBy harg hargs, prunedLimits]
      cases arg.2 <;> split <;> simp
    · have hnone : limitsOf (prunedBy args (addedBy args)) a = [] := by
        refine limitsOf_eq_nil_iff.mpr fun cur hcur => ?_
        obtain ⟨arg, harg, s, -, rfl⟩ := mem_addedBy.mp (prunedBy_subset args _ hcur)
        rw [Bool.eq_false_iff]
        exact fun hlimit => ha ⟨arg, harg, isLimit_unique hlimit (newLimit_frame arg.1 s).1⟩
      rw [hnone]
      exact Nat.zero_le 1

end New

end DbGovernor
