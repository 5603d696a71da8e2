import DbGovernor.Verification.Config.LimitsInForce
import DbGovernor.Verification.Config.Numbers

/-!
# The limits that are listed

`dbctl list` reads the first limit of a resource in a user's element and falls back on the first
one in the default element, and the daemon has rules of its own. The two agree on a line exactly
when the number of the line is the one in force.
-/

namespace DbGovernor

open Results

/-! ## A line -/

/-- The list takes the default in place of some numbers. -/
def FallsBack : Resource → ℤ → Prop
  | .cpu, x => x = 0
  | .read, x | .write, x => x = 0 ∨ x < -1

instance : ∀ (resource : Resource) (x : ℤ), Decidable (FallsBack resource x)
  | .cpu, x => inferInstanceAs (Decidable (x = 0))
  | .read, x => inferInstanceAs (Decidable (x = 0 ∨ x < -1))
  | .write, x => inferInstanceAs (Decidable (x = 0 ∨ x < -1))

/-- The number that the list reads in the text of a default. -/
def defaultNumber (deflt : CString) : Resource → ℤ
  | .cpu => atoi deflt
  | .read | .write => (if atoll deflt < -1 then 0 else atoll deflt).bmod (2 ^ 32)

theorem atoll_getMbStr (s : CString) :
    atoll (getMbStr s 2) = if atoll s < -1 then 0 else atoll s := by
  have hbounds := atoll_bounds s
  have hbytes : getMbStr s 2 = lldText (if atoll s < -1 then 0 else atoll s) := by
    simp [getMbStr]
  rw [hbytes, atoll_lldText]
  · split <;> omega
  · split <;> omega

theorem bmod_of_small {x : ℤ} (h : x.natAbs < 2 ^ 31) : x.bmod (2 ^ 32) = x := by
  apply Int.bmod_eq_of_le <;> omega

/-- A line shows the number of its own text, or that of the default. -/
theorem lineValue_eq {own : CString} (hown : (leadingInt own).natAbs < 2 ^ 31) (deflt : CString)
    (resource : Resource) :
    lineValue 2 own (some deflt) resource =
      if FallsBack resource (atoll own) then defaultNumber deflt resource else atoll own := by
  have hsize : sizeValue 2 own (some deflt) =
      if atoll own = 0 ∨ atoll own < -1 then (if atoll deflt < -1 then 0 else atoll deflt).bmod (2 ^ 32)
      else atoll own := by
    rw [sizeValue, atoll_getMbStr]
    by_cases hback : atoll own = 0 ∨ atoll own < -1
    · rw [if_pos hback, if_pos, atoll_getMbStr]
      refine ⟨?_, by omega, by omega⟩
      split <;> omega
    · rw [if_neg hback, if_neg, if_neg (by omega), bmod_of_small]
      · rwa [atoll_of_small hown]
      · rw [if_neg (by omega)]
        omega
  cases resource with
  | cpu =>
      rw [lineValue, cpuValue, atoi_of_small hown]
      rfl
  | read => exact hsize
  | write => exact hsize

/-! ## Agreement on a line -/

/-- The text of the limit in force for a period reads as a number; a resource without a limit
has 0. -/
inductive GivesNumber (period : Period) : Option XmlNode → ℤ → Prop where
  | text {limit : XmlNode} {text : CString} {n : ℕ} (h : getElemAttr limit period.name = some text)
      (hreads : ReadsAs n text) : GivesNumber period (some limit) n
  | absent : GivesNumber period none 0

/-- The limit in force gives a period no bound: the text is absent or reads as none. -/
def GivesNoBound (period : Period) (limit : Option XmlNode) : Prop :=
  ∃ l, limit = some l ∧ ∀ text ∈ getElemAttr l period.name, ReadsNegative text

/-- When a line agrees with the limit in force, by what its own text says: a positive number, -1,
or nothing that the list keeps. -/
inductive LineAgrees (limit : Option XmlNode) (own deflt : CString) (resource : Resource)
    (period : Period) : Prop where
  | number (hown : 0 < atoll own) (hlimit : GivesNumber period limit (atoll own))
  | noBound (hown : atoll own = -1) (hlimit : GivesNoBound period limit)
  | defaultNumber (hown : FallsBack resource (atoll own)) (hdeflt : 0 ≤ defaultNumber deflt resource)
      (hlimit : GivesNumber period limit (defaultNumber deflt resource))
  | defaultNoBound (hown : FallsBack resource (atoll own)) (hdeflt : defaultNumber deflt resource = -1)
      (hlimit : GivesNoBound period limit)

theorem givesNumber_iff {period : Period} {limit : Option XmlNode} {x : ℤ} (hx : 0 ≤ x)
    (hsmall : x < 2 ^ 52) : GivesNumber period limit x ↔ storedValue limit period = x := by
  constructor
  · intro h
    cases h with
    | text htext hreads =>
        simp only [storedValue, Option.map_some, Option.getD_some, periodValue, htext]
        exact (longOfDouble_atof_eq_iff (by omega)).mpr hreads
    | absent => rfl
  · intro h
    cases limit with
    | none =>
        cases h
        exact .absent
    | some limit =>
        rw [storedValue, Option.map_some, Option.getD_some, periodValue] at h
        cases htext : getElemAttr limit period.name with
        | none =>
            rw [htext] at h
            dsimp only at h
            omega
        | some text =>
            obtain ⟨n, rfl⟩ := Int.eq_ofNat_of_zero_le hx
            rw [htext] at h
            exact .text htext ((longOfDouble_atof_eq_iff (by omega)).mp h)

theorem givesNoBound_iff {period : Period} {limit : Option XmlNode} :
    GivesNoBound period limit ↔ storedValue limit period < 0 := by
  rw [GivesNoBound, storedValue]
  cases limit with
  | none => simp
  | some limit =>
      rw [Option.map_some, Option.getD_some, periodValue]
      cases htext : getElemAttr limit period.name with
      | none => simp [htext]
      | some text => simp [htext, longOfDouble_atof_neg_iff]

/-- A number is the stored one, or -1 in place of a negative one. -/
theorem eq_max_storedValue_iff {period : Period} {limit : Option XmlNode} {x : ℤ}
    (hsmall : x < 2 ^ 52) :
    x = max (storedValue limit period) (-1) ↔
      0 ≤ x ∧ GivesNumber period limit x ∨ x = -1 ∧ GivesNoBound period limit := by
  rw [givesNoBound_iff]
  constructor
  · intro heq
    by_cases hx : 0 ≤ x
    · exact .inl ⟨hx, (givesNumber_iff hx hsmall).mpr (by omega)⟩
    · exact .inr ⟨by omega, by omega⟩
  · rintro (⟨hx, hnumber⟩ | ⟨hx, hnoBound⟩)
    · have hvalue := (givesNumber_iff hx hsmall).mp hnumber
      omega
    · omega

theorem defaultNumber_lt (deflt : CString) (resource : Resource) :
    defaultNumber deflt resource < 2 ^ 52 := by
  have hatoi := atoi_bounds deflt
  have hbmod : ∀ x : ℤ, x.bmod (2 ^ 32) < 2 ^ 32 := fun x => by
    have := Int.bmod_lt (x := x) (m := 2 ^ 32) (by decide)
    omega
  cases resource with
  | cpu =>
      rw [defaultNumber]
      omega
  | read => exact (hbmod _).trans (by decide)
  | write => exact (hbmod _).trans (by decide)

/-- A line shows what is stored, or -1 in place of a negative number, exactly when it agrees with
the limit in force. -/
theorem lineValue_eq_max_iff {own : CString} (hown : (leadingInt own).natAbs < 2 ^ 31)
    (limit : Option XmlNode) (deflt : CString) (resource : Resource) (period : Period) :
    lineValue 2 own (some deflt) resource = max (storedValue limit period) (-1) ↔
      LineAgrees limit own deflt resource period := by
  have hsmall : lineValue 2 own (some deflt) resource < 2 ^ 52 := by
    rw [lineValue_eq hown]
    split
    · exact defaultNumber_lt deflt resource
    · rw [atoll_of_small hown]
      omega
  rw [eq_max_storedValue_iff hsmall, lineValue_eq hown]
  by_cases hback : FallsBack resource (atoll own)
  · rw [if_pos hback]
    have hdropped : ¬ 0 < atoll own ∧ atoll own ≠ -1 := by
      cases resource <;> simp only [FallsBack] at hback <;> omega
    constructor
    · rintro (⟨hdeflt, hlimit⟩ | ⟨hdeflt, hlimit⟩)
      · exact .defaultNumber hback hdeflt hlimit
      · exact .defaultNoBound hback hdeflt hlimit
    · intro h
      cases h with
      | number hown _ => exact absurd hown hdropped.1
      | noBound hown _ => exact absurd hown hdropped.2
      | defaultNumber _ hdeflt hlimit => exact .inl ⟨hdeflt, hlimit⟩
      | defaultNoBound _ hdeflt hlimit => exact .inr ⟨hdeflt, hlimit⟩
  · rw [if_neg hback]
    have hne : atoll own ≠ 0 := by
      cases resource <;> simp only [FallsBack] at hback <;> omega
    constructor
    · rintro (⟨hown, hlimit⟩ | ⟨hown, hlimit⟩)
      · exact .number (by omega) hlimit
      · exact .noBound hown hlimit
    · intro h
      cases h with
      | number hown hlimit => exact .inl ⟨hown.le, hlimit⟩
      | noBound hown hlimit => exact .inr ⟨hown, hlimit⟩
      | defaultNumber hown _ _ => exact absurd hown hback
      | defaultNoBound hown _ _ => exact absurd hown hback

/-! ## The lines of the users -/

instance (P : Resource → Prop) [DecidablePred P] : Decidable (∀ resource, P resource) :=
  decidable_of_iff (P .cpu ∧ P .read ∧ P .write)
    ⟨fun h resource => by cases resource <;> simp only [h], fun h => ⟨h _, h _, h _⟩⟩

instance (P : Period → Prop) [DecidablePred P] : Decidable (∀ period, P period) :=
  decidable_of_iff (P .current ∧ P .short ∧ P .mid ∧ P .long)
    ⟨fun h period => by cases period <;> simp only [h], fun h => ⟨h _, h _, h _, h _⟩⟩

/-- The limits of a user element are integers of magnitude below `2 ^ 31`. -/
def SmallLimits (node : XmlNode) : Prop :=
  ∀ limit ∈ childrenNamed node "limit", ∀ resource : Resource,
    getElemAttr limit "name" = some (ascii resource.name) →
    ∀ (period : Period), ∀ text ∈ getElemAttr limit period.name, SmallInteger text

instance (node : XmlNode) : Decidable (SmallLimits node) :=
  inferInstanceAs (Decidable (∀ limit ∈ childrenNamed node "limit", ∀ resource : Resource,
    getElemAttr limit "name" = some (ascii resource.name) →
    ∀ (period : Period), ∀ text ∈ getElemAttr limit period.name, SmallInteger text))

theorem copiedAttr_eq_name_iff {limit : XmlNode} {resource : Resource} :
    copiedAttr limit "name" = ascii resource.name ↔
      getElemAttr limit "name" = some (ascii resource.name) := by
  have hlength : (ascii resource.name).length < 255 ∧ ascii resource.name ≠ [] := by
    cases resource <;> decide
  rw [copiedAttr]
  cases getElemAttr limit "name" with
  | none => exact iff_of_false (fun h => hlength.2 (by simpa using h.symm)) (by simp)
  | some name =>
      rw [Option.getD_some, Option.some_inj]
      constructor
      · intro h
        have hshort := congrArg List.length h
        rw [List.length_take] at hshort
        rwa [List.take_of_length_le (by omega)] at h
      · rintro rfl
        exact List.take_of_length_le (by omega)

/-- The limit of a resource that an element has first. -/
def firstLimit (resource : Resource) (node : XmlNode) : Option XmlNode :=
  (childrenNamed node "limit").find? fun limit =>
    getElemAttr limit "name" = some (ascii resource.name)

theorem getLimitAttr_foundTag (node : XmlNode) (resource : Resource) (period : Period) :
    getLimitAttr (foundTag node).limitAttr resource period =
      ((firstLimit resource node).map (copiedAttr · period.name)).getD (ascii "0") := by
  rw [getLimitAttr, foundTag, List.find?_map, firstLimit]
  simp only [Function.comp_def, copiedAttr_eq_name_iff]
  cases (childrenNamed node "limit").find? fun limit =>
    decide (getElemAttr limit "name" = some (ascii resource.name)) with
  | none => rfl
  | some limit => rfl

/-- The text that a line takes from its own element is a small integer, or empty. -/
theorem getLimitAttr_small {node : XmlNode} (h : SmallLimits node) (resource : Resource)
    (period : Period) :
    (leadingInt (getLimitAttr (foundTag node).limitAttr resource period)).natAbs < 2 ^ 31 := by
  rw [getLimitAttr_foundTag, firstLimit]
  cases hfirst : (childrenNamed node "limit").find? fun limit =>
      decide (getElemAttr limit "name" = some (ascii resource.name)) with
  | none => exact (by decide : (leadingInt (ascii "0")).natAbs < 2 ^ 31)
  | some limit =>
      have hlimit := List.mem_of_find?_eq_some hfirst
      have hname : getElemAttr limit "name" = some (ascii resource.name) := by
        simpa using List.find?_some hfirst
      rw [Option.map_some, Option.getD_some, copiedAttr]
      cases htext : getElemAttr limit period.name with
      | none => decide
      | some text => exact (h limit hlimit resource hname period text htext).take.small

theorem mem_addMemoryUser {ids : List CString} {tags : List DbCtlFoundTag} {tag : DbCtlFoundTag}
    (h : tag ∈ addMemoryUser ids tags) :
    tag ∈ tags ∨ ∃ id, tag = ⟨[("name", id), ("mode", ascii "restrict")], []⟩ := by
  rw [addMemoryUser] at h
  induction ids generalizing tags with
  | nil => exact .inl h
  | cons id ids ih =>
      rw [List.foldl_cons] at h
      rcases ih h with hmem | hid
      · split at hmem
        · exact .inl hmem
        · rcases List.mem_append.mp hmem with hmem | hnew
          · exact .inl hmem
          · exact .inr ⟨id, List.mem_singleton.mp hnew⟩
      · exact .inr hid

/-- Each user element has a mode, and it is not the one that the list leaves out. -/
def Listable (root : XmlNode) : Prop :=
  ∀ node ∈ childrenNamed root "user",
    ∃ mode, getElemAttr node "mode" = some mode ∧ mode ≠ ascii "ignore"

instance (root : XmlNode) : Decidable (Listable root) :=
  decidable_of_iff (∀ node ∈ childrenNamed root "user",
      (getElemAttr node "mode").any fun mode => mode ≠ ascii "ignore")
    (by simp [Listable, Option.any_eq_true])

/-- With no user left out there is a line for each. -/
theorem getDefaultForUsers_eq {root : XmlNode} (hlistable : Listable root) (ids : List CString)
    (defs : DefaultTexts) (flag : ℕ) :
    getDefaultForUsers (addMemoryUser ids (readCfg root "user")) (some defs) flag =
      some ((addMemoryUser ids (readCfg root "user")).map fun tag =>
        ⟨lineName tag.attr, lineData flag tag.limitAttr defs⟩) := by
  have hline : ∀ tag ∈ addMemoryUser ids (readCfg root "user"), userLine flag defs tag =
      some (some ⟨lineName tag.attr, lineData flag tag.limitAttr defs⟩) := by
    intro tag htag
    have hmode : ∃ mode, getAttr tag.attr "mode" = some mode ∧ mode ≠ ascii "ignore" := by
      rcases mem_addMemoryUser htag with huser | ⟨id, rfl⟩
      · obtain ⟨node, hnode, rfl⟩ := List.mem_map.mp huser
        exact hlistable node hnode
      · exact ⟨ascii "restrict", rfl, by decide⟩
    obtain ⟨mode, hget, hne⟩ := hmode
    rw [userLine, hget, Option.map_some, if_neg hne]
  rw [getDefaultForUsers, mapM_of_forall_some hline, Option.map_some]
  congr 1
  change List.filterMap id (List.map _ _) = _
  rw [List.filterMap_map]
  exact congrFun List.filterMap_eq_map _

/-! ## The list and the daemon -/

/-- The list has a line at a place, and its number is the one that is stored for its name; a
negative one is listed as -1. -/
def ListedAsStored (unset : Resource → Period → CString) (ids : List CString) (root : XmlNode)
    (i : ℕ) (resource : Resource) (period : Period) : Prop :=
  ∃ lines line limit, printList unset 2 ids root = some lines ∧ lines.2[i]? = some line ∧
    effectiveLimit root line.name = .ok limit ∧
    line.data resource period = max (limit.value resource period) (-1)

/-- The text of the default that the list falls back on. -/
def defaultText (unset : Resource → Period → CString) (tag : DbCtlFoundTag) : DefaultTexts :=
  fun resource period =>
    strncpyOver (unset resource period) (getLimitAttr tag.limitAttr resource period)

/-- The list has a line for each user, and nothing to read without a default below the root. -/
theorem printList_eq {root : XmlNode} (hlistable : Listable root)
    (unset : Resource → Period → CString) (flag : ℕ) (ids : List CString) :
    (printList unset flag ids root).map Prod.snd =
      (readCfg root "default").head?.map fun defaultTag =>
        (addMemoryUser ids (readCfg root "user")).map fun tag =>
          ⟨lineName tag.attr, lineData flag tag.limitAttr (some (defaultText unset defaultTag))⟩ := by
  rw [printList]
  cases readCfg root "default" with
  | nil => rfl
  | cons defaultTag tags =>
      dsimp only
      rw [getDefaultForUsers_eq hlistable]
      rfl

/-- A limit that is written once for a user, with a positive number or with -1, is listed as it is
in force. -/
theorem LineAgrees.of_written_once {root node limit : XmlNode} {resource : Resource}
    {period : Period} {text : CString}
    (hlast : KeyedLog.last userKey (some (lineName node.properties)) (childrenNamed root "user") =
      some node)
    (honce : (childrenNamed node "limit").filter (fun limit =>
      getElemAttr limit "name" = some (ascii resource.name)) = [limit])
    (htext : getElemAttr limit period.name = some text) (hsmall : SmallInteger text)
    (hfits : text.length ≤ 255) (hvalue : 0 < leadingInt text ∨ leadingInt text = -1)
    (deflt : CString) :
    LineAgrees (limitInForce root (lineName node.properties) resource)
      (getLimitAttr (foundTag node).limitAttr resource period) deflt resource period := by
  have hfirst : firstLimit resource node = some limit := by
    rw [firstLimit, ← List.head?_filter, honce]
    rfl
  have hforce : limitInForce root (lineName node.properties) resource = some limit := by
    rw [limitInForce, hlast, Option.bind_some, lastLimit, KeyedLog.last, ← List.head?_filter,
      List.filter_reverse, honce]
    rfl
  have hown : getLimitAttr (foundTag node).limitAttr resource period = text := by
    rw [getLimitAttr_foundTag, hfirst, Option.map_some, Option.getD_some, copiedAttr, htext,
      Option.getD_some, List.take_of_length_le hfits]
  rw [hforce, hown]
  rcases hvalue with hpos | hnoBound
  · refine .number ?_ ?_
    · rwa [atoll_of_small hsmall.small]
    · obtain ⟨n, hn⟩ := Int.eq_ofNat_of_zero_le hpos.le
      rw [atoll_of_small hsmall.small, hn]
      exact .text htext (hsmall.readsAs hn)
  · refine .noBound ?_ ⟨limit, rfl, fun text' htext' => ?_⟩
    · rwa [atoll_of_small hsmall.small]
    · cases htext.symm.trans htext'
      rw [← longOfDouble_atof_neg_iff, longOfDouble_of_small hsmall, hnoBound]
      decide

/-- On an accepted file a line of the list shows what is stored for its name exactly if there is a
default below the root and the line agrees with the limit in force. -/
theorem listed_iff {liblve : Bool} {root : XmlNode} {cfg : GovernorConfig}
    (haccepted : configInit liblve root = .ok cfg) (hlistable : Listable root)
    (hsmall : ∀ node ∈ childrenNamed root "user", SmallLimits node)
    (unset : Resource → Period → CString) (ids : List CString) {i : ℕ} {tag : DbCtlFoundTag}
    (htag : (addMemoryUser ids (readCfg root "user"))[i]? = some tag) (resource : Resource)
    (period : Period) :
    ListedAsStored unset ids root i resource period ↔
      ∃ defaultTag, (readCfg root "default").head? = some defaultTag ∧
        LineAgrees (limitInForce root (lineName tag.attr) resource)
          (getLimitAttr tag.limitAttr resource period) (defaultText unset defaultTag resource period)
          resource period := by
  have hown : (leadingInt (getLimitAttr tag.limitAttr resource period)).natAbs < 2 ^ 31 := by
    rcases mem_addMemoryUser (List.mem_of_getElem? htag) with huser | ⟨id, rfl⟩
    · obtain ⟨node, hnode, rfl⟩ := List.mem_map.mp huser
      exact getLimitAttr_small (hsmall node hnode) resource period
    · change (leadingInt (ascii "0")).natAbs < 2 ^ 31
      decide
  obtain ⟨limit, hlimit, hvalue⟩ := effectiveLimit_value haccepted (lineName tag.attr)
  have hlines := printList_eq hlistable unset 2 ids
  constructor
  · rintro ⟨lines, line, limit', hprint, hline, hlimit', hdata⟩
    rw [hprint, Option.map_some] at hlines
    obtain ⟨defaultTag, hdefault, hmap⟩ := Option.map_eq_some_iff.mp hlines.symm
    rw [← hmap, List.getElem?_map, htag, Option.map_some] at hline
    cases hline
    cases hlimit.symm.trans hlimit'
    refine ⟨defaultTag, hdefault, (lineValue_eq_max_iff hown _ _ _ _).mp ?_⟩
    rw [← hvalue resource period]
    exact hdata
  · rintro ⟨defaultTag, hdefault, hagrees⟩
    rw [hdefault, Option.map_some] at hlines
    obtain ⟨lines, hprint, hmap⟩ := Option.map_eq_some_iff.mp hlines
    have hline : lines.2[i]? = some
        ⟨lineName tag.attr, lineData 2 tag.limitAttr (some (defaultText unset defaultTag))⟩ := by
      rw [hmap, List.getElem?_map, htag, Option.map_some]
    refine ⟨lines, _, limit, hprint, hline, hlimit, ?_⟩
    rw [hvalue resource period]
    exact (lineValue_eq_max_iff hown _ _ _ _).mpr hagrees

/-- The shipped file with a user who has limits for the CPU. -/
def cpuUserRoot (attrs : List (String × String)) : XmlNode :=
  shippedRoot [element "user" [("name", "bob"), ("mode", "restrict")]
    [element "limit" (("name", "cpu") :: attrs) []]]

/-- A limit of the user's own, and one from the default. -/
theorem listed_iff_sample :
    let root := cpuUserRoot [("current", "50"), ("short", "40"), ("mid", "-1"), ("long", "30")]
    ListedAsStored (fun _ _ => []) [] root 0 .cpu .mid ∧
      ListedAsStored (fun _ _ => []) [] root 0 .read .short := by
  intro root
  have hsome : (configInit true root).toOption.isSome = true := by decide +kernel
  obtain ⟨cfg, hcfg⟩ := Option.isSome_iff_exists.mp hsome
  have haccepted : configInit true root = .ok cfg := eq_ok_of_toOption hcfg
  have hlistable : Listable root := by decide +kernel
  have hsmall : ∀ node ∈ childrenNamed root "user", SmallLimits node := by decide +kernel
  constructor
  · refine (listed_iff haccepted hlistable hsmall _ _ rfl _ _).mpr ⟨_, rfl, ?_⟩
    refine .of_written_once rfl rfl rfl ⟨?_, ?_⟩ ?_ ?_ _
    all_goals decide +kernel
  · refine (listed_iff haccepted hlistable hsmall _ _ rfl _ _).mpr ⟨_, rfl, ?_⟩
    have hforce : limitInForce root (ascii "bob") .read = some
        (limitElement "read" "1000000000" "830000000" "760000000" "590000000") := rfl
    have hnumber : defaultNumber (ascii "830000000") .read = (830000000 : ℕ) := by
      decide +kernel
    have htext : SmallInteger (ascii "830000000") := by decide +kernel
    refine .defaultNumber (by decide) (by decide) ?_
    change GivesNumber .short (limitInForce root (ascii "bob") .read)
      (defaultNumber (ascii "830000000") .read)
    rw [hforce, hnumber]
    exact .text rfl (htext.readsAs (by decide +kernel))

/-- A period that is left out of a user's limit is not bounded, and the list shows the default. -/
theorem missing_period_listed_as_default :
    ¬ ∀ (liblve : Bool) (root : XmlNode) (cfg : GovernorConfig), configInit liblve root = .ok cfg →
      Listable root → (∀ node ∈ childrenNamed root "user", SmallLimits node) →
      ∀ unset ids i tag, (addMemoryUser ids (readCfg root "user"))[i]? = some tag →
        ∀ resource period, ListedAsStored unset ids root i resource period := by
  intro hlisted
  have hsome : (configInit true (cpuUserRoot [("current", "50")])).toOption.isSome = true := by
    decide +kernel
  obtain ⟨cfg, hcfg⟩ := Option.isSome_iff_exists.mp hsome
  obtain ⟨lines, line, limit, hlines, hline, hlimit, hdata⟩ :=
    hlisted true _ cfg (eq_ok_of_toOption hcfg) (by decide +kernel) (by decide +kernel)
      (fun _ _ => []) [] 0 _ rfl .cpu .short
  have hshown : (printList (fun _ _ => []) 2 [] (cpuUserRoot [("current", "50")])).map (fun lines =>
      lines.2[0]?.map fun line => (line.name, line.data .cpu .short)) =
      some (some (ascii "bob", 380)) := by
    decide +kernel
  have hstored : (effectiveLimit (cpuUserRoot [("current", "50")]) (ascii "bob")).toOption.map
      (fun limit => limit.value .cpu .short) = some (-1) := by
    decide +kernel
  rw [hlines, Option.map_some, hline, Option.map_some] at hshown
  obtain ⟨hname, hnumber⟩ := Prod.mk.inj (Option.some.inj (Option.some.inj hshown))
  rw [← hname, hlimit] at hstored
  have hvalue : limit.value .cpu .short = -1 := Option.some.inj hstored
  rw [hnumber, hvalue] at hdata
  exact absurd hdata (by decide)

end DbGovernor
