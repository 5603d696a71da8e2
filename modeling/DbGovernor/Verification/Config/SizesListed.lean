import DbGovernor.Verification.Config.Listing
import DbGovernor.Verification.Config.RepeatedEdits
import DbGovernor.Verification.Config.Units

/-!
# Sizes are listed as they were set

A number in a unit is stored in bytes and divided again when it is listed in that unit. The list
prints it as an `int`.
-/

namespace DbGovernor

/-- The units of a size. -/
inductive SizeUnit where
  | byte | kilobyte | megabyte
deriving DecidableEq

def SizeUnit.bytes : SizeUnit → ℤ
  | .byte => 1
  | .kilobyte => 1024
  | .megabyte => 1024 * 1024

def SizeUnit.letter : SizeUnit → UInt8
  | .byte => 98
  | .kilobyte => 107
  | .megabyte => 109

/-- The flag of `dbctl list` for the unit. -/
def SizeUnit.flag : SizeUnit → ℕ
  | .byte => 2
  | .kilobyte => 1
  | .megabyte => 3

/-- One field with a number in a unit. -/
def sizeField (n : ℤ) (unit : SizeUnit) : CString := lldText n ++ [unit.letter]

/-- The argument with the same field for each period. -/
def fourSizes (n : ℤ) (unit : SizeUnit) : CString :=
  [44].intercalate (List.replicate 4 (sizeField n unit))

/-- The number of bytes that a field stands for; -1 is no limit in any unit. -/
def storedSize (n : ℤ) (unit : SizeUnit) : ℤ := if n = -1 then -1 else n * unit.bytes

/-- The numbers that are set: -1, or a positive number of which the bytes fit in a `long long`. -/
def Settable (n : ℤ) (unit : SizeUnit) : Prop := n = -1 ∨ 1 ≤ n ∧ n * unit.bytes < 2 ^ 63

/-- A limit for reads or writes in a user element that is listed, the first one of its name. -/
structure LimitPlace (resource : Resource) where
  properties : List (String × CString)
  before : List XmlNode
  limit : XmlNode
  after : List XmlNode
  sized : resource = .read ∨ resource = .write
  listed : ∃ mode, getAttr properties "mode" = some mode ∧ mode ≠ ascii "ignore"
  isLimit : isLimit (ascii resource.name) limit = true
  isFirst : ∀ cur ∈ before, DbGovernor.isLimit (ascii resource.name) cur = false

section

variable {n : ℤ} {unit : SizeUnit} {resource : Resource}

/-- The user element with another limit in that place. -/
def LimitPlace.user (place : LimitPlace resource) (limit : XmlNode) : XmlNode :=
  ⟨"user", place.properties, place.before ++ limit :: place.after⟩

/-! ### What is stored -/

theorem settable_bounds (h : Settable n unit) : -1 ≤ n ∧ n < 2 ^ 63 ∧ n ≠ 0 := by
  rcases h with rfl | ⟨hpos, hhigh⟩
  · decide
  · cases unit <;> simp only [SizeUnit.bytes] at hhigh <;> omega

theorem length_lldText_lt (hlow : -1 ≤ n) (hhigh : n < 2 ^ 63) : (lldText n).length ≤ 20 := by
  have hlength := length_decimalText_le (n := n.natAbs) (k := 19) (by decide) (by omega)
  rw [lldText_eq]
  split
  · rw [List.length_cons]
    omega
  · omega

/-- A number starts with a digit or a minus sign. -/
theorem startsPrintable_lldText (n : ℤ) : startsPrintable (lldText n) = true := by
  rw [lldText_eq]
  split
  · rfl
  · obtain ⟨c, rest, hc, hdigit⟩ := exists_decimalText_cons n.natAbs
    rw [hc, startsPrintable]
    simp only [isDigit, isPrint, Bool.and_eq_true, decide_eq_true_eq] at hdigit ⊢
    grind

theorem not_comma_of_mem_lldText {c : UInt8} (h : c ∈ lldText n) : c ≠ 44 := by
  rintro rfl
  have hdigits : (44 : UInt8) ∉ decimalText n.natAbs := fun hmem => by
    cases isDigit_of_mem_decimalText hmem
  rw [lldText_eq] at h
  split at h
  · rcases List.mem_cons.mp h with hminus | hmem
    · cases hminus
    · exact hdigits hmem
  · exact hdigits h

/-- The four fields come out of the argument again. -/
theorem split_fourSizes (n : ℤ) (unit : SizeUnit) :
    split (fourSizes n unit) = .fields ⟨sizeField n unit, sizeField n unit, sizeField n unit,
      sizeField n unit⟩ := by
  have hcomma : ∀ part ∈ List.replicate 4 (sizeField n unit), (44 : UInt8) ∉ part := by
    intro part hpart hmem
    rw [List.eq_of_mem_replicate hpart, sizeField] at hmem
    rcases List.mem_append.mp hmem with hnumber | hletter
    · exact not_comma_of_mem_lldText hnumber rfl
    · cases unit <;> cases List.mem_singleton.mp hletter
  rw [split, fourSizes, List.splitOn_intercalate 44 hcomma (by simp)]
  rfl

theorem getUnits_lldText (h : Settable n unit) :
    getUnits unit.bytes (lldText n) = lldText (storedSize n unit) := by
  obtain ⟨hlow, hhigh, -⟩ := settable_bounds h
  rw [getUnits, atoll_lldText (by omega) hhigh, storedSize]
  rcases h with rfl | ⟨hpos, hproduct⟩
  · cases unit <;> rfl
  · have hmul : 1 ≤ n * unit.bytes := by
      cases unit <;> simp only [SizeUnit.bytes] <;> omega
    have hsmall : (n * unit.bytes).bmod (2 ^ 64) = n * unit.bytes :=
      Int.bmod_eq_of_le (by omega) (by omega)
    rw [hsmall, if_neg (by omega), if_neg (by omega)]

/-- A field is converted to its bytes. -/
theorem unitsField_sizeField (h : Settable n unit) :
    unitsField (sizeField n unit) = lldText (storedSize n unit) := by
  obtain ⟨hlow, hhigh, -⟩ := settable_bounds h
  have hlength := length_lldText_lt hlow hhigh
  have hwhole : (sizeField n unit).take 100 = sizeField n unit := by
    apply List.take_of_length_le
    rw [sizeField, List.length_append, List.length_singleton]
    omega
  have hnumber : (sizeField n unit).take ((sizeField n unit).length - 1) = lldText n := by
    rw [sizeField, List.length_append, List.length_singleton, Nat.add_sub_cancel, List.take_left]
  have hlast : (sizeField n unit).getLast? = some unit.letter := List.getLast?_concat
  have hprint := startsPrintable_lldText n
  have hunits := getUnits_lldText h
  rw [unitsField, hwhole, hlast]
  simp only [hnumber, hprint, if_true]
  cases unit with
  | byte => exact hunits
  | kilobyte => exact hunits
  | megabyte => exact hunits

/-- The four attributes that are set. -/
theorem limitUpdates_fourSizes (h : Settable n unit) (hres : resource = .read ∨ resource = .write) :
    limitUpdates (some (ascii resource.name)) (fourSizes n unit) =
      some ([Period.current, .short, .mid, .long].map fun period =>
        (period.name, lldText (storedSize n unit))) := by
  have hname : ascii resource.name = ascii "read" ∨ ascii resource.name = ascii "write" :=
    hres.imp (by rintro rfl; rfl) (by rintro rfl; rfl)
  simp only [limitUpdates, split_fourSizes, SplitStr.forLimit, if_pos hname,
    unitsField_sizeField h]
  simp [SplitStr.updates, startsPrintable_lldText, Period.name]

/-- The limit after `setLimitAttr`. -/
theorem setLimitAttr_fourSizes (h : Settable n unit) (place : LimitPlace resource) :
    ∃ limit', setLimitAttr place.limit (fourSizes n unit) = some limit' ∧
      DbGovernor.isLimit (ascii resource.name) limit' = true ∧
      ∀ period : Period, getElemAttr limit' period.name = some (lldText (storedSize n unit)) := by
  obtain ⟨hlimit, hname⟩ := isLimit_iff.mp place.isLimit
  refine ⟨_, by rw [setLimitAttr, hname, limitUpdates_fourSizes h place.sized, Option.map_some],
    ?_, ?_⟩
  · refine isLimit_iff.mpr ⟨(setAttrs_frame _ _).1.trans hlimit, ?_⟩
    rw [getElemAttr_setAttrs_of_notMem (by simp [Period.name]), hname]
  · intro period
    have hmem : (period.name, lldText (storedSize n unit)) ∈
        [Period.current, .short, .mid, .long].map fun period =>
          (period.name, lldText (storedSize n unit)) :=
      List.mem_map.mpr ⟨period, by cases period <;> simp, rfl⟩
    exact getElemAttr_setAttrs_of_mem (by simp [Period.name]) hmem

/-! ### What is listed -/

theorem storedSize_bounds (h : Settable n unit) :
    -1 ≤ storedSize n unit ∧ storedSize n unit < 2 ^ 63 := by
  rw [storedSize]
  rcases h with rfl | ⟨hpos, hproduct⟩
  · rw [if_pos rfl]
    decide
  · rw [if_neg (by omega)]
    refine ⟨?_, hproduct⟩
    cases unit <;> simp only [SizeUnit.bytes] <;> omega

/-- The bytes are read back. -/
theorem atoll_storedSize (h : Settable n unit) :
    atoll (lldText (storedSize n unit)) = storedSize n unit := by
  obtain ⟨hlow, hhigh⟩ := storedSize_bounds h
  exact atoll_lldText (by omega) hhigh

/-- The list divides by the unit again. -/
theorem getMbStr_storedSize (h : Settable n unit) :
    getMbStr (lldText (storedSize n unit)) unit.flag = lldText n := by
  rw [getMbStr, atoll_storedSize h, storedSize]
  rcases h with rfl | ⟨hpos, -⟩
  · rfl
  · have hne : n ≠ -1 := by omega
    have hexact : (n * unit.bytes).tdiv unit.bytes = n :=
      Int.mul_tdiv_cancel n (by cases unit <;> decide)
    have hpositive : n * unit.bytes ≠ -1 := by
      cases unit <;> simp only [SizeUnit.bytes] <;> omega
    have hdivider : (if unit.flag = 1 then 1024 else if unit.flag = 2 then 1 else 1024 * 1024) =
        unit.bytes := by
      cases unit <;> rfl
    simp only [hdivider, if_neg hne, ne_eq, hpositive, not_false_iff, if_true, hexact]
    rw [if_neg (by omega)]

/-- A line shows the low 32 bits of the number. -/
theorem sizeValue_storedSize (h : Settable n unit) (deflt : Option CString) :
    sizeValue unit.flag (lldText (storedSize n unit)) deflt = n.bmod (2 ^ 32) := by
  obtain ⟨hlow, hhigh, hne⟩ := settable_bounds h
  have hread : atoll (getMbStr (lldText (storedSize n unit)) unit.flag) = n := by
    rw [getMbStr_storedSize h, atoll_lldText (by omega) hhigh]
  cases deflt with
  | none => simp only [sizeValue, hread]
  | some deflt => simp only [sizeValue, hread, hne, false_and, if_false]

theorem copiedAttr_storedSize (h : Settable n unit) {limit : XmlNode} {period : Period}
    (hget : getElemAttr limit period.name = some (lldText (storedSize n unit))) :
    copiedAttr limit period.name = lldText (storedSize n unit) := by
  obtain ⟨hlow, hhigh⟩ := storedSize_bounds h
  have hlength := length_lldText_lt hlow hhigh
  rw [copiedAttr, hget, Option.getD_some]
  exact List.take_of_length_le (by omega)

/-- The limit in its place is the one that is listed. -/
theorem firstLimit_user (place : LimitPlace resource) {limit : XmlNode}
    (h : DbGovernor.isLimit (ascii resource.name) limit = true) :
    firstLimit resource (place.user limit) = some limit := by
  obtain ⟨hlimit, hname⟩ := isLimit_iff.mp h
  have hbefore : ∀ cur ∈ place.before.filter (fun cur => cur.name = "limit"),
      ¬ getElemAttr cur "name" = some (ascii resource.name) := by
    intro cur hcur heq
    obtain ⟨hmem, hcurname⟩ := List.mem_filter.mp hcur
    have hfirst := place.isFirst cur hmem
    rw [isLimit_iff.mpr ⟨by simpa using hcurname, heq⟩] at hfirst
    cases hfirst
  rw [firstLimit, childrenNamed, LimitPlace.user, List.filter_append, List.find?_append,
    List.find?_eq_none.mpr (by simpa using hbefore), Option.none_or,
    List.filter_cons_of_pos (by simpa using hlimit), List.find?_cons_of_pos (by simpa using hname)]

/-- The fields of a limit in a user element are set to a number in a unit, and the line of the user
is printed in this unit: the bytes are stored, and the line shows the number. -/
structure ListedBack (place : LimitPlace resource) (n : ℤ) (unit : SizeUnit)
    (defs : DefaultTexts) (limit' : XmlNode) : Prop where
  set : setLimitAttr place.limit (fourSizes n unit) = some limit'
  stored : ∀ period : Period, getElemAttr limit' period.name = some (lldText (storedSize n unit))
  shown : ∃ line, getDefaultForUsers [foundTag (place.user limit')] (some defs) unit.flag =
    some [line] ∧ ∀ period, line.data resource period = n

theorem bmod_eq_self_iff (hlow : -1 ≤ n) (hhigh : n < 2 ^ 63) :
    n.bmod (2 ^ 32) = n ↔ n < 2 ^ 31 := by
  have hbound : n.bmod (2 ^ 32) < 2 ^ 31 := Int.bmod_lt (by decide)
  constructor
  · intro h
    omega
  · intro h
    exact bmod_of_small (by omega)

/-- The line of the user. -/
theorem line_of_stored (h : Settable n unit) (place : LimitPlace resource) (defs : DefaultTexts)
    {limit : XmlNode} (hlimit : DbGovernor.isLimit (ascii resource.name) limit = true)
    (hget : ∀ period : Period,
      getElemAttr limit period.name = some (lldText (storedSize n unit))) :
    ∃ line, getDefaultForUsers [foundTag (place.user limit)] (some defs) unit.flag =
      some [line] ∧ ∀ period, line.data resource period = n.bmod (2 ^ 32) := by
  obtain ⟨mode, hmode, hne⟩ := place.listed
  have hline : userLine unit.flag defs (foundTag (place.user limit)) =
      some (some ⟨lineName place.properties,
        lineData unit.flag (foundTag (place.user limit)).limitAttr defs⟩) := by
    have hattr : getAttr (foundTag (place.user limit)).attr "mode" = some mode := hmode
    rw [userLine, hattr, Option.map_some, if_neg hne]
    rfl
  refine ⟨_, by rw [getDefaultForUsers, List.mapM_cons, hline]; rfl, ?_⟩
  intro period
  have htext : getLimitAttr (foundTag (place.user limit)).limitAttr resource period =
      lldText (storedSize n unit) := by
    rw [getLimitAttr_foundTag, firstLimit_user place hlimit, Option.map_some, Option.getD_some,
      copiedAttr_storedSize h (hget period)]
  have hvalue := sizeValue_storedSize h (some (defs resource period))
  dsimp only [lineData]
  rw [htext]
  rcases place.sized with rfl | rfl
  · exact hvalue
  · exact hvalue

/-- A size is listed as it was set if it is below the range of an `int`. -/
theorem listedBack_iff (place : LimitPlace resource) (defs : DefaultTexts)
    (h : Settable n unit) :
    (∃ limit', ListedBack place n unit defs limit') ↔ n < 2 ^ 31 := by
  obtain ⟨hlow, hhigh, -⟩ := settable_bounds h
  obtain ⟨limit', hset, hlimit, hget⟩ := setLimitAttr_fourSizes h place
  obtain ⟨line, hline, hdata⟩ := line_of_stored h place defs hlimit hget
  rw [← bmod_eq_self_iff hlow hhigh]
  constructor
  · rintro ⟨other, hother, -, line', hline', hshown⟩
    obtain rfl := Option.some.inj (hset.symm.trans hother)
    obtain rfl : line = line' := by
      rw [hline] at hline'
      simpa using hline'
    rw [← hdata .current]
    exact hshown .current
  · intro hsmall
    exact ⟨limit', hset, hget, line, hline, fun period => (hdata period).trans hsmall⟩

end

/-- The limit for reads of a user with no other limit. -/
def readPlace : LimitPlace .read where
  properties := [("name", ascii "bob"), ("mode", ascii "restrict")]
  before := []
  limit := element "limit" [("name", "read")] []
  after := []
  sized := .inl rfl
  listed := ⟨ascii "restrict", rfl, by decide⟩
  isLimit := by decide
  isFirst := by simp

theorem listedBack_iff_sample :
    ∃ limit', ListedBack readPlace 500 .megabyte (fun _ _ => ascii "0") limit' :=
  (listedBack_iff readPlace _ (.inr (by decide))).mpr (by decide)

/-- Three thousand million bytes are listed as a negative number. -/
theorem large_size_not_listed_back :
    ¬ ∃ limit', ListedBack readPlace 3000000000 .byte (fun _ _ => ascii "0") limit' := by
  rintro ⟨limit', hset, -, line, hline, hshown⟩
  have hrow : ((setLimitAttr readPlace.limit (fourSizes 3000000000 .byte)).bind fun limit =>
      (getDefaultForUsers [foundTag (readPlace.user limit)] (some fun _ _ => ascii "0") 2).map
        (·.map fun line => line.data .read .current)) = some [-1294967296] := by
    decide +kernel
  rw [hset, Option.bind_some] at hrow
  have hmap := congrArg (Option.map (List.map fun line => line.data .read .current)) hline
  rw [show SizeUnit.byte.flag = 2 from rfl] at hmap
  rw [hmap, Option.map_some, List.map_cons, hshown .current] at hrow
  exact absurd hrow (by decide)

end DbGovernor
