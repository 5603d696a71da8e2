import DbGovernor.Verification.ProcFs.Scanning
import Mathlib.Algebra.Order.BigOperators.Group.List

/-!
# The I/O counters of a thread

Each key is found at the front of its own line, because the only key that ends like another one
stands behind it. The counters are kept in signed integers.
-/

namespace DbGovernor

variable {key name rest block : CString} {c : UInt8}

/-! ### The kernel's layout -/

/-- A line of the file. -/
def ioLine (line : CString × UInt64) : CString :=
  line.1 ++ 58 :: 32 :: decimalText line.2.toNat ++ [10]

/-- The text of the file. -/
def ioText (lines : List (CString × UInt64)) : CString := lines.flatMap ioLine

/-- The counters of the kernel. -/
structure IoCounters where
  rchar : UInt64
  wchar : UInt64
  syscr : UInt64
  syscw : UInt64
  readBytes : UInt64
  writeBytes : UInt64
  cancelledWriteBytes : UInt64

/-- The lines in the kernel's order. -/
def IoCounters.lines (counters : IoCounters) : List (CString × UInt64) :=
  [(ascii "rchar", counters.rchar), (ascii "wchar", counters.wchar),
    (ascii "syscr", counters.syscr), (ascii "syscw", counters.syscw),
    (ascii "read_bytes", counters.readBytes), (ascii "write_bytes", counters.writeBytes),
    (ascii "cancelled_write_bytes", counters.cancelledWriteBytes)]

/-- A name of a counter: no byte that ends a key, and no letter that scales a value. -/
def IsIoName (name : CString) : Prop :=
  name ≠ [] ∧ ∀ c ∈ name, c ≠ 0 ∧ c ≠ 10 ∧ c ≠ 32 ∧ c ≠ 58 ∧ isDigit c = false ∧ c ≠ 107 ∧ c ≠ 77

instance (name : CString) : Decidable (IsIoName name) := inferInstanceAs (Decidable (_ ∧ _))

/-! ### Searching a key -/

theorem strstr_of_prefix (key rest : CString) : strstr (key ++ rest) key = some (key ++ rest) := by
  rw [strstr.eq_def, if_pos (List.isPrefixOf_iff_prefix.mpr (List.prefix_append key rest))]

/-- Bytes that do not start the key are skipped. -/
theorem strstr_skip (hblock : ∀ d ∈ block, d ≠ c) :
    strstr (block ++ rest) (c :: key) = strstr rest (c :: key) := by
  induction block with
  | nil => rfl
  | cons d block ih =>
      obtain ⟨hd, hblock⟩ := List.forall_mem_cons.mp hblock
      rw [List.cons_append, strstr, if_neg, ih hblock]
      rw [List.isPrefixOf_iff_prefix, List.cons_prefix_cons]
      exact fun h => hd h.1.symm

/-- In a name the key is found only if the name ends with it. -/
theorem strstr_skip_name (hkey : 58 ∉ key) (hname : 58 ∉ name)
    (hsuffix : ¬ key ++ [58] <:+ name ++ [58]) :
    strstr (name ++ 58 :: rest) (key ++ [58]) = strstr (58 :: rest) (key ++ [58]) := by
  induction name with
  | nil => rfl
  | cons d name ih =>
      have hnot : ¬ key ++ [58] <+: d :: (name ++ 58 :: rest) := by
        rintro ⟨tail, htail⟩
        have hsame := congrArg (List.takeWhile (· ≠ 58)) htail
        rw [List.append_assoc, ← List.cons_append, List.singleton_append,
          Segments.takeWhile_ne_cons hkey, Segments.takeWhile_ne_cons hname] at hsame
        exact hsuffix (hsame ▸ List.suffix_refl _)
      have hshorter : ¬ key ++ [58] <:+ name ++ [58] := fun h =>
        hsuffix (h.trans (List.suffix_cons d _))
      rw [List.cons_append, strstr, if_neg (by rwa [List.isPrefixOf_iff_prefix])]
      exact ih (fun h => hname (List.mem_cons_of_mem d h)) hshorter

theorem strstr_skip_line (hkey : IsIoName key) (hname : IsIoName name) (value : UInt64)
    (hsuffix : ¬ key ++ [58] <:+ name ++ [58]) (rest : CString) :
    strstr (ioLine (name, value) ++ rest) (key ++ [58]) = strstr rest (key ++ [58]) := by
  have hcolon : ∀ {word}, IsIoName word → (58 : UInt8) ∉ word := fun h hmem =>
    (h.2 58 hmem).2.2.2.1 rfl
  obtain ⟨c, tail, rfl⟩ := List.exists_cons_of_ne_nil hkey.1
  have hfirst := hkey.2 c List.mem_cons_self
  have hblock : ∀ d ∈ 58 :: 32 :: decimalText value.toNat ++ [10], d ≠ c := by
    intro d hd
    simp only [List.cons_append, List.mem_cons, List.mem_append, List.not_mem_nil, or_false] at hd
    rcases hd with rfl | rfl | hdigit | rfl
    · exact hfirst.2.2.2.1.symm
    · exact hfirst.2.2.1.symm
    · rintro rfl
      rw [isDigit_of_mem_decimalText hdigit] at hfirst
      cases hfirst.2.2.2.2.1
    · exact hfirst.2.1.symm
  have hskip : strstr (58 :: 32 :: decimalText value.toNat ++ [10] ++ rest) (c :: tail ++ [58]) =
      strstr rest (c :: tail ++ [58]) := strstr_skip hblock
  rw [ioLine, List.append_assoc, List.append_assoc, List.cons_append]
  rw [strstr_skip_name (hcolon hkey) (hcolon hname) hsuffix]
  simpa using hskip

theorem ioText_cons (line : CString × UInt64) (lines : List (CString × UInt64)) :
    ioText (line :: lines) = ioLine line ++ ioText lines := by
  rw [ioText, ioText, List.flatMap_cons]

/-- The key is found at the front of its line. -/
theorem strstr_ioText (before after : List (CString × UInt64)) (value : UInt64)
    (hkey : IsIoName key)
    (hbefore : ∀ line ∈ before, IsIoName line.1 ∧ ¬ key ++ [58] <:+ line.1 ++ [58]) :
    strstr (ioText (before ++ (key, value) :: after)) (key ++ [58]) =
      some (ioText ((key, value) :: after)) := by
  induction before with
  | nil =>
      have hline : ioText ((key, value) :: after) =
          key ++ [58] ++ (32 :: decimalText value.toNat ++ [10] ++ ioText after) := by
        rw [ioText_cons, ioLine]
        simp
      rw [List.nil_append, hline]
      exact strstr_of_prefix _ _
  | cons line before ih =>
      obtain ⟨⟨hname, hsuffix⟩, hothers⟩ := List.forall_mem_cons.mp hbefore
      rw [List.cons_append, ioText_cons, strstr_skip_line hkey hname line.2 hsuffix, ih hothers]

/-- No letter behind a value scales it. -/
theorem notMem_ioText {lines : List (CString × UInt64)} (hlines : ∀ line ∈ lines, IsIoName line.1)
    (hc : c = 0 ∨ c = 107 ∨ c = 77) : c ∉ ioText lines := by
  intro hmem
  obtain ⟨line, hline, hmem⟩ := List.mem_flatMap.mp hmem
  simp only [ioLine, List.mem_append, List.mem_cons, List.not_mem_nil, or_false] at hmem
  rcases hmem with (hname | rfl | rfl | hdigit) | rfl
  · have hplain := (hlines line hline).2 c hname
    rcases hc with rfl | rfl | rfl
    · exact hplain.1 rfl
    · exact hplain.2.2.2.2.2.1 rfl
    · exact hplain.2.2.2.2.2.2 rfl
  · revert hc
    decide
  · revert hc
    decide
  · have hdecimal := isDigit_of_mem_decimalText hdigit
    rcases hc with rfl | rfl | rfl <;> cases hdecimal
  · revert hc
    decide

/-- The value of a key is read without a scale. -/
theorem getScaledIostat_ioText (before after : List (CString × UInt64)) (value : UInt64)
    (hkey : IsIoName key)
    (hbefore : ∀ line ∈ before, IsIoName line.1 ∧ ¬ key ++ [58] <:+ line.1 ++ [58])
    (hafter : ∀ line ∈ after, IsIoName line.1) :
    getScaledIostat (ioText (before ++ (key, value) :: after)) (key ++ [58]) = value := by
  have hdrop : (ioText ((key, value) :: after)).drop (key ++ [58]).length =
      32 :: decimalText value.toNat ++ 10 :: ioText after := by
    rw [ioText_cons, ioLine]
    simp
  have hread : strtoull (32 :: decimalText value.toNat ++ 10 :: ioText after) =
      (value, 10 :: ioText after) := by
    refine strtoull_decimalText ?_ (startsBlank_cons rfl _)
    obtain ⟨c, tail, hc, hdigit⟩ := exists_decimalText_cons value.toNat
    rw [hc, nextToken, List.cons_append, List.dropWhile_cons_of_pos (by decide), List.cons_append,
      List.dropWhile_cons_of_neg (by simp [not_isSpace_of_isDigit hdigit])]
  have hscale : ∀ c, c = 107 ∨ c = 77 → c ∉ 10 :: ioText after := by
    intro c hc hmem
    rcases List.mem_cons.mp hmem with rfl | hmem
    · revert hc
      decide
    · exact notMem_ioText hafter (.inr hc) hmem
  rw [getScaledIostat, strstr_ioText before after value hkey hbefore]
  simp only [hdrop, hread, if_neg (hscale 107 (.inl rfl)), if_neg (hscale 77 (.inr rfl))]

/-! ### The file -/

section

variable (counters : IoCounters)

/-- The names of the lines. -/
def ioNames : List CString :=
  ["rchar", "wchar", "syscr", "syscw", "read_bytes", "write_bytes",
    "cancelled_write_bytes"].map ascii

theorem mem_ioNames {line : CString × UInt64} (h : line ∈ counters.lines) : line.1 ∈ ioNames :=
  List.mem_map_of_mem (f := Prod.fst) h

theorem isIoName_lines : ∀ line ∈ counters.lines, IsIoName line.1 := by
  have hnames : ∀ name ∈ ioNames, IsIoName name := by decide +kernel
  exact fun line hline => hnames line.1 (mem_ioNames counters hline)

theorem length_ioLine_le (line : CString × UInt64) : (ioLine line).length ≤ line.1.length + 23 := by
  have hdigits := length_decimalText_le (n := line.2.toNat) (k := 20) (by decide)
    (line.2.toNat_lt.trans (by decide))
  simp only [ioLine, List.length_append, List.length_cons, List.length_nil]
  omega

/-- The whole file is in the buffer. -/
theorem tryFileToBuffer_ioText :
    tryFileToBuffer (some (ioText counters.lines)) = some (ioText counters.lines) := by
  have hlength : (ioText counters.lines).length ≤ bufsiz - 1 := by
    have hnames : ∀ name ∈ ioNames, name.length ≤ 21 := by decide +kernel
    have hlines : ∀ length ∈ counters.lines.map (List.length ∘ ioLine), length ≤ 44 := by
      intro length hmem
      obtain ⟨line, hline, rfl⟩ := List.mem_map.mp hmem
      have hname := hnames line.1 (mem_ioNames counters hline)
      have hle := length_ioLine_le line
      rw [Function.comp_apply]
      omega
    have hsum := List.sum_le_card_nsmul _ 44 hlines
    rw [ioText, List.length_flatMap]
    exact hsum.trans (by simp [IoCounters.lines, bufsiz])
  have hnoNul := notMem_ioText (c := 0) (isIoName_lines counters) (.inl rfl)
  rw [tryFileToBuffer, Option.map_some, List.take_of_length_le hlength,
    Segments.takeWhile_ne hnoNul]

/-- Each of the five keys that are read gives the value of its own line. -/
theorem getScaledIostat_lines :
    getScaledIostat (ioText counters.lines) (ascii "rchar:") = counters.rchar ∧
      getScaledIostat (ioText counters.lines) (ascii "wchar:") = counters.wchar ∧
      getScaledIostat (ioText counters.lines) (ascii "read_bytes:") = counters.readBytes ∧
      getScaledIostat (ioText counters.lines) (ascii "write_bytes:") = counters.writeBytes ∧
      getScaledIostat (ioText counters.lines) (ascii "cancelled_write_bytes:") =
        counters.cancelledWriteBytes := by
  have hread : ∀ (i : ℕ) (key : CString) (value : UInt64) (after : List (CString × UInt64)),
      counters.lines.drop i = (key, value) :: after →
      (∀ name ∈ ioNames.take i, ¬ key ++ [58] <:+ name ++ [58]) →
      getScaledIostat (ioText counters.lines) (key ++ [58]) = value := by
    intro i key value after hdrop hbefore
    have hnames := isIoName_lines counters
    have hsplit : counters.lines = counters.lines.take i ++ (key, value) :: after := by
      rw [← hdrop, List.take_append_drop]
    rw [hsplit] at hnames
    obtain ⟨htake, hline⟩ := List.forall_mem_append.mp hnames
    obtain ⟨hkey, hafter⟩ := List.forall_mem_cons.mp hline
    rw [hsplit]
    refine getScaledIostat_ioText _ after value hkey (fun line hmem => ⟨htake line hmem, ?_⟩) hafter
    refine hbefore line.1 ?_
    have hmap : ioNames.take i = (counters.lines.take i).map Prod.fst := by
      rw [List.map_take]
      rfl
    rw [hmap]
    exact List.mem_map_of_mem hmem
  refine ⟨hread 0 (ascii "rchar") _ _ rfl ?_, hread 1 (ascii "wchar") _ _ rfl ?_,
    hread 4 (ascii "read_bytes") _ _ rfl ?_, hread 5 (ascii "write_bytes") _ _ rfl ?_,
    hread 6 (ascii "cancelled_write_bytes") _ _ rfl ?_⟩
  all_goals decide +kernel

/-- The counters that the kernel printed, with the cancelled writes taken off. -/
structure ReadsExactly (counters : IoCounters) (info : DbgovIostat) : Prop where
  rchar : info.rchar = counters.rchar.toNat
  wchar : info.wchar = counters.wchar.toNat
  readBytes : info.readBytes = counters.readBytes.toNat
  cancelledWriteBytes : info.cancelledWriteBytes = counters.cancelledWriteBytes.toNat
  writeBytes : info.writeBytes =
    max 0 ((counters.writeBytes.toNat : ℤ) - counters.cancelledWriteBytes.toNat)

theorem bmod_natCast {n : ℕ} (h : n < 2 ^ 64) :
    (n : ℤ).bmod (2 ^ 64) = if n < 2 ^ 63 then (n : ℤ) else n - 2 ^ 64 := by
  rw [Int.bmod_def]
  push_cast
  split_ifs <;> omega

theorem longLongOf_eq (u : UInt64) :
    longLongOf u = if u.toNat < 2 ^ 63 then (u.toNat : ℤ) else u.toNat - 2 ^ 64 :=
  bmod_natCast u.toNat_lt

theorem longLongOf_of_lt {u : UInt64} (h : u.toNat < 2 ^ 63) : longLongOf u = u.toNat := by
  rw [longLongOf_eq, if_pos h]

theorem longLongOf_of_ge {u : UInt64} (h : 2 ^ 63 ≤ u.toNat) :
    longLongOf u = u.toNat - 2 ^ 64 := by
  rw [longLongOf_eq, if_neg (by omega)]

theorem longLongOf_eq_toNat_iff {u : UInt64} : longLongOf u = u.toNat ↔ u.toNat < 2 ^ 63 := by
  rw [longLongOf_eq]
  split <;> omega

/-- `get_io_stat` reads the counters exactly when those it keeps fit in a signed integer. -/
theorem getIoStat_exact_iff :
    (getIoStat (some (ioText counters.lines))).1 = 0 ∧
        ReadsExactly counters (getIoStat (some (ioText counters.lines))).2 ↔
      counters.rchar.toNat < 2 ^ 63 ∧ counters.wchar.toNat < 2 ^ 63 ∧
        counters.readBytes.toNat < 2 ^ 63 ∧ counters.writeBytes.toNat < 2 ^ 63 ∧
        counters.cancelledWriteBytes.toNat < 2 ^ 63 := by
  obtain ⟨hrchar, hwchar, hread, hwrite, hcancelled⟩ := getScaledIostat_lines counters
  rw [getIoStat, tryFileToBuffer_ioText]
  simp only [hrchar, hwchar, hread, hwrite, hcancelled]
  constructor
  · rintro ⟨-, hrchar, hwchar, hreadBytes, hcancelledBytes, hwriteBytes⟩
    dsimp only at hrchar hwchar hreadBytes hcancelledBytes hwriteBytes
    rw [longLongOf_eq_toNat_iff] at hrchar hwchar hreadBytes hcancelledBytes
    refine ⟨hrchar, hwchar, hreadBytes, ?_, hcancelledBytes⟩
    by_contra hlarge
    have hlt := counters.writeBytes.toNat_lt
    rw [longLongOf_of_lt hcancelledBytes, longLongOf_of_ge (by omega), if_neg (by omega)]
      at hwriteBytes
    omega
  · rintro ⟨hrchar, hwchar, hreadBytes, hwriteBytes, hcancelledBytes⟩
    rw [longLongOf_of_lt hrchar, longLongOf_of_lt hwchar, longLongOf_of_lt hreadBytes,
      longLongOf_of_lt hwriteBytes, longLongOf_of_lt hcancelledBytes]
    refine ⟨trivial, rfl, rfl, rfl, rfl, ?_⟩
    dsimp only
    split
    case isTrue hle =>
      rw [Int.bmod_eq_of_le (by omega) (by omega)]
      omega
    case isFalse hgt => omega

end

/-- A thread that has read half of the range of the kernel's counter. -/
def largeCounters : IoCounters := ⟨9223372036854775808, 0, 1, 0, 0, 0, 0⟩

/-- The counter is read as a negative number. -/
theorem large_counter_not_exact :
    ¬ ((getIoStat (some (ioText largeCounters.lines))).1 = 0 ∧
      ReadsExactly largeCounters (getIoStat (some (ioText largeCounters.lines))).2) := by
  rintro ⟨-, hexact⟩
  have hnegative : (getIoStat (some (ioText largeCounters.lines))).2.rchar =
      -9223372036854775808 := by
    decide +kernel
  have hrchar := hexact.rchar
  rw [hnegative] at hrchar
  revert hrchar
  decide

end DbGovernor
