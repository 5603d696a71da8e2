import DbGovernor.Verification.ProcFs.Scanning
import Mathlib.Data.List.DropRight

/-!
# The CPU times of a thread

The name of a thread may hold spaces and parentheses. The fields are counted from the last closing
parenthesis on, which is the one behind the name.
-/

namespace DbGovernor

variable {s rest token : CString} {tokens : List CString}

/-! ### The kernel's layout -/

/-- A field of the file. -/
structure IsToken (token : CString) : Prop where
  nonempty : token ≠ []
  plain : ∀ c ∈ token, isSpace c = false ∧ c ≠ 0 ∧ c ≠ 40 ∧ c ≠ 41

instance (token : CString) : Decidable (IsToken token) :=
  let _ := List.decidableBAll (fun c => isSpace c = false ∧ c ≠ 0 ∧ c ≠ 40 ∧ c ≠ 41) token
  decidable_of_iff (token ≠ [] ∧ _)
    ⟨fun h => ⟨h.1, h.2⟩, fun h => ⟨h.nonempty, h.plain⟩⟩

/-- Fields with a space in front of each, and what follows them. -/
def spaced (tokens : List CString) (rest : CString) : CString :=
  tokens.flatMap (fun token => 32 :: token) ++ rest

def isLetter (c : UInt8) : Bool := (65 ≤ c && c ≤ 90) || (97 ≤ c && c ≤ 122)

/-- The fields of a `stat` file of the kernel. -/
structure StatText where
  tid : ℕ
  comm : CString
  state : UInt8
  fields4to13 : List CString
  utime : UInt64
  stime : UInt64
  cutime : UInt64
  cstime : UInt64
  fields18to20 : List CString
  itRealValue : UInt64
  more : List CString
  newline : Bool
  comm_noNul : 0 ∉ comm
  comm_length : comm.length ≤ 64
  state_letter : isLetter state = true
  length4to13 : fields4to13.length = 10
  length18to20 : fields18to20.length = 3
  tokens : ∀ token ∈ fields4to13 ++ fields18to20 ++ more, IsToken token

/-- The fields from the 18th on. -/
def StatText.fieldsFrom18 (stat : StatText) : List CString :=
  stat.fields18to20 ++ decimalText stat.itRealValue.toNat :: stat.more

/-- The fields from the 4th on. -/
def StatText.fields (stat : StatText) : List CString :=
  stat.fields4to13 ++ decimalText stat.utime.toNat :: decimalText stat.stime.toNat ::
    decimalText stat.cutime.toNat :: decimalText stat.cstime.toNat :: stat.fieldsFrom18

/-- What stands behind the last field. -/
def StatText.ending (stat : StatText) : CString := if stat.newline then [10] else []

/-- What follows the name and its parenthesis. -/
def StatText.afterComm (stat : StatText) : CString :=
  spaced ([stat.state] :: stat.fields) stat.ending

/-- The text of the file. -/
def StatText.text (stat : StatText) : CString :=
  decimalText stat.tid ++ 32 :: 40 :: stat.comm ++ 41 :: stat.afterComm

/-! ### Tokens -/

theorem isToken_decimalText (n : ℕ) : IsToken (decimalText n) := by
  refine ⟨decimalText_ne_nil n, fun c hc => ?_⟩
  have hdigit : isDigit c = true := isDigit_of_mem_decimalText hc
  refine ⟨not_isSpace_of_isDigit hdigit, ?_⟩
  revert hdigit
  simp only [isDigit]
  grind

theorem isToken_letter {c : UInt8} (h : isLetter c = true) : IsToken [c] := by
  refine ⟨List.cons_ne_nil c [], fun d hd => ?_⟩
  obtain rfl := List.mem_singleton.mp hd
  revert h
  simp only [isLetter, isSpace]
  grind

theorem startsBlank_spaced (tokens : List CString) (hrest : StartsBlank rest) :
    StartsBlank (spaced tokens rest) := by
  cases tokens with
  | nil => exact hrest
  | cons token tokens => exact startsBlank_cons rfl _

theorem nextToken_idem (p : CString) : nextToken (nextToken p) = nextToken p :=
  List.dropWhile_idempotent isSpace p

/-- The scan of a field skips the space in front of it. -/
theorem nextToken_spaced (htoken : IsToken token) (tokens : List CString) (rest : CString) :
    nextToken (spaced (token :: tokens) rest) = token ++ spaced tokens rest := by
  obtain ⟨c, tail, rfl⟩ := List.exists_cons_of_ne_nil htoken.nonempty
  have hplain := (htoken.plain c List.mem_cons_self).1
  rw [spaced, List.flatMap_cons, List.append_assoc, List.cons_append, nextToken,
    List.dropWhile_cons_of_pos (by decide), List.cons_append,
    List.dropWhile_cons_of_neg (by simp [hplain])]
  rfl

theorem skipToken_spaced (htoken : IsToken token) (hrest : StartsBlank rest) :
    skipToken (spaced (token :: tokens) rest) = nextToken (spaced tokens rest) := by
  rw [skipToken, nextToken_spaced htoken,
    Segments.dropWhile_append_of_head (fun c hc => by simp [(htoken.plain c hc).1])
      fun c hc => by simp [startsBlank_spaced tokens hrest c hc]]

theorem skipToken_nextToken (p : CString) : skipToken (nextToken p) = skipToken p := by
  rw [skipToken, skipToken, nextToken_idem]

theorem skipMultipleToken_nextToken (p : CString) {count : ℕ} (h : count ≠ 0) :
    skipMultipleToken (nextToken p) count = skipMultipleToken p count := by
  obtain ⟨k, rfl⟩ := Nat.exists_eq_succ_of_ne_zero h
  rw [skipMultipleToken, skipMultipleToken, skipToken_nextToken]

/-- Some fields are skipped, with the space behind them. -/
theorem nextToken_skipMultipleToken (skipped : List CString)
    (hskipped : ∀ token ∈ skipped, IsToken token) (tokens : List CString)
    (hrest : StartsBlank rest) :
    nextToken (skipMultipleToken (spaced (skipped ++ tokens) rest) skipped.length) =
      nextToken (spaced tokens rest) := by
  induction skipped with
  | nil => rfl
  | cons token skipped ih =>
      obtain ⟨htoken, hothers⟩ := List.forall_mem_cons.mp hskipped
      rw [List.length_cons, skipMultipleToken, List.cons_append, skipToken_spaced htoken hrest]
      by_cases hempty : skipped.length = 0
      · rw [List.length_eq_zero_iff.mp hempty, List.length_nil, skipMultipleToken, nextToken_idem]
        rfl
      · rw [skipMultipleToken_nextToken _ hempty, ih hothers]

/-- A number among the fields is read. -/
theorem strtoull_spaced {value : UInt64} (tokens : List CString) (hrest : StartsBlank rest)
    (hs : nextToken s = nextToken (spaced (decimalText value.toNat :: tokens) rest)) :
    strtoull s = (value, spaced tokens rest) := by
  refine strtoull_decimalText ?_ (startsBlank_spaced tokens hrest)
  rw [hs, nextToken_spaced (isToken_decimalText _)]

/-! ### The last parenthesis -/

theorem procStatAfterCmd_eq_none {p : CString} (h : 41 ∉ p) : procStatAfterCmd p = none := by
  induction p with
  | nil => rfl
  | cons c p ih =>
      rw [List.mem_cons, not_or] at h
      rw [procStatAfterCmd, ih h.2]
      exact if_neg (Ne.symm h.1)

theorem procStatAfterCmd_append (before : CString) {after : CString} (h : 41 ∉ after) :
    procStatAfterCmd (before ++ 41 :: after) = some after := by
  induction before with
  | nil => rw [List.nil_append, procStatAfterCmd, procStatAfterCmd_eq_none h, if_pos rfl]
  | cons c before ih => rw [List.cons_append, procStatAfterCmd, ih]

section

variable (stat : StatText)

theorem StatText.isToken_of_mem_fields {token : CString} (h : token ∈ [stat.state] :: stat.fields) :
    IsToken token := by
  have htokens := stat.tokens
  rcases List.mem_cons.mp h with rfl | hmem
  · exact isToken_letter stat.state_letter
  · simp only [StatText.fields, StatText.fieldsFrom18, List.mem_append, List.mem_cons] at hmem
    rcases hmem with h4 | rfl | rfl | rfl | rfl | h18 | rfl | hmore
    · exact htokens token (by simp [h4])
    · exact isToken_decimalText _
    · exact isToken_decimalText _
    · exact isToken_decimalText _
    · exact isToken_decimalText _
    · exact htokens token (by simp [h18])
    · exact isToken_decimalText _
    · exact htokens token (by simp [hmore])

/-- The fields hold neither a NUL nor a parenthesis. -/
theorem StatText.notMem_afterComm {c : UInt8} (hc : c = 0 ∨ c = 41) : c ∉ stat.afterComm := by
  intro hmem
  rw [StatText.afterComm, spaced, List.mem_append, List.mem_flatMap] at hmem
  rcases hmem with ⟨token, htoken, hmem⟩ | hnewline
  · rcases List.mem_cons.mp hmem with rfl | hplain
    · revert hc
      decide
    · have hplain := (stat.isToken_of_mem_fields htoken).plain c hplain
      rcases hc with rfl | rfl
      · exact hplain.2.1 rfl
      · exact hplain.2.2.2 rfl
  · rw [StatText.ending] at hnewline
    split at hnewline
    · obtain rfl := List.mem_singleton.mp hnewline
      revert hc
      decide
    · cases hnewline

theorem StatText.noNul : 0 ∉ stat.text := by
  intro hmem
  have hafter := stat.notMem_afterComm (.inl rfl)
  have htid : (0 : UInt8) ∉ decimalText stat.tid := fun h =>
    (isToken_decimalText stat.tid).plain 0 h |>.2.1 rfl
  simp [StatText.text, stat.comm_noNul, hafter, htid] at hmem

/-- The whole file is in the buffer. -/
theorem StatText.tryFileToBuffer_text (h : stat.text.length < bufsiz) :
    tryFileToBuffer (some stat.text) = some stat.text := by
  rw [tryFileToBuffer, Option.map_some, List.take_of_length_le (Nat.le_sub_one_of_lt h),
    Segments.takeWhile_ne stat.noNul]

/-- What `get_proc_time` is to read. -/
def StatText.procTime : DbgovProcTime where
  rtime := stat.utime + stat.stime
  utime := stat.utime
  stime := stat.stime
  cutime := stat.cutime
  cstime := stat.cstime
  timeout := 0
  itRealValue := stat.itRealValue
  frequency := 100

theorem StatText.startsBlank_ending : StartsBlank stat.ending := by
  rw [StatText.ending]
  split
  · exact startsBlank_cons rfl []
  · exact startsBlank_nil

theorem StatText.procStatAfterCmd_text : procStatAfterCmd stat.text = some stat.afterComm := by
  rw [StatText.text]
  exact procStatAfterCmd_append _ (stat.notMem_afterComm (.inr rfl))

/-- The 14th field is behind eleven others. -/
theorem StatText.skip_to_14 : strtoull (skipMultipleToken stat.afterComm 11) =
    (stat.utime, spaced (decimalText stat.stime.toNat :: decimalText stat.cutime.toNat ::
      decimalText stat.cstime.toNat :: stat.fieldsFrom18) stat.ending) := by
  have htokens : ∀ token ∈ [stat.state] :: stat.fields4to13, IsToken token := by
    refine List.forall_mem_cons.mpr ⟨isToken_letter stat.state_letter, fun token htoken => ?_⟩
    exact stat.tokens token (by simp [htoken])
  have hskip := nextToken_skipMultipleToken _ htokens (decimalText stat.utime.toNat ::
    decimalText stat.stime.toNat :: decimalText stat.cutime.toNat ::
    decimalText stat.cstime.toNat :: stat.fieldsFrom18) stat.startsBlank_ending
  rw [List.length_cons, stat.length4to13] at hskip
  exact strtoull_spaced _ stat.startsBlank_ending hskip

/-- The 21st field is behind three others. -/
theorem StatText.skip_to_21 :
    strtoull (skipMultipleToken (spaced stat.fieldsFrom18 stat.ending) 3) =
      (stat.itRealValue, spaced stat.more stat.ending) := by
  have htokens : ∀ token ∈ stat.fields18to20, IsToken token :=
    fun token htoken => stat.tokens token (by simp [htoken])
  have hskip := nextToken_skipMultipleToken _ htokens
    (decimalText stat.itRealValue.toNat :: stat.more) stat.startsBlank_ending
  rw [stat.length18to20] at hskip
  exact strtoull_spaced _ stat.startsBlank_ending hskip

/-- The fields are found behind the name of the thread, whatever the name is. -/
theorem getProcTime_text (h : stat.text.length < bufsiz) :
    getProcTime (some stat.text) = (0, stat.procTime) := by
  have hread : ∀ (value : UInt64) tokens,
      strtoull (spaced (decimalText value.toNat :: tokens) stat.ending) =
        (value, spaced tokens stat.ending) :=
    fun value tokens => strtoull_spaced tokens stat.startsBlank_ending rfl
  rw [getProcTime, stat.tryFileToBuffer_text h]
  simp only [stat.procStatAfterCmd_text, stat.skip_to_14, hread, stat.skip_to_21,
    StatText.procTime]

end

/-- A thread whose name looks like the fields behind it. -/
def hostileStat : StatText where
  tid := 12
  comm := ascii "a) S 1 (2"
  state := 83
  fields4to13 := ["1", "12", "12", "0", "-1", "4194560", "9", "0", "0", "0"].map ascii
  utime := 140
  stime := 27
  cutime := 3
  cstime := 4
  fields18to20 := ["20", "0", "1"].map ascii
  itRealValue := 0
  more := ["8215"].map ascii
  newline := true
  comm_noNul := by decide
  comm_length := by decide
  state_letter := by decide
  length4to13 := rfl
  length18to20 := rfl
  tokens := by decide +kernel

theorem getProcTime_text_hostile :
    hostileStat.text.length < bufsiz ∧
      getProcTime (some hostileStat.text) = (0, hostileStat.procTime) := by
  have hlength : hostileStat.text.length < bufsiz := by decide +kernel
  exact ⟨hlength, getProcTime_text hostileStat hlength⟩

end DbGovernor
