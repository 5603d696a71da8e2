import DbGovernor.Model.SlowQueries
import DbGovernor.Verification.Config.Numbers
import DbGovernor.Verification.Daemon.Partition
import DbGovernor.Verification.Mysql.Columns
import DbGovernor.Verification.SharedMemory.Table

/-!
# Which queries are killed

A pass over the process list kills the connections whose SELECT runs longer than the account of
their user allows, and no other. The line that it logs after that takes the text of the query for a
format.
-/

namespace DbGovernor

/-! ### Copied columns -/

theorem takeWhile_take {α : Type*} (p : α → Bool) (l : List α) (n : ℕ) :
    (l.take n).takeWhile p = (l.takeWhile p).take n := List.take_takeWhile.symm

theorem Memory.Holds.string {m : Memory} {bytes : List UInt8} (h : m.Holds bytes) (n : ℕ) :
    ((List.range n).map m).takeWhile (· ≠ 0) = (bytes.takeWhile (· ≠ 0)).take n := by
  have hread : ∀ k ≤ bytes.length, (List.range k).map m = bytes.take k := by
    intro k hk
    refine List.ext_getElem (by simp [hk]) fun i hi hi' => ?_
    rw [List.getElem_map, List.getElem_range, List.getElem_take]
    exact h.1 i _ (List.getElem?_eq_getElem _)
  rcases Nat.lt_or_ge bytes.length n with hlt | hge
  · obtain ⟨k, rfl⟩ : ∃ k, n = bytes.length + (k + 1) := ⟨n - bytes.length - 1, by omega⟩
    have hstop : (((List.range (k + 1)).map (bytes.length + ·)).map m).takeWhile (· ≠ 0) = [] := by
      rw [List.range_succ_eq_map, List.map_cons, List.map_cons,
        List.takeWhile_cons_of_neg (by simp [h.2])]
    have hlength := (List.takeWhile_sublist (fun b : UInt8 => decide (b ≠ 0))
      (l := bytes)).length_le
    rw [List.range_add, List.map_append, hread _ (Nat.le_refl _), List.take_length,
      List.takeWhile_append, hstop, List.append_nil, List.take_of_length_le (by omega)]
    split
    · rename_i hall
      exact ((List.takeWhile_sublist _).eq_of_length hall).symm
    · rfl
  · rw [hread n hge, takeWhile_take]

theorem holds_getString (buffer : Memory) (column : List UInt8) :
    (dbMysqlGetString buffer column dbgovernorBuffer8192).Holds
      (column.take (stringEnd column.length dbgovernorBuffer8192)) := by
  have hlength : (column.take (stringEnd column.length dbgovernorBuffer8192)).length =
      stringEnd column.length dbgovernorBuffer8192 := by
    rw [List.length_take, stringEnd, dbgovernorBuffer8192]
    split <;> omega
  have hstore := holds_store buffer (column.take (stringEnd column.length dbgovernorBuffer8192))
  rw [hlength] at hstore
  exact hstore

/-- A copy of a column that fills a smaller buffer is cut, and what stands behind the buffer is
read with it. -/
theorem strncpyString_getString (behind : CString) (buffer : Memory) (column : List UInt8) {n : ℕ}
    (hn : n < dbgovernorBuffer8192) :
    strncpyString behind (dbMysqlGetString buffer column dbgovernorBuffer8192) n =
      if (column.takeWhile (· ≠ 0)).length < n then column.takeWhile (· ≠ 0)
      else (column.takeWhile (· ≠ 0)).take n ++ behind := by
  have hend : min n column.length ≤ stringEnd column.length dbgovernorBuffer8192 := by
    rw [dbgovernorBuffer8192] at hn
    rw [stringEnd, dbgovernorBuffer8192]
    split <;> omega
  have htext : ((List.range n).map
      (dbMysqlGetString buffer column dbgovernorBuffer8192)).takeWhile (· ≠ 0) =
        (column.takeWhile (· ≠ 0)).take n := by
    rw [(holds_getString buffer column).string, ← takeWhile_take, ← takeWhile_take, List.take_take]
    congr 1
    rw [List.take_eq_take_iff]
    omega
  rw [strncpyString, htext, List.length_take]
  by_cases hlt : (column.takeWhile (· ≠ 0)).length < n
  · rw [if_pos (by omega), if_pos hlt, List.take_of_length_le (by omega)]
  · rw [if_neg (by omega), if_neg hlt]

theorem strncpyString_of_short (behind : CString) (buffer : Memory) {column : List UInt8} {n : ℕ}
    (hn : n < dbgovernorBuffer8192) (hnul : 0 ∉ column) (hlength : column.length < n) :
    strncpyString behind (dbMysqlGetString buffer column dbgovernorBuffer8192) n = column := by
  have htext : column.takeWhile (· ≠ 0) = column :=
    List.takeWhile_eq_self_iff.mpr fun b hb => by
      rw [decide_eq_true_eq]
      rintro rfl
      exact hnul hb
  rw [strncpyString_getString behind buffer column hn, htext, if_pos hlength]

/-- With a NUL behind it the copy of a name is the name as the daemon keeps it. -/
theorem strncpyString_name {behind : CString} (buffer : Memory) {column : List UInt8}
    (h : (column.takeWhile (· ≠ 0)).length < usernamemaxlen - 1 ∨ behind = []) :
    strncpyString behind (dbMysqlGetString buffer column dbgovernorBuffer8192)
      (usernamemaxlen - 1) = (strlcpy column).bytes := by
  have hname : (strlcpy column).bytes = (column.takeWhile (· ≠ 0)).take (usernamemaxlen - 1) := rfl
  rw [strncpyString_getString behind buffer column (by decide), hname]
  split
  case isTrue hlt => rw [List.take_of_length_le (by omega)]
  case isFalse hge => rw [h.resolve_left hge, List.append_nil]

/-- Of a copied text the first bytes are those of the column, up to a NUL. -/
theorem take_strncpyString (behind : CString) (buffer : Memory) (column : List UInt8) {k n : ℕ}
    (hk : k ≤ n) (hn : n < dbgovernorBuffer8192) :
    (strncpyString behind (dbMysqlGetString buffer column dbgovernorBuffer8192) n).take k =
      (column.take k).takeWhile (· ≠ 0) := by
  rw [strncpyString_getString behind buffer column hn, takeWhile_take]
  split
  · rfl
  · rw [List.take_append_of_le_length (by rw [List.length_take]; omega), List.take_take,
      Nat.min_eq_left hk]

/-- A text that begins with a word has no NUL in that word. -/
theorem upper_takeWhile_eq_iff {bytes word : CString} (hnul : 0 ∉ word)
    (hlength : bytes.length ≤ word.length) :
    upper (bytes.takeWhile (· ≠ 0)) = word ↔ upper bytes = word := by
  constructor
  · intro h
    have hword := congrArg List.length h
    rw [upper, List.length_map] at hword
    have hle := (List.takeWhile_sublist (fun b : UInt8 => decide (b ≠ 0)) (l := bytes)).length_le
    rwa [(List.takeWhile_sublist _).eq_of_length (by omega)] at h
  · rintro rfl
    rw [List.takeWhile_eq_self_iff.mpr]
    intro b hb
    rw [decide_eq_true_eq]
    rintro rfl
    exact hnul (List.mem_map.mpr ⟨0, hb, by decide⟩)

/-! ### Printed numbers -/

theorem length_lldText_le {n : ℤ} (hlow : -2 ^ 63 ≤ n) (hhigh : n < 2 ^ 63) :
    (lldText n).length ≤ 20 := by
  have hdigits := length_decimalText_le (n := n.natAbs) (k := 19) (by decide) (by omega)
  rw [lldText_eq]
  split
  · rw [List.length_cons]
    omega
  · omega

theorem nul_notMem_lldText (n : ℤ) : 0 ∉ lldText n := by
  have hdigits : (0 : UInt8) ∉ decimalText n.natAbs := fun hmem =>
    absurd (isDigit_of_mem_decimalText hmem) (by decide)
  rw [lldText_eq]
  split
  · simp [hdigits]
  · exact hdigits

theorem strncpyString_lldText (behind : CString) (buffer : Memory) {n : ℤ}
    (hn : -2 ^ 63 ≤ n ∧ n < 2 ^ 63) :
    strncpyString behind (dbMysqlGetString buffer (lldText n) dbgovernorBuffer8192)
      (dbgovernorBuffer2048 - 1) = lldText n := by
  have hlength := length_lldText_le hn.1 hn.2
  refine strncpyString_of_short behind buffer (by decide) (nul_notMem_lldText n) ?_
  rw [dbgovernorBuffer2048]
  omega

theorem atoi_lldText {n : ℤ} (hlow : -2 ^ 63 ≤ n) (hhigh : n < 2 ^ 63) :
    atoi (lldText n) = intOfLong n := by
  rw [atoi_eq, atoll_lldText hlow hhigh, intOfLong, Int.bmod_def]
  split <;> omega

/-! ### The account of a user -/

theorem findAcountCmp_iff (ac : Account) (u : Username) :
    findAcountCmp ac u.bytes = true ↔ u ∈ ac.users := by
  simp [findAcountCmp, sameName_eq]

/-- Whatever the order of the table, the search finds the account under which the user is
registered. -/
theorem findAccount_eq {w : World} (h : Reachable w) (ord : IterOrder) (u : Username) :
    findAccount ord w u.bytes =
      (w.users.lookup u).bind fun us => w.accounts.lookup us.account := by
  have hpart := h.partitioned
  have hfound : ∀ key ac, (w.accounts.lookup key).filter (findAcountCmp · u.bytes) = some ac →
      ∃ us, w.users.lookup u = some us ∧ w.accounts.lookup us.account = some ac := by
    intro key ac hkey
    obtain ⟨hac, hcmp⟩ := Option.filter_eq_some_iff.mp hkey
    obtain ⟨us, hus, hacc⟩ := (hpart.owns key ac hac).member u ((findAcountCmp_iff ac u).mp hcmp)
    exact ⟨us, hus, hacc ▸ hac⟩
  rw [findAccount]
  cases hu : w.users.lookup u with
  | none =>
      rw [Option.bind_none, List.findSome?_eq_none_iff]
      intro key _
      refine Option.eq_none_iff_forall_ne_some.mpr fun ac hkey => ?_
      obtain ⟨us, hus, -⟩ := hfound key ac hkey
      rw [hu] at hus
      cases hus
  | some us =>
      obtain ⟨ac, hac, hcount⟩ := hpart.listed u us hu
      have hmem : u ∈ ac.users := List.count_pos_iff.mp (by omega)
      have hsome : ((ord.order w.accounts.keys).findSome? fun key =>
          (w.accounts.lookup key).filter fun ac => findAcountCmp ac u.bytes).isSome := by
        rw [List.findSome?_isSome_iff]
        refine ⟨us.account, ord.mem_order hac, ?_⟩
        rw [hac, Option.filter_some, if_pos ((findAcountCmp_iff ac u).mpr hmem)]
        rfl
      obtain ⟨ac', hac'⟩ := Option.isSome_iff_exists.mp hsome
      obtain ⟨key, -, hkey⟩ := List.exists_of_findSome?_eq_some hac'
      obtain ⟨us', hus', hsame⟩ := hfound key ac' hkey
      obtain rfl : us = us' := Option.some.inj (hu.symm.trans hus')
      rw [hac', Option.bind_some, hsame]

/-- The seconds a query of a user may run, or a number that is not positive. -/
def slowLimit (w : World) (u : Username) : ℤ :=
  let sl := configGetAccountLimit w.cfg (((w.users.lookup u).map UserStats.account).getD u)
  if sl.mode = .ignoreMode then 0 else intOfLong sl.slow.current

theorem isUserIgnored_eq {w : World} (h : Reachable w) (ord : IterOrder) (u : Username) :
    isUserIgnored ord w u.bytes = slowLimit w u := by
  rw [isUserIgnored, findAccount_eq h, slowLimit]
  cases hu : w.users.lookup u with
  | none =>
      have hname : Username.ofBytes? u.bytes = some u := dif_pos ⟨u.noNul, u.fits⟩
      simp [configGetStringLimit, hname]
  | some us =>
      obtain ⟨ac, hac, -⟩ := h.partitioned.listed u us hu
      have hid := (h.partitioned.owns us.account ac hac).id_eq
      simp [hac, hid]

/-! ### A pass -/

/-- A row of `SHOW FULL PROCESSLIST`; the columns that the code does not use are `other`. -/
structure Process where
  id : ℤ
  user : List UInt8
  time : ℤ
  info : List UInt8
  other : ℕ → List UInt8

def Process.row (p : Process) : MysqlRow
  | 0 => lldText p.id
  | 1 => p.user
  | 5 => lldText p.time
  | 7 => p.info
  | column => p.other column

/-- The name of the user as the daemon keeps names. -/
def Process.username (p : Process) : Username := strlcpy p.user

/-- The text of the query as `upper` leaves it. -/
def Process.query (p : Process) : CString := upper (p.info.takeWhile (· ≠ 0))

/-- A process, with the state of the daemon and the stack when its row is reached. -/
structure SeenProcess where
  world : World
  ord : IterOrder
  stack : SlowQueryStack
  process : Process

def SeenProcess.visit (v : SeenProcess) : SlowVisit := ⟨v.world, v.ord, v.stack, v.process.row⟩

/-- The numbers are those of a `long`; the name leaves room for its NUL, or there is one behind
it. -/
structure SeenProcess.Fits (v : SeenProcess) : Prop where
  id : -2 ^ 63 ≤ v.process.id ∧ v.process.id < 2 ^ 63
  time : -2 ^ 63 ≤ v.process.time ∧ v.process.time < 2 ^ 63
  user : (v.process.user.takeWhile (· ≠ 0)).length < usernamemaxlen - 1 ∨ v.stack.user = []

/-- The process runs a SELECT for longer than the account of its user allows. -/
def SeenProcess.TooSlow (v : SeenProcess) : Prop :=
  0 < slowLimit v.world v.process.username ∧
    upper (v.process.info.take 6) = ascii "SELECT" ∧
      slowLimit v.world v.process.username < intOfLong v.process.time

instance (v : SeenProcess) : Decidable v.TooSlow := inferInstanceAs (Decidable (_ ∧ _ ∧ _))

/-- A column has the length of the buffer, or the text of the query fills `Info` and no NUL
follows. -/
def SeenProcess.Overruns (v : SeenProcess) : Prop :=
  ¬ CopiesInside v.process.row ∨ dbgovernorBuffer2048 - 1 ≤ v.process.query.length ∧
    v.stack.info ≠ []

instance (v : SeenProcess) : Decidable v.Overruns := inferInstanceAs (Decidable (_ ∨ _ ∧ _))

/-- The format of the line that is logged when the process is killed. -/
def SeenProcess.logFormat (v : SeenProcess) : CString :=
  ascii "Query killed - " ++ v.process.username.bytes ++ ascii " : " ++
    strncpyOf v.stack.infoCopy v.process.query 600

/-- Such a line can be made. -/
def SeenProcess.Logs (v : SeenProcess) : Prop :=
  v.logFormat.length < dbgovernorBuffer8192 ∧ (formatted v.logFormat).isSome

instance (v : SeenProcess) : Decidable v.Logs := inferInstanceAs (Decidable (_ ∧ _))

/-- The row takes the pass to what has no meaning in C. -/
def SeenProcess.Derails (v : SeenProcess) : Prop := v.Overruns ∨ v.TooSlow ∧ ¬ v.Logs

instance (v : SeenProcess) : Decidable v.Derails := inferInstanceAs (Decidable (_ ∨ _ ∧ _))

/-- The statements that kill the slow ones of some processes. -/
def kills (seen : List SeenProcess) : List CString :=
  (seen.filter fun v => v.TooSlow).map fun v => killQueryById (intOfLong v.process.id)

/-- The lines that are logged of them. -/
def logLines (seen : List SeenProcess) : List CString :=
  (seen.filter fun v => v.TooSlow).map fun v =>
    ((formatted v.logFormat).getD []).take (dbgovernorBuffer2048 - 1)

/-- What the loop reads in `Info`, with the buffer as it was before the text came. -/
def SeenProcess.infoIn (v : SeenProcess) (buffer : Memory) : CString :=
  upper (strncpyString v.stack.info
    (dbMysqlGetString buffer v.process.info dbgovernorBuffer8192) (dbgovernorBuffer2048 - 1))

/-- A query that fills `Info` is read on behind it. -/
theorem infoIn_eq (v : SeenProcess) (buffer : Memory) :
    v.infoIn buffer =
      if v.process.query.length < dbgovernorBuffer2048 - 1 then v.process.query
      else v.process.query.take (dbgovernorBuffer2048 - 1) ++ upper v.stack.info := by
  rw [SeenProcess.infoIn, strncpyString_getString v.stack.info buffer _ (by decide)]
  simp only [Process.query, upper, List.length_map]
  split
  · rfl
  · rw [List.map_append, List.map_take]

theorem overruns_iff (v : SeenProcess) (buffer : Memory) :
    v.Overruns ↔
      ¬ (CopiesInside v.process.row ∧ (v.infoIn buffer).length < dbgovernorBuffer2048) := by
  have hlong : (v.infoIn buffer).length < dbgovernorBuffer2048 ↔
      ¬ (dbgovernorBuffer2048 - 1 ≤ v.process.query.length ∧ v.stack.info ≠ []) := by
    have hrest : (upper v.stack.info).length = 0 ↔ v.stack.info = [] := by
      rw [upper, List.length_map, List.length_eq_zero_iff]
    rw [infoIn_eq, ne_eq, ← hrest, dbgovernorBuffer2048]
    split
    · omega
    · rw [List.length_append, List.length_take]
      omega
  rw [hlong, SeenProcess.Overruns, not_and_or, not_not]

theorem tooSlow_iff (v : SeenProcess) (buffer : Memory) :
    (0 < slowLimit v.world v.process.username ∧ (v.infoIn buffer).take 6 = ascii "SELECT" ∧
      slowLimit v.world v.process.username < intOfLong v.process.time) ↔ v.TooSlow := by
  have hselect : (v.infoIn buffer).take 6 = ascii "SELECT" ↔
      upper (v.process.info.take 6) = ascii "SELECT" := by
    have hlength : (v.process.info.take 6).length ≤ (ascii "SELECT").length :=
      List.length_take_le 6 v.process.info
    rw [SeenProcess.infoIn, upper, ← List.map_take,
      take_strncpyString v.stack.info buffer _ (by decide) (by decide), ← upper]
    exact upper_takeWhile_eq_iff (by decide) hlength
  rw [hselect, SeenProcess.TooSlow]

/-- The first 600 bytes are those of the query. -/
theorem logFormat_eq (v : SeenProcess) (buffer : Memory) :
    ascii "Query killed - " ++ v.process.username.bytes ++ ascii " : " ++
      strncpyOf v.stack.infoCopy (v.infoIn buffer) 600 = v.logFormat := by
  rw [SeenProcess.logFormat, infoIn_eq]
  split
  · rfl
  · rename_i hfull
    simp only [dbgovernorBuffer2048] at hfull ⊢
    rw [strncpyOf, strncpyOf,
      if_neg (by rw [List.length_append, List.length_take]; omega), if_neg (by omega),
      List.take_append_of_le_length (by rw [List.length_take]; omega), List.take_take]
    rfl

theorem SeenProcess.Logs.prepareOutput_eq {v : SeenProcess} (h : v.Logs) :
    prepareOutput dbgovernorBuffer2048 v.logFormat =
      some (((formatted v.logFormat).getD []).take (dbgovernorBuffer2048 - 1)) := by
  obtain ⟨message, hmessage⟩ := Option.isSome_iff_exists.mp h.2
  rw [prepareOutput, hmessage, Option.map_some, Option.getD_some]

/-- A line that cannot be made is too long for `log_buffer`, or is no format. -/
theorem SeenProcess.prepareOutput_eq_none {v : SeenProcess} (h : ¬ v.Logs)
    (hfit : v.logFormat.length < dbgovernorBuffer8192) :
    prepareOutput dbgovernorBuffer2048 v.logFormat = none := by
  rw [prepareOutput, Option.map_eq_none_iff, ← Option.not_isSome_iff_eq_none]
  exact fun hsome => h ⟨hfit, hsome⟩

/-- What a defined pass makes of a row. -/
theorem slowQueryRow_eq {s : SlowPass} (hs : s.defined = true) {v : SeenProcess}
    (hreach : Reachable v.world) (hfits : v.Fits) :
    ∃ buffer, slowQueryRow s v.visit =
      if v.Overruns then { s with buffer := buffer, defined := false }
      else if v.TooSlow then
        if v.Logs then
          { s with
            buffer := buffer
            sent := s.sent ++ [killQueryById (intOfLong v.process.id)]
            logged := s.logged ++
              [((formatted v.logFormat).getD []).take (dbgovernorBuffer2048 - 1)] }
        else
          { s with
            buffer := buffer
            sent := s.sent ++ [killQueryById (intOfLong v.process.id)]
            defined := false }
      else { s with buffer := buffer } := by
  have huser : ∀ buffer, strncpyString v.stack.user
      (dbMysqlGetString buffer v.process.user dbgovernorBuffer8192) (usernamemaxlen - 1) =
        v.process.username.bytes := fun buffer => strncpyString_name buffer hfits.user
  have hid : v.visit.row 0 = lldText v.process.id := rfl
  have hname : v.visit.row 1 = v.process.user := rfl
  have htime : v.visit.row 5 = lldText v.process.time := rfl
  have htext : v.visit.row 7 = v.process.info := rfl
  have hstack : v.visit.stack = v.stack := rfl
  have hlimit : isUserIgnored v.visit.ord v.visit.world v.process.username.bytes =
      slowLimit v.world v.process.username := isUserIgnored_eq hreach v.ord v.process.username
  simp only [slowQueryRow, hid, hname, htime, htext, hstack, strncpyString_lldText _ _ hfits.id,
    strncpyString_lldText _ _ hfits.time, huser, hlimit, atoi_lldText hfits.id.1 hfits.id.2,
    atoi_lldText hfits.time.1 hfits.time.2, gt_iff_lt, hs]
  generalize dbMysqlGetString (dbMysqlGetString (dbMysqlGetString (dbMysqlGetString s.buffer
    (lldText v.process.id) dbgovernorBuffer8192) v.process.user dbgovernorBuffer8192)
      (lldText v.process.time) dbgovernorBuffer8192) (v.visit.row 6) dbgovernorBuffer8192 = buffer
  have hinfo : upper (strncpyString v.stack.info
      (dbMysqlGetString buffer v.process.info dbgovernorBuffer8192) (dbgovernorBuffer2048 - 1)) =
        v.infoIn buffer := rfl
  have hover := overruns_iff v buffer
  have hrow : v.visit.row = v.process.row := rfl
  simp only [hinfo, hrow, tooSlow_iff, logFormat_eq]
  by_cases hoverruns : v.Overruns
  · simp only [hoverruns, if_true, not_true_eq_false, if_false, hover.mp hoverruns]
    exact ⟨_, rfl⟩
  · have hinside := not_not.mp (mt hover.mpr hoverruns)
    simp only [hoverruns, if_false, not_true_eq_false, not_not.mpr hinside]
    by_cases htoo : v.TooSlow
    · simp only [htoo, if_true]
      by_cases hlogs : v.Logs
      · simp only [hlogs, if_true, hlogs.1, hlogs.prepareOutput_eq]
        exact ⟨_, rfl⟩
      · simp only [hlogs, if_false]
        by_cases hfit : v.logFormat.length < dbgovernorBuffer8192
        · simp only [hfit, if_true, SeenProcess.prepareOutput_eq_none hlogs hfit]
          exact ⟨_, rfl⟩
        · simp only [hfit, if_false]
          exact ⟨_, rfl⟩
    · simp only [htoo, if_false]
      exact ⟨_, rfl⟩

theorem slowQueryRow_undefined {s : SlowPass} (hs : s.defined = false) (v : SlowVisit) :
    slowQueryRow s v = s := by
  simp [slowQueryRow, hs]

/-- What the rows so far have made of a pass. -/
structure SlowPassInv (seen : List SeenProcess) (s : SlowPass) : Prop where
  sent : s.sent <+: kills seen
  defined : s.defined = true ↔ ∀ v ∈ seen, ¬ v.Derails
  whole : s.defined = true → s.sent = kills seen ∧ s.logged = logLines seen

theorem kills_concat (seen : List SeenProcess) (v : SeenProcess) :
    kills (seen ++ [v]) =
      kills seen ++ if v.TooSlow then [killQueryById (intOfLong v.process.id)] else [] := by
  by_cases hslow : v.TooSlow <;> simp [kills, hslow]

theorem logLines_concat (seen : List SeenProcess) (v : SeenProcess) :
    logLines (seen ++ [v]) = logLines seen ++
      if v.TooSlow then [((formatted v.logFormat).getD []).take (dbgovernorBuffer2048 - 1)]
      else [] := by
  by_cases hslow : v.TooSlow <;> simp [logLines, hslow]

theorem SlowPassInv.row {seen : List SeenProcess} {s : SlowPass} (h : SlowPassInv seen s)
    {v : SeenProcess} (hreach : Reachable v.world) (hfits : v.Fits) :
    SlowPassInv (seen ++ [v]) (slowQueryRow s v.visit) := by
  have hmore : kills seen <+: kills (seen ++ [v]) := by
    rw [kills_concat]
    exact List.prefix_append _ _
  by_cases hs : s.defined = true
  case neg =>
    rw [slowQueryRow_undefined (by simpa using hs)]
    refine ⟨h.sent.trans hmore, iff_of_false hs fun hall => ?_, fun hdefined => (hs hdefined).elim⟩
    exact hs (h.defined.mpr fun v hv => hall v (List.mem_append_left _ hv))
  case pos =>
    obtain ⟨hsent, hlogged⟩ := h.whole hs
    obtain ⟨buffer, hrow⟩ := slowQueryRow_eq hs hreach hfits
    have hall : (∀ u ∈ seen ++ [v], ¬ u.Derails) ↔ ¬ v.Derails := by
      rw [List.forall_mem_append, List.forall_mem_singleton]
      exact and_iff_right (h.defined.mp hs)
    rw [hrow]
    by_cases hover : v.Overruns
    · rw [if_pos hover]
      refine ⟨hsent ▸ hmore, iff_of_false Bool.false_ne_true ?_, fun h => by cases h⟩
      exact fun hnone => hall.mp hnone (.inl hover)
    · rw [if_neg hover]
      by_cases hslow : v.TooSlow
      · rw [if_pos hslow]
        have hkilled : s.sent ++ [killQueryById (intOfLong v.process.id)] = kills (seen ++ [v]) := by
          rw [kills_concat, if_pos hslow, hsent]
        by_cases hlogs : v.Logs
        · rw [if_pos hlogs]
          refine ⟨hkilled ▸ List.prefix_rfl, iff_of_true hs (hall.mpr ?_), fun _ => ⟨hkilled, ?_⟩⟩
          · rintro (hderails | ⟨-, hnot⟩)
            · exact hover hderails
            · exact hnot hlogs
          · rw [logLines_concat, if_pos hslow, hlogged]
        · rw [if_neg hlogs]
          refine ⟨hkilled ▸ List.prefix_rfl, iff_of_false Bool.false_ne_true ?_, fun h => by cases h⟩
          exact fun hnone => hall.mp hnone (.inr ⟨hslow, hlogs⟩)
      · rw [if_neg hslow]
        refine ⟨hsent ▸ hmore, iff_of_true hs (hall.mpr ?_), fun _ => ⟨?_, ?_⟩⟩
        · rintro (hderails | ⟨htoo, -⟩)
          · exact hover hderails
          · exact hslow htoo
        · rw [kills_concat, if_neg hslow, List.append_nil, hsent]
        · rw [logLines_concat, if_neg hslow, List.append_nil, hlogged]

/-- A configuration that allows five seconds. -/
def slowConfig : GovernorConfig :=
  { shippedConfig true with
    defaultLimit := { (shippedConfig true).defaultLimit with slow := ⟨5, -1, -1, -1⟩ } }

/-- Two queries of one user, of which one has run for ten seconds. -/
def sampleProcesses : List SeenProcess :=
  [(7, 10), (8, 5)].map fun p =>
    ⟨.init slowConfig, .asListed, ⟨[], [1], [], [], []⟩,
      ⟨p.1, ascii "joe", p.2, ascii "select 1", fun _ => []⟩⟩

end DbGovernor
