import DbGovernor.Verification.Config.Periods
import DbGovernor.Verification.Shared.Segments

/-!
# The dbuser map is read as it is written

The scanner keeps the position of each separator. Its three fields are collected by one rule,
the first 63 bytes after a separator.
-/

namespace DbGovernor

/-! ## The writer -/

/-- The line of a user, less its newline. -/
def mapLine (user account : CString) (uid : ℕ) : CString :=
  user ++ 32 :: (account ++ 32 :: decimalText uid)

/-- A text that is one field of a line. -/
def IsField (s : CString) : Prop := s ≠ [] ∧ ∀ b ∈ s, b ≠ 32 ∧ b ≠ 10 ∧ b ≠ 0

instance (s : CString) : Decidable (IsField s) :=
  inferInstanceAs (Decidable (_ ∧ ∀ b ∈ s, b ≠ 32 ∧ b ≠ 10 ∧ b ≠ 0))

/-- A user with its account and the id of its container. -/
structure MapTriple where
  user : CString
  account : CString
  uid : ℕ
  user_isField : IsField user
  account_isField : IsField account
  uid_pos : 1 ≤ uid
  uid_lt : uid < 2 ^ 31
  fits : (mapLine user account uid).length < 1024

def MapTriple.line (row : MapTriple) : CString := mapLine row.user row.account row.uid

/-- The lines of `writeFileMap`. -/
def writtenLines (rows : List MapTriple) : CString := rows.flatMap fun row => row.line ++ [10]

/-- The file of `writeFileMap`, whose last newline may be missing. -/
def mapFile (rows : List MapTriple) (lastNewline : Bool) : CString :=
  if lastNewline then writtenLines rows else (writtenLines rows).dropLast

/-! ## Lines -/

theorem fgets_newline {n : ℕ} {line : CString} (hline : 10 ∉ line) (hn : line.length < n)
    (rest : CString) : fgets n (line ++ 10 :: rest) = (line ++ [10], rest) := by
  induction line generalizing n with
  | nil =>
      obtain ⟨n, rfl⟩ : ∃ k, n = k + 1 := ⟨n - 1, by simp at hn; omega⟩
      rfl
  | cons b line ih =>
      obtain ⟨hb, hline⟩ := List.ne_and_not_mem_of_not_mem_cons hline
      obtain ⟨n, rfl⟩ : ∃ k, n = k + 1 := ⟨n - 1, by simp at hn; omega⟩
      rw [List.cons_append, fgets, if_neg (Ne.symm hb), ih hline (by simpa using hn)]
      rfl

theorem fgets_full {n : ℕ} {line : CString} (hline : 10 ∉ line) (hn : line.length = n)
    (rest : CString) : fgets n (line ++ rest) = (line, rest) := by
  induction line generalizing n with
  | nil =>
      subst hn
      rfl
  | cons b line ih =>
      obtain ⟨hb, hline⟩ := List.ne_and_not_mem_of_not_mem_cons hline
      obtain ⟨n, rfl⟩ : ∃ k, n = k + 1 := ⟨n - 1, by simp at hn; omega⟩
      rw [List.cons_append, fgets, if_neg (Ne.symm hb), ih hline (by simpa using hn)]

theorem fgets_endOfFile {n : ℕ} {line : CString} (hline : 10 ∉ line) (hn : line.length ≤ n) :
    fgets n line = (line, []) := by
  induction line generalizing n with
  | nil => cases n <;> rfl
  | cons b line ih =>
      obtain ⟨hb, hline⟩ := List.ne_and_not_mem_of_not_mem_cons hline
      obtain ⟨n, rfl⟩ : ∃ k, n = k + 1 := ⟨n - 1, by simp at hn; omega⟩
      rw [fgets, if_neg (Ne.symm hb), ih hline (by simpa using hn)]

/-! ## Fields -/

/-- A scan that appends a byte to a field while the position is near enough to `base` keeps the
front of what it passes. -/
theorem foldl_zipIdx_collect {σ : Type*} (step : σ → ℕ → UInt8 → σ) (field : CString → σ)
    {ok : UInt8 → Prop} {base : ℕ}
    (hstep : ∀ collected i b, ok b → base ≤ i → step (field collected) i b =
      if i - base < usernamemaxlen - 1 then field (collected ++ [b]) else field collected)
    {ds : CString} (hds : ∀ b ∈ ds, ok b) {k : ℕ} (hk : base ≤ k) (collected : CString) :
    (ds.zipIdx k).foldl (fun s p => step s p.2 p.1) (field collected) =
      field (collected ++ ds.take (usernamemaxlen - 1 - (k - base))) := by
  induction ds generalizing k collected with
  | nil => simp
  | cons b ds ih =>
      have hb := hds b (by simp)
      have hrest := fun c hc => hds c (List.mem_cons_of_mem b hc)
      rw [List.zipIdx_cons, List.foldl_cons, hstep collected k b hb hk]
      by_cases hlt : k - base < usernamemaxlen - 1
      · obtain ⟨room, hroom⟩ : ∃ room, usernamemaxlen - 1 - (k - base) = room + 1 :=
          ⟨usernamemaxlen - 1 - (k - base) - 1, by omega⟩
        have hnext : usernamemaxlen - 1 - (k + 1 - base) = room := by omega
        rw [if_pos hlt, ih hrest (by omega), hnext, hroom, List.take_succ_cons, List.append_assoc,
          List.singleton_append]
      · have hzero : usernamemaxlen - 1 - (k - base) = 0 := by omega
        have hnext : usernamemaxlen - 1 - (k + 1 - base) = 0 := by omega
        rw [if_neg hlt, ih hrest (by omega), hnext, hzero, List.take_zero, List.take_zero]

/-- The scan of the bytes of a line from position `k` on. -/
def scanFrom (k : ℕ) (s : LineScan) (bytes : CString) : LineScan :=
  (bytes.zipIdx k).foldl (fun s p => scanByte s p.2 p.1) s

theorem scanFrom_append (k : ℕ) (s : LineScan) (bytes more : CString) :
    scanFrom k s (bytes ++ more) = scanFrom (k + bytes.length) (scanFrom k s bytes) more := by
  rw [scanFrom, List.zipIdx_append, List.foldl_append]
  rfl

theorem scanFrom_cons (k : ℕ) (s : LineScan) (b : UInt8) (more : CString) :
    scanFrom k s (b :: more) = scanFrom (k + 1) (scanByte s k b) more := rfl

/-- A field that starts at `base` keeps its first 63 bytes. -/
theorem scanFrom_collect (field : CString → LineScan) {ok : UInt8 → Prop} {base : ℕ}
    (hstep : ∀ collected i b, ok b → scanByte (field collected) i b =
      if i - base < usernamemaxlen - 1 then field (collected ++ [b]) else field collected)
    {bytes : CString} (hbytes : ∀ b ∈ bytes, ok b) :
    scanFrom base (field []) bytes = field (bytes.take (usernamemaxlen - 1)) := by
  have hcollect := foldl_zipIdx_collect scanByte field
    (fun collected i b hb _ => hstep collected i b hb) hbytes (le_refl base) []
  rwa [Nat.sub_self, Nat.sub_zero, List.nil_append] at hcollect

theorem scanFrom_username {bytes : CString} (hbytes : ∀ b ∈ bytes, b ≠ 32) :
    scanFrom 0 ⟨[], [], [], 0, 0⟩ bytes = ⟨bytes.take (usernamemaxlen - 1), [], [], 0, 0⟩ := by
  refine scanFrom_collect (fun collected => ⟨collected, [], [], 0, 0⟩) ?_ hbytes
  intro collected i b hb
  simp [scanByte, hb]

theorem scanFrom_accountName {bytes : CString} (hbytes : ∀ b ∈ bytes, b ≠ 32) (username : CString)
    {split : ℕ} (hsplit : split ≠ 0) :
    scanFrom (split + 1) ⟨username, [], [], split, 0⟩ bytes =
      ⟨username, bytes.take (usernamemaxlen - 1), [], split, 0⟩ := by
  refine scanFrom_collect (fun collected => ⟨username, collected, [], split, 0⟩) ?_ hbytes
  intro collected i b hb
  simp [scanByte, hsplit, hb, Nat.sub_sub]

theorem scanFrom_uid {bytes : CString} (hbytes : ∀ b ∈ bytes, b ≠ 10)
    (username accountName : CString) {split split2 : ℕ} (hsplit : split ≠ 0) (hsplit2 : split2 ≠ 0) :
    scanFrom (split2 + 1) ⟨username, accountName, [], split, split2⟩ bytes =
      ⟨username, accountName, bytes.take (usernamemaxlen - 1), split, split2⟩ := by
  refine scanFrom_collect (fun collected => ⟨username, accountName, collected, split, split2⟩) ?_
    hbytes
  intro collected i b hb
  simp [scanByte, hsplit, hsplit2, hb, Nat.sub_sub]

/-- A newline after the last field changes nothing. -/
theorem scanFrom_newline (k : ℕ) {s : LineScan} (hsplit : s.split ≠ 0) (hsplit2 : s.split2 ≠ 0)
    {newline : CString} (hnewline : ∀ b ∈ newline, b = 10) : scanFrom k s newline = s := by
  induction newline generalizing k with
  | nil => rfl
  | cons b newline ih =>
      obtain ⟨rfl, hrest⟩ := List.forall_mem_cons.mp hnewline
      have hstep : scanByte s k 10 = s := by
        simp [scanByte, hsplit, hsplit2]
      rw [scanFrom_cons, hstep, ih (k + 1) hrest]

theorem scanLine_mapLine {user account uid newline : CString} (huser : IsField user)
    (haccount : IsField account) (huid : ∀ b ∈ uid, b ≠ 10) (hnewline : ∀ b ∈ newline, b = 10) :
    scanLine (user ++ 32 :: (account ++ 32 :: uid) ++ newline) =
      ⟨user.take (usernamemaxlen - 1), account.take (usernamemaxlen - 1),
        uid.take (usernamemaxlen - 1), user.length, user.length + 1 + account.length⟩ := by
  have hsplit : user.length ≠ 0 := by
    simpa using huser.1
  have hsplit2 : user.length + 1 + account.length ≠ 0 := by omega
  have hstart : scanLine (user ++ 32 :: (account ++ 32 :: uid) ++ newline) =
      scanFrom 0 ⟨[], [], [], 0, 0⟩ (user ++ 32 :: (account ++ 32 :: (uid ++ newline))) := by
    simp [scanLine, scanFrom]
  have hspace : ∀ username, scanByte ⟨username, [], [], 0, 0⟩ user.length 32 =
      ⟨username, [], [], user.length, 0⟩ := fun username => by simp [scanByte]
  have hspace2 : ∀ username accountName,
      scanByte ⟨username, accountName, [], user.length, 0⟩ (user.length + 1 + account.length) 32 =
        ⟨username, accountName, [], user.length, user.length + 1 + account.length⟩ :=
    fun username accountName => by simp [scanByte, huser.1]
  rw [hstart, scanFrom_append, scanFrom_username fun b hb => (huser.2 b hb).1, scanFrom_cons,
    Nat.zero_add, hspace, scanFrom_append,
    scanFrom_accountName (fun b hb => (haccount.2 b hb).1) _ hsplit, scanFrom_cons, hspace2,
    scanFrom_append, scanFrom_uid huid _ _ hsplit hsplit2,
    scanFrom_newline _ hsplit hsplit2 hnewline]

/-! ## One line -/

/-- The entry that the line of a row gives. -/
def MapTriple.entry (separateLve : Bool) (row : MapTriple) : UserMap :=
  ⟨strlcpy row.user, if separateLve then row.uid else badLve, strlcpy row.account⟩

theorem strlcpy_bytes_of_isField {s : CString} (h : IsField s) :
    (strlcpy s).bytes = s.take (usernamemaxlen - 1) := by
  have hnul : 0 ∉ s := fun hmem => (h.2 0 hmem).2.2 rfl
  exact congrArg (List.take (usernamemaxlen - 1)) (Segments.takeWhile_ne hnul)

/-- The buffers are cut before `strlcpy` cuts them again. -/
theorem strlcpy_trim_take {s : CString} (h : IsField s) :
    strlcpy (trim (s.take (usernamemaxlen - 1))) = strlcpy s := by
  have htrim : trim (s.take (usernamemaxlen - 1)) = s.take (usernamemaxlen - 1) := by
    rw [trim, List.filter_eq_self]
    intro b hb
    have hne := h.2 b (List.mem_of_mem_take hb)
    simp [hne.1, hne.2.1]
  have hcut : IsField (s.take (usernamemaxlen - 1)) := by
    refine ⟨?_, fun b hb => h.2 b (List.mem_of_mem_take hb)⟩
    simpa [usernamemaxlen] using h.1
  ext1
  rw [htrim, strlcpy_bytes_of_isField hcut, strlcpy_bytes_of_isField h, List.take_take, min_self]

theorem strlcpy_bytes_ne_nil {s : CString} (h : IsField s) : (strlcpy s).bytes ≠ [] := by
  rw [strlcpy_bytes_of_isField h]
  simpa [usernamemaxlen] using h.1

theorem not_separator_of_isDigit {b : UInt8} (h : isDigit b = true) : b ≠ 32 ∧ b ≠ 10 ∧ b ≠ 0 := by
  refine ⟨?_, ?_, ?_⟩
  all_goals
    rintro rfl
    cases h

/-- A uid is printed with at most ten digits and read back. -/
theorem atoi_trim_decimalText {n : ℕ} (hn : n < 2 ^ 31) :
    atoi (trim ((decimalText n).take (usernamemaxlen - 1))) = n := by
  have hlen : (decimalText n).length ≤ usernamemaxlen - 1 := by
    have hten : (Nat.toDigits 10 n).length ≤ 10 :=
      (Nat.length_toDigits_le_iff (by decide) (by decide)).mpr (by omega)
    rw [decimalText, List.length_map, usernamemaxlen]
    omega
  have htrim : trim (decimalText n) = decimalText n := by
    rw [trim, List.filter_eq_self]
    intro b hb
    have hne := not_separator_of_isDigit (isDigit_of_mem_decimalText hb)
    simp [hne.1, hne.2.1]
  have hatoi := atoi_digits_append [] (decimalText_ne_nil n)
    (fun c hc => isDigit_of_mem_decimalText hc) rfl (by rwa [decimal_decimalText])
  rw [List.append_nil, decimal_decimalText] at hatoi
  rw [List.take_of_length_le hlen, htrim, hatoi]

theorem mapEntry_line (separateLve : Bool) (row : MapTriple) {newline : CString}
    (hnewline : ∀ b ∈ newline, b = 10) :
    mapEntry separateLve (row.line ++ newline) = some (row.entry separateLve) := by
  have huid : ∀ b ∈ decimalText row.uid, b ≠ 10 := fun b hb =>
    (not_separator_of_isDigit (isDigit_of_mem_decimalText hb)).2.1
  have hscan := scanLine_mapLine row.user_isField row.account_isField huid hnewline
  have hpos := row.uid_pos
  simp only [mapEntry, MapTriple.line, mapLine, hscan, strlcpy_trim_take row.user_isField,
    strlcpy_trim_take row.account_isField, atoi_trim_decimalText row.uid_lt]
  rw [if_neg (by simp [strlcpy_bytes_ne_nil row.user_isField,
    strlcpy_bytes_ne_nil row.account_isField]), MapTriple.entry]
  cases separateLve with
  | false => rfl
  | true =>
      have huid_pos : (row.uid : ℤ) ≥ 1 := by exact_mod_cast hpos
      exact if_pos huid_pos

theorem mapEntry_newline (separateLve : Bool) : mapEntry separateLve [10] = none := by
  cases separateLve <;> rfl

/-! ## The reading loop -/

/-- A row is entered unless its name is there already. -/
def addRow (separateLve : Bool) (userMap : HashTable UserMap) (row : MapTriple) :
    HashTable UserMap :=
  if (userMap.lookup (strlcpy row.user)).isSome then userMap
  else userMap.insert (strlcpy row.user) (row.entry separateLve)

theorem addMapLine_line (separateLve : Bool) (userMap : HashTable UserMap) (row : MapTriple)
    (newline : CString) (hnewline : ∀ b ∈ newline, b = 10) :
    addMapLine separateLve userMap (row.line ++ newline) = addRow separateLve userMap row := by
  rw [addMapLine, mapEntry_line separateLve row hnewline]
  rfl

theorem MapTriple.not_mem_line (row : MapTriple) : 10 ∉ row.line ∧ 0 ∉ row.line := by
  have huid : ∀ b ∈ decimalText row.uid, b ≠ 32 ∧ b ≠ 10 ∧ b ≠ 0 := fun b hb =>
    not_separator_of_isDigit (isDigit_of_mem_decimalText hb)
  simp only [MapTriple.line, mapLine, List.mem_append, List.mem_cons, not_or]
  refine ⟨⟨fun h => (row.user_isField.2 _ h).2.1 rfl, by decide,
      fun h => (row.account_isField.2 _ h).2.1 rfl, by decide, fun h => (huid _ h).2.1 rfl⟩,
    ⟨fun h => (row.user_isField.2 _ h).2.2 rfl, by decide,
      fun h => (row.account_isField.2 _ h).2.2 rfl, by decide, fun h => (huid _ h).2.2 rfl⟩⟩

/-- The rest of the loop of `get_map_file`. -/
def readLines (separateLve : Bool) (fuel : ℕ) (bytes : CString) (userMap : HashTable UserMap) :
    HashTable UserMap :=
  (mapLines fuel bytes).foldl (addMapLine separateLve) userMap

theorem readLines_nil (separateLve : Bool) (fuel : ℕ) (userMap : HashTable UserMap) :
    readLines separateLve fuel [] userMap = userMap := by
  cases fuel <;> rfl

theorem readLines_succ (separateLve : Bool) (fuel : ℕ) {bytes line rest : CString}
    (hne : bytes ≠ []) (hfgets : fgets 1023 bytes = (line, rest)) (hnul : 0 ∉ line)
    (userMap : HashTable UserMap) :
    readLines separateLve (fuel + 1) bytes userMap =
      readLines separateLve fuel rest (addMapLine separateLve userMap line) := by
  obtain ⟨b, bytes, rfl⟩ := List.exists_cons_of_ne_nil hne
  have hline := Segments.takeWhile_ne hnul
  rw [readLines, mapLines, hfgets]
  simp only [hline, List.foldl_cons]
  rfl

theorem MapTriple.line_ne_nil (row : MapTriple) : row.line ≠ [] := by
  rw [MapTriple.line, mapLine]
  simp

/-- A line of 1023 bytes leaves its newline for a round of its own, which gives no entry. -/
theorem readLines_row (separateLve : Bool) (row : MapTriple) (rest : CString) {fuel : ℕ}
    (hfuel : (row.line ++ 10 :: rest).length ≤ fuel) (userMap : HashTable UserMap) :
    ∃ fuel', rest.length ≤ fuel' ∧ readLines separateLve fuel (row.line ++ 10 :: rest) userMap =
      readLines separateLve fuel' rest (addRow separateLve userMap row) := by
  obtain ⟨hnewline, hnul⟩ := row.not_mem_line
  have hfits := row.fits
  have hpos := List.length_pos_iff.mpr row.line_ne_nil
  rw [List.length_append, List.length_cons] at hfuel
  have hne : row.line ++ 10 :: rest ≠ [] := by simp
  by_cases hshort : row.line.length < 1023
  · obtain ⟨fuel, rfl⟩ : ∃ k, fuel = k + 1 := ⟨fuel - 1, by omega⟩
    refine ⟨fuel, by omega, ?_⟩
    rw [readLines_succ separateLve fuel hne (fgets_newline hnewline hshort rest) (by simp [hnul]),
      addMapLine_line separateLve userMap row [10] (by simp)]
  · have hfull : row.line.length = 1023 := by
      change row.line.length < 1024 at hfits
      omega
    obtain ⟨fuel, rfl⟩ : ∃ k, fuel = k + 1 + 1 := ⟨fuel - 2, by omega⟩
    have hnone : ∀ userMap, addMapLine separateLve userMap [10] = userMap := by
      intro userMap
      rw [addMapLine, mapEntry_newline]
    have hline := addMapLine_line separateLve userMap row [] (by simp)
    rw [List.append_nil] at hline
    have hlast : fgets 1023 (10 :: rest) = ([10], rest) := rfl
    refine ⟨fuel, by omega, ?_⟩
    rw [readLines_succ separateLve (fuel + 1) hne (fgets_full hnewline hfull (10 :: rest)) hnul,
      readLines_succ separateLve fuel (by simp) hlast (by decide), hnone, hline]

theorem readLines_rows (separateLve : Bool) (rows : List MapTriple) (rest : CString) {fuel : ℕ}
    (hfuel : (writtenLines rows ++ rest).length ≤ fuel) (userMap : HashTable UserMap) :
    ∃ fuel', rest.length ≤ fuel' ∧ readLines separateLve fuel (writtenLines rows ++ rest) userMap =
      readLines separateLve fuel' rest (rows.foldl (addRow separateLve) userMap) := by
  induction rows generalizing fuel userMap with
  | nil => exact ⟨fuel, hfuel, rfl⟩
  | cons row rows ih =>
      have hsplit : writtenLines (row :: rows) ++ rest =
          row.line ++ 10 :: (writtenLines rows ++ rest) := by
        simp [writtenLines]
      rw [hsplit] at hfuel ⊢
      obtain ⟨fuel', hfuel', hrow⟩ := readLines_row separateLve row _ hfuel userMap
      obtain ⟨fuel'', hfuel'', hrows⟩ := ih hfuel' (addRow separateLve userMap row)
      exact ⟨fuel'', hfuel'', hrow.trans hrows⟩

theorem readLines_lastRow (separateLve : Bool) (row : MapTriple) {fuel : ℕ}
    (hfuel : row.line.length ≤ fuel) (userMap : HashTable UserMap) :
    readLines separateLve fuel row.line userMap = addRow separateLve userMap row := by
  obtain ⟨hnewline, hnul⟩ := row.not_mem_line
  have hfits : row.line.length < 1024 := row.fits
  have hpos := List.length_pos_iff.mpr row.line_ne_nil
  obtain ⟨fuel, rfl⟩ : ∃ k, fuel = k + 1 := ⟨fuel - 1, by omega⟩
  have hline := addMapLine_line separateLve userMap row [] (by simp)
  rw [List.append_nil] at hline
  rw [readLines_succ separateLve fuel row.line_ne_nil (fgets_endOfFile hnewline (by omega)) hnul,
    readLines_nil, hline]

/-- The table after the whole file. -/
theorem getMapFile_mapFile (cfg : GovernorConfig) (rows : List MapTriple) (lastNewline : Bool) :
    (getMapFile cfg (some (mapFile rows lastNewline))).2 =
      rows.foldl (addRow cfg.separateLve) ∅ := by
  have hread : ∀ bytes, (getMapFile cfg (some bytes)).2 =
      readLines cfg.separateLve bytes.length bytes ∅ := fun _ => rfl
  rw [hread]
  cases lastNewline with
  | true =>
      have hfuel : (writtenLines rows ++ []).length ≤ (writtenLines rows).length := by simp
      obtain ⟨fuel, -, hrows⟩ := readLines_rows cfg.separateLve rows [] hfuel ∅
      rw [List.append_nil, readLines_nil] at hrows
      exact hrows
  | false =>
      cases rows using List.reverseRecOn with
      | nil => rfl
      | append_singleton rows row =>
          have hfile : mapFile (rows ++ [row]) false = writtenLines rows ++ row.line := by
            simp [mapFile, writtenLines, ← List.append_assoc]
          obtain ⟨fuel, hfuel, hrows⟩ := readLines_rows cfg.separateLve rows row.line (le_refl _) ∅
          rw [hfile, hrows, readLines_lastRow cfg.separateLve row hfuel, List.foldl_append]
          rfl

/-! ## The table -/

/-- Entries that are inserted only under new keys: the first of each key stays. -/
theorem lookup_foldl_insertNew {κ ν ε : Type} [DecidableEq κ] (key : ε → κ) (value : ε → ν)
    (entries : List ε) (k : κ) (table : AList fun _ : κ => ν) :
    (entries.foldl (fun table e =>
        if (table.lookup (key e)).isSome then table else table.insert (key e) (value e)) table).lookup k =
      (table.lookup k).or ((entries.find? fun e => key e = k).map value) := by
  induction entries generalizing table with
  | nil => simp
  | cons e entries ih =>
      rw [List.foldl_cons, ih]
      by_cases hk : key e = k
      · subst hk
        cases hlookup : table.lookup (key e) with
        | some v => simp [hlookup]
        | none => simp
      · by_cases hsome : (table.lookup (key e)).isSome
        · simp [hsome, hk]
        · simp [hsome, hk, AList.lookup_insert_ne (Ne.symm hk)]

/-- `g_hash_table_find` by the name in an entry finds the entry under that name. -/
theorem findUid_eq_lookup {t : HashTable UserMap}
    (ht : ∀ k um, t.lookup k = some um → um.username = k) (u : Username) :
    findUid (some t) u = t.lookup u := by
  have hmem : ∀ {um}, um ∈ t.entries.map Sigma.snd → t.lookup um.username = some um := by
    intro um hum
    obtain ⟨⟨k, um'⟩, hentry, rfl⟩ := List.mem_map.mp hum
    have hlookup : t.lookup k = some um' := AList.mem_lookup_iff.mpr hentry
    rw [ht k um' hlookup]
    exact hlookup
  rw [findUid, Option.bind_some]
  cases hlookup : t.lookup u with
  | none =>
      rw [List.find?_eq_none]
      intro um hum heq
      rw [← of_decide_eq_true heq, hmem hum] at hlookup
      cases hlookup
  | some um =>
      have hentry : um ∈ t.entries.map Sigma.snd :=
        List.mem_map.mpr ⟨⟨u, um⟩, AList.mem_lookup_iff.mp hlookup, rfl⟩
      have hfound : ((t.entries.map Sigma.snd).find? fun um => um.username = u).isSome := by
        rw [List.find?_isSome]
        exact ⟨um, hentry, decide_eq_true (ht u um hlookup)⟩
      obtain ⟨um', hum'⟩ := Option.isSome_iff_exists.mp hfound
      have hname : um'.username = u := by
        simpa using List.find?_some hum'
      have hlookup' := hmem (List.mem_of_find?_eq_some hum')
      rw [hname, hlookup] at hlookup'
      rw [hum', hlookup']

theorem lookup_rows (separateLve : Bool) (rows : List MapTriple) (k : Username) :
    (rows.foldl (addRow separateLve) ∅).lookup k =
      (rows.find? fun row => row.user.take 63 = k.bytes).map (MapTriple.entry separateLve) := by
  have hfirst := lookup_foldl_insertNew (fun row : MapTriple => strlcpy row.user)
    (MapTriple.entry separateLve) rows k ∅
  have hkey : ∀ row : MapTriple, strlcpy row.user = k ↔ row.user.take 63 = k.bytes := by
    intro row
    rw [Username.ext_iff, strlcpy_bytes_of_isField row.user_isField]
    rfl
  simp only [hkey] at hfirst
  exact hfirst.trans (by simp)

/-- The map gives each name the first row of the file for it. -/
theorem map_read_back (cfg : GovernorConfig) (rows : List MapTriple) (lastNewline : Bool)
    (u : Username) :
    let userMap := some (getMapFile cfg (some (mapFile rows lastNewline))).2
    let first := rows.find? fun row => row.user.take 63 = u.bytes
    getUid userMap u =
        (first.map fun row => if cfg.separateLve then (row.uid : ℤ) else badLve).getD badLve ∧
      (getAccount userMap u).map Username.bytes = first.map fun row => row.account.take 63 := by
  intro userMap first
  have hnames : ∀ k um, (rows.foldl (addRow cfg.separateLve) ∅).lookup k = some um →
      um.username = k := by
    intro k um hlookup
    rw [lookup_rows, Option.map_eq_some_iff] at hlookup
    obtain ⟨row, hfind, rfl⟩ := hlookup
    have hkey : row.user.take 63 = k.bytes := by
      simpa using List.find?_some hfind
    ext1
    rw [← hkey]
    exact strlcpy_bytes_of_isField row.user_isField
  have hfind : findUid userMap u = first.map (MapTriple.entry cfg.separateLve) := by
    change findUid (some _) u = _
    rw [getMapFile_mapFile, findUid_eq_lookup hnames, lookup_rows]
  rw [getUid, getAccount, hfind]
  cases first with
  | none => exact ⟨rfl, rfl⟩
  | some row => exact ⟨rfl, congrArg some (strlcpy_bytes_of_isField row.account_isField)⟩

/-- Two users whose names differ in their 64th byte. -/
def longNamed (last : UInt8) : CString := List.replicate 63 97 ++ [last]

def earlierRow : MapTriple where
  user := longNamed 98
  account := ascii "joe"
  uid := 501
  user_isField := by decide +kernel
  account_isField := by decide +kernel
  uid_pos := by decide
  uid_lt := by decide
  fits := by decide +kernel

def laterRow : MapTriple where
  user := longNamed 99
  account := ascii "bob"
  uid := 502
  user_isField := by decide +kernel
  account_isField := by decide +kernel
  uid_pos := by decide
  uid_lt := by decide
  fits := by decide +kernel

/-- The later of them gets the uid and the account of the earlier one. -/
theorem map_read_back_sample :
    let userMap := some (getMapFile { shippedConfig true with separateLve := true }
      (some (mapFile [earlierRow, laterRow] false))).2
    getUid userMap (strlcpy laterRow.user) = 501 ∧
      (getAccount userMap (strlcpy laterRow.user)).map Username.bytes = some (ascii "joe") := by
  intro userMap
  obtain ⟨huid, haccount⟩ := map_read_back { shippedConfig true with separateLve := true }
    [earlierRow, laterRow] false (strlcpy laterRow.user)
  refine ⟨huid.trans ?_, haccount.trans ?_⟩
  · decide +kernel
  · decide +kernel

end DbGovernor
