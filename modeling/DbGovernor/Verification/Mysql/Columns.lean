import DbGovernor.Model.MysqlStrings

/-!
# Copies of columns stay in their buffers

`db_mysql_get_string` cuts a column that is longer than the buffer, but one that is exactly as
long is copied whole, and its NUL lies behind the buffer.
-/

namespace DbGovernor

/-- The memory starts with a C string. -/
def Memory.Holds (m : Memory) (bytes : List UInt8) : Prop :=
  (∀ i, ∀ b ∈ bytes[i]?, m i = b) ∧ m bytes.length = 0

/-- A copy of a column stores below the size it was given, and leaves the front of the column
that fits, whatever was in the buffer. -/
structure CopyFits (column : List UInt8) (maxBuferLen : ℕ) : Prop where
  inside : ∀ s ∈ getStringStores column maxBuferLen, s.1 < maxBuferLen
  holds : ∀ buffer, (dbMysqlGetString buffer column maxBuferLen).Holds
    (column.take (maxBuferLen - 1))

theorem storesAt_bounds {i : ℕ} {bytes : List UInt8} {s : ℕ × UInt8}
    (h : s ∈ storesAt i bytes) : i ≤ s.1 ∧ s.1 < i + bytes.length := by
  induction bytes generalizing i with
  | nil => cases h
  | cons b bytes ih =>
      rw [storesAt] at h
      rcases List.mem_cons.mp h with rfl | h
      · simp
      · have hrest := ih h
        rw [List.length_cons]
        omega

theorem store_append (m : Memory) (stores more : List (ℕ × UInt8)) :
    m.store (stores ++ more) = (m.store stores).store more :=
  List.foldl_append

/-- The bytes of a copy are found again. -/
theorem store_storesAt (m : Memory) (i : ℕ) (bytes : List UInt8) (j : ℕ) :
    m.store (storesAt i bytes) j = if i ≤ j then (bytes[j - i]?).getD (m j) else m j := by
  induction bytes generalizing m i with
  | nil => simp [storesAt, Memory.store]
  | cons b bytes ih =>
      rw [storesAt, Memory.store, List.foldl_cons, ← Memory.store, ih]
      rcases Nat.lt_trichotomy i j with hlt | heq | hgt
      · have hindex : j - i = (j - (i + 1)) + 1 := by omega
        rw [if_pos (by omega), if_pos (by omega), Function.update_of_ne (by simp only; omega),
          hindex, List.getElem?_cons_succ]
      · subst heq
        rw [if_neg (by omega), if_pos (Nat.le_refl _), Nat.sub_self, List.getElem?_cons_zero]
        exact Function.update_self ..
      · rw [if_neg (by omega), if_neg (by omega), Function.update_of_ne (by simp only; omega)]

theorem stringEnd_of_le {length maxBuferLen : ℕ} (h : length ≤ maxBuferLen) :
    stringEnd length maxBuferLen = length := if_neg (by omega)

theorem stringEnd_of_lt {length maxBuferLen : ℕ} (h : maxBuferLen < length)
    (hpos : 0 < maxBuferLen) (hmax : maxBuferLen < 2 ^ 64) :
    stringEnd length maxBuferLen = maxBuferLen - 1 := by
  rw [stringEnd, if_pos h]
  omega

/-- The last index below the size, or the length of a column that is shorter. -/
theorem stringEnd_of_ne {length maxBuferLen : ℕ} (h : length ≠ maxBuferLen)
    (hpos : 0 < maxBuferLen) (hmax : maxBuferLen < 2 ^ 64) :
    stringEnd length maxBuferLen = min length (maxBuferLen - 1) := by
  rcases Nat.lt_or_gt_of_ne h with hlt | hgt
  · rw [stringEnd_of_le (Nat.le_of_lt hlt)]
    omega
  · rw [stringEnd_of_lt hgt hpos hmax]
    omega

/-- The stores of a column whose length is not the size: its front, and the NUL behind it. -/
theorem getStringStores_of_ne {column : List UInt8} {maxBuferLen : ℕ}
    (h : column.length ≠ maxBuferLen) (hpos : 0 < maxBuferLen) (hmax : maxBuferLen < 2 ^ 64) :
    getStringStores column maxBuferLen = storesAt 0 (column.take (maxBuferLen - 1)) ++
      [((column.take (maxBuferLen - 1)).length, 0)] := by
  have hend := stringEnd_of_ne h hpos hmax
  have htake : column.take (stringEnd column.length maxBuferLen) =
      column.take (maxBuferLen - 1) := by
    rw [hend, Nat.min_comm, ← List.take_eq_take_min]
  have hlength : (column.take (maxBuferLen - 1)).length =
      stringEnd column.length maxBuferLen := by
    rw [List.length_take, hend, Nat.min_comm]
  rw [getStringStores, htake, hlength]

/-- The stores of a string and of its NUL leave the string, whatever was there. -/
theorem holds_store (buffer : Memory) (bytes : List UInt8) :
    (buffer.store (storesAt 0 bytes ++ [(bytes.length, 0)])).Holds bytes := by
  have hafter : ∀ j, buffer.store (storesAt 0 bytes ++ [(bytes.length, 0)]) j =
      if j = bytes.length then 0 else (bytes[j]?).getD (buffer j) := by
    intro j
    rw [store_append, Memory.store, List.foldl_cons, List.foldl_nil, Function.update_apply,
      store_storesAt]
    simp
  constructor
  · intro i b hb
    have hi : i < bytes.length := (List.getElem?_eq_some_iff.mp hb).1
    rw [hafter, if_neg (by omega), Option.mem_def.mp hb]
    rfl
  · rw [hafter, if_pos rfl]

/-- A column that is exactly as long as the buffer has its NUL behind it. -/
theorem nul_mem_getStringStores {column : List UInt8} {maxBuferLen : ℕ}
    (h : column.length = maxBuferLen) : (maxBuferLen, 0) ∈ getStringStores column maxBuferLen := by
  rw [getStringStores, h, stringEnd_of_le (Nat.le_refl _)]
  exact List.mem_append_right _ (List.mem_singleton_self _)

theorem copyFits_iff {column : List UInt8} {maxBuferLen : ℕ} (hpos : 0 < maxBuferLen)
    (hmax : maxBuferLen < 2 ^ 64) :
    CopyFits column maxBuferLen ↔ column.length ≠ maxBuferLen := by
  constructor
  · intro h heq
    exact absurd (h.inside _ (nul_mem_getStringStores heq)) (Nat.lt_irrefl _)
  · intro hne
    have hstores := getStringStores_of_ne hne hpos hmax
    constructor
    · intro s hs
      have hlength := List.length_take_le (maxBuferLen - 1) column
      rw [hstores] at hs
      rcases List.mem_append.mp hs with hs | hs
      · have hbounds := storesAt_bounds hs
        omega
      · rw [List.mem_singleton.mp hs]
        dsimp only
        omega
    · intro buffer
      rw [dbMysqlGetString, hstores]
      exact holds_store buffer _

/-- Each copy that a function makes of the columns of a row stays in its buffer. -/
def CopiesFit (caller : ColumnCaller) (row : MysqlRow) : Prop :=
  ∀ copy ∈ caller.copies row, CopyFits (row copy.1) copy.2

theorem copies_size {caller : ColumnCaller} {row : MysqlRow} {copy : ℕ × ℕ}
    (h : copy ∈ caller.copies row) : copy.2 = 8192 ∨ copy.2 = 2048 := by
  cases caller with
  | parseSlowQuery =>
      obtain ⟨column, -, rfl⟩ := List.mem_map.mp h
      exact .inl rfl
  | logUserQueries userName =>
      rw [ColumnCaller.copies] at h
      split at h
      · rw [List.mem_singleton.mp h]
        exact .inl rfl
      · cases h
  | checkMysqlVersion =>
      rw [List.mem_singleton.mp h]
      exact .inr rfl
  | activatePlugin =>
      rw [List.mem_singleton.mp h]
      exact .inr rfl

/-- The copies of a row stay in their buffers unless a column is exactly as long as its
buffer. -/
theorem copiesFit_iff (caller : ColumnCaller) (row : MysqlRow) :
    CopiesFit caller row ↔ ∀ copy ∈ caller.copies row, (row copy.1).length ≠ copy.2 := by
  refine forall₂_congr fun copy hcopy => ?_
  have hsize := copies_size hcopy
  exact copyFits_iff (by omega) (by omega)

/-- A query text of 8192 bytes. -/
theorem full_column_not_inside :
    ¬ CopiesFit .parseSlowQuery fun _ => List.replicate 8192 65 := by
  intro h
  have hinside := (h (7, 8192) (by decide)).inside
  exact absurd (hinside _ (nul_mem_getStringStores List.length_replicate)) (Nat.lt_irrefl _)

end DbGovernor
