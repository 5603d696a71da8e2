import DbGovernor.Model.Split

/-!
# Fields of an option

With three commas `split` gives the four fields between them, each in a buffer of nine more bytes.
With more it copies fields up to indices that it has not assigned.
-/

namespace DbGovernor

/-! ## Parts of a list -/

section Parts

variable {α : Type} [BEq α] {a : α} {xs : List α}

theorem length_splitOn (a : α) (xs : List α) : (xs.splitOn a).length = xs.count a + 1 := by
  induction xs with
  | nil => rfl
  | cons x xs ih =>
      rw [List.splitOn_cons_eq_if_modifyHead, List.count_cons]
      split
      · rw [List.length_cons, ih]
      · rw [List.length_modifyHead, ih, Nat.add_zero]

theorem not_mem_of_mem_splitOn [LawfulBEq α] {part : List α} (h : part ∈ xs.splitOn a) :
    a ∉ part := by
  induction xs generalizing part with
  | nil =>
      rw [List.mem_singleton.mp h]
      exact List.not_mem_nil
  | cons x xs ih =>
      rw [List.splitOn_cons_eq_if_modifyHead] at h
      split at h
      · rcases List.mem_cons.mp h with rfl | h
        · exact List.not_mem_nil
        · exact ih h
      · rename_i hx
        obtain ⟨first, rest, hparts⟩ := List.exists_cons_of_ne_nil (List.splitOn_ne_nil a xs)
        rw [hparts, List.modifyHead_cons] at h
        rcases List.mem_cons.mp h with rfl | h
        · intro hmem
          rcases List.mem_cons.mp hmem with rfl | hmem
          · exact hx (by simp)
          · exact ih (hparts ▸ List.mem_cons_self) hmem
        · exact ih (hparts ▸ List.mem_cons_of_mem _ h)

end Parts

/-! ## The array of indices -/

section Indices

variable {t : UInt8} {part : CString}

/-- The indices at which the parts of a string end, from an index on. -/
def partEnds : ℕ → List CString → List ℕ
  | _, [] => []
  | i, part :: parts => (i + part.length) :: partEnds (i + part.length + 1) parts

theorem storeIndices_of_not_mem (h : t ∉ part) (i ind : ℕ) (strInd : List (Option ℕ)) :
    storeIndices t part i ind strInd = (ind, strInd) := by
  induction part generalizing i with
  | nil => rfl
  | cons c part ih =>
      obtain ⟨hc, hpart⟩ := List.ne_and_not_mem_of_not_mem_cons h
      rw [storeIndices, if_neg (Ne.symm hc)]
      exact ih hpart (i + 1)

theorem storeIndices_append (h : t ∉ part) (rest : CString) (i ind : ℕ)
    (strInd : List (Option ℕ)) :
    storeIndices t (part ++ t :: rest) i ind strInd =
      storeIndices t rest (i + part.length + 1) (ind + 1)
        (strInd.set ind (some (i + part.length))) := by
  induction part generalizing i with
  | nil => simp [storeIndices]
  | cons c part ih =>
      obtain ⟨hc, hpart⟩ := List.ne_and_not_mem_of_not_mem_cons h
      have hindex : i + 1 + part.length = i + (part.length + 1) := by omega
      rw [List.cons_append, storeIndices, if_neg (Ne.symm hc), ih hpart, List.length_cons, hindex]

/-- The array when each of its entries is the end of a part. -/
theorem storeIndices_parts {parts : List CString} (hne : parts ≠ []) (h : ∀ part ∈ parts, t ∉ part)
    (i : ℕ) (front : List (Option ℕ)) :
    let r := storeIndices t ([t].intercalate parts) i front.length
      (front ++ List.replicate parts.length none)
    r.2.set r.1 (some (i + ([t].intercalate parts).length)) =
      front ++ (partEnds i parts).map some := by
  induction parts generalizing i front with
  | nil => exact absurd rfl hne
  | cons part parts ih =>
      have hpart : t ∉ part := h part List.mem_cons_self
      cases parts with
      | nil =>
          simp [storeIndices_of_not_mem hpart, partEnds, List.set_append_right]
      | cons next parts =>
          have hrest := ih (by simp) (fun part hp => h part (List.mem_cons_of_mem _ hp))
            (i + part.length + 1) (front ++ [some (i + part.length)])
          have hlength : i + ([t].intercalate (part :: next :: parts)).length =
              i + part.length + 1 + ([t].intercalate (next :: parts)).length := by
            simp
            omega
          have hset : (front ++ List.replicate (part :: next :: parts).length none).set
              front.length (some (i + part.length)) =
                front ++ [some (i + part.length)] ++
                  List.replicate (next :: parts).length none := by
            simp [List.set_append_right, List.replicate_succ]
          rw [hlength, List.intercalate_cons_cons, List.append_assoc, List.singleton_append,
            storeIndices_append hpart, hset]
          simpa [partEnds] using hrest

/-- The fields up to the ends of the parts are the parts. -/
theorem copyFields_parts {str : CString} {parts : List CString} {i : ℕ}
    (h : str.drop i = [t].intercalate parts) :
    copyFields str ((partEnds i parts).map some) i =
      some (parts.map fun part => ⟨part, part.length + 9⟩) := by
  induction parts generalizing i with
  | nil => rfl
  | cons part parts ih =>
      have hfield : (str.drop i).take part.length = part := by
        rw [h]
        cases parts with
        | nil => simp
        | cons next parts => rw [List.intercalate_cons_cons, List.append_assoc, List.take_left]
      have hrest : copyFields str ((partEnds (i + part.length + 1) parts).map some)
          (i + part.length + 1) = some (parts.map fun part => ⟨part, part.length + 9⟩) := by
        cases parts with
        | nil => rfl
        | cons next parts =>
            apply ih
            rw [Nat.add_assoc, ← List.drop_drop, h, List.intercalate_cons_cons, List.append_assoc,
              ← List.drop_drop, List.drop_left]
            rfl
      rw [partEnds, List.map_cons, copyFields, hrest, Nat.add_sub_cancel_left, hfield]
      rfl

end Indices

/-! ## What `split` gives -/

theorem splitCnt_comma (s : CString) : splitCnt s 44 = s.count 44 + 1 := if_neg (by decide)

/-- The indices that are assigned with three commas are the ends of the fields. -/
theorem splitIndices_of_three {s : CString} (h : s.count 44 = 3) :
    splitIndices s 44 = (partEnds 0 (s.splitOn 44)).map some := by
  have hparts := storeIndices_parts (t := 44) (List.splitOn_ne_nil 44 s)
    (fun part hp => not_mem_of_mem_splitOn hp) 0 []
  rw [List.intercalate_splitOn, length_splitOn, h] at hparts
  simpa [splitIndices, splitCnt_comma, h] using hparts

/-- With more commas only the first index is assigned. -/
theorem splitIndices_of_more {s : CString} (h : 3 < s.count 44) :
    splitIndices s 44 = some s.length :: List.replicate (s.count 44) none := by
  have hcnt : splitCnt s 44 ≠ 4 := by
    rw [splitCnt_comma]
    omega
  rw [splitIndices]
  simp only [hcnt, if_false]
  rw [splitCnt_comma, List.replicate_succ, List.set_cons_zero]

/-- `split` at commas. -/
theorem splitInto_comma (s : CString) :
    splitInto s 44 =
      if s.count 44 < 3 then some (0, [])
      else if s.count 44 = 3 then
        some (4, (s.splitOn 44).map fun part => ⟨part, part.length + 9⟩)
      else none := by
  rw [splitInto, splitCnt_comma]
  rcases Nat.lt_trichotomy (s.count 44) 3 with hlt | heq | hgt
  · rw [if_pos hlt, if_pos ⟨by decide, by omega⟩]
  · rw [if_neg (by omega), if_pos heq, if_neg (by omega), splitIndices_of_three heq,
      copyFields_parts (t := 44) (by rw [List.drop_zero, List.intercalate_splitOn]), heq]
    rfl
  · obtain ⟨n, hn⟩ : ∃ n, s.count 44 = n + 1 := ⟨s.count 44 - 1, by omega⟩
    rw [if_neg (by omega), if_neg (by omega), if_neg (by omega), splitIndices_of_more hgt, hn,
      List.replicate_succ, copyFields, copyFields]
    rfl

/-- The function with its array and buffers gives what `split` does on the parts of the string. -/
theorem splitInto_eq_split (s : CString) :
    splitInto s 44 =
      match split s with
      | .tooFew => some (0, [])
      | .fields data =>
          some (4, [data.current, data.short, data.mid, data.long].map fun part =>
            ⟨part, part.length + 9⟩)
      | .unset => none := by
  have hlength := length_splitOn (44 : UInt8) s
  rw [splitInto_comma, split]
  generalize s.splitOn 44 = parts at hlength
  match parts with
  | [] => simp at hlength
  | [_] | [_, _] | [_, _, _] =>
      rw [if_pos (by simp at hlength; omega)]
      rfl
  | [_, _, _, _] =>
      have hthree : s.count 44 = 3 := by
        simp at hlength
        omega
      rw [hthree]
      rfl
  | _ :: _ :: _ :: _ :: _ :: rest =>
      have hmore : 3 < s.count 44 := by
        simp at hlength
        omega
      have hlong : ¬ rest.length + 5 < 4 := by omega
      rw [if_neg (by omega), if_neg (by omega)]
      simp [hlong]

/-- `split` at commas gives no field, or the fields that its count says: they hold no comma, and
joined with commas they are the string. No index is used that was not assigned. -/
def SplitExact (s : CString) : Prop :=
  ∃ cnt fields, splitInto s 44 = some (cnt, fields) ∧
    (cnt = 0 ∨ fields.length = cnt ∧ (∀ field ∈ fields, 44 ∉ field.str) ∧
      [44].intercalate (fields.map SplitField.str) = s)

/-- A string is split exactly, or refused, if it has at most three commas. -/
theorem splitExact_iff (s : CString) : SplitExact s ↔ s.count 44 ≤ 3 := by
  rw [SplitExact, splitInto_comma]
  constructor
  · rintro ⟨cnt, fields, hsplit, -⟩
    by_contra hmore
    rw [if_neg (by omega), if_neg (by omega)] at hsplit
    cases hsplit
  · intro hfew
    by_cases hlt : s.count 44 < 3
    · exact ⟨0, [], if_pos hlt, .inl rfl⟩
    · have heq : s.count 44 = 3 := by omega
      refine ⟨4, _, by rw [if_neg hlt, if_pos heq], .inr ⟨?_, ?_, ?_⟩⟩
      · rw [List.length_map, length_splitOn, heq]
      · intro field hfield
        obtain ⟨part, hpart, rfl⟩ := List.mem_map.mp hfield
        exact not_mem_of_mem_splitOn hpart
      · rw [List.map_map]
        exact (congrArg _ (List.map_id _)).trans (List.intercalate_splitOn 44)

/-- Five fields. -/
theorem five_fields_not_exact : ¬ SplitExact (ascii "1,2,3,4,5") := by
  rintro ⟨cnt, fields, hsplit, -⟩
  have hnone : splitInto (ascii "1,2,3,4,5") 44 = none := by decide +kernel
  rw [hnone] at hsplit
  cases hsplit

end DbGovernor
