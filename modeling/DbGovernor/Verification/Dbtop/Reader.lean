import DbGovernor.Verification.Dbtop.Records

/-!
# What a client makes of the rounds

The frames of a round are those that `read_info` waits for. `dbtop` replaces its list at the end of
a round, and `dbctl` returns there.
-/

namespace DbGovernor

open FrameReader

section Round

variable (p : ListSender)

/-- The writes of a round. -/
def ListSender.round (accounts : List Account) : List (List UInt8) :=
  leBytes 4 1 :: p.answer accounts

/-- The accounts of a round as `read_info` keeps them. -/
def ListSender.received (accounts : List Account) : List RecvAccount :=
  (accounts.filter p.listed).map fun ac => (p.exch ac).received (p.unset ac.id)

/-- The accounts of a round with the figures that the daemon has of them. -/
def ListSender.figures (accounts : List Account) : List DbtopExch :=
  (accounts.filter p.listed).map p.exch

/-- What `dbtop` shows after whole rounds. -/
def ListSender.shown (sort : List DbtopExch → List DbtopExch) (whole : List (List Account)) :
    List DbtopExch :=
  match whole.getLast? with
  | none => []
  | some accounts => sort (p.figures accounts)

/-- The integers of the accounts fit their C types. -/
def ListSender.Ranged (accounts : List Account) : Prop := ∀ ac ∈ accounts, (p.exch ac).Ranged

theorem ListSender.one_lt_length_round (accounts : List Account) :
    1 < (p.round accounts).length := by
  simp [ListSender.round, ListSender.answer]

theorem ListSender.received_prefix {before accounts : List Account} (h : before <+: accounts) :
    p.received before <+: p.received accounts := (h.filter _).map _

theorem ListSender.map_received (accounts : List Account) :
    (p.received accounts).map copyToShowedAccounts = p.figures accounts := by
  simp only [ListSender.received, ListSender.figures, List.map_map, Function.comp_def,
    copyToShowedAccounts_received]

@[simp] theorem ListSender.shown_concat (sort : List DbtopExch → List DbtopExch)
    (whole : List (List Account)) (accounts : List Account) :
    p.shown sort (whole ++ [accounts]) = sort (p.figures accounts) := by
  simp only [ListSender.shown, List.getLast?_concat]

end Round

variable {p : ListSender} {client : ListClient} {sort : List DbtopExch → List DbtopExch}
  {s : ReadInfo} {accounts : List Account}

/-! ### One frame -/

theorem ReadInfo.take_one (h : s.phase = .newRecord) :
    s.take client sort (leBytes 4 1) =
      match client with
      | .dbtop => { s with recvAccounts := [], testers := s.testers + 1 }
      | .dbctl => { s with testers := s.testers + 1 } := by
  cases client <;> simp [ReadInfo.take, h, leInt_leBytes (show FitsBytes 4 1 by decide)]

theorem ReadInfo.take_zero (h : s.phase = .newRecord) :
    s.take client sort (leBytes 4 0) = { s with phase := .exch } := by
  simp [ReadInfo.take, h, leInt_leBytes (show FitsBytes 4 0 by decide)]

theorem ReadInfo.take_two (h : s.phase = .newRecord) :
    s.take client sort (leBytes 4 2) =
      match client with
      | .dbtop => { s with accounts := sort (s.recvAccounts.map copyToShowedAccounts) }
      | .dbctl => { s with phase := .returned } := by
  cases client <;> simp [ReadInfo.take, h, leInt_leBytes (show FitsBytes 4 2 by decide)]

theorem ReadInfo.take_exch (h : s.phase = .exch) (bytes : List UInt8) :
    s.take client sort bytes =
      { s with
        phase := .newRecord
        recvAccounts := s.recvAccounts ++ [RecvAccount.decode bytes] } := by
  simp [ReadInfo.take, h]

/-! ### The accounts of a round -/

theorem sendAccount_flatMap_spec (client : ListClient) (sort : List DbtopExch → List DbtopExch)
    (hranged : p.Ranged accounts) (h : s.phase = .newRecord) :
    Fits ReadInfo.need (ReadInfo.take client sort) s (accounts.flatMap p.sendAccount) ∧
      (accounts.flatMap p.sendAccount).foldl (ReadInfo.take client sort) s =
        { s with recvAccounts := s.recvAccounts ++ p.received accounts } := by
  induction accounts generalizing s with
  | nil => simp [Fits, ListSender.received]
  | cons ac accounts ih =>
      have hac : (p.exch ac).Ranged := hranged ac (by simp)
      have hrest : p.Ranged accounts := fun a ha => hranged a (by simp [ha])
      rw [List.flatMap_cons]
      by_cases hlisted : p.listed ac
      · have hsend : p.sendAccount ac = [leBytes 4 0, (p.exch ac).encode (p.unset ac.id)] := by
          rw [ListSender.sendAccount, if_pos hlisted]
        have hreceived : p.received (ac :: accounts) =
            (p.exch ac).received (p.unset ac.id) :: p.received accounts := by
          simp [ListSender.received, hlisted]
        have hphase : ({ s with
            recvAccounts := s.recvAccounts ++ [(p.exch ac).received (p.unset ac.id)] } :
              ReadInfo).phase = .newRecord := h
        obtain ⟨hfits, hfold⟩ := ih hrest hphase
        have hthere : ({ s with
            phase := .newRecord
            recvAccounts := s.recvAccounts ++ [(p.exch ac).received (p.unset ac.id)] } : ReadInfo) =
            { s with
              recvAccounts := s.recvAccounts ++ [(p.exch ac).received (p.unset ac.id)] } := by
          rw [← h]
        rw [hsend, List.cons_append, List.cons_append, List.nil_append]
        simp only [Fits, List.foldl_cons, ReadInfo.take_zero h, ReadInfo.take_exch,
          DbtopExch.decode_encode hac, hthere, hfold]
        refine ⟨⟨?_, ?_, ?_, ?_, hfits⟩, ?_⟩
        · exact List.ne_nil_of_length_pos (by simp)
        · simp [ReadInfo.need, h]
        · exact List.ne_nil_of_length_pos (by simp [dbtopExchSize])
        · simp [ReadInfo.need]
        · rw [hreceived, List.append_assoc, List.singleton_append]
      · have hsend : p.sendAccount ac = [] := by rw [ListSender.sendAccount, if_neg hlisted]
        have hreceived : p.received (ac :: accounts) = p.received accounts := by
          simp [ListSender.received, hlisted]
        rw [hsend, hreceived, List.nil_append]
        exact ih hrest h

/-- In the middle of a round the reader has the records of a part of the accounts. -/
theorem foldl_take_part (client : ListClient) (sort : List DbtopExch → List DbtopExch)
    (hranged : p.Ranged accounts) (h : s.phase = .newRecord)
    {part : List (List UInt8)} (hpart : part <+: accounts.flatMap p.sendAccount) :
    ∃ phase before, phase ≠ .returned ∧ before <+: accounts ∧
      part.foldl (ReadInfo.take client sort) s =
        { s with phase := phase, recvAccounts := s.recvAccounts ++ p.received before } := by
  obtain ⟨whole, begun, hwhole, rfl, hbegun⟩ := exists_of_prefix_flatMap hpart
  have hpre : p.Ranged whole := fun ac hac => hranged ac (hwhole.subset hac)
  have hphase : ({ s with recvAccounts := s.recvAccounts ++ p.received whole } : ReadInfo).phase =
      .newRecord := h
  rw [List.foldl_append, (sendAccount_flatMap_spec client sort hpre h).2]
  rcases hbegun with rfl | ⟨ac, -, hin, hne⟩
  · exact ⟨.newRecord, whole, by decide, hwhole, by rw [List.foldl_nil, ← h]⟩
  · by_cases hlisted : p.listed ac
    · rw [ListSender.sendAccount, if_pos hlisted] at hin hne
      match begun, hin, hne with
      | [], _, _ => exact ⟨.newRecord, whole, by decide, hwhole, by rw [List.foldl_nil, ← h]⟩
      | [frame], hin, _ =>
          obtain rfl : frame = leBytes 4 0 := by simpa using hin
          refine ⟨.exch, whole, by decide, hwhole, ?_⟩
          rw [List.foldl_cons, List.foldl_nil, ReadInfo.take_zero hphase]
      | frame :: frame' :: rest, hin, hne =>
          have hlong := hin.length_le
          obtain rfl : rest = [] := by
            simp only [List.length_cons, List.length_nil] at hlong
            exact List.eq_nil_of_length_eq_zero (by omega)
          exact absurd (hin.eq_of_length (by simp)) hne
    · rw [ListSender.sendAccount, if_neg hlisted] at hin hne
      exact absurd (by simpa using hin) hne

/-! ### A round -/

theorem ListSender.prefix_answer {part : List (List UInt8)} (h : part <+: p.answer accounts)
    (hne : part ≠ p.answer accounts) : part <+: accounts.flatMap p.sendAccount :=
  (List.prefix_concat_iff.mp h).resolve_left hne

/-- The round of a client that has just written its answer. -/
theorem foldl_take_round_part (client : ListClient) (sort : List DbtopExch → List DbtopExch)
    (hranged : p.Ranged accounts) (h : s.phase = .newRecord)
    {part : List (List UInt8)} (hpart : part <+: p.round accounts)
    (hne : part ≠ p.round accounts) (hnil : part ≠ []) :
    let s' := part.foldl (ReadInfo.take client sort) s
    s'.phase ≠ .returned ∧ s'.accounts = s.accounts ∧ s'.testers = s.testers + 1 := by
  match part, hpart, hne, hnil with
  | frame :: part, hpart, hne, _ =>
      obtain ⟨rfl, hrest⟩ := List.cons_prefix_cons.mp hpart
      have hin : part <+: accounts.flatMap p.sendAccount :=
        ListSender.prefix_answer hrest fun heq => hne (by rw [heq, ListSender.round])
      rw [List.foldl_cons, ReadInfo.take_one h]
      cases client with
      | dbtop =>
          have hphase : ({ s with recvAccounts := [], testers := s.testers + 1 } : ReadInfo).phase =
              .newRecord := h
          obtain ⟨phase, _, hnot, -, hfold⟩ := foldl_take_part .dbtop sort hranged hphase hin
          rw [hfold]
          exact ⟨hnot, rfl, rfl⟩
      | dbctl =>
          have hphase : ({ s with testers := s.testers + 1 } : ReadInfo).phase = .newRecord := h
          obtain ⟨phase, _, hnot, -, hfold⟩ := foldl_take_part .dbctl sort hranged hphase hin
          rw [hfold]
          exact ⟨hnot, rfl, rfl⟩

theorem dbtop_round_spec (sort : List DbtopExch → List DbtopExch) (hranged : p.Ranged accounts)
    (h : s.phase = .newRecord) :
    Fits ReadInfo.need (ReadInfo.take .dbtop sort) s (p.round accounts) ∧
      (p.round accounts).foldl (ReadInfo.take .dbtop sort) s =
        { s with
          recvAccounts := p.received accounts
          accounts := sort (p.figures accounts)
          testers := s.testers + 1 } := by
  have hphase : ({ s with recvAccounts := [], testers := s.testers + 1 } : ReadInfo).phase =
      .newRecord := h
  have hend : ({ s with recvAccounts := p.received accounts, testers := s.testers + 1 } :
      ReadInfo).phase = .newRecord := h
  obtain ⟨hfits, hfold⟩ := sendAccount_flatMap_spec .dbtop sort hranged hphase
  rw [List.nil_append] at hfold
  simp only [ListSender.round, ListSender.answer, Fits, fits_append, List.foldl_cons,
    List.foldl_append, List.foldl_nil, ReadInfo.take_one h, hfold, ReadInfo.take_two hend,
    ListSender.map_received, and_true]
  refine ⟨?_, ?_, hfits, ?_, ?_⟩
  · exact List.ne_nil_of_length_pos (by simp)
  · simp [ReadInfo.need, h]
  · exact List.ne_nil_of_length_pos (by simp)
  · simp [ReadInfo.need, h]

theorem dbctl_round_spec (sort : List DbtopExch → List DbtopExch) (hranged : p.Ranged accounts)
    (h : s.phase = .newRecord) :
    Fits ReadInfo.need (ReadInfo.take .dbctl sort) s (p.round accounts) ∧
      (p.round accounts).foldl (ReadInfo.take .dbctl sort) s =
        { s with
          phase := .returned
          recvAccounts := s.recvAccounts ++ p.received accounts
          testers := s.testers + 1 } := by
  have hphase : ({ s with testers := s.testers + 1 } : ReadInfo).phase = .newRecord := h
  have hend : ({ s with
      recvAccounts := s.recvAccounts ++ p.received accounts
      testers := s.testers + 1 } : ReadInfo).phase = .newRecord := h
  obtain ⟨hfits, hfold⟩ := sendAccount_flatMap_spec .dbctl sort hranged hphase
  simp only [ListSender.round, ListSender.answer, Fits, fits_append, List.foldl_cons,
    List.foldl_append, List.foldl_nil, ReadInfo.take_one h, hfold, ReadInfo.take_two hend, and_true]
  refine ⟨?_, ?_, hfits, ?_, ?_⟩
  · exact List.ne_nil_of_length_pos (by simp)
  · simp [ReadInfo.need, h]
  · exact List.ne_nil_of_length_pos (by simp)
  · simp [ReadInfo.need, h]

/-! ### Whole rounds of `dbtop` -/

theorem dbtop_rounds_spec (sort : List DbtopExch → List DbtopExch) {rounds : List (List Account)}
    (hranged : ∀ r ∈ rounds, p.Ranged r) :
    Fits ReadInfo.need (ReadInfo.take .dbtop sort) .init (rounds.flatMap p.round) ∧
      ∃ recvAccounts, (rounds.flatMap p.round).foldl (ReadInfo.take .dbtop sort) .init =
        ⟨.newRecord, recvAccounts, p.shown sort rounds, rounds.length⟩ := by
  induction rounds using List.reverseRecOn with
  | nil => exact ⟨trivial, [], rfl⟩
  | append_singleton rounds accounts ih =>
      have hlast : p.Ranged accounts := hranged accounts (by simp)
      obtain ⟨hfits, recvAccounts, hfold⟩ := ih fun r hr => hranged r (by simp [hr])
      obtain ⟨hround, hnext⟩ := dbtop_round_spec sort hlast
        (show ReadInfo.phase ⟨.newRecord, recvAccounts, p.shown sort rounds, rounds.length⟩ =
          .newRecord from rfl)
      rw [List.flatMap_append, List.flatMap_singleton, fits_append, List.foldl_append, hfold]
      refine ⟨⟨hfits, hround⟩, p.received accounts, ?_⟩
      rw [hnext, ListSender.shown_concat, List.length_append, List.length_singleton]

end DbGovernor
