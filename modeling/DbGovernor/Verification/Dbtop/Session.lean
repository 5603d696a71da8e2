import DbGovernor.Verification.Dbtop.Reader

/-!
# The list that the clients get

The two sides of the socket take turns: whatever part of the writes has come, `dbtop` shows the
last round that came whole, and `dbctl` has a part of the first one until it returns. No side waits
for ever.
-/

namespace DbGovernor

open FrameReader

section Session

variable (p : ListSender) (client : ListClient) (sort : List DbtopExch → List DbtopExch)
  (rounds : ℕ → List Account)

/-- The states of a connection. -/
def ListReachable : ListSession → Prop :=
  Relation.ReflTransGen (ListStep p client sort rounds) .init

/-- The reads of the client on the bytes that came. -/
def readBytes (delivered : List UInt8) : ReadInfo × List UInt8 :=
  delivered.foldl (feed ReadInfo.need (ReadInfo.take client sort)) (.init, [])

/-- The rounds before the round `n`. -/
def roundsTo (n : ℕ) : List (List Account) := (List.range n).map rounds

/-- After `n` steps: the writes of the daemon are the rounds that it finished and the `1` of the
next one, and each step was a byte that came, a write or the end. -/
structure ListInv (n : ℕ) (s : ListSession) (tail : List (List UInt8)) (delivered : List UInt8) :
    Prop where
  wire : delivered ++ s.outgoing = ((roundsTo rounds s.taken).flatMap p.round ++ tail).flatten
  reader : s.reader = readBytes client sort delivered
  tail_cases : tail = [] ∨ tail = [leBytes 4 1]
  announcing : s.server = .announcing → tail = []
  waiting : s.server = .waiting → tail = [leBytes 4 1]
  closed : s.server = .closed → s.reader.1.phase = .returned
  steps : n = delivered.length + 2 * s.taken + tail.length + if s.server = .closed then 1 else 0

end Session

/-- A daemon with an account of no traffic; its stack holds `255`. -/
def quietSender : ListSender := ⟨shippedConfig true, fun _ => 0, fun _ => 255⟩

def quietAccount : Account := initAccount (strlcpy (ascii "joe"))

theorem quietAccount_ranged : quietSender.Ranged [quietAccount] := by
  intro ac hac
  obtain rfl := List.mem_singleton.mp hac
  have hstats : ExchStats.Ranged ⟨0, 0, 0⟩ := ⟨by decide, by decide, by decide⟩
  exact ⟨hstats, hstats, hstats, hstats, by decide, by decide, by decide, by decide, by decide⟩

variable {p : ListSender} {client : ListClient} {sort : List DbtopExch → List DbtopExch}
  {rounds : ℕ → List Account} {s s' : ListSession} {n : ℕ} {tail part : List (List UInt8)}
  {delivered : List UInt8}

/-! ### The rounds -/

theorem roundsTo_succ (rounds : ℕ → List Account) (n : ℕ) :
    roundsTo rounds (n + 1) = roundsTo rounds n ++ [rounds n] := by
  simp [roundsTo, List.range_succ]

@[simp] theorem length_roundsTo (rounds : ℕ → List Account) (n : ℕ) :
    (roundsTo rounds n).length = n := by
  simp [roundsTo]

theorem eq_roundsTo_of_prefix {whole : List (List Account)} (h : whole <+: roundsTo rounds n) :
    whole = roundsTo rounds whole.length := by
  have hlength := h.length_le
  rw [length_roundsTo] at hlength
  conv_lhs => rw [List.prefix_iff_eq_take.mp h]
  rw [roundsTo, ← List.map_take, List.take_range, Nat.min_eq_left hlength, roundsTo]

theorem roundsTo_ranged (hranged : ∀ i, p.Ranged (rounds i)) :
    ∀ r ∈ roundsTo rounds n, p.Ranged r := by
  intro r hr
  obtain ⟨i, -, rfl⟩ := List.mem_map.mp hr
  exact hranged i

theorem roundsTo_mono (rounds : ℕ → List Account) {k : ℕ} (h : k ≤ n) :
    roundsTo rounds k <+: roundsTo rounds n := by
  rw [List.prefix_iff_eq_take, length_roundsTo, roundsTo, roundsTo, ← List.map_take,
    List.take_range, Nat.min_eq_left h]

/-- The bytes of the rounds before the round `n`. -/
def ListSender.roundBytes (p : ListSender) (rounds : ℕ → List Account) (n : ℕ) : List UInt8 :=
  ((roundsTo rounds n).flatMap p.round).flatten

theorem ListSender.length_roundBytes_mono (p : ListSender) (rounds : ℕ → List Account) {k : ℕ}
    (h : k ≤ n) : (p.roundBytes rounds k).length ≤ (p.roundBytes rounds n).length :=
  ((roundsTo_mono rounds h).flatMap p.round).flatten.length_le

@[simp] theorem ListSender.roundBytes_one (p : ListSender) (rounds : ℕ → List Account) :
    p.roundBytes rounds 1 = (p.round (rounds 0)).flatten := by
  simp [ListSender.roundBytes, roundsTo]

theorem ListSender.first_round_prefix (p : ListSender) (rounds : ℕ → List Account) (h : 1 ≤ n) :
    (p.round (rounds 0)).flatten <+: p.roundBytes rounds n := by
  rw [← p.roundBytes_one rounds]
  exact ((roundsTo_mono rounds h).flatMap p.round).flatten

/-- A round is more than the `1` that may follow the rounds of the daemon. -/
theorem le_of_rounds_prefix {k m : ℕ} (htail : tail.length ≤ 1)
    (h : (roundsTo rounds k).flatMap p.round ++ part <+:
      (roundsTo rounds m).flatMap p.round ++ tail) : k ≤ m := by
  by_contra hlt
  have hmore := ((roundsTo_mono rounds (show m + 1 ≤ k by omega)).flatMap p.round).length_le
  have hlength := h.length_le
  have hround := p.one_lt_length_round (rounds m)
  rw [roundsTo_succ, List.flatMap_append, List.flatMap_singleton, List.length_append] at hmore
  rw [List.length_append, List.length_append] at hlength
  omega

/-! ### One step -/

theorem returned_feed {r : ReadInfo × List UInt8} (h : r.1.phase = .returned) (b : UInt8) :
    feed ReadInfo.need (ReadInfo.take client sort) r b = r := by
  rw [feed, if_pos (by rw [ReadInfo.need, h])]

theorem ListInv.init : ListInv p client sort rounds 0 .init [] [] :=
  ⟨rfl, rfl, .inl rfl, fun _ => rfl, by rintro ⟨⟩, by rintro ⟨⟩, rfl⟩

theorem ListStep.inv (h : ListStep p client sort rounds s s')
    (hs : ListInv p client sort rounds n s tail delivered) :
    ∃ tail' delivered', ListInv p client sort rounds (n + 1) s' tail' delivered' := by
  have hsteps := hs.steps
  cases h with
  | announce hserver =>
      obtain rfl := hs.announcing hserver
      refine ⟨[leBytes 4 1], delivered, ?_, hs.reader, .inr rfl, (by simp), fun _ => rfl,
        (by simp), ?_⟩
      · rw [← List.append_assoc, hs.wire]
        simp
      · simp only [hserver, reduceCtorEq, if_false, List.length_nil, List.length_singleton]
          at hsteps ⊢
        omega
  | answer hserver htester =>
      obtain rfl := hs.waiting hserver
      refine ⟨[], delivered, ?_, hs.reader, .inl rfl, fun _ => rfl, (by simp), (by simp), ?_⟩
      · rw [← List.append_assoc, hs.wire, roundsTo_succ]
        simp [ListSender.round]
      · simp only [hserver, reduceCtorEq, if_false, List.length_nil, List.length_singleton]
          at hsteps ⊢
        omega
  | hangup hserver hclient =>
      refine ⟨tail, delivered, hs.wire, hs.reader, hs.tail_cases, (by simp), (by simp),
        fun _ => hclient, ?_⟩
      simp only [hserver, reduceCtorEq, if_false, if_true] at hsteps ⊢
      omega
  | deliver b outgoing houtgoing =>
      refine ⟨tail, delivered ++ [b], ?_, ?_, hs.tail_cases, hs.announcing, hs.waiting, ?_, ?_⟩
      · rw [List.append_assoc, List.singleton_append, ← houtgoing, hs.wire]
      · rw [readBytes, List.foldl_append, ← readBytes, ← hs.reader, List.foldl_cons,
          List.foldl_nil]
      · intro hserver
        have hreturned := hs.closed hserver
        rw [returned_feed hreturned]
        exact hreturned
      · simp only [List.length_append, List.length_singleton]
        omega

theorem ListReachable.inv (h : ListReachable p client sort rounds s) :
    ∃ n tail delivered, ListInv p client sort rounds n s tail delivered := by
  induction h with
  | refl => exact ⟨0, [], [], .init⟩
  | tail _ hstep ih =>
      obtain ⟨n, tail, delivered, hs⟩ := ih
      exact ⟨n + 1, hstep.inv hs⟩

/-- The same of a run, with the number of its steps. -/
theorem run_inv {run : ℕ → ListSession} (hinit : run 0 = .init)
    (hrun : ∀ i < n, ListStep p client sort rounds (run i) (run (i + 1))) :
    ListReachable p client sort rounds (run n) ∧
      ∃ tail delivered, ListInv p client sort rounds n (run n) tail delivered := by
  induction n with
  | zero =>
      rw [hinit]
      exact ⟨.refl, [], [], .init⟩
  | succ n ih =>
      obtain ⟨hreach, tail, delivered, hs⟩ := ih fun i hi => hrun i (by omega)
      have hstep := hrun n (by omega)
      exact ⟨hreach.tail hstep, hstep.inv hs⟩

/-- What was written is a beginning of the rounds. -/
theorem ListInv.prefix_rounds (hs : ListInv p client sort rounds n s tail delivered) :
    (roundsTo rounds s.taken).flatMap p.round ++ tail <+:
      (roundsTo rounds (s.taken + 1)).flatMap p.round := by
  rw [roundsTo_succ, List.flatMap_append, List.flatMap_singleton, List.prefix_append_right_inj]
  rcases hs.tail_cases with rfl | rfl
  · exact List.nil_prefix
  · rw [ListSender.round]
    exact List.cons_prefix_cons.mpr ⟨rfl, List.nil_prefix⟩

/-- The steps are bounded by the bytes that were written. -/
theorem ListInv.steps_le (hs : ListInv p client sort rounds n s tail delivered) :
    n ≤ (p.roundBytes rounds s.taken).length + 2 * s.taken + 6 := by
  have hsteps := hs.steps
  have hwire := congrArg List.length hs.wire
  rw [List.flatten_append, List.length_append, List.length_append] at hwire
  have htail : tail.length ≤ 1 ∧ tail.flatten.length ≤ 4 := by
    rcases hs.tail_cases with rfl | rfl <;> simp
  have hone : (if s.server = .closed then 1 else 0) ≤ 1 := by split <;> omega
  simp only [ListSender.roundBytes]
  omega

/-! ### `dbtop` -/

/-- Where `dbtop` stands: the number of rounds that came whole, the frames that it has of the next
one, and the bytes of the frame that is on its way. -/
structure DbtopAt (p : ListSender) (sort : List DbtopExch → List DbtopExch)
    (rounds : ℕ → List Account) (written : List (List UInt8)) (delivered : List UInt8)
    (r : ReadInfo × List UInt8) (whole : ℕ) (part : List (List UInt8)) : Prop where
  came : (roundsTo rounds whole).flatMap p.round ++ part <+: written
  delivered_eq : delivered = ((roundsTo rounds whole).flatMap p.round ++ part).flatten ++ r.2
  shown : r.1.accounts = p.shown sort (roundsTo rounds whole)
  testers : r.1.testers = whole + if part = [] then 0 else 1
  going_on : r.1.phase ≠ .returned

theorem ListInv.dbtopAt (hranged : ∀ i, p.Ranged (rounds i))
    (hs : ListInv p .dbtop sort rounds n s tail delivered) :
    ∃ whole part,
      DbtopAt p sort rounds ((roundsTo rounds s.taken).flatMap p.round ++ tail) delivered s.reader
        whole part := by
  have hwritten := hs.prefix_rounds
  have hfits : Fits ReadInfo.need (ReadInfo.take .dbtop sort) .init
      ((roundsTo rounds s.taken).flatMap p.round ++ tail) := by
    obtain ⟨rest, heq⟩ := hwritten
    have hall := (dbtop_rounds_spec sort (roundsTo_ranged hranged (n := s.taken + 1))).1
    rw [← heq] at hall
    exact (fits_append.mp hall).1
  obtain ⟨done, begun, hdone, hdelivered, hfeed⟩ := foldl_feed_prefix hfits ⟨_, hs.wire⟩
  obtain ⟨whole, part, hwhole, rfl, hpart⟩ := exists_of_prefix_flatMap (hdone.trans hwritten)
  obtain ⟨k, rfl⟩ : ∃ k, whole = roundsTo rounds k := ⟨_, eq_roundsTo_of_prefix hwhole⟩
  obtain ⟨recvAccounts, hfold⟩ := (dbtop_rounds_spec sort (roundsTo_ranged hranged (n := k))).2
  refine ⟨k, part, ?_⟩
  rw [hs.reader, readBytes, hfeed, List.foldl_append, hfold, length_roundsTo]
  by_cases hnil : part = []
  · subst hnil
    exact ⟨hdone, hdelivered, rfl, by simp, by simp⟩
  · obtain ⟨accounts, hnext, hin, hne⟩ := hpart.resolve_left hnil
    have hround : p.Ranged accounts :=
      roundsTo_ranged hranged accounts (hnext.subset (by simp))
    obtain ⟨hphase, hshown, htesters⟩ := foldl_take_round_part .dbtop sort hround
      (show ReadInfo.phase ⟨.newRecord, recvAccounts, p.shown sort (roundsTo rounds k), k⟩ =
        .newRecord from rfl) hin hne hnil
    exact ⟨hdone, hdelivered, hshown, by rw [htesters, if_neg hnil], hphase⟩

/-- The client is in a round that the daemon has finished, or in the next one. -/
theorem ListInv.whole_le (hs : ListInv p client sort rounds n s tail delivered) {whole : ℕ}
    {r : ReadInfo × List UInt8}
    (hat : DbtopAt p sort rounds ((roundsTo rounds s.taken).flatMap p.round ++ tail) delivered r
      whole part) : whole ≤ s.taken := by
  refine le_of_rounds_prefix ?_ hat.came
  rcases hs.tail_cases with rfl | rfl <;> simp

/-- While an answer is on its way to the daemon, nothing is on its way to the client. -/
theorem ListInv.outgoing_of_answered (hs : ListInv p client sort rounds n s tail delivered)
    {whole : ℕ}
    (hat : DbtopAt p sort rounds ((roundsTo rounds s.taken).flatMap p.round ++ tail) delivered
      s.reader whole part)
    (htaken : s.taken < s.reader.1.testers) : s.outgoing = [] ∧ s.reader.2 = [] := by
  have hle := hs.whole_le hat
  have htesters := hat.testers
  by_cases hnil : part = []
  · rw [if_pos hnil] at htesters
    omega
  · rw [if_neg hnil] at htesters
    obtain rfl : whole = s.taken := by omega
    have hin := (List.prefix_append_right_inj _).mp hat.came
    have htail : part = tail := by
      rcases hs.tail_cases with rfl | rfl
      · exact absurd (by simpa using hin) hnil
      · exact hin.eq_of_length_le (List.length_pos_of_ne_nil hnil)
    have hwire := hs.wire
    rw [hat.delivered_eq, htail, List.append_assoc] at hwire
    have hempty := List.append_right_eq_self.mp hwire
    exact (List.append_eq_nil_iff.mp hempty).symm

theorem testers_le_feed (r : ReadInfo × List UInt8) (b : UInt8) :
    r.1.testers ≤ (feed ReadInfo.need (ReadInfo.take client sort) r b).1.testers := by
  rw [feed]
  split
  · exact Nat.le_refl _
  · split
    · simp only [ReadInfo.take]
      repeat' split
      all_goals simp
    · exact Nat.le_refl _

/-- The daemon reads no answer that was not written. -/
theorem ListReachable.taken_le_testers (h : ListReachable p client sort rounds s) :
    s.taken ≤ s.reader.1.testers := by
  induction h with
  | refl => exact Nat.le_refl _
  | tail _ hstep ih =>
      cases hstep with
      | announce => exact ih
      | answer _ htester => exact htester
      | hangup => exact ih
      | deliver b => exact ih.trans (testers_le_feed _ b)

theorem dbtop_shows_whole_rounds (hranged : ∀ i, p.Ranged (rounds i))
    (h : ListReachable p .dbtop sort rounds s) :
    (∃ whole, s.reader.1.accounts = p.shown sort (roundsTo rounds whole) ∧
      whole ≤ s.taken ∧ s.taken ≤ s.reader.1.testers ∧ s.reader.1.testers ≤ whole + 1) ∧
      (s.taken < s.reader.1.testers → s.outgoing = [] ∧ s.reader.2 = []) := by
  obtain ⟨n, tail, delivered, hs⟩ := h.inv
  obtain ⟨whole, part, hat⟩ := hs.dbtopAt hranged
  refine ⟨⟨whole, hat.shown, hs.whole_le hat, h.taken_le_testers, ?_⟩, ?_⟩
  · rw [hat.testers]
    split <;> omega
  · exact hs.outgoing_of_answered hat

/-- Any part of what is on its way may come. -/
theorem ListReachable.deliver (h : ListReachable p client sort rounds s)
    (come : List UInt8) {outgoing : List UInt8} (houtgoing : s.outgoing = come ++ outgoing) :
    ListReachable p client sort rounds
      { s with
        outgoing := outgoing
        reader := come.foldl (feed ReadInfo.need (ReadInfo.take client sort)) s.reader } := by
  induction come generalizing s with
  | nil =>
      obtain rfl : s.outgoing = outgoing := houtgoing
      exact h
  | cons b come ih => exact ih (h.tail (.deliver s b _ houtgoing)) rfl

/-- A connection may stand in the record of the second round. -/
theorem exists_cut_session :
    ∃ s, ListReachable quietSender .dbtop id (fun _ => [quietAccount]) s ∧ s.taken = 2 ∧
      s.reader.1.phase = .exch ∧ s.reader.2.length = 100 := by
  have hannounced : ListReachable quietSender .dbtop id (fun _ => [quietAccount]) _ :=
    .single (.announce _ rfl)
  have hone := hannounced.deliver (leBytes 4 1) (List.append_nil _).symm
  have hanswered : ListReachable quietSender .dbtop id (fun _ => [quietAccount]) _ :=
    hone.tail (.answer _ rfl (by decide +kernel))
  have hround := hanswered.deliver (quietSender.answer [quietAccount]).flatten
    (List.append_nil _).symm
  have hagain : ListReachable quietSender .dbtop id (fun _ => [quietAccount]) _ :=
    hround.tail (.announce _ rfl)
  have htwo := hagain.deliver (leBytes 4 1) (List.append_nil _).symm
  have hsecond : ListReachable quietSender .dbtop id (fun _ => [quietAccount]) _ :=
    htwo.tail (.answer _ rfl (by decide +kernel))
  have hcut := hsecond.deliver ((quietSender.answer [quietAccount]).flatten.take 104)
    (List.take_append_drop 104 _).symm
  exact ⟨_, hcut, rfl, by decide +kernel, by decide +kernel⟩

/-- The list of the first round stays while a hundred bytes of the record of the next have come. -/
theorem dbtop_shows_whole_rounds_cut :
    ∃ s, ListReachable quietSender .dbtop id (fun _ => [quietAccount]) s ∧
      s.reader.1.phase = .exch ∧ s.reader.2.length = 100 ∧
      s.reader.1.accounts = [quietSender.exch quietAccount] := by
  obtain ⟨s, hreach, htaken, hphase, hcut⟩ := exists_cut_session
  obtain ⟨whole, hshown, hle, hanswered, htesters⟩ :=
    (dbtop_shows_whole_rounds (fun _ => quietAccount_ranged) hreach).1
  refine ⟨s, hreach, hphase, hcut, ?_⟩
  obtain ⟨before, rfl⟩ : ∃ before, whole = before + 1 := ⟨whole - 1, by omega⟩
  rw [hshown, roundsTo_succ, ListSender.shown_concat]
  decide +kernel

/-! ### Progress -/

/-- When all has come, the client has what the daemon wrote. -/
theorem ListInv.delivered_eq (hs : ListInv p client sort rounds n s tail delivered)
    (houtgoing : s.outgoing = []) (hserver : s.server = .waiting) :
    delivered = ((roundsTo rounds s.taken).flatMap p.round ++ [leBytes 4 1]).flatten := by
  have hwire := hs.wire
  rwa [houtgoing, List.append_nil, hs.waiting hserver] at hwire

/-- Some side can always go on. -/
theorem ListReachable.exists_step (hranged : ∀ i, p.Ranged (rounds i))
    (h : ListReachable p .dbtop sort rounds s) : ∃ s', ListStep p .dbtop sort rounds s s' := by
  obtain ⟨n, tail, delivered, hs⟩ := h.inv
  cases houtgoing : s.outgoing with
  | cons b outgoing => exact ⟨_, .deliver s b outgoing houtgoing⟩
  | nil =>
      cases hserver : s.server with
      | announcing => exact ⟨_, .announce s hserver⟩
      | waiting =>
          obtain ⟨hfits, recvAccounts, hfold⟩ :=
            dbtop_rounds_spec sort (roundsTo_ranged hranged (n := s.taken))
          have hone : Fits ReadInfo.need (ReadInfo.take .dbtop sort) .init
              ((roundsTo rounds s.taken).flatMap p.round ++ [leBytes 4 1]) := by
            refine fits_append.mpr ⟨hfits, ?_⟩
            rw [hfold]
            exact ⟨List.ne_nil_of_length_pos (by simp), by simp [ReadInfo.need], trivial⟩
          have htesters : s.taken < s.reader.1.testers := by
            rw [hs.reader, readBytes, hs.delivered_eq houtgoing hserver, foldl_feed_flatten hone,
              List.foldl_append, hfold, List.foldl_cons, List.foldl_nil, ReadInfo.take_one rfl]
            simp
          exact ⟨_, .answer s hserver htesters⟩
      | closed =>
          obtain ⟨whole, part, hat⟩ := hs.dbtopAt hranged
          exact (hat.going_on (hs.closed hserver)).elim

/-- A run that takes a step whenever it can. -/
theorem exists_run (hranged : ∀ i, p.Ranged (rounds i)) :
    ∃ run : ℕ → ListSession, run 0 = .init ∧
      ∀ i, ListStep p .dbtop sort rounds (run i) (run (i + 1)) := by
  have hstep : ∀ s : {s // ListReachable p .dbtop sort rounds s},
      ∃ s' : {s // ListReachable p .dbtop sort rounds s}, ListStep p .dbtop sort rounds s s' := by
    rintro ⟨s, h⟩
    obtain ⟨s', hs'⟩ := h.exists_step hranged
    exact ⟨⟨s', h.tail hs'⟩, hs'⟩
  choose next hnext using hstep
  let states : ℕ → {s // ListReachable p .dbtop sort rounds s} :=
    Nat.rec ⟨.init, .refl⟩ fun _ => next
  exact ⟨fun i => (states i).1, rfl, fun i => hnext (states i)⟩

/-- No step is left. -/
def ListStuck (p : ListSender) (client : ListClient) (sort : List DbtopExch → List DbtopExch)
    (rounds : ℕ → List Account) (s : ListSession) : Prop :=
  ∀ s', ¬ ListStep p client sort rounds s s'

section Dbctl

variable {first : List Account}

/-- The first round ends the list. -/
theorem dbctl_returned (hranged : p.Ranged first)
    (h : (p.round first).flatten <+: delivered) :
    readBytes .dbctl sort delivered = (⟨.returned, p.received first, [], 1⟩, []) := by
  obtain ⟨more, rfl⟩ := h
  obtain ⟨hfits, hfold⟩ := dbctl_round_spec sort hranged (show ReadInfo.init.phase = _ from rfl)
  rw [readBytes, List.foldl_append, foldl_feed_flatten hfits, hfold,
    foldl_feed_of_need_eq_zero (by simp [ReadInfo.need])]
  rfl

/-- Before its end the list is that of a part of the accounts. -/
theorem dbctl_before (sort : List DbtopExch → List DbtopExch) (hranged : p.Ranged first)
    (h : delivered <+: (p.round first).flatten) (hne : delivered ≠ (p.round first).flatten) :
    ∃ before, before <+: first ∧
      (readBytes .dbctl sort delivered).1.recvAccounts = p.received before ∧
        (readBytes .dbctl sort delivered).1.phase ≠ .returned ∧
          (readBytes .dbctl sort delivered).1.testers ≤ 1 := by
  have hfits := (dbctl_round_spec sort hranged (show ReadInfo.init.phase = _ from rfl)).1
  obtain ⟨done, begun, hdone, hdelivered, hfeed⟩ := foldl_feed_prefix hfits h
  have hdonene : done ≠ p.round first := by
    rintro rfl
    have hlength := h.length_le
    rw [hdelivered, List.length_append] at hlength
    obtain rfl : begun = [] := List.eq_nil_of_length_eq_zero (by omega)
    exact hne (by rw [hdelivered, List.append_nil])
  rw [readBytes, hfeed]
  match done, hdone, hdonene with
  | [], _, _ =>
      refine ⟨[], List.nil_prefix, rfl, ?_, Nat.zero_le 1⟩
      rintro ⟨⟩
  | frame :: done, hdone, hdonene =>
      obtain ⟨rfl, hin⟩ := List.cons_prefix_cons.mp hdone
      have hpart : done <+: first.flatMap p.sendAccount :=
        ListSender.prefix_answer hin fun heq => hdonene (by rw [heq, ListSender.round])
      rw [List.foldl_cons, ReadInfo.take_one rfl]
      have hanswered : ({ ReadInfo.init with testers := ReadInfo.init.testers + 1 } :
          ReadInfo).phase = .newRecord := rfl
      obtain ⟨phase, before, hphase, hbefore, hfold⟩ :=
        foldl_take_part .dbctl sort hranged hanswered hpart
      rw [hfold]
      exact ⟨before, hbefore, rfl, hphase, Nat.le_refl 1⟩

theorem ListInv.dbctl_cases (hranged : p.Ranged (rounds 0))
    (hs : ListInv p .dbctl sort rounds n s tail delivered) :
    (s.reader = (⟨.returned, p.received (rounds 0), [], 1⟩, [])) ∨
      ∃ before, before <+: rounds 0 ∧ s.reader.1.recvAccounts = p.received before ∧
        s.reader.1.phase ≠ .returned ∧ s.reader.1.testers ≤ 1 ∧
          ¬ (p.round (rounds 0)).flatten <+: delivered := by
  rw [hs.reader]
  by_cases hwhole : (p.round (rounds 0)).flatten <+: delivered
  · exact .inl (dbctl_returned hranged hwhole)
  · have hstream : delivered <+: p.roundBytes rounds (s.taken + 1) := by
      refine .trans ?_ hs.prefix_rounds.flatten
      rw [← hs.wire]
      exact List.prefix_append _ _
    have hin := (List.prefix_or_prefix_of_prefix hstream
      (p.first_round_prefix rounds (by omega))).resolve_right hwhole
    have hne : delivered ≠ (p.round (rounds 0)).flatten := by
      rintro rfl
      exact hwhole List.prefix_rfl
    obtain ⟨before, hbefore, hrecv, hphase, htesters⟩ := dbctl_before sort hranged hin hne
    exact .inr ⟨before, hbefore, hrecv, hphase, htesters, hwhole⟩

theorem ListReachable.dbctl_received (hranged : p.Ranged (rounds 0))
    (h : ListReachable p .dbctl sort rounds s) (hreturned : s.reader.1.phase = .returned) :
    s.reader.1.recvAccounts = p.received (rounds 0) := by
  obtain ⟨n, tail, delivered, hs⟩ := h.inv
  rcases hs.dbctl_cases hranged with hreader | ⟨_, _, _, hphase, _⟩
  · rw [hreader]
  · exact (hphase hreturned).elim

/-- A run of `dbctl` ends. -/
theorem ListInv.dbctl_steps_le (hranged : p.Ranged (rounds 0))
    (hs : ListInv p .dbctl sort rounds n s tail delivered)
    (h : ListReachable p .dbctl sort rounds s) :
    n ≤ (p.round (rounds 0)).flatten.length + 8 := by
  have htaken : s.taken ≤ 1 := by
    refine h.taken_le_testers.trans ?_
    rcases hs.dbctl_cases hranged with hreader | ⟨_, _, _, _, htesters, _⟩
    · rw [hreader]
    · exact htesters
  have hsteps := hs.steps_le
  have hbytes := p.length_roundBytes_mono rounds htaken
  rw [p.roundBytes_one] at hbytes
  omega

theorem ListReachable.exists_stuck (hranged : p.Ranged (rounds 0))
    (h : ListReachable p .dbctl sort rounds s) :
    ∃ s', ListReachable p .dbctl sort rounds s' ∧ ListStuck p .dbctl sort rounds s' := by
  obtain ⟨n, tail, delivered, hs⟩ := h.inv
  induction hleft : (p.round (rounds 0)).flatten.length + 8 - n
    generalizing s n tail delivered with
  | zero =>
      refine ⟨s, h, fun s' hstep => ?_⟩
      obtain ⟨tail', delivered', hs'⟩ := hstep.inv hs
      have hle := hs'.dbctl_steps_le hranged (h.tail hstep)
      omega
  | succ left ih =>
      by_cases hstuck : ListStuck p .dbctl sort rounds s
      · exact ⟨s, h, hstuck⟩
      · simp only [ListStuck, not_forall, not_not] at hstuck
        obtain ⟨s', hstep⟩ := hstuck
        obtain ⟨tail', delivered', hs'⟩ := hstep.inv hs
        exact ih (h.tail hstep) _ _ _ hs' (by omega)

/-- `dbctl` waits for nothing that does not come, and the daemon sees that it is gone. -/
theorem ListStuck.dbctl_end (hstuck : ListStuck p .dbctl sort rounds s)
    (hranged : p.Ranged (rounds 0)) (h : ListReachable p .dbctl sort rounds s) :
    s.server = .closed ∧ s.reader.1.phase = .returned := by
  obtain ⟨n, tail, delivered, hs⟩ := h.inv
  have houtgoing : s.outgoing = [] := by
    cases houtgoing : s.outgoing with
    | nil => rfl
    | cons b outgoing => exact (hstuck _ (.deliver s b outgoing houtgoing)).elim
  cases hserver : s.server with
  | announcing => exact (hstuck _ (.announce s hserver)).elim
  | closed => exact ⟨rfl, hs.closed hserver⟩
  | waiting =>
      exfalso
      have hdelivered := hs.delivered_eq houtgoing hserver
      rcases hs.dbctl_cases hranged with hreader | ⟨before, -, -, -, -, hnot⟩
      · exact hstuck _ (.hangup s hserver (by rw [hreader]))
      · obtain htaken | htaken : s.taken = 0 ∨ 1 ≤ s.taken := by omega
        · refine hstuck _ (.answer s hserver ?_)
          have hone : Fits ReadInfo.need (ReadInfo.take .dbctl sort) .init [leBytes 4 1] :=
            ⟨List.ne_nil_of_length_pos (by simp), by simp [ReadInfo.need, ReadInfo.init], trivial⟩
          rw [htaken] at hdelivered ⊢
          rw [hs.reader, readBytes, hdelivered, roundsTo, List.range_zero, List.map_nil,
            List.flatMap_nil, List.nil_append, foldl_feed_flatten hone, List.foldl_cons,
            List.foldl_nil, ReadInfo.take_one rfl]
          simp
        · rw [hdelivered, List.flatten_append] at hnot
          exact hnot ((p.first_round_prefix rounds htaken).trans (List.prefix_append _ _))

theorem dbctl_gets_first_round (hranged : p.Ranged (rounds 0)) :
    (∀ n (run : ℕ → ListSession), run 0 = .init →
      (∀ i < n, ListStep p .dbctl sort rounds (run i) (run (i + 1))) →
        n ≤ (p.round (rounds 0)).flatten.length + 8) ∧
      ∀ s, ListReachable p .dbctl sort rounds s →
        s.reader.1.recvAccounts <+: p.received (rounds 0) ∧
          (s.reader.1.phase = .returned → s.reader.1.recvAccounts = p.received (rounds 0)) ∧
          (ListStuck p .dbctl sort rounds s → s.server = .closed ∧ s.reader.1.phase = .returned) := by
  refine ⟨fun n run hinit hrun => ?_, fun s h => ?_⟩
  · obtain ⟨hreach, tail, delivered, hs⟩ := run_inv hinit hrun
    exact hs.dbctl_steps_le hranged hreach
  · obtain ⟨n, tail, delivered, hs⟩ := h.inv
    refine ⟨?_, h.dbctl_received hranged, fun hstuck => hstuck.dbctl_end hranged h⟩
    rcases hs.dbctl_cases hranged with hreader | ⟨before, hbefore, hrecv, -⟩
    · rw [hreader]
    · rw [hrecv]
      exact ListSender.received_prefix p hbefore

theorem dbctl_gets_first_round_quiet :
    ∃ s, ListReachable quietSender .dbctl id (fun _ => [quietAccount]) s ∧
      s.reader.1.recvAccounts = [(quietSender.exch quietAccount).received 255] := by
  have hranged : quietSender.Ranged ((fun _ : ℕ => [quietAccount]) 0) := quietAccount_ranged
  obtain ⟨s, h, hstuck⟩ := ListReachable.exists_stuck hranged
    (show ListReachable quietSender .dbctl id (fun _ => [quietAccount]) _ from .refl)
  obtain ⟨-, hall, hend⟩ := (dbctl_gets_first_round hranged).2 s h
  refine ⟨s, h, ?_⟩
  rw [hall (hend hstuck).2]
  decide +kernel

end Dbctl

end DbGovernor
