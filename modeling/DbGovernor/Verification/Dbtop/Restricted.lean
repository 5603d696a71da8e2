import DbGovernor.Model.ListRestricted
import DbGovernor.Verification.Daemon.AccountShape
import DbGovernor.Verification.Daemon.Enforcement
import DbGovernor.Verification.Dbtop.Session
import DbGovernor.Verification.Shared.StableSort

/-!
# The accounts that `list-restricted` shows

`dbctl` goes by a mark of the record that was sent. In every state of the daemon the mark stands
for a restriction.
-/

namespace DbGovernor

/-! ### One record -/

def reasonName : GovernorsFieldName → CString
  | .cpuParam => ascii "cpu"
  | .readParam => ascii "read"
  | .writeParam => ascii "write"
  | .norestrictParam2 | .norestrictParam => []

def periodName : GovernorsPeriodName → CString
  | .noPeriod => []
  | .currentPeriod => ascii "current"
  | .shortPeriod => ascii "short"
  | .midPeriod => ascii "mid"
  | .longPeriod => ascii "long"

/-- The digit of a level; restrictions of the limit mode have none of their own. -/
def levelDigit (restricted : ℤ) : UInt8 := UInt8.ofNat (49 + (min restricted 3).toNat)

/-- The seconds that are left of a restriction. -/
def timeLeft (now : ℤ) (ac : Account) : ℤ :=
  if ac.startCount + ac.timeout - now < 0 then 0
  else (ac.startCount + ac.timeout - now).bmod (2 ^ 32)

section Record

variable {p : ListSender} {ac : Account}

/-- The name of an account in the list, which ends where the 64 bytes that were sent end it. -/
def ListSender.name (p : ListSender) (ac : Account) : CString := storedName ac.id (p.unset ac.id)

/-- The line that tells of a restriction. -/
def ListSender.accountLine (p : ListSender) (now : ℤ) (ac : Account) : CString :=
  restrictedLine (p.name ac) (reasonName ac.info.fieldLevelRestrict)
    (periodName ac.info.fieldRestrict) (levelDigit ac.restricted) (timeLeft now ac)

/-- What `read_info` of `dbctl` has of an account. -/
def ListSender.record (p : ListSender) (ac : Account) : RecvAccount :=
  (p.exch ac).received (p.unset ac.id)

theorem getRestrictLevel_eq (hs : ac.Shaped) :
    getRestrictLevel ac.restricted = levelDigit ac.restricted := by
  obtain ⟨hlow, hhigh⟩ := hs.level
  obtain h | h | h | h | h : ac.restricted = 0 ∨ ac.restricted = 1 ∨ ac.restricted = 2 ∨
      ac.restricted = 3 ∨ ac.restricted = 1000 := by omega
  all_goals rw [h]; decide

theorem ListSender.record_marked_iff (hs : ac.Shaped) :
    (p.record ac).fieldRestrict ≠ 0 ↔ ac.timeout ≠ 0 := by
  have hcode : (p.record ac).fieldRestrict = ac.info.fieldRestrict.code := rfl
  rw [hcode, ← hs.marked]
  cases ac.info.fieldRestrict <;> decide

theorem printRestricted_record (now : ℤ) (hs : ac.Shaped) (ht : ac.timeout ≠ 0) :
    printRestricted now (p.record ac) = p.accountLine now ac := by
  have hmark : (p.record ac).fieldRestrict ≠ 0 := (p.record_marked_iff hs).mpr ht
  have hreason : readRestrictReason (p.record ac) = reasonName ac.info.fieldLevelRestrict := by
    have hfield : (p.record ac).fieldLevelRestrict = ac.info.fieldLevelRestrict.code := rfl
    rw [readRestrictReason, if_neg hmark, hfield]
    cases ac.info.fieldLevelRestrict <;> rfl
  have hperiod : readRestrictReriod (p.record ac) = periodName ac.info.fieldRestrict := by
    have hfield : (p.record ac).fieldRestrict = ac.info.fieldRestrict.code := rfl
    rw [readRestrictReriod, hfield]
    cases ac.info.fieldRestrict <;> rfl
  have hlevel : getRestrictLevel (p.record ac).restricted = levelDigit ac.restricted :=
    getRestrictLevel_eq hs
  rw [printRestricted, hreason, hperiod, hlevel]
  rfl

theorem ListSender.length_name_le (p : ListSender) (ac : Account) :
    (p.name ac).length ≤ usernamemaxlen := by
  have hfits := ac.id.fits
  rw [ListSender.name, storedName]
  simp only [usernamemaxlen] at hfits ⊢
  split
  · omega
  · simp only [List.length_append, List.length_singleton]
    omega

theorem ListSender.compare_record (p : ListSender) (a b : Account) :
    compareAccountByUsername (p.record a) (p.record b) = compare (p.name a) (p.name b) := by
  have ha : (p.record a).id.take usernamemaxlen = p.name a :=
    List.take_of_length_le (p.length_name_le a)
  have hb : (p.record b).id.take usernamemaxlen = p.name b :=
    List.take_of_length_le (p.length_name_le b)
  rw [compareAccountByUsername, ha, hb]

/-- Different accounts have different names in the list too. -/
theorem ListSender.name_nodup {accounts : List Account} (hnodup : (accounts.map Account.id).Nodup) :
    (accounts.map p.name).Nodup := by
  have hid : (accounts.map p.name).map strlcpy = accounts.map Account.id := by
    rw [List.map_map]
    exact List.map_congr_left fun ac _ => strlcpy_storedName ac.id (p.unset ac.id)
  exact .of_map strlcpy (hid ▸ hnodup)

end Record

/-! ### The list -/

section List

variable {p : ListSender} {accounts : List Account} {rounds : ℕ → List Account}
  {sort : List DbtopExch → List DbtopExch} {s : ListSession}

/-- The accounts of a walk: each is one that the daemon had at some time, and no two have one
name. -/
structure Walked (accounts : List Account) : Prop where
  had : ∀ ac ∈ accounts, ∃ w a, PositiveReachable w ∧ w.accounts.lookup a = some ac
  nodup : (accounts.map Account.id).Nodup

theorem Walked.shaped (h : Walked accounts) {ac : Account} (hac : ac ∈ accounts) : ac.Shaped := by
  obtain ⟨w, a, hw, hlookup⟩ := h.had ac hac
  exact hw.shaped hlookup

/-- The accounts in the order of the list. -/
def ListSender.sorted (p : ListSender) (accounts : List Account) : List Account :=
  accounts.mergeSort fun a b => (compare (p.name a) (p.name b)).isLE

theorem printListRest_received (now : ℤ) (hwalked : Walked accounts) :
    printListRest now (p.received accounts) =
      restrictedHeader :: (((p.sorted (accounts.filter p.listed)).filter
        fun ac => ac.timeout ≠ 0).map (p.accountLine now)) := by
  have hreceived : p.received accounts = (accounts.filter p.listed).map p.record := rfl
  have hsort : ((accounts.filter p.listed).map p.record).mergeSort
      (fun a b => (compareAccountByUsername a b).isLE) =
        (p.sorted (accounts.filter p.listed)).map p.record := by
    refine (List.map_mergeSort ?_).symm
    intro a _ b _
    rw [p.compare_record]
  have hshaped : ∀ ac ∈ p.sorted (accounts.filter p.listed), ac.Shaped := fun ac hac =>
    hwalked.shaped (List.mem_filter.mp (List.mem_mergeSort.mp hac)).1
  rw [printListRest, hreceived, hsort, List.filter_map, List.map_map]
  congr 1
  have hfilter : (p.sorted (accounts.filter p.listed)).filter
      ((fun ac : RecvAccount => decide (ac.fieldRestrict ≠ 0)) ∘ p.record) =
        (p.sorted (accounts.filter p.listed)).filter fun ac => ac.timeout ≠ 0 :=
    List.filter_congr fun ac hac =>
      decide_eq_decide.mpr (p.record_marked_iff (hshaped ac hac))
  rw [hfilter]
  refine List.map_congr_left fun ac hac => ?_
  obtain ⟨hin, ht⟩ := List.mem_filter.mp hac
  exact printRestricted_record now (hshaped ac hin) (by simpa using ht)

/-- What `list-restricted` prints: a line for every account that was restricted when the walk came
by and that is not left out, in the order of the names, and no other. -/
theorem restricted_list_shown (hranged : p.Ranged (rounds 0)) (hwalked : Walked (rounds 0))
    (h : ListReachable p .dbctl sort rounds s)
    (hreturned : s.reader.1.phase = .returned) (now : ℤ) :
    ∃ shown : List Account, printListRest now s.reader.1.recvAccounts =
        restrictedHeader :: shown.map (p.accountLine now) ∧
      shown.Pairwise (fun a b => compare (p.name a) (p.name b) = .lt) ∧
      ∀ ac, ac ∈ shown ↔ ac ∈ rounds 0 ∧ p.listed ac ∧ ac.timeout ≠ 0 := by
  refine ⟨(p.sorted ((rounds 0).filter p.listed)).filter fun ac => ac.timeout ≠ 0, ?_, ?_, ?_⟩
  · rw [h.dbctl_received hranged hreturned]
    exact printListRest_received now hwalked
  · have hsub : (((rounds 0).filter p.listed).map Account.id).Sublist
        ((rounds 0).map Account.id) :=
      List.filter_sublist.map Account.id
    have hnames := p.name_nodup (hwalked.nodup.sublist hsub)
    exact (StableSort.pairwise_lt_mergeSort hnames).filter _
  · intro ac
    simp [ListSender.sorted, and_assoc]

/-- The account that a run restricts. -/
def restrictedAccount : Account := (decidedWorld.accounts.lookup sampleUser).getD quietAccount

theorem decidedWorld_lookup : decidedWorld.accounts.lookup sampleUser =
    some ⟨sampleUser, [sampleUser], ⟨5, 0, 0⟩, ⟨Rounding.fl (1 / 60), 0, 0⟩,
      ⟨Rounding.fl (1 / 12), 0, 0⟩, ⟨Rounding.fl (1 / 3), 0, 0⟩, 1000, 60, 1000000,
      ⟨.currentPeriod, .cpuParam⟩⟩ := by
  decide +kernel

theorem restrictedAccount_eq : restrictedAccount =
    ⟨sampleUser, [sampleUser], ⟨5, 0, 0⟩, ⟨Rounding.fl (1 / 60), 0, 0⟩,
      ⟨Rounding.fl (1 / 12), 0, 0⟩, ⟨Rounding.fl (1 / 3), 0, 0⟩, 1000, 60, 1000000,
      ⟨.currentPeriod, .cpuParam⟩⟩ := by
  rw [restrictedAccount, decidedWorld_lookup, Option.getD_some]

theorem restrictedAccount_walked : Walked [restrictedAccount] where
  had ac hac := by
    obtain rfl := List.mem_singleton.mp hac
    have hp := shippedConfig_positivePeriods true
    have hover : PositiveReachable overloadedWorld :=
      .step (.start _ hp) (.increment sampleUser 500 0 0 0 _) hp
    have hlookup : decidedWorld.accounts.lookup sampleUser = some restrictedAccount := by
      rw [decidedWorld_lookup, restrictedAccount_eq]
    exact ⟨decidedWorld, sampleUser, .step hover (.tick (sampleTickInput 0) _) hp, hlookup⟩
  nodup := List.nodup_singleton _

theorem restrictedAccount_ranged : quietSender.Ranged [restrictedAccount] := by
  intro ac hac
  obtain rfl := List.mem_singleton.mp hac
  rw [restrictedAccount_eq]
  refine ⟨⟨?_, ?_, ?_⟩, ⟨?_, ?_, ?_⟩, ⟨?_, ?_, ?_⟩, ⟨?_, ?_, ?_⟩, ?_, ?_, ?_, ?_, ?_⟩
  all_goals decide +kernel

/-- What `list-restricted` prints of it ten seconds later. -/
theorem restricted_list_shown_sample :
    ∃ s, ListReachable quietSender .dbctl id (fun _ => [restrictedAccount]) s ∧
      printListRest 1000010 s.reader.1.recvAccounts =
        [restrictedHeader, ascii " u                cpu     current   4     50\n"] := by
  have hranged : quietSender.Ranged ((fun _ : ℕ => [restrictedAccount]) 0) :=
    restrictedAccount_ranged
  obtain ⟨s, h, hstuck⟩ := ListReachable.exists_stuck hranged
    (show ListReachable quietSender .dbctl id (fun _ => [restrictedAccount]) _ from .refl)
  have hreturned := (hstuck.dbctl_end hranged h).2
  obtain ⟨shown, hprinted, hsorted, hshown⟩ := restricted_list_shown hranged
    restrictedAccount_walked h hreturned 1000010
  have hline : quietSender.accountLine 1000010 restrictedAccount =
      ascii " u                cpu     current   4     50\n" := by
    rw [restrictedAccount_eq]
    decide +kernel
  have honly : ∀ ac, ac ∈ shown ↔ ac = restrictedAccount := by
    have hlisted : quietSender.listed restrictedAccount = true ∧ restrictedAccount.timeout ≠ 0 := by
      rw [restrictedAccount_eq]
      decide +kernel
    intro ac
    rw [hshown, List.mem_singleton]
    exact ⟨fun hac => hac.1, fun hac => ⟨hac, hac ▸ hlisted⟩⟩
  have hnodup : shown.Nodup := hsorted.imp fun hlt heq => by simp [heq] at hlt
  have hone : shown = [restrictedAccount] :=
    List.perm_singleton.mp ((List.perm_ext_iff_of_nodup hnodup (List.nodup_singleton _)).mpr
      fun ac => (honly ac).trans List.mem_singleton.symm)
  refine ⟨s, h, ?_⟩
  rw [hprinted, hone, List.map_singleton, hline]

end List

end DbGovernor
