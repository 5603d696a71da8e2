import DbGovernor.Model.PollServer
import Mathlib.Data.List.Nodup
import Mathlib.Data.List.Perm.Basic

/-!
# The descriptors of the server

After any number of passes and of calls of `poll` that failed, the server listens, holds every
descriptor that it was given once, and has closed no other. Only an entry that `poll` did not write
can lose its descriptor.
-/

namespace DbGovernor

/-- What the steps keep. -/
structure DescriptorInv (s : PollServer) : Prop where
  listening : ∃ entry rest, s.pass.fds = entry :: rest ∧ entry.fd = s.socket ∧
    (entry.revents = 0 ∨ entry.revents = pollIn)
  held : s.opened.Perm ((s.pass.fds ++ s.dropped).map PollFd.fd)
  nodup : s.opened.Nodup
  valid : -1 ∉ s.opened
  stray : ∀ fd ∈ s.stray, fd = -1
  dropped : ∀ entry ∈ s.dropped, entry.polled = false
  polled : ∀ entry ∈ s.pass.fds, entry.polled → ¬ entry.has pollNval

variable {gnuSource : Bool} {s s' : PollServer} {calls : PollCalls} {entry : PollFd}

/-! ### A round -/

theorem pollRound_fds (gnuSource : Bool) (socket : ℤ) (calls : PollCalls) (s : PollPass)
    (entry : PollFd) : (pollRound gnuSource socket calls s entry).fds =
      if entry.revents = 0 then s.fds
      else
        match pollAction gnuSource socket calls entry with
        | .kept | .read => s.fds
        | .accepted => s.fds ++ [⟨calls.accept, calls.slot, false⟩]
        | .removed => s.fds.eraseIdx s.i := by
  rw [pollRound]
  split
  · rfl
  · cases pollAction gnuSource socket calls entry <;> rfl

/-- What a round does to the descriptors. -/
inductive RoundOutcome (s : PollServer) (entry : PollFd) : PollServer → Prop where
  | same (pass) (stray) (hfds : pass.fds = s.pass.fds)
      (hstray : ∀ fd ∈ stray, fd ∈ s.stray ∨ fd = -1) :
      RoundOutcome s entry { s with pass := pass, stray := stray }
  | accepted (pass) (accept) (slot) (hfds : pass.fds = s.pass.fds ++ [⟨accept, slot, false⟩])
      (haccept : accept ≠ -1) (hfresh : accept ∉ s.opened) :
      RoundOutcome s entry { s with pass := pass, opened := s.opened ++ [accept] }
  | dropped (pass) (hfds : pass.fds = s.pass.fds.eraseIdx s.pass.i) (hnval : entry.has pollNval)
      (hnot : ¬ (entry.fd = s.socket ∧ (entry.revents = 0 ∨ entry.revents = pollIn))) :
      RoundOutcome s entry { s with pass := pass, dropped := s.dropped ++ [entry] }
  | closed (pass) (hfds : pass.fds = s.pass.fds.eraseIdx s.pass.i)
      (hnot : ¬ (entry.fd = s.socket ∧ (entry.revents = 0 ∨ entry.revents = pollIn))) :
      RoundOutcome s entry (PollServer.close { s with pass := pass } entry.fd)

theorem pollAction_of_listening {socket : ℤ} (h : entry.fd = socket ∧ entry.has pollIn) :
    pollAction gnuSource socket calls entry = if calls.accept = -1 then .kept else .accepted := by
  rw [pollAction, if_pos h]

/-- The listening socket is not removed. -/
theorem not_listening_of_removed {socket : ℤ} (hevent : entry.revents ≠ 0)
    (h : pollAction gnuSource socket calls entry = .removed) :
    ¬ (entry.fd = socket ∧ (entry.revents = 0 ∨ entry.revents = pollIn)) := by
  rintro ⟨hfd, hrevents⟩
  have hin : entry.has pollIn := by
    rw [PollFd.has, hrevents.resolve_left hevent]
    decide
  rw [pollAction_of_listening ⟨hfd, hin⟩] at h
  split at h <;> cases h

theorem accept_ne_of_accepted {socket : ℤ}
    (h : pollAction gnuSource socket calls entry = .accepted) : calls.accept ≠ -1 := by
  intro haccept
  rw [pollAction, if_pos haccept] at h
  repeat' split at h
  all_goals cases h

theorem round_outcome (hfresh : calls.accept ∉ s.opened) :
    RoundOutcome s entry (s.round gnuSource calls entry) := by
  have hpass := pollRound_fds gnuSource s.socket calls s.pass entry
  rw [PollServer.round]
  by_cases hevent : entry.revents = 0
  · rw [if_pos hevent]
    rw [if_pos hevent] at hpass
    exact .same _ s.stray hpass fun _ => .inl
  rw [if_neg hevent] at hpass ⊢
  cases haction : pollAction gnuSource s.socket calls entry with
  | kept =>
      rw [haction] at hpass
      simp only
      split
      case isTrue hin =>
        have hnone : calls.accept = -1 := by
          by_contra haccept
          rw [pollAction_of_listening hin, if_neg haccept] at haction
          cases haction
        rw [PollServer.close, if_neg hfresh, hnone]
        refine .same _ (s.stray ++ [-1]) hpass fun fd hfd => ?_
        simpa using hfd
      case isFalse => exact .same _ s.stray hpass fun _ => .inl
  | accepted =>
      rw [haction] at hpass
      exact .accepted _ _ _ hpass (accept_ne_of_accepted haction) hfresh
  | removed =>
      rw [haction] at hpass
      have hnot := not_listening_of_removed hevent haction
      simp only
      split
      case isTrue hnval => exact .dropped _ hpass hnval hnot
      case isFalse => exact .closed _ hpass hnot
  | read =>
      rw [haction] at hpass
      exact .same _ s.stray hpass fun _ => .inl

/-! ### `close` -/

theorem close_of_mem {fd : ℤ} (h : fd ∈ s.opened) :
    s.close fd = { s with opened := s.opened.erase fd } := by
  rw [PollServer.close, if_pos h]

/-- Descriptors that are held can be closed one after another. -/
theorem foldl_close (entries : List PollFd) {rest : List ℤ}
    (h : s.opened.Perm (entries.map PollFd.fd ++ rest)) :
    ∃ opened, entries.foldl (fun s entry => s.close entry.fd) s = { s with opened := opened } ∧
      opened.Perm rest := by
  induction entries generalizing s with
  | nil => exact ⟨s.opened, rfl, h⟩
  | cons entry entries ih =>
      have hmem : entry.fd ∈ s.opened := h.mem_iff.mpr (by simp)
      have herase : (s.opened.erase entry.fd).Perm (entries.map PollFd.fd ++ rest) := by
        have hperm := h.erase entry.fd
        rwa [List.map_cons, List.cons_append, List.erase_cons_head] at hperm
      rw [List.foldl_cons, close_of_mem hmem]
      exact ih herase

theorem DescriptorInv.closeAll (h : DescriptorInv s) :
    ∃ opened, s.closeAll = { s with opened := opened } ∧
      opened.Perm (s.dropped.map PollFd.fd) := by
  refine foldl_close s.pass.fds ?_
  rw [← List.map_append]
  exact h.held

/-! ### The steps -/

theorem DescriptorInv.init {socket : ℤ} (hvalid : socket ≠ -1) :
    DescriptorInv (.init socket) where
  listening := ⟨_, _, rfl, rfl, .inl rfl⟩
  held := .refl _
  nodup := List.nodup_singleton _
  valid := by simpa [PollServer.init] using hvalid.symm
  stray := by simp [PollServer.init]
  dropped := by simp [PollServer.init]
  polled := by simp [PollServer.init]

theorem DescriptorInv.poll (h : DescriptorInv s) {revents : ℤ → UInt16}
    (hopen : ∀ fd ∈ s.opened, revents fd &&& pollNval = 0)
    (hlisten : revents s.socket = 0 ∨ revents s.socket = pollIn) :
    DescriptorInv (s.poll revents) := by
  have hfds : ((s.poll revents).pass.fds).map PollFd.fd = s.pass.fds.map PollFd.fd := by
    simp [PollServer.poll, polledFds]
  obtain ⟨entry, rest, heq, hfd, -⟩ := h.listening
  refine ⟨?_, ?_, h.nodup, h.valid, h.stray, h.dropped, ?_⟩
  · refine ⟨⟨entry.fd, revents entry.fd, true⟩,
      polledFds (rest.map fun entry => (entry.fd, revents entry.fd)), ?_, hfd, hfd ▸ hlisten⟩
    simp only [PollServer.poll, polledFds, heq, List.map_cons]
  · rw [List.map_append, hfds, ← List.map_append]
    exact h.held
  · intro polled hpolled _
    obtain ⟨old, hold, rfl⟩ : ∃ old ∈ s.pass.fds, ⟨old.fd, revents old.fd, true⟩ = polled := by
      simpa [PollServer.poll, polledFds] using hpolled
    have hmem : old.fd ∈ s.opened :=
      h.held.mem_iff.mpr (List.mem_map_of_mem (List.mem_append_left _ hold))
    simp [PollFd.has, hopen old.fd hmem]

theorem DescriptorInv.recreate (h : DescriptorInv s) {socket : ℤ} {stale : UInt16}
    (hvalid : socket ≠ -1) (hfresh : socket ∉ s.closeAll.opened)
    (hstale : ∀ entry ∈ s.pass.fds.head?, stale = entry.revents) :
    DescriptorInv (s.recreate socket stale) := by
  obtain ⟨opened, hclosed, hperm⟩ := h.closeAll
  obtain ⟨entry, rest, heq, -, hrevents⟩ := h.listening
  have hsub : ∀ fd ∈ opened, fd ∈ s.opened := by
    intro fd hfd
    refine h.held.mem_iff.mpr ?_
    rw [List.map_append]
    exact List.mem_append_right _ (hperm.mem_iff.mp hfd)
  rw [hclosed] at hfresh
  simp only [PollServer.recreate, hclosed]
  refine ⟨⟨_, _, rfl, rfl, ?_⟩, ?_, ?_, ?_, h.stray, h.dropped, ?_⟩
  · rw [hstale entry (by rw [heq, List.head?_cons]; rfl)]
    exact hrevents
  · exact (List.perm_append_comm.trans (hperm.cons socket))
  · have hdropped : (s.dropped.map PollFd.fd).Nodup := by
      have hnodup := h.held.nodup_iff.mp h.nodup
      rw [List.map_append] at hnodup
      exact hnodup.of_append_right
    rw [← List.concat_eq_append]
    exact List.Nodup.concat hfresh (hperm.nodup_iff.mpr hdropped)
  · intro hmem
    rcases List.mem_append.mp hmem with hmem | hmem
    · exact h.valid (hsub _ hmem)
    · exact hvalid (List.mem_singleton.mp hmem).symm
  · simp

theorem perm_cons_eraseIdx {entries : List PollFd} {i : ℕ} (h : entries[i]? = some entry) :
    entries.Perm (entry :: entries.eraseIdx i) := by
  obtain ⟨hi, rfl⟩ := List.getElem?_eq_some_iff.mp h
  exact (List.getElem_cons_eraseIdx_perm hi).symm

/-- An entry that is not the listening socket is removed behind it. -/
theorem DescriptorInv.eraseIdx_listening (h : DescriptorInv s)
    (hentry : s.pass.fds[s.pass.i]? = some entry)
    (hnot : ¬ (entry.fd = s.socket ∧ (entry.revents = 0 ∨ entry.revents = pollIn))) :
    ∃ first rest, s.pass.fds.eraseIdx s.pass.i = first :: rest ∧ first.fd = s.socket ∧
      (first.revents = 0 ∨ first.revents = pollIn) := by
  obtain ⟨first, rest, heq, hfirst⟩ := h.listening
  rw [heq] at hentry ⊢
  cases hi : s.pass.i with
  | zero =>
      rw [hi, List.getElem?_cons_zero] at hentry
      obtain rfl := Option.some.inj hentry
      exact (hnot hfirst).elim
  | succ i => exact ⟨first, rest.eraseIdx i, List.eraseIdx_cons_succ, hfirst⟩

/-- The descriptors without an entry that is removed. -/
theorem DescriptorInv.held_eraseIdx (h : DescriptorInv s)
    (hentry : s.pass.fds[s.pass.i]? = some entry) :
    s.opened.Perm (entry.fd :: (s.pass.fds.eraseIdx s.pass.i ++ s.dropped).map PollFd.fd) :=
  h.held.trans (((perm_cons_eraseIdx hentry).append_right s.dropped).map PollFd.fd)

theorem RoundOutcome.inv (ho : RoundOutcome s entry s') (h : DescriptorInv s)
    (hentry : s.pass.fds[s.pass.i]? = some entry) : DescriptorInv s' := by
  cases ho with
  | same pass stray hfds hstray =>
      refine ⟨hfds ▸ h.listening, hfds ▸ h.held, h.nodup, h.valid, fun fd hfd => ?_, h.dropped,
        hfds ▸ h.polled⟩
      exact (hstray fd hfd).elim (h.stray fd) id
  | accepted pass accept slot hfds haccept hfresh =>
      obtain ⟨first, rest, heq, hfirst⟩ := h.listening
      refine ⟨⟨first, rest ++ [⟨accept, slot, false⟩], ?_, hfirst⟩, ?_, ?_, ?_, h.stray, h.dropped,
        ?_⟩
      · rw [hfds, heq, List.cons_append]
      · simp only [hfds, List.append_assoc, List.singleton_append, List.map_append, List.map_cons]
        have hheld := h.held.cons accept
        rw [List.map_append] at hheld
        exact (List.perm_append_singleton _ _).trans (hheld.trans List.perm_middle.symm)
      · rw [← List.concat_eq_append]
        exact List.Nodup.concat hfresh h.nodup
      · intro hmem
        rcases List.mem_append.mp hmem with hmem | hmem
        · exact h.valid hmem
        · exact haccept (List.mem_singleton.mp hmem).symm
      · intro polled hpolled hwritten
        rw [hfds] at hpolled
        rcases List.mem_append.mp hpolled with hpolled | hpolled
        · exact h.polled polled hpolled hwritten
        · rw [List.mem_singleton.mp hpolled] at hwritten
          cases hwritten
  | dropped pass hfds hnval hnot =>
      have hunpolled : entry.polled = false := by
        by_contra hpolled
        exact h.polled entry (List.mem_of_getElem? hentry) (by simpa using hpolled) hnval
      refine ⟨hfds ▸ h.eraseIdx_listening hentry hnot, ?_, h.nodup, h.valid, h.stray, ?_, ?_⟩
      · have hlast : (pass.fds ++ (s.dropped ++ [entry])).Perm
            (entry :: (s.pass.fds.eraseIdx s.pass.i ++ s.dropped)) := by
          rw [hfds, ← List.append_assoc]
          exact List.perm_append_singleton _ _
        exact (h.held_eraseIdx hentry).trans (hlast.map PollFd.fd).symm
      · intro old hold
        rcases List.mem_append.mp hold with hold | hold
        · exact h.dropped old hold
        · rw [List.mem_singleton.mp hold, hunpolled]
      · exact fun old hold => h.polled old (List.mem_of_mem_eraseIdx (hfds ▸ hold))
  | closed pass hfds hnot =>
      have hheld := h.held_eraseIdx hentry
      have hmem : entry.fd ∈ s.opened := hheld.mem_iff.mpr List.mem_cons_self
      rw [close_of_mem (s := { s with pass := pass }) hmem]
      refine ⟨hfds ▸ h.eraseIdx_listening hentry hnot, ?_, h.nodup.erase _,
        fun hvalid => h.valid (List.mem_of_mem_erase hvalid), h.stray, h.dropped, ?_⟩
      · have herase := hheld.erase entry.fd
        rw [List.erase_cons_head] at herase
        simpa only [hfds] using herase
      · exact fun old hold => h.polled old (List.mem_of_mem_eraseIdx (hfds ▸ hold))

theorem PollStep.inv (h : PollStep gnuSource s s') (hs : DescriptorInv s) : DescriptorInv s' := by
  cases h with
  | poll revents _ hopen hlisten => exact hs.poll hopen hlisten
  | recreate socket stale _ hvalid hfresh hstale => exact hs.recreate hvalid hfresh hstale
  | round calls entry hentry _ hfresh => exact (round_outcome hfresh).inv hs hentry

theorem PollReachable.inv (h : PollReachable gnuSource s) : DescriptorInv s := by
  obtain ⟨socket, hvalid, hrun⟩ := h
  induction hrun with
  | refl => exact .init hvalid
  | tail _ hstep ih => exact hstep.inv ih

/-- The server after it accepted the descriptor `4`. -/
def acceptedServer : PollServer :=
  ((PollServer.init 3).poll fun _ => pollIn).round true ⟨4, 0, 0, 1⟩ ⟨3, pollIn, true⟩

/-- The events of the next call of `poll`. -/
def hangupOf (fd : ℤ) : UInt16 := if fd = 4 then pollHup else 0

/-- The server after the client hung up. -/
def hungUpServer : PollServer :=
  ((acceptedServer.poll hangupOf).round true ⟨-1, 0, 0, 1⟩ ⟨3, 0, true⟩).round true ⟨-1, 0, 0, 1⟩
    ⟨4, pollHup, true⟩

theorem hungUpServer_reachable : PollReachable true hungUpServer := by
  refine ⟨3, by decide, ?_⟩
  have hpoll : Relation.ReflTransGen (PollStep true) (.init 3)
      ((PollServer.init 3).poll fun _ => pollIn) :=
    .single (.poll _ _ (.inr rfl) (by decide) (.inr rfl))
  have haccepted := hpoll.tail (.round _ ⟨4, 0, 0, 1⟩ ⟨3, pollIn, true⟩ rfl (by decide) (by decide))
  have hagain := haccepted.tail (.poll acceptedServer hangupOf (.inr rfl) (by decide) (.inl rfl))
  have hquiet := hagain.tail (.round _ ⟨-1, 0, 0, 1⟩ ⟨3, 0, true⟩ rfl (by decide) (by decide))
  exact hquiet.tail (.round _ ⟨-1, 0, 0, 1⟩ ⟨4, pollHup, true⟩ rfl (by decide) (by decide))

end DbGovernor
