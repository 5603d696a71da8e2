import DbGovernor.Model.PluginSocket
import Mathlib.Data.List.Nodup
import Mathlib.Data.List.Perm.Basic

/-!
# The connections of the plugin

On any number of threads, a connection to the daemon is open exactly as long as `sd` stands for it,
somebody is connecting it, or it was forgotten; and a record is sent to it, to nothing, or, between
`close_sock` and `connect_to_server`, to whatever else has got its descriptor.
-/

namespace DbGovernor

/-! ### The table of descriptors -/

/-- The connections in a table of descriptors are those of a list, each once. -/
structure FdsAccounted (fds : ℕ → Option Holder) (sockets : ℕ) (owned : List (ℕ × ℕ)) : Prop where
  mem_iff : ∀ fd n, fds fd = some (.connection n) ↔ (fd, n) ∈ owned
  nodup : (owned.map Prod.snd).Nodup
  fresh : ∀ c ∈ owned, c.2 < sockets

section FdsAccounted

variable {fds : ℕ → Option Holder} {sockets : ℕ} {owned owned' : List (ℕ × ℕ)} {fd : ℕ}

theorem FdsAccounted.perm (h : FdsAccounted fds sockets owned) (hp : owned.Perm owned') :
    FdsAccounted fds sockets owned' where
  mem_iff fd n := (h.mem_iff fd n).trans hp.mem_iff
  nodup := (hp.map Prod.snd).nodup_iff.mp h.nodup
  fresh c hc := h.fresh c (hp.mem_iff.mpr hc)

theorem FdsAccounted.add (h : FdsAccounted fds sockets owned) (hfd : fds fd = none) :
    FdsAccounted (Function.update fds fd (some (.connection sockets))) (sockets + 1)
      ((fd, sockets) :: owned) := by
  refine ⟨fun fd' n => ?_, ?_, ?_⟩
  · by_cases hsame : fd' = fd
    · subst hsame
      have hnot : (fd', n) ∉ owned := fun hmem => by simp [(h.mem_iff fd' n).mpr hmem] at hfd
      simp [hnot, eq_comm]
    · simp [hsame, h.mem_iff]
  · rw [List.map_cons, List.nodup_cons]
    refine ⟨fun hmem => ?_, h.nodup⟩
    obtain ⟨c, hc, hn⟩ := List.mem_map.mp hmem
    have hlt := h.fresh c hc
    omega
  · intro c hc
    rcases List.mem_cons.mp hc with rfl | hc
    · exact Nat.lt_succ_self _
    · exact Nat.lt_succ_of_lt (h.fresh c hc)

theorem FdsAccounted.remove {n : ℕ} (h : FdsAccounted fds sockets ((fd, n) :: owned)) :
    FdsAccounted (Function.update fds fd none) sockets owned := by
  have hnodup := List.nodup_cons.mp h.nodup
  refine ⟨fun fd' m => ?_, hnodup.2, fun c hc => h.fresh c (List.mem_cons_of_mem _ hc)⟩
  by_cases hsame : fd' = fd
  · subst hsame
    have hnot : (fd', m) ∉ owned := by
      intro hmem
      have hm := (h.mem_iff fd' m).mpr (List.mem_cons_of_mem _ hmem)
      rw [(h.mem_iff fd' n).mpr List.mem_cons_self] at hm
      obtain rfl : n = m := by simpa using hm
      exact hnodup.1 (List.mem_map_of_mem hmem)
    simp [hnot]
  · simp [hsame, h.mem_iff]

/-- A descriptor that is no connection may be used for other things. -/
theorem FdsAccounted.other (h : FdsAccounted fds sockets owned)
    (hfd : ∀ n, fds fd ≠ some (.connection n))
    {holder : Option Holder} (hholder : ∀ n, holder ≠ some (.connection n)) :
    FdsAccounted (Function.update fds fd holder) sockets owned := by
  refine ⟨fun fd' n => ?_, h.nodup, h.fresh⟩
  by_cases hsame : fd' = fd
  · subst hsame
    rw [← h.mem_iff]
    simp [hfd, hholder]
  · simp [hsame, h.mem_iff]

end FdsAccounted

/-! ### The invariant -/

/-- The connection that a thread in `connect_to_server` has a descriptor for. -/
def PluginSocket.opening (s : PluginSocket) : Option (ℕ × ℕ) :=
  s.mtxWrite.bind fun thread =>
    match s.pc thread with
    | .opened fd n => some (fd, n)
    | .idle | .called _ | .measured _ | .closing | .closed | .cleared => none

/-- The connections that should be open. -/
def PluginSocket.owned (s : PluginSocket) : List (ℕ × ℕ) :=
  s.current.toList ++ s.opening.toList ++ s.lost

/-- Some thread is between `close_sock` and `connect_to_server`, and the descriptor in `sd` is no
connection. -/
structure PluginSocket.Stale (s : PluginSocket) : Prop where
  gone : ∀ n, s.fds s.sd.socket.toNat ≠ some (.connection n)
  closed : ∃ thread, s.pc thread = .closed

/-- What the steps keep. -/
structure SocketInv (s : PluginSocket) : Prop where
  accounted : FdsAccounted s.fds s.sockets s.owned
  holder : ∀ thread, s.mtxWrite = some thread ↔
    s.pc thread = .cleared ∨ ∃ fd n, s.pc thread = .opened fd n
  cleared : s.mtxWrite ≠ none → s.sd = ⟨-1, false⟩ ∧ s.current = none
  up : ∀ c, s.current = some c → s.sd = ⟨c.1, true⟩
  down : s.current = none → s.sd.status = false ∧ (0 ≤ s.sd.socket → s.Stale)

theorem SocketInv.init (own : ℕ → Bool) : SocketInv (.init own) := by
  have hfds : ∀ fd n, (PluginSocket.init own).fds fd ≠ some (.connection n) := by
    intro fd n
    simp only [PluginSocket.init]
    split <;> simp
  refine ⟨⟨fun fd n => ?_, List.nodup_nil, fun c hc => by cases hc⟩, fun thread => ?_, ?_, ?_, ?_⟩
  · exact iff_of_false (hfds fd n)
      (by simp [PluginSocket.owned, PluginSocket.opening, PluginSocket.init])
  · by_cases hzero : thread = 0
    · simp [PluginSocket.init, hzero]
    · simp [PluginSocket.init, hzero]
  · exact fun hlocked => absurd rfl hlocked
  · intro c hc
    cases hc
  · exact fun _ => ⟨rfl, fun hsocket => by simp [PluginSocket.init] at hsocket⟩

/-! ### Steps outside `connect_to_server` and `close_sock` -/

/-- A thread between `close_sock` and the end of `connect_to_server`. -/
def SocketPc.connecting : SocketPc → Bool
  | .idle | .called _ | .measured _ | .closing => false
  | .closed | .cleared | .opened _ _ => true

/-- Nothing of the connection changes, and nobody comes or goes who is connecting. -/
structure LocalMove (s s' : PluginSocket) : Prop where
  sd : s'.sd = s.sd
  mtxWrite : s'.mtxWrite = s.mtxWrite
  fds : s'.fds = s.fds
  sockets : s'.sockets = s.sockets
  current : s'.current = s.current
  lost : s'.lost = s.lost
  pc : ∀ thread pc, pc.connecting → (s'.pc thread = pc ↔ s.pc thread = pc)

section Steps

variable {s s' : PluginSocket} {thread : ℕ}

theorem LocalMove.opening (hm : LocalMove s s') (h : SocketInv s) : s'.opening = s.opening := by
  rw [PluginSocket.opening, PluginSocket.opening, hm.mtxWrite]
  cases hlock : s.mtxWrite with
  | none => rfl
  | some thread =>
      rcases (h.holder thread).mp hlock with hpc | ⟨fd, n, hpc⟩
      · simp [hpc, (hm.pc thread .cleared rfl).mpr hpc]
      · simp [hpc, (hm.pc thread (.opened fd n) rfl).mpr hpc]

theorem SocketInv.move (h : SocketInv s) (hm : LocalMove s s') : SocketInv s' := by
  have howned : s'.owned = s.owned := by
    rw [PluginSocket.owned, PluginSocket.owned, hm.current, hm.opening h, hm.lost]
  refine ⟨?_, fun thread => ?_, ?_, ?_, ?_⟩
  · rw [howned, hm.fds, hm.sockets]
    exact h.accounted
  · rw [hm.mtxWrite, h.holder, hm.pc thread .cleared rfl]
    exact or_congr_right (exists_congr fun fd => exists_congr fun n =>
      (hm.pc thread (.opened fd n) rfl).symm)
  · rw [hm.mtxWrite, hm.sd, hm.current]
    exact h.cleared
  · rw [hm.current, hm.sd]
    exact h.up
  · rw [hm.current, hm.sd]
    intro hnone
    obtain ⟨hdown, hstale⟩ := h.down hnone
    refine ⟨hdown, fun hsocket => ?_⟩
    obtain ⟨hgone, closer, hcloser⟩ := hstale hsocket
    refine ⟨?_, closer, (hm.pc closer .closed rfl).mpr hcloser⟩
    rw [hm.sd, hm.fds]
    exact hgone

/-- A thread goes from one place outside to another. -/
theorem localMove_goto (hsame : s'.sd = s.sd ∧ s'.mtxWrite = s.mtxWrite ∧ s'.fds = s.fds ∧
      s'.sockets = s.sockets ∧ s'.current = s.current ∧ s'.lost = s.lost)
    {pc : SocketPc} (hpcs : s'.pc = Function.update s.pc thread pc)
    (hfrom : (s.pc thread).connecting = false) (hto : pc.connecting = false) : LocalMove s s' := by
  obtain ⟨hsd, hmtx, hfds, hsockets, hcurrent, hlost⟩ := hsame
  refine ⟨hsd, hmtx, hfds, hsockets, hcurrent, hlost, fun other pc' hconnecting => ?_⟩
  rw [hpcs]
  by_cases hother : other = thread
  · subst hother
    rw [Function.update_self]
    refine iff_of_false ?_ ?_
    · rintro rfl
      rw [hto] at hconnecting
      cases hconnecting
    · rintro rfl
      rw [hfrom] at hconnecting
      cases hconnecting
  · rw [Function.update_of_ne hother]

theorem LocalMove.same (hsame : s'.sd = s.sd ∧ s'.mtxWrite = s.mtxWrite ∧ s'.fds = s.fds ∧
      s'.sockets = s.sockets ∧ s'.current = s.current ∧ s'.lost = s.lost) (hpcs : s'.pc = s.pc) :
    LocalMove s s' := by
  obtain ⟨hsd, hmtx, hfds, hsockets, hcurrent, hlost⟩ := hsame
  exact ⟨hsd, hmtx, hfds, hsockets, hcurrent, hlost, fun _ _ _ => by rw [hpcs]⟩

theorem localMove_sendReturns {call : SendCall} (hfrom : (s.pc thread).connecting = false)
    (rc : ℤ) :
    LocalMove s (s.sendReturns thread call rc) :=
  localMove_goto ⟨rfl, rfl, rfl, rfl, rfl, rfl⟩ rfl hfrom rfl

theorem localMove_notifyLog (hpc : s.pc thread = .idle) (named : Bool) :
    LocalMove s (s.notifyLog thread named) := by
  have hfrom : (s.pc thread).connecting = false := by rw [hpc]; rfl
  rw [PluginSocket.notifyLog]
  dsimp only
  split
  · exact localMove_goto ⟨rfl, rfl, rfl, rfl, rfl, rfl⟩ rfl hfrom rfl
  · exact .same ⟨rfl, rfl, rfl, rfl, rfl, rfl⟩ rfl

theorem localMove_notifyStatus (hpc : s.pc thread = .idle) (named : Bool) :
    LocalMove s (s.notifyStatus thread named) := by
  have hfrom : (s.pc thread).connecting = false := by rw [hpc]; rfl
  rw [PluginSocket.notifyStatus]
  split
  · exact localMove_goto ⟨rfl, rfl, rfl, rfl, rfl, rfl⟩ rfl hfrom rfl
  · exact .same ⟨rfl, rfl, rfl, rfl, rfl, rfl⟩ rfl

theorem localMove_sendInfo {call : SendCall} (hpc : s.pc thread = .called call) :
    LocalMove s (s.sendInfo thread call) := by
  have hfrom : (s.pc thread).connecting = false := by rw [hpc]; rfl
  rw [PluginSocket.sendInfo]
  split
  · exact localMove_sendReturns hfrom 0
  · exact localMove_goto ⟨rfl, rfl, rfl, rfl, rfl, rfl⟩ rfl hfrom rfl

/-! ### Steps of `close_sock` and `connect_to_server` -/

/-- The thread is in `connect_to_server`. -/
def PluginSocket.Connects (s : PluginSocket) (thread : ℕ) : Prop :=
  s.pc thread = .cleared ∨ ∃ fd n, s.pc thread = .opened fd n

theorem SocketInv.nobody_connects (h : SocketInv s) (hfree : s.mtxWrite = none) (other : ℕ) :
    ¬ s.Connects other := by
  intro hconnects
  have hlock := (h.holder other).mpr hconnects
  rw [hfree] at hlock
  cases hlock

theorem PluginSocket.opening_of_free (hfree : s.mtxWrite = none) : s.opening = none := by
  rw [PluginSocket.opening, hfree]
  rfl

/-- What is known while a thread is in `connect_to_server`. -/
structure Connecting (s : PluginSocket) (thread : ℕ) (opening : Option (ℕ × ℕ)) : Prop where
  lock : s.mtxWrite = some thread
  sd : s.sd = ⟨-1, false⟩
  current : s.current = none
  owned : s.owned = opening.toList ++ s.lost

theorem SocketInv.connecting_of_cleared (h : SocketInv s) (hpc : s.pc thread = .cleared) :
    Connecting s thread none := by
  have hlock := (h.holder thread).mpr (.inl hpc)
  obtain ⟨hsd, hcurrent⟩ := h.cleared (by simp [hlock])
  exact ⟨hlock, hsd, hcurrent,
    by simp [PluginSocket.owned, PluginSocket.opening, hlock, hpc, hcurrent]⟩

theorem SocketInv.connecting_of_opened (h : SocketInv s) {fd n : ℕ}
    (hpc : s.pc thread = .opened fd n) : Connecting s thread (some (fd, n)) := by
  have hlock := (h.holder thread).mpr (.inr ⟨fd, n, hpc⟩)
  obtain ⟨hsd, hcurrent⟩ := h.cleared (by simp [hlock])
  exact ⟨hlock, hsd, hcurrent,
    by simp [PluginSocket.owned, PluginSocket.opening, hlock, hpc, hcurrent]⟩

/-- A thread leaves `connect_to_server` with a new state of the connection. -/
theorem SocketInv.leave (h : SocketInv s) {opening : Option (ℕ × ℕ)}
    (hc : Connecting s thread opening) {s' : PluginSocket} (hmtx : s'.mtxWrite = none)
    (hpcs : s'.pc = Function.update s.pc thread .idle)
    (haccounted : FdsAccounted s'.fds s'.sockets (s'.current.toList ++ s'.lost))
    (hsd : s'.current = none ∧ s'.sd = ⟨-1, false⟩ ∨
      ∃ c, s'.current = some c ∧ s'.sd = ⟨c.1, true⟩) : SocketInv s' := by
  refine ⟨?_, fun other => ?_, fun hlocked => absurd hmtx hlocked, ?_, ?_⟩
  · rw [PluginSocket.owned, PluginSocket.opening_of_free hmtx]
    simpa using haccounted
  · rw [hmtx, hpcs]
    refine iff_of_false (by simp) ?_
    by_cases hother : other = thread
    · simp [hother]
    · rw [Function.update_of_ne hother]
      intro hconnects
      have hlock := (h.holder other).mpr hconnects
      rw [hc.lock] at hlock
      exact hother (Option.some.inj hlock).symm
  · intro c hcurrent
    rcases hsd with ⟨hnone, -⟩ | ⟨c', hsome, hup⟩
    · simp [hnone] at hcurrent
    · obtain rfl : c' = c := Option.some.inj (hsome.symm.trans hcurrent)
      exact hup
  · intro hcurrent
    rcases hsd with ⟨-, hdown⟩ | ⟨c, hsome, -⟩
    · rw [hdown]
      exact ⟨rfl, fun hsocket => by simp at hsocket⟩
    · simp [hcurrent] at hsome

theorem SocketInv.socketFails (h : SocketInv s) (hpc : s.pc thread = .cleared) :
    SocketInv (s.goto thread .idle).unlock := by
  have hc := h.connecting_of_cleared hpc
  refine h.leave hc rfl rfl ?_ (.inl ⟨hc.current, hc.sd⟩)
  have haccounted := h.accounted
  rw [hc.owned] at haccounted
  simpa [PluginSocket.unlock, PluginSocket.goto, hc.current] using haccounted

theorem SocketInv.refuse (h : SocketInv s) {fd n : ℕ} (hpc : s.pc thread = .opened fd n) :
    SocketInv (s.refuse thread fd n) := by
  have hc := h.connecting_of_opened hpc
  refine h.leave hc rfl rfl ?_ (.inl ⟨hc.current, hc.sd⟩)
  have haccounted := h.accounted
  rw [hc.owned] at haccounted
  have hlost := haccounted.perm List.perm_append_comm
  simpa [PluginSocket.refuse, PluginSocket.unlock, PluginSocket.goto, hc.current] using hlost

theorem SocketInv.timeOut (h : SocketInv s) {fd n : ℕ} (hpc : s.pc thread = .opened fd n) :
    SocketInv (s.timeOut thread fd) := by
  have hc := h.connecting_of_opened hpc
  refine h.leave hc rfl rfl ?_ (.inl ⟨hc.current, hc.sd⟩)
  have haccounted := h.accounted
  rw [hc.owned] at haccounted
  have hremoved := FdsAccounted.remove (by simpa using haccounted)
  simpa [PluginSocket.timeOut, PluginSocket.unlock, PluginSocket.goto, PluginSocket.setFd,
    hc.current] using hremoved

theorem SocketInv.connected (h : SocketInv s) {fd n : ℕ} (hpc : s.pc thread = .opened fd n) :
    SocketInv (s.connected thread fd n) := by
  have hc := h.connecting_of_opened hpc
  refine h.leave hc rfl rfl ?_ (.inr ⟨(fd, n), rfl, rfl⟩)
  have haccounted := h.accounted
  rw [hc.owned] at haccounted
  simpa [PluginSocket.connected, PluginSocket.unlock, PluginSocket.goto] using haccounted

theorem SocketInv.openSocket (h : SocketInv s) {fd : ℕ} (hpc : s.pc thread = .cleared)
    (hfd : s.fds fd = none) : SocketInv (s.openSocket thread fd) := by
  have hc := h.connecting_of_cleared hpc
  have hpcs : (s.openSocket thread fd).pc =
      Function.update s.pc thread (.opened fd s.sockets) := rfl
  have hopening : (s.openSocket thread fd).opening = some (fd, s.sockets) := by
    have hlock : (s.openSocket thread fd).mtxWrite = some thread := hc.lock
    simp [PluginSocket.opening, hlock, hpcs]
  have hcurrent : (s.openSocket thread fd).current = none := hc.current
  refine ⟨?_, fun other => ?_, fun _ => ⟨hc.sd, hc.current⟩, ?_, ?_⟩
  · have haccounted := h.accounted
    rw [hc.owned] at haccounted
    rw [PluginSocket.owned, hopening, hcurrent]
    exact haccounted.add hfd
  · have hlock : (s.openSocket thread fd).mtxWrite = s.mtxWrite := rfl
    rw [hlock, hpcs]
    by_cases hother : other = thread
    · simp [hother, hc.lock]
    · rw [Function.update_of_ne hother]
      exact h.holder other
  · intro c hsome
    simp [hcurrent] at hsome
  · have hsd : (s.openSocket thread fd).sd = ⟨-1, false⟩ := hc.sd
    rw [hsd]
    exact fun _ => ⟨rfl, fun hsocket => by simp at hsocket⟩

theorem SocketInv.clearSock (h : SocketInv s) (hfree : s.mtxWrite = none) :
    SocketInv (s.clearSock thread) := by
  have hpcs : (s.clearSock thread).pc = Function.update s.pc thread .cleared := rfl
  have hlock : (s.clearSock thread).mtxWrite = some thread := rfl
  have hopening : (s.clearSock thread).opening = none := by
    simp [PluginSocket.opening, hlock, hpcs]
  refine ⟨?_, fun other => ?_, fun _ => ⟨rfl, rfl⟩, ?_, ?_⟩
  · have haccounted := h.accounted
    rw [PluginSocket.owned, PluginSocket.opening_of_free hfree, Option.toList_none,
      List.append_nil] at haccounted
    rw [PluginSocket.owned, hopening]
    exact haccounted.perm List.perm_append_comm
  · rw [hlock, hpcs]
    by_cases hother : other = thread
    · simp [hother]
    · rw [Function.update_of_ne hother]
      exact iff_of_false (fun hsome => hother (Option.some.inj hsome).symm)
        (h.nobody_connects hfree other)
  · intro c hsome
    cases hsome
  · exact fun _ => ⟨rfl, fun hsocket => by simp [PluginSocket.clearSock] at hsocket⟩

theorem SocketInv.closeSock (h : SocketInv s) (hfree : s.mtxWrite = none) :
    SocketInv (s.closeSockIn.goto thread .closed) := by
  have haccounted := h.accounted
  rw [PluginSocket.owned, PluginSocket.opening_of_free hfree, Option.toList_none, List.append_nil]
    at haccounted
  have hpcs : (s.closeSockIn.goto thread .closed).pc = Function.update s.pc thread .closed := by
    simp only [PluginSocket.goto, PluginSocket.closeSockIn]
    split <;> rfl
  have hlock : (s.closeSockIn.goto thread .closed).mtxWrite = none := by
    simp only [PluginSocket.goto, PluginSocket.closeSockIn]
    split <;> exact hfree
  have hholder : ∀ other, (s.closeSockIn.goto thread .closed).mtxWrite = some other ↔
      (s.closeSockIn.goto thread .closed).Connects other := by
    intro other
    rw [hlock, PluginSocket.Connects, hpcs]
    by_cases hother : other = thread
    · simp [hother]
    · rw [Function.update_of_ne hother]
      exact iff_of_false (by simp) (h.nobody_connects hfree other)
  have hclosed : (s.closeSockIn.goto thread .closed).pc thread = .closed := by
    rw [hpcs, Function.update_self]
  cases hcurrent : s.current with
  | none =>
      obtain ⟨hdown, hstale⟩ := h.down hcurrent
      have heq : s.closeSockIn = s := by simp [PluginSocket.closeSockIn, hdown]
      rw [heq] at hlock hholder hclosed ⊢
      refine ⟨?_, hholder, fun hlocked => absurd hlock hlocked, h.up,
        fun _ => ⟨hdown, fun hsocket => ?_⟩⟩
      · rw [PluginSocket.owned, PluginSocket.opening_of_free hlock, Option.toList_none,
          List.append_nil]
        exact haccounted
      · exact ⟨(hstale hsocket).gone, thread, hclosed⟩
  | some c =>
      have hsd := h.up c hcurrent
      have heq : s.closeSockIn = { s.setFd c.1 none with sd := ⟨c.1, false⟩, current := none } := by
        simp [PluginSocket.closeSockIn, hsd]
      rw [heq] at hlock hholder hclosed ⊢
      refine ⟨?_, hholder, fun hlocked => absurd hlock hlocked, ?_, fun _ => ⟨rfl, fun _ => ?_⟩⟩
      · rw [PluginSocket.owned, PluginSocket.opening_of_free hlock]
        rw [hcurrent] at haccounted
        exact haccounted.remove
      · intro c' hsome
        cases hsome
      · refine ⟨fun n => ?_, thread, hclosed⟩
        simp [PluginSocket.goto, PluginSocket.setFd]

theorem SocketInv.server (h : SocketInv s) {fd : ℕ} {holder : Option Holder}
    (hfd : ∀ n, s.fds fd ≠ some (.connection n)) (hholder : ∀ n, holder ≠ some (.connection n)) :
    SocketInv (s.setFd fd holder) := by
  refine ⟨h.accounted.other hfd hholder, h.holder, h.cleared, h.up, fun hcurrent => ?_⟩
  obtain ⟨hdown, hstale⟩ := h.down hcurrent
  refine ⟨hdown, fun hsocket => ?_⟩
  obtain ⟨hgone, hclosed⟩ := hstale hsocket
  refine ⟨fun n => ?_, hclosed⟩
  by_cases hsame : s.sd.socket.toNat = fd
  · simpa [PluginSocket.setFd, hsame] using hholder n
  · simpa [PluginSocket.setFd, hsame] using hgone n

theorem SocketInv.step {reconnects : Bool} (h : SocketInv s) (hs : PluginStep reconnects s s') :
    SocketInv s' := by
  cases hs with
  | log thread named hpc => exact h.move (localMove_notifyLog hpc named)
  | status thread named hpc => exact h.move (localMove_notifyStatus hpc named)
  | sendInfo thread call hpc => exact h.move (localMove_sendInfo hpc)
  | send thread call whole hpc _ =>
      refine h.move (localMove_goto ⟨rfl, rfl, rfl, rfl, rfl, rfl⟩ rfl ?_ rfl)
      rw [hpc]
      rfl
  | busy thread call hpc =>
      refine h.move (localMove_sendReturns ?_ _)
      rw [hpc]
      rfl
  | enable thread command _ _ => exact h.move (.same ⟨rfl, rfl, rfl, rfl, rfl, rfl⟩ rfl)
  | enableReconnect thread command _ hpc _ =>
      refine h.move (localMove_goto ⟨rfl, rfl, rfl, rfl, rfl, rfl⟩ rfl ?_ rfl)
      rw [hpc]
      rfl
  | closeSock thread _ hfree => exact h.closeSock hfree
  | clearSock thread _ hfree => exact h.clearSock hfree
  | socketFails thread hpc => exact h.socketFails hpc
  | openSocket thread fd hpc hfd => exact h.openSocket hpc hfd
  | refuse thread fd n hpc => exact h.refuse hpc
  | timeOut thread fd n hpc => exact h.timeOut hpc
  | connected thread fd n hpc => exact h.connected hpc
  | serverOpens fd hfd => exact h.server (by simp [hfd]) (by simp)
  | serverCloses fd hfd => exact h.server (by simp [hfd]) (by simp)

end Steps

/-! ### Runs -/

section Runs

variable {reconnects : Bool} {s : PluginSocket}

theorem PluginReachable.step {s' : PluginSocket} (h : PluginReachable reconnects s)
    (hs : PluginStep reconnects s s') : PluginReachable reconnects s' := by
  obtain ⟨own, hrun⟩ := h
  exact ⟨own, hrun.tail hs⟩

theorem PluginReachable.inv (h : PluginReachable reconnects s) : SocketInv s := by
  obtain ⟨own, hrun⟩ := h
  induction hrun with
  | refl => exact .init own
  | tail _ hs ih => exact ih.step hs

/-- What `send` would write to. -/
inductive SendsTo (s : PluginSocket) : Prop where
  | connection (c : ℕ × ℕ) (hcurrent : s.current = some c)
      (htarget : s.target = some (.connection c.2))
  | nothing (hcurrent : s.current = none) (htarget : s.target = none)
  | stale (hcurrent : s.current = none) (htarget : s.target = some .server)
      (hclosed : ∃ thread, s.pc thread = .closed)

theorem SocketInv.sendsTo (h : SocketInv s) : SendsTo s := by
  cases hcurrent : s.current with
  | some c =>
      refine .connection c hcurrent ?_
      have hmem : c ∈ s.owned := by simp [PluginSocket.owned, hcurrent]
      have hnonneg : ¬ (c.1 : ℤ) < 0 := by omega
      rw [PluginSocket.target, h.up c hcurrent]
      simpa using (h.accounted.mem_iff c.1 c.2).mpr hmem
  | none =>
      by_cases hsocket : s.sd.socket < 0
      · exact .nothing hcurrent (by rw [PluginSocket.target, if_pos hsocket])
      · obtain ⟨hgone, hclosed⟩ := (h.down hcurrent).2 (Int.not_lt.mp hsocket)
        have htarget : s.target = s.fds s.sd.socket.toNat := by
          rw [PluginSocket.target, if_neg hsocket]
        cases hfd : s.fds s.sd.socket.toNat with
        | none => exact .nothing hcurrent (htarget.trans hfd)
        | some holder =>
            cases holder with
            | connection n => exact absurd hfd (hgone n)
            | server => exact .stale hcurrent (htarget.trans hfd) hclosed

/-- In every state of any run, the connections that are open are the one that `sd` stands for, one
that somebody is connecting and the forgotten ones, each of them once, and `send` would write to the
first of these, to nothing, or, while somebody is between `close_sock` and `connect_to_server`, to
another descriptor of the server. -/
theorem plugin_connections_accounted (h : PluginReachable reconnects s) :
    FdsAccounted s.fds s.sockets s.owned ∧ SendsTo s :=
  ⟨h.inv.accounted, h.inv.sendsTo⟩

end Runs

/-- A process that has connected and was asked for a reconnect, cut after `close_sock`, with a
thread that has measured a statement before that. -/
def windowSocket : PluginSocket :=
  let cleared := (PluginSocket.init fun _ => false).clearSock 0
  let connected := (cleared.openSocket 0 3).connected 0 3 0
  let enabled := { connected with governorGetCommand := 1 }
  let measured := (enabled.notifyLog 1 true).sendInfo 1 .sendInfoBegin
  let asked := { measured.goto 2 .closing with governorGetCommand := 1 }
  asked.closeSockIn.goto 2 .closed

theorem windowSocket_reachable : PluginReachable true windowSocket := by
  have hstart : PluginReachable true (.init fun _ => false) := ⟨_, .refl⟩
  have hcleared := hstart.step (.clearSock _ 0 rfl rfl)
  have hopened := hcleared.step (.openSocket _ 0 3 rfl rfl)
  have hconnected := hopened.step (.connected _ 0 3 0 rfl)
  have henabled := hconnected.step (.enable _ 1 1 rfl (.inl rfl))
  have hlogged := henabled.step (.log _ 1 true rfl)
  have hmeasured := hlogged.step (.sendInfo _ 1 .sendInfoBegin rfl)
  have hasked := hmeasured.step (.enableReconnect _ 2 1 rfl rfl (.inl rfl))
  exact hasked.step (.closeSock _ 2 rfl rfl)

theorem plugin_connections_accounted_window :
    FdsAccounted windowSocket.fds windowSocket.sockets windowSocket.owned ∧ SendsTo windowSocket :=
  plugin_connections_accounted windowSocket_reachable

/-! ### Records that go astray -/

/-- While nobody reconnects there is no window. -/
structure NoWindow (s : PluginSocket) : Prop where
  noClosing : ∀ thread, s.pc thread ≠ .closing
  settled : s.sd.status = false → s.sd.socket < 0
  clean : some .server ∉ s.sent

section NoWindow

variable {s s' : PluginSocket}

theorem NoWindow.init (own : ℕ → Bool) : NoWindow (.init own) := by
  refine ⟨fun thread => ?_, fun _ => ?_, by simp [PluginSocket.init]⟩
  · by_cases hzero : thread = 0
    · simp [PluginSocket.init, hzero]
    · simp [PluginSocket.init, hzero]
  · simp [PluginSocket.init]

theorem NoWindow.goto (h : NoWindow s) (thread : ℕ) {pc : SocketPc} (hpc : pc ≠ .closing)
    (hpcs : s'.pc = Function.update s.pc thread pc) (hsd : s'.sd = s.sd ∨ s'.sd = ⟨-1, false⟩ ∨
      s'.sd.status = true) (hsent : s'.sent = s.sent) : NoWindow s' := by
  refine ⟨fun other => ?_, fun hdown => ?_, hsent ▸ h.clean⟩
  · rw [hpcs]
    by_cases hother : other = thread
    · simpa [hother] using hpc
    · rw [Function.update_of_ne hother]
      exact h.noClosing other
  · rcases hsd with hsame | hcleared | hup
    · rw [hsame] at hdown ⊢
      exact h.settled hdown
    · simp [hcleared]
    · simp [hup] at hdown

theorem NoWindow.frame (h : NoWindow s) (hpcs : s'.pc = s.pc) (hsd : s'.sd = s.sd)
    (hsent : s'.sent = s.sent) : NoWindow s' :=
  ⟨hpcs ▸ h.noClosing, hsd ▸ h.settled, hsent ▸ h.clean⟩

theorem NoWindow.step (h : NoWindow s) (hinv : SocketInv s) (hs : PluginStep false s s') :
    NoWindow s' := by
  cases hs with
  | log thread named hpc =>
      simp only [PluginSocket.notifyLog]
      split
      · exact h.goto thread (by simp) rfl (.inl rfl) rfl
      · exact h.frame rfl rfl rfl
  | status thread named hpc =>
      simp only [PluginSocket.notifyStatus]
      split
      · exact h.goto thread (by simp) rfl (.inl rfl) rfl
      · exact h
  | sendInfo thread call hpc =>
      simp only [PluginSocket.sendInfo]
      split
      · exact h.goto thread (by simp) rfl (.inl rfl) rfl
      · exact h.goto thread (by simp) rfl (.inl rfl) rfl
  | send thread call whole hpc hfree =>
      have hreturned : NoWindow (s.sendReturns thread call
          (if s.target.isSome && whole then 0 else -1)) :=
        h.goto thread (by simp) rfl (.inl rfl) rfl
      refine ⟨hreturned.noClosing, hreturned.settled, fun hmem => ?_⟩
      rcases List.mem_append.mp hmem with hold | hnew
      · exact h.clean hold
      · have htarget : s.target = some .server := (List.mem_singleton.mp hnew).symm
        cases hinv.sendsTo with
        | connection c hcurrent hc => simp [htarget] at hc
        | nothing hcurrent hnone => simp [htarget] at hnone
        | stale hcurrent _ hclosed =>
            have hsocket := h.settled (hinv.down hcurrent).1
            simp [PluginSocket.target, hsocket] at htarget
  | busy thread call hpc => exact h.goto thread (by simp) rfl (.inl rfl) rfl
  | enable thread command hpc hcommand => exact h.frame rfl rfl rfl
  | enableReconnect thread command hallowed hpc hcommand => cases hallowed
  | closeSock thread hpc hfree => exact absurd hpc (h.noClosing thread)
  | clearSock thread hpc hfree => exact h.goto thread (by simp) rfl (.inr (.inl rfl)) rfl
  | socketFails thread hpc => exact h.goto thread (by simp) rfl (.inl rfl) rfl
  | openSocket thread fd hpc hfd => exact h.goto thread (by simp) rfl (.inl rfl) rfl
  | refuse thread fd n hpc => exact h.goto thread (by simp) rfl (.inl rfl) rfl
  | timeOut thread fd n hpc => exact h.goto thread (by simp) rfl (.inl rfl) rfl
  | connected thread fd n hpc => exact h.goto thread (by simp) rfl (.inr (.inr rfl)) rfl
  | serverOpens fd hfd => exact h.frame rfl rfl rfl
  | serverCloses fd hfd => exact h.frame rfl rfl rfl

end NoWindow

/-- Records can go to descriptors of the server if and only if the server may be asked to
reconnect. -/
theorem never_misdirected_iff (reconnects : Bool) :
    (∀ s, PluginReachable reconnects s → some .server ∉ s.sent) ↔ reconnects = false := by
  constructor
  · intro hclean
    cases hallowed : reconnects with
    | false => rfl
    | true =>
        subst hallowed
        have hreused := windowSocket_reachable.step (.serverOpens windowSocket 3 rfl)
        have hsent := hreused.step (.send _ 1 .sendInfoBegin true rfl rfl)
        refine absurd ?_ (hclean _ hsent)
        decide
  · rintro rfl s ⟨own, hrun⟩
    have hkeeps : SocketInv s ∧ NoWindow s := by
      induction hrun with
      | refl => exact ⟨.init own, .init own⟩
      | tail _ hs ih => exact ⟨ih.1.step hs, ih.2.step ih.1 hs⟩
    exact hkeeps.2.clean

end DbGovernor
