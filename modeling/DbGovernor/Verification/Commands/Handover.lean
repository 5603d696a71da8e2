import DbGovernor.Verification.Commands.Equations
import DbGovernor.Verification.Shared.Runs
import Mathlib.Data.List.ReduceOption

/-!
# The hand-over of commands

The deciding threads append to `command_list`; the tick thread copies it and allocates a
new one in two sections; a worker passes over the copy. Nothing is lost, repeated or
reordered as long as no append falls between the two sections.
-/

namespace DbGovernor

/-- A section of one of the threads. -/
inductive HandoverEvent where
  | append (cmd : Command)
  | copy
  | reinit
  | spawn
  | work
  | finish
deriving DecidableEq

/-- One section; where the thread that owns it stands elsewhere, nothing happens. -/
def HandoverEvent.apply (s : Globals × Sender) : HandoverEvent → Globals × Sender
  | .append cmd => (gListAppend cmd s.1, s.2)
  | .copy =>
      if s.2.pc = .idle ∧ s.2.isSendCommandCycle = false then (s.1, copySection s.1 s.2) else s
  | .reinit =>
      if s.2.pc = .copied then (reinitCommandList s.1, { s.2 with pc := .reinited }) else s
  | .spawn => if s.2.pc = .reinited then (s.1, spawnWorker s.2) else s
  | .work =>
      match s.2.worker with
      | some (cmd :: rest) => (s.1, visitCommand cmd rest s.2)
      | _ => s
  | .finish =>
      match s.2.worker with
      | some [] => (s.1, finishWorker s.2)
      | _ => s

/-- The commands in `command_list`. -/
def Globals.listed (g : Globals) : List Command := (g.commandList.getD []).reduceOption

/-- The commands in the unprocessed part of `command_list_send`. -/
def Sender.unsent (s : Sender) : List Command :=
  match s.worker with
  | some rest => rest.reduceOption
  | none => if s.pc = .idle then [] else s.commandListSend.reduceOption

/-- The executed commands are the first of the appended ones, and those that are left are
still in one of the two lists, in their order. -/
def Delivered (s : Globals × Sender) : Prop :=
  ∃ rest, s.1.enqueued = s.2.executed ++ rest ∧ rest.Sublist (s.2.unsent ++ s.1.listed)

/-- An append between the copy section and the reinit section. -/
def LateAppend (s : Globals × Sender) : HandoverEvent → Prop
  | .append _ => s.2.pc = .copied
  | _ => False

instance (s : Globals × Sender) : ∀ e, Decidable (LateAppend s e)
  | .append _ => inferInstanceAs (Decidable (_ = _))
  | .copy | .reinit | .spawn | .work | .finish => inferInstanceAs (Decidable False)

/-! ### The phases of the hand-over -/

/-- What is where in each phase. -/
inductive HandoverPhase (g : Globals) (s : Sender) : Prop where
  | waiting (pc : s.pc = .idle) (worker : s.worker = none)
      (log : g.enqueued = s.executed ++ g.listed)
  | copied (pc : s.pc = .copied) (worker : s.worker = none)
      (busy : s.isSendCommandCycle = true)
      (same : s.commandListSend.reduceOption = g.listed)
      (log : g.enqueued = s.executed ++ g.listed)
  | reinited (pc : s.pc = .reinited) (worker : s.worker = none)
      (busy : s.isSendCommandCycle = true)
      (log : g.enqueued = s.executed ++ (s.commandListSend.reduceOption ++ g.listed))
  | sending (pc : s.pc = .idle) (rest : GList) (worker : s.worker = some rest)
      (busy : s.isSendCommandCycle = true)
      (log : g.enqueued = s.executed ++ (rest.reduceOption ++ g.listed))

structure HandoverInv (s : Globals × Sender) : Prop where
  ready : s.1.Ready
  phase : HandoverPhase s.1 s.2

theorem HandoverInv.init : HandoverInv (.init, .init) :=
  ⟨Globals.init_ready, .waiting rfl rfl rfl⟩

theorem HandoverInv.delivered {s : Globals × Sender} (h : HandoverInv s) : Delivered s := by
  cases h.phase with
  | waiting hpc hw hlog => exact ⟨_, hlog, by simp [Sender.unsent, hpc, hw]⟩
  | copied hpc hw _ _ hlog => exact ⟨_, hlog, List.sublist_append_right _ _⟩
  | reinited hpc hw _ hlog => exact ⟨_, hlog, by simp [Sender.unsent, hpc, hw]⟩
  | sending hpc rest hw _ hlog => exact ⟨_, hlog, by simp [Sender.unsent, hw]⟩

/-! ### Sections -/

theorem listed_gListAppend (cmd : Command) (g : Globals) (h : g.Ready) :
    (gListAppend cmd g).listed = g.listed ++ [cmd] := by
  obtain ⟨l, hl⟩ := Option.isSome_iff_exists.mp h
  simp [Globals.listed, gListAppend, hl, List.reduceOption_append]

theorem reduceOption_copyCommands (l send : GList) :
    (copyCommands l send).reduceOption = send.reduceOption ++ l.reduceOption := by
  induction l generalizing send with
  | nil => simp [copyCommands]
  | cons cmd l ih =>
      cases cmd with
      | none => simpa [copyCommands] using ih send
      | some c => simpa [copyCommands, List.reduceOption_append] using ih (send ++ [some c])

theorem reduceOption_copySection (g : Globals) (s : Sender) :
    (copySection g s).commandListSend.reduceOption = g.listed := by
  cases hl : g.commandList with
  | none => simp [copySection, Globals.listed, hl, gListAlloc]
  | some l => simp [copySection, Globals.listed, hl, gListAlloc, reduceOption_copyCommands]

theorem listed_reinitCommandList (g : Globals) : (reinitCommandList g).listed = [] := by
  simp [Globals.listed, reinitCommandList, gListAlloc]

section Steps

variable {s : Globals × Sender}

/-- Commands that are appended outside the two sections do not disturb the hand-over. -/
theorem HandoverInv.extend (h : HandoverInv s) {g : Globals} {cmds : List Command}
    (hready : g.Ready) (hlist : g.listed = s.1.listed ++ cmds)
    (hlog : g.enqueued = s.1.enqueued ++ cmds) (hpc : s.2.pc ≠ .copied) :
    HandoverInv (g, s.2) := by
  refine ⟨hready, ?_⟩
  cases h.phase with
  | waiting hp hw hold =>
      refine .waiting hp hw ?_
      simp [hlist, hlog, hold]
  | copied hp _ _ _ _ => exact absurd hp hpc
  | reinited hp hw hb hold =>
      refine .reinited hp hw hb ?_
      simp [hlist, hlog, hold]
  | sending hp rest hw hb hold =>
      refine .sending hp rest hw hb ?_
      simp [hlist, hlog, hold]

theorem HandoverInv.append (h : HandoverInv s) (cmd : Command) (hpc : s.2.pc ≠ .copied) :
    HandoverInv (HandoverEvent.apply s (.append cmd)) :=
  h.extend (gListAppend_ready cmd s.1 h.ready) (listed_gListAppend cmd s.1 h.ready)
    (gListAppend_enqueued cmd s.1 h.ready) hpc

theorem HandoverInv.copy (h : HandoverInv s) : HandoverInv (HandoverEvent.apply s .copy) := by
  rw [HandoverEvent.apply]
  split
  · rename_i hidle
    refine ⟨h.ready, ?_⟩
    cases h.phase with
    | waiting hp hw hold =>
        exact .copied rfl hw rfl (reduceOption_copySection s.1 s.2) hold
    | copied hp _ _ _ _ => simp [hp] at hidle
    | reinited hp _ _ _ => simp [hp] at hidle
    | sending _ _ _ hb _ => simp [hb] at hidle
  · exact h

theorem HandoverInv.reinit (h : HandoverInv s) : HandoverInv (HandoverEvent.apply s .reinit) := by
  rw [HandoverEvent.apply]
  split
  · rename_i hcopied
    refine ⟨rfl, ?_⟩
    cases h.phase with
    | copied hp hw hb hsame hold =>
        refine .reinited rfl hw hb ?_
        have hkept : (reinitCommandList s.1).enqueued = s.2.executed ++ s.1.listed := hold
        simpa [listed_reinitCommandList, hsame] using hkept
    | waiting hp _ _ => simp [hp] at hcopied
    | reinited hp _ _ _ => simp [hp] at hcopied
    | sending hp _ _ _ _ => simp [hp] at hcopied
  · exact h

theorem HandoverInv.spawn (h : HandoverInv s) : HandoverInv (HandoverEvent.apply s .spawn) := by
  rw [HandoverEvent.apply]
  split
  · rename_i hreinited
    refine ⟨h.ready, ?_⟩
    cases h.phase with
    | reinited hp hw hb hold =>
        rw [spawnWorker]
        split
        · exact .sending rfl s.2.commandListSend rfl hb hold
        · rename_i hempty
          have hnil : s.2.commandListSend = [] := List.length_eq_zero_iff.mp (by omega)
          refine .waiting rfl hw ?_
          simpa [hnil] using hold
    | waiting hp _ _ => simp [hp] at hreinited
    | copied hp _ _ _ _ => simp [hp] at hreinited
    | sending hp _ _ _ _ => simp [hp] at hreinited
  · exact h

theorem HandoverInv.work (h : HandoverInv s) : HandoverInv (HandoverEvent.apply s .work) := by
  rw [HandoverEvent.apply]
  split
  · rename_i cmd rest hworker
    refine ⟨h.ready, ?_⟩
    cases h.phase with
    | sending hp rest' hw hb hold =>
        obtain rfl : rest' = cmd :: rest := Option.some.inj (hw.symm.trans hworker)
        refine .sending hp rest rfl hb ?_
        cases cmd <;> simpa [visitCommand] using hold
    | waiting _ hw _ => simp [hw] at hworker
    | copied _ hw _ _ _ => simp [hw] at hworker
    | reinited _ hw _ _ => simp [hw] at hworker
  · exact h

theorem HandoverInv.finish (h : HandoverInv s) : HandoverInv (HandoverEvent.apply s .finish) := by
  rw [HandoverEvent.apply]
  split
  · rename_i hworker
    refine ⟨h.ready, ?_⟩
    cases h.phase with
    | sending hp rest hw hb hold =>
        obtain rfl : rest = [] := Option.some.inj (hw.symm.trans hworker)
        refine .waiting hp rfl ?_
        simpa [finishWorker] using hold
    | waiting _ hw _ => simp [hw] at hworker
    | copied _ hw _ _ _ => simp [hw] at hworker
    | reinited _ hw _ _ => simp [hw] at hworker
  · exact h

theorem HandoverInv.step (h : HandoverInv s) (e : HandoverEvent) (hlate : ¬ LateAppend s e) :
    HandoverInv (e.apply s) := by
  cases e with
  | append cmd => exact h.append cmd hlate
  | copy => exact h.copy
  | reinit => exact h.reinit
  | spawn => exact h.spawn
  | work => exact h.work
  | finish => exact h.finish

end Steps

/-! ### Delivery -/

/-- In every interleaving without a late append, every command is delivered in order. -/
theorem delivered_of_no_late_append (events : List HandoverEvent)
    (h : Runs.Meets HandoverEvent.apply (fun s e => ¬ LateAppend s e) (.init, .init) events) :
    Delivered (events.foldl HandoverEvent.apply (.init, .init)) :=
  (h.invariant (fun _ e hs he => hs.step e he) HandoverInv.init).delivered

/-- A hand-over with appends before its first and after its second section. -/
theorem delivered_of_no_late_append_sample :
    Delivered ([.append ⟨strlcpy [117], .freeze⟩, .copy, .reinit,
      .append ⟨strlcpy [117], .unfreeze⟩, .spawn, .work, .work, .finish].foldl
        HandoverEvent.apply (.init, .init)) :=
  delivered_of_no_late_append _ (by decide)

/-- A FREEZE appended between the two sections is freed with the old list. -/
theorem late_append_lost :
    ¬ ∀ events : List HandoverEvent,
      Delivered (events.foldl HandoverEvent.apply (.init, .init)) := by
  intro h
  obtain ⟨rest, hlog, hsub⟩ := h [.copy, .append ⟨strlcpy [117], .freeze⟩, .reinit, .spawn,
    .work, .finish]
  have hrest : rest = [] := List.sublist_nil.mp hsub
  rw [hrest] at hlog
  exact absurd hlog (by decide)

end DbGovernor
