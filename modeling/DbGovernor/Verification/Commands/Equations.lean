import DbGovernor.Model.Commands
import DbGovernor.Verification.Shared.KeyedLog

/-! Computation rules for the command list and for the newest command of a user. -/

namespace DbGovernor

/-- The command enqueued last for a user. -/
def lastCommand (u : Username) (log : List Command) : Option CommandT :=
  (KeyedLog.last Command.username u log).map Command.command

/-- `command_list` is allocated. -/
def Globals.Ready (g : Globals) : Prop := g.commandList.isSome

/-- The commands of one broadcast over an account. -/
def broadcast (command : CommandT) (users : List Username) : List Command :=
  users.map fun id => ⟨id, command⟩

theorem Globals.init_ready : Globals.init.Ready := rfl

@[simp] theorem lastCommand_nil (u : Username) : lastCommand u [] = none := rfl

theorem lastCommand_append_singleton (u : Username) (log : List Command) (c : Command) :
    lastCommand u (log ++ [c]) = if c.username = u then some c.command else lastCommand u log := by
  simp only [lastCommand, KeyedLog.last_append_singleton]
  split <;> rfl

@[simp] theorem lastCommand_broadcast (u : Username) (log : List Command) (command : CommandT)
    (users : List Username) :
    lastCommand u (log ++ broadcast command users) =
      if u ∈ users then some command else lastCommand u log := by
  rw [lastCommand, broadcast, KeyedLog.last_append_map Command.username u log users _ fun _ => rfl]
  split <;> rfl

theorem lastCommand_append_of_ne (u : Username) (log cmds : List Command)
    (h : ∀ c ∈ cmds, c.username ≠ u) : lastCommand u (log ++ cmds) = lastCommand u log := by
  rw [lastCommand, KeyedLog.last_append_of_ne Command.username u log cmds h, lastCommand]

theorem mem_broadcast {c : Command} {command : CommandT} {users : List Username} :
    c ∈ broadcast command users ↔ c.username ∈ users ∧ c.command = command := by
  constructor
  · intro h
    obtain ⟨id, hid, rfl⟩ := List.mem_map.mp h
    exact ⟨hid, rfl⟩
  · rintro ⟨hid, rfl⟩
    exact List.mem_map.mpr ⟨c.username, hid, rfl⟩

/-! ### Appending -/

theorem gListAppend_ready (cmd : Command) (g : Globals) (h : g.Ready) :
    (gListAppend cmd g).Ready := by
  obtain ⟨l, hl⟩ := Option.isSome_iff_exists.mp h
  simp [gListAppend, hl, Globals.Ready]

theorem gListAppend_enqueued (cmd : Command) (g : Globals) (h : g.Ready) :
    (gListAppend cmd g).enqueued = g.enqueued ++ [cmd] := by
  obtain ⟨l, hl⟩ := Option.isSome_iff_exists.mp h
  simp [gListAppend, hl]

/-- On an allocated list the loop enqueues one command for each user, in their order. -/
theorem enqueueUsers_spec (command : CommandT) (users : List Username) (g : Globals)
    (h : g.Ready) :
    (enqueueUsers command users g).Ready ∧
      (enqueueUsers command users g).enqueued = g.enqueued ++ broadcast command users := by
  induction users generalizing g with
  | nil => exact ⟨h, by simp [enqueueUsers, broadcast]⟩
  | cons id users ih =>
      obtain ⟨hr, he⟩ := ih (gListAppend ⟨id, command⟩ g) (gListAppend_ready _ g h)
      refine ⟨hr, ?_⟩
      change (enqueueUsers command users (gListAppend ⟨id, command⟩ g)).enqueued = _
      rw [he, gListAppend_enqueued _ g h]
      simp [broadcast]

/-! ### Restricting and releasing an account -/

/-- The flags under which restricted users are put into an LVE: `use_lve` without `all_lve`,
with the LVE library present. -/
structure GovernorConfig.Enforcing (cfg : GovernorConfig) : Prop where
  useLve : cfg.useLve = true
  allLve : cfg.allLve = false
  isGpl : cfg.isGpl = false

theorem shippedConfig_enforcing (restrictMode : Bool) : (shippedConfig restrictMode).Enforcing :=
  ⟨rfl, rfl, rfl⟩

variable {cfg : GovernorConfig}

theorem accountRestrict_eq (h : cfg.Enforcing) (ac : Account) (g : Globals) :
    accountRestrict cfg ac g = enqueueUsers .freeze ac.users g := by
  simp [accountRestrict, h.useLve, h.allLve, h.isGpl]

theorem accountUnrestrict_eq (h : cfg.Enforcing) (ac : Account) (g : Globals) :
    accountUnrestrict cfg ac g = enqueueUsers .unfreeze ac.users g := by
  simp [accountUnrestrict, h.useLve, h.allLve, h.isGpl]

end DbGovernor
