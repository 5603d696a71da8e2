import DbGovernor.Model.Config

/-!
# The command list

`command_list` is NULL until `reinit_command_list` allocates it; the allocation leaves
one node without data in front, which every traversal skips.
-/

namespace DbGovernor

/-- A `GList` of commands with the data pointers of its nodes. -/
abbrev GList := List (Option Command)

/-- `g_list_alloc`: one node without data. -/
def gListAlloc : GList := [none]

structure StatisticsRestrictInfo where
  numberOfRestricts : ℕ
  causeOfRestricts : ℕ
deriving DecidableEq

/-- The statics that a decision about an account writes. `enqueued` is a history of every
command ever appended to `command_list`; no code reads it. -/
structure Globals where
  commandList : Option GList
  dbGovNumberOfRestricts : Option (HashTable StatisticsRestrictInfo)
  enqueued : List Command

/-- The statics after start-up: `get_data_from_client` has called `reinit_command_list`. -/
def Globals.init : Globals := ⟨some gListAlloc, none, []⟩

/-- The section that appends one command, guarded by `if (command_list)`. -/
def gListAppend (cmd : Command) (g : Globals) : Globals :=
  match g.commandList with
  | none => g
  | some l => { g with commandList := some (l ++ [some cmd]), enqueued := g.enqueued ++ [cmd] }

/-- The loop over the users of an account, shared by the two functions below. -/
def enqueueUsers (command : CommandT) (users : List Username) (g : Globals) : Globals :=
  users.foldl (fun g id => gListAppend ⟨id, command⟩ g) g

/-- `account_unrestrict`. -/
def accountUnrestrict (cfg : GovernorConfig) (ac : Account) (g : Globals) : Globals :=
  if cfg.isGpl then g
  else if cfg.allLve then g
  else if !cfg.useLve && !cfg.separateLve then g
  else enqueueUsers .unfreeze ac.users g

/-- `account_restrict`, without the query log and the trigger script. -/
def accountRestrict (cfg : GovernorConfig) (ac : Account) (g : Globals) : Globals :=
  if cfg.isGpl then g
  else if cfg.allLve || !cfg.useLve then g
  else enqueueUsers .freeze ac.users g

/-- Where the tick thread stands in `send_commands_cycle`. -/
inductive CyclePc where
  | idle | copied | reinited
deriving DecidableEq, Repr

/-- The sending side. `worker` is the part of `command_list_send` that the running
`send_commands_cycle_in` has yet to visit, and `executed` a history of its calls of
`send_commands`. -/
structure Sender where
  commandListSend : GList
  isSendCommandCycle : Bool
  pc : CyclePc
  worker : Option GList
  executed : List Command

def Sender.init : Sender := ⟨gListAlloc, false, .idle, none, []⟩

/-- `copy_commands` over a list: only nodes with data are copied. -/
def copyCommands (l send : GList) : GList :=
  l.foldl (fun send cmd => match cmd with
    | none => send
    | some c => send ++ [some c]) send

/-- `reinit_command_list`. -/
def reinitCommandList (g : Globals) : Globals := { g with commandList := some gListAlloc }

/-- `send_commands_cycle` up to the end of the copy section of `send_command_copy_list`;
it is entered with the busy flag down. -/
def copySection (g : Globals) (s : Sender) : Sender :=
  { s with
    isSendCommandCycle := true
    commandListSend := match g.commandList with
      | none => gListAlloc
      | some l => copyCommands l gListAlloc
    pc := .copied }

/-- The end of `send_commands_cycle`: a worker is created unless the list is empty. -/
def spawnWorker (s : Sender) : Sender :=
  if s.commandListSend.length > 0 then
    { s with worker := some s.commandListSend, pc := .idle }
  else { s with isSendCommandCycle := false, pc := .idle }

/-- One visit of the worker's pass over `command_list_send`. -/
def visitCommand (cmd : Option Command) (rest : GList) (s : Sender) : Sender :=
  { s with worker := some rest, executed := s.executed ++ cmd.toList }

/-- The end of `send_commands_cycle_in`. -/
def finishWorker (s : Sender) : Sender :=
  { s with isSendCommandCycle := false, worker := none }

end DbGovernor
