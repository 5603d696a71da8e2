import DbGovernor.Model.Daemon
import Mathlib.Logic.Relation

/-!
# The limits that the server goes by

What `send_commands` writes to `mysql.user` is in force from the next `FLUSH PRIVILEGES` on, which
`send_commands_cycle_in` sends at its end.
-/

namespace DbGovernor

/-- `is_any_flush` after a call of `send_commands`. -/
def sendCommandsFlush (cfg : GovernorConfig) (userMap : Option (HashTable UserMap)) (m : MysqlSide)
    (isAnyFlush : Bool) : Option Command → Bool
  | none => isAnyFlush
  | some cmd =>
      match cmd.command with
      | .freeze =>
          if cfg.useLve then
            let r := addUserToList true m.badList cmd.username cfg.allLve
              (getUid userMap cmd.username)
            if r.1 < 0 then isAnyFlush
            else if cfg.maxUserConnections ≠ 0 then true else isAnyFlush
          else isAnyFlush
      | .unfreeze => if cfg.maxUserConnections ≠ 0 then true else isAnyFlush
      | _ => isAnyFlush

/-- Where the thread of `send_commands_cycle_in` stands, with its `data_cfg`. -/
inductive CycleInPc where
  | created
  | passing (dataCfg : GovernorConfig)
  | flushed

/-- The daemon and the server. `inForce` are the `max_user_connections` that the server goes by. -/
structure PrivilegeWorld where
  world : World
  isAnyFlush : Bool
  pc : CycleInPc
  inForce : Username → ℕ

def PrivilegeWorld.init (cfg : GovernorConfig) : PrivilegeWorld where
  world := .init cfg
  isAnyFlush := false
  pc := .created
  inForce := fun _ => 0

/-- The start of `send_commands_cycle_in`. -/
def PrivilegeWorld.begin (s : PrivilegeWorld) : PrivilegeWorld :=
  { s with pc := .passing s.world.cfg, isAnyFlush := false }

/-- A visit of `send_commands_cycle_in`. -/
def PrivilegeWorld.work (cmd : Option Command) (rest : GList) (s : PrivilegeWorld) :
    PrivilegeWorld :=
  { s with
    world := workOn cmd rest s.world
    isAnyFlush :=
      sendCommandsFlush s.world.cfg s.world.userMap s.world.mysql s.isAnyFlush cmd }

/-- The call of `flush_user_priv` in `send_commands_cycle_in`, or none. -/
def PrivilegeWorld.flush (dataCfg : GovernorConfig) (s : PrivilegeWorld) : PrivilegeWorld :=
  { s with
    pc := .flushed
    inForce :=
      if dataCfg.maxUserConnections ≠ 0 ∧ s.isAnyFlush then s.world.mysql.userLimits
      else s.inForce }

/-- The end of `send_commands_cycle_in`. -/
def PrivilegeWorld.finish (s : PrivilegeWorld) : PrivilegeWorld :=
  { s with
    world := { s.world with sender := finishWorker s.world.sender }
    isAnyFlush := false
    pc := .created }

/-- The steps, where `step` are those of the daemon. The visits and the end of
`send_commands_cycle_in` are told apart from them; somebody else may send `FLUSH PRIVILEGES`. -/
inductive PrivilegeStep (step : World → World → Prop) : PrivilegeWorld → PrivilegeWorld → Prop where
  | other (s w') (hstep : step s.world w')
      (hworker : s.world.sender.worker = none ∨ w'.sender.worker = s.world.sender.worker) :
      PrivilegeStep step s { s with world := w' }
  | begin (s) (hworker : s.world.sender.worker.isSome) (hpc : s.pc = .created) :
      PrivilegeStep step s s.begin
  | work (s cmd rest dataCfg) (hworker : s.world.sender.worker = some (cmd :: rest))
      (hpc : s.pc = .passing dataCfg) (hstep : step s.world (workOn cmd rest s.world)) :
      PrivilegeStep step s (s.work cmd rest)
  | flush (s dataCfg) (hworker : s.world.sender.worker = some []) (hpc : s.pc = .passing dataCfg) :
      PrivilegeStep step s (s.flush dataCfg)
  | finish (s) (hworker : s.world.sender.worker = some []) (hpc : s.pc = .flushed)
      (hstep : step s.world { s.world with sender := finishWorker s.world.sender }) :
      PrivilegeStep step s s.finish
  | reload (s) : PrivilegeStep step s { s with inForce := s.world.mysql.userLimits }

/-- The states of the daemon and the server. -/
def PrivilegeReachable (step : World → World → Prop) (cfg : GovernorConfig) : PrivilegeWorld → Prop :=
  Relation.ReflTransGen (PrivilegeStep step) (.init cfg)

end DbGovernor
