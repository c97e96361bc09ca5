import ZfsBoot.Tool.EspCmd

/-!
# `ZfsBoot.Tool.Command`: the commands that write

The commands of the tool that write to an ESP or to a disk, with what the operator gives them. `yes`
is the option that skips a question, `answer` is the answer where it is asked.
-/

set_option autoImplicit false

namespace ZfsBoot.Tool.Mirror

/-- `esp add`, `esp remove` and `esp adopt`. -/
inductive SetCommand where
  | add (o : HostOpts) (arg : Bytes) (yes answer : Bool)
  | remove (o : HostOpts) (arg : Bytes) (yes answer : Bool)
  | adopt (args : List Bytes) (yes forceAdopt : Bool)

/-- A run of it: the exit status. -/
def SetCommand.run {ε : Type} (env : Machine) : SetCommand → ToolM ε Nat
  | .add o arg yes answer => runEspAdd env o arg yes answer
  | .remove o arg yes answer => runEspRemove env o arg yes answer
  | .adopt args yes forceAdopt => runEspAdopt env args yes forceAdopt

/-- All commands that write; `integrity` and `int13chunk` are settings. -/
inductive Command where
  | update (o : UpdateOpts)
  | setting (o : HostOpts) (st : Setting)
  | change (c : SetCommand)

/-- A run of it: the exit status. -/
def Command.run {ε : Type} (env : Machine) : Command → ToolM ε Nat
  | .update o => runUpdate env o
  | .setting o st => forEachMember env o st
  | .change c => c.run env

end ZfsBoot.Tool.Mirror
