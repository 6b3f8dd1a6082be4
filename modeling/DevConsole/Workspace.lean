import DevConsole.Command.Alias
import DevConsole.Command.Binds
import DevConsole.Config.Files
import DevConsole.Output
import DevConsole.Variable.Store

/-!
What commands work on: variables, commands, aliases, bindings, output, and the world outside. A
command is run by one of the console's own handlers or by one of the host's, which are named by
values of `κ`; `ε` is the state that the host keeps in the world.
-/

namespace DevConsole

/-! ### Handlers -/

/-- The console's own handlers. -/
inductive Builtin
  | assign
  | echo
  /-- Defines, shows or lists aliases. -/
  | editAlias
  | removeAlias
  | declare
  | undeclare
  | toggle
  | reset
  | listVariables
  | listCommands
  | help
  | find
  | differences
  /-- Binds a key or shows its binding. -/
  | editBind
  | removeBind
  | clearBinds
  /-- Saves the configuration, to this file unless another one is given. -/
  | saveConfig (path : String)
  | runScript
  deriving DecidableEq, Repr

/-- What runs a command. -/
inductive Handler (κ : Type)
  | builtin (b : Builtin)
  | host (k : κ)
  deriving Repr

/-! ### The world and the workspace -/

/-- What lies outside of the console. -/
structure World (ε : Type) where
  files : Files := {}
  /-- Whether something that is saved has changed since the last time it was saved. -/
  dirty : Bool := false
  host : ε

/-- The hook that marks the world as changed. -/
def World.markDirty {ε : Type} : SaveHook (World ε) := fun _ _ w => { w with dirty := true }

/-- What commands read and change. -/
structure Workspace (κ ε : Type) where
  vars : Store (World ε) := {}
  commands : Commands (Handler κ) := {}
  aliases : Aliases := {}
  binds : Binds := {}
  /-- The number of output lines, and of changes, that are kept until they are taken. -/
  capacity : Nat := 4096
  /-- The output that has not been taken, oldest first. -/
  output : List OutputLine := []
  world : World ε

namespace Workspace

variable {κ ε : Type}

/-! ### Output -/

def print (w : Workspace κ ε) (level : Level) (message : String) : Workspace κ ε :=
  { w with output := pushBounded w.capacity w.output ⟨level, message⟩ }

def printAll (w : Workspace κ ε) (messages : List String) : Workspace κ ε :=
  messages.foldl (fun w message => w.print .info message) w

/-- The output, and the workspace without it. -/
def takeOutput (w : Workspace κ ε) : List OutputLine × Workspace κ ε :=
  (w.output, { w with output := [] })

/-! ### Variables -/

def assign (w : Workspace κ ε) (name raw : String) (through : Bool) :
    Workspace κ ε × Except AssignError Assigned :=
  let (vars, world, answer) := w.vars.set w.world name raw through
  ({ w with vars, world }, answer)

def reset (w : Workspace κ ε) (name : String) (through : Bool) :
    Workspace κ ε × Except AssignError Assigned :=
  let (vars, world, answer) := w.vars.reset w.world name through
  ({ w with vars, world }, answer)

def keepChanges (w : Workspace κ ε) : Workspace κ ε :=
  { w with vars := w.vars.keepChanges w.capacity }

/-- The workspace after the host has assigned `raw` to a variable. -/
def set (w : Workspace κ ε) (name raw : String) : Workspace κ ε × Except AssignError Assigned :=
  match w.assign name raw true with
  | (w, .error (.panicked p)) => (w, .error (.panicked p))
  | (w, answer) => (w.keepChanges, answer)

def takeChanges (w : Workspace κ ε) : List Change × Workspace κ ε :=
  let (changes, vars) := w.vars.takeChanges
  (changes, { w with vars })

/-- The workspace after the hook has been told of an edit of an alias or a binding. -/
def noteEdit (w : Workspace κ ε) (name text : String) : Workspace κ ε :=
  { w with world := w.vars.tellHook name text w.world }

end Workspace

end DevConsole
