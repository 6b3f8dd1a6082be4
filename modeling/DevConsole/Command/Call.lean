import DevConsole.NameMap
import DevConsole.Variable.Store

/-!
Calls of commands: the name and the arguments after substitution, and how a handler reads them.
-/

namespace DevConsole

/-- What a handler is called with. -/
structure Call where
  /-- The name the command was invoked by. -/
  name : String
  args : List String
  /-- Whether no argument referred to a variable. -/
  constant : Bool := true
  deriving DecidableEq, Repr

namespace Call

def size (call : Call) : Nat := call.args.length

def get? (call : Call) (index : Nat) : Option String := call.args[index]?

def getD (call : Call) (index : Nat) (default : String) : String := call.args.getD index default

def read? (call : Call) (k : Kind) (index : Nat) : Option k.Value :=
  (call.get? index).bind k.read?

/-- The argument at an index, if it is a single character. -/
def char? (call : Call) (index : Nat) : Option Char :=
  match (call.get? index).map String.toList with
  | some [c] => some c
  | _ => none

/-- The arguments from an index on, with `separator` between them. -/
def joinFrom (call : Call) (index : Nat) (separator : String) : String :=
  separator.intercalate (call.args.drop index)

def join (call : Call) (separator : String) : String := call.joinFrom 0 separator

end Call

end DevConsole
