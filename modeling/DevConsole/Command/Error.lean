import DevConsole.Command.Registry
import DevConsole.Config.Snapshot
import DevConsole.Query.QueryError
import DevConsole.Variable.Store

/-!
How commands fail, and how a failed invocation is reported.
-/

namespace DevConsole

inductive CommandError
  /-- An argument is missing. -/
  | usage (command arguments : String)
  | store (e : StoreError)
  | registry (e : RegistryError)
  | config (e : ConfigError)
  /-- A text that was to become a query has a fault. -/
  | query (e : SyntaxError) (source : String)
  /-- A text is no value of the kind that was asked for. -/
  | value (e : CastError)
  | aliasNotFound (name : String)
  | notBound (key : String)
  | cannotToggle (name : String)
  | unknownName (name : String)
  | unreadableScript (file : String) (e : FileError)
  | failedLines (count : Nat) (file : String)
  /-- The host's handler fails in its own words. -/
  | described (message : String)
  /-- The handler panicked. -/
  | panicked (p : Panic)
  deriving DecidableEq, Repr

def CommandError.message : CommandError → String
  | usage command arguments => s!"Usage: {command} {arguments}"
  | store e => e.message
  | registry e => e.message
  | config e => e.message
  | query e source => e.message ++ "\n" ++ e.render source
  | value e => e.message
  | aliasNotFound name => s!"Alias '{name}' not found"
  | notBound key => s!"'{key}' is not bound"
  | cannotToggle name => s!"Cannot toggle '{name}': not a boolean or integer"
  | unknownName name => s!"Unknown command or variable: '{name}'"
  | unreadableScript file e => s!"Failed to read '{file}': " ++ e.message
  | failedLines count file => s!"{count} line(s) of '{file}' failed"
  | described message => message
  | panicked p => "panicked: " ++ p.message

/-- How a handler ends. -/
inductive Ending
  | passed
  | refused (e : CommandError)
  | panicked (p : Panic)
  deriving DecidableEq, Repr

/-- How a handler ends that does nothing after an assignment. -/
def Ending.ofAssignError : AssignError → Ending
  | .refused e => .refused (.store e)
  | .panicked p => .panicked p

inductive InvocationError
  | command (name : String) (e : CommandError)
  | notFound (name : String)
  /-- There are arguments but no name. -/
  | missingName
  deriving DecidableEq, Repr

def InvocationError.message : InvocationError → String
  | command name e => name ++ ": " ++ e.message
  | notFound name => s!"Unknown command or variable: '{name}'"
  | missingName => "Missing command name before arguments"

end DevConsole
