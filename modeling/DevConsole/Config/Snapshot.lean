import DevConsole.NameMap
import DevConsole.Config.Files

/-!
What a configuration holds: texts of variables, aliases and bindings of keys.
-/

namespace DevConsole

structure Snapshot where
  /-- Texts of values by variable. -/
  values : NameMap String := .empty
  /-- Queries by alias. -/
  aliases : NameMap String := .empty
  /-- Queries by key. -/
  binds : NameMap String := .empty

inductive ConfigError
  | file (path : String) (e : FileError)
  /-- The text is no configuration. -/
  | unreadable (path : String)
  deriving DecidableEq, Repr

def ConfigError.message : ConfigError → String
  | file path e => s!"IO error for '{path}': " ++ e.message
  | unreadable path => s!"Parse error for '{path}'"

end DevConsole
