import DevConsole.Query.SyntaxError

/-!
Errors that abort a query. An error may have arisen inside the body of an alias or inside a query
that a command ran; it then carries the name and the text of each of these, so that its place is
shown in the text it belongs to.
-/

namespace DevConsole

/-- A reference to a variable that is not there; the offset is that of the opening brace. -/
structure ReferenceError where
  name : String
  offset : Nat
  deriving DecidableEq, Repr

namespace ReferenceError

/-- The number of characters of the reference, braces included. -/
def length (e : ReferenceError) : Nat := e.name.length + 2

def message (e : ReferenceError) : String :=
  s!"reference error at {e.offset}: '{e.name}' is not defined"

/-- The place of the error in `source`. -/
def render (e : ReferenceError) (source : String) : String := renderSpan source e.offset e.length

end ReferenceError

/-- What aborts a query. -/
inductive QueryError
  | malformed (e : SyntaxError)
  | undefined (e : ReferenceError)
  /-- A query named `name` would have run below more than `limit` others. -/
  | tooDeep (name : String) (limit : Nat)
  /-- The error arose in `body`, which ran on behalf of `name`. -/
  | expanding (name body : String) (e : QueryError)
  deriving DecidableEq, Repr

namespace QueryError

/-- The error as one that arose in `body` on behalf of `name`. A recursion limit stays as it is,
so that a runaway expansion is reported once. -/
def within (e : QueryError) (name body : String) : QueryError :=
  match e with
  | tooDeep .. => e
  | _ => expanding name body e

def isTooDeep : QueryError → Bool
  | tooDeep .. => true
  | _ => false

def message : QueryError → String
  | malformed e => e.message
  | undefined e => e.message
  | tooDeep name limit => s!"recursion limit of {limit} exceeded while expanding '{name}'"
  | expanding name _ e => s!"in '{name}': " ++ e.message

/-- The error with its place in `source`, or in the innermost body it arose in. -/
def report (source : String) : QueryError → String
  | malformed e => e.message ++ "\n" ++ e.render source
  | undefined e => e.message ++ "\n" ++ e.render source
  | tooDeep name limit => (tooDeep name limit).message
  | expanding name body e => s!"in '{name}':\n" ++ e.report body

end QueryError

end DevConsole
