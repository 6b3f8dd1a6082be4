import DevConsole.Text.Lines

/-!
Console output: messages with their levels, and a buffer that drops its oldest elements for new
ones.
-/

namespace DevConsole

inductive Level
  | debug
  | info
  | warn
  | error
  /-- The echo of a submitted query. -/
  | command
  /-- A value that was asked for. -/
  | result
  deriving DecidableEq, Repr, Inhabited

def Level.tag : Level → String
  | debug => "[DEBUG]"
  | info => "[INFO]"
  | warn => "[WARN]"
  | error => "[ERROR]"
  | command => "[$]"
  | result => "[>]"

/-- A message with its level. -/
structure OutputLine where
  level : Level
  message : String
  deriving DecidableEq, Repr

/-- The lines of the message behind the tag of its level; all but the first are indented by as
much, so that carets stay where they belong. -/
def OutputLine.tagged (o : OutputLine) : List String :=
  let indent := String.ofList (List.replicate o.level.tag.length ' ')
  match Text.lines o.message with
  | [] => []
  | first :: rest => (o.level.tag ++ " " ++ first) :: rest.map fun line => indent ++ " " ++ line

/-! ### Buffers -/

/-- The list with one more element at its end, after its oldest one has been dropped if it already
had `capacity` of them. -/
def pushBounded {α : Type} (capacity : Nat) (xs : List α) (x : α) : List α :=
  (if capacity ≤ xs.length then xs.drop 1 else xs) ++ [x]

end DevConsole
