import DevConsole.Query.Basic

/-!
The canonical text of a query. Every argument is written in quotes, links are set off by blanks,
and nothing is left out but comments, spare blanks and a trailing link.
-/

namespace DevConsole

/-! ### Quoted text -/

/-- Whether `c` stands for itself inside quotes only after a backslash. -/
def needsBackslash (c : Char) : Bool := c == '"' || c == '\\' || c == '{'

/-- The characters as they are written inside quotes. -/
def escapeChars (cs : List Char) : List Char :=
  cs.flatMap fun c => if needsBackslash c then ['\\', c] else [c]

def escapeLiteral (text : String) : String := String.ofList (escapeChars text.toList)

/-- The text as a quoted argument. -/
def quote (text : String) : String := "\"" ++ escapeLiteral text ++ "\""

/-! ### Clauses -/

/-- The text of a part, inside quotes. -/
def Part.text : Part → String
  | .literal text _ => escapeLiteral text
  | .reference name _ => "\x7b" ++ name ++ "\x7d"

/-- The quoted text of an argument. -/
def Argument.text (a : Argument) : String := "\"" ++ String.join (a.parts.map Part.text) ++ "\""

def Invocation.text (call : Invocation) : String :=
  call.name ++ String.join (call.args.map fun a => " " ++ a.text)

def Link.text : Link → String
  | .always => "; "
  | .ifPassed => " & "
  | .ifFailed => " | "

/-- The text of a chain; `joined` tells whether its first clause follows another one. -/
def Chain.text (joined : Bool) : Chain → String
  | .nil => ""
  | .command link call rest => (if joined then link.text else "") ++ call.text ++ rest.text true
  | .group link _ body rest =>
    (if joined then link.text else "") ++ "(" ++ body.text false ++ ")" ++ rest.text true

/-- The canonical text of a query. -/
def Query.text (q : Query) : String := q.clauses.text false

end DevConsole
