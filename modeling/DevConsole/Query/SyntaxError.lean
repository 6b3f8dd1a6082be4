import DevConsole.Text.Escape

/-!
Faults of a query's text, and how the place of a fault is shown: the line it is in, and carets
under it.
-/

namespace DevConsole

/-! ### The place of a fault -/

/-- The line that holds the position `offset`, with the position of its first character. What is
left starts behind the part `line`, read backwards, of the line that starts at `start`; a line
feed belongs to the line that it ends. -/
def lineAround (offset : Nat) (start : Nat) (line : List Char) : List Char → Nat × List Char
  | [] => (start, line.reverse)
  | '\n' :: rest =>
    if offset ≤ start + line.length then (start, line.reverse)
    else lineAround offset (start + line.length + 1) [] rest
  | c :: rest => lineAround offset start (c :: line) rest

/-- The line of `source` that holds `offset`, and below it at least one caret, `length` of them in
all, from that position on. -/
def renderSpan (source : String) (offset length : Nat) : String :=
  let (start, line) := lineAround offset 0 [] source.toList
  String.ofList (line ++ '\n' :: List.replicate (offset - start) ' ' ++
    List.replicate (max length 1) '^')

/-! ### Faults -/

inductive SyntaxFault
  | unmatchedClose
  | emptyGroup
  | unclosedGroup
  | unexpectedOpen
  /-- A link or a closing parenthesis, with no clause before it. -/
  | commandExpected (before : Char)
  /-- Something other than a link after a group. -/
  | linkExpected (found : Char)
  | strayBackslash
  | misplacedReference
  | emptyReference
  | nestedReference
  | unterminatedReference
  | invalidReferenceChar (found : Char)
  | unterminatedString
  | unterminatedEscape
  /-- A fault that a host describes in its own words. -/
  | described (message : String)
  deriving DecidableEq, Repr

def SyntaxFault.message : SyntaxFault → String
  | unmatchedClose => "unmatched ')'"
  | emptyGroup => "empty group"
  | unclosedGroup => "unclosed group"
  | unexpectedOpen => "unexpected '('"
  | commandExpected c => "expected a command before '" ++ String.singleton c ++ "'"
  | linkExpected c =>
    "expected ';', '&', '|' or ')' after group, found '" ++ String.singleton c ++ "'"
  | strayBackslash => "unexpected '\\' outside of a string"
  | misplacedReference => "variable references are only allowed in arguments"
  | emptyReference => "empty variable reference"
  | nestedReference => "nested '\x7b' in variable reference"
  | unterminatedReference => "unterminated variable reference"
  | invalidReferenceChar c => "invalid character '" ++ Text.showChar c ++ "' in variable reference"
  | unterminatedString => "unterminated string"
  | unterminatedEscape => "unterminated escape sequence"
  | described message => message

/-- A fault with the span of the source it is about. -/
structure SyntaxError where
  fault : SyntaxFault
  offset : Nat
  length : Nat
  deriving DecidableEq, Repr

namespace SyntaxError

def message (e : SyntaxError) : String := s!"syntax error at {e.offset}: " ++ e.fault.message

/-- The place of the error in `source`. -/
def render (e : SyntaxError) (source : String) : String := renderSpan source e.offset e.length

end SyntaxError

end DevConsole
