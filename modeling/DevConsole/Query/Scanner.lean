import DevConsole.Query.Basic
import DevConsole.Query.SyntaxError
import DevConsole.Text.Blank
import DevConsole.Text.Name

/-!
Reading queries. The scanner takes the source character by character and holds the chain read so
far: the finished clauses of the innermost open scope, the scopes around it, and the clause at
hand. A fault is found at the first character that no query could have there.
-/

namespace DevConsole

/-! ### The state of the scanner -/

/-- An open group, with what its parenthesis interrupted. -/
structure OpenGroup where
  /-- The position of the parenthesis. -/
  offset : Nat
  /-- The link in front of the group. -/
  link : Link
  /-- The clauses before it in its own scope. -/
  before : Chain
  deriving DecidableEq, Repr

/-- The argument being read: the position of its first character and its parts, last first. -/
structure Word where
  offset : Nat
  parts : List Part := []
  deriving DecidableEq, Repr

namespace Word

/-- One more literal character, at that position. Characters that follow one another make up one
part. -/
def push (w : Word) (c : Char) (position : Nat) : Word :=
  match w.parts with
  | .literal text offset :: parts => { w with parts := .literal (text.push c) offset :: parts }
  | parts => { w with parts := .literal (String.singleton c) position :: parts }

/-- One more reference, with its brace at position `offset`. -/
def refer (w : Word) (name : String) (offset : Nat) : Word :=
  { w with parts := .reference name offset :: w.parts }

/-- The argument that has been read. A pair of quotes alone is the empty literal. -/
def argument (w : Word) : Argument :=
  ⟨if w.parts.isEmpty then [.literal "" w.offset] else w.parts.reverse, w.offset⟩

end Word

/-- What the next character of an argument belongs to. -/
inductive Inside
  /-- The argument itself, outside quotes. -/
  | bare
  /-- A quoted piece, by the position of its quote. -/
  | quoted (start : Nat)
  /-- A quoted piece right after the backslash at `backslash`. -/
  | escaped (start backslash : Nat)
  /-- A reference, by the position of its brace, the name so far, and the position of the quote
  if it is quoted. -/
  | reference (start : Nat) (name : String) (quote : Option Nat)
  deriving DecidableEq, Repr

/-- How far the clause at hand has been read. -/
inductive Phase
  /-- Nothing of it has been read. -/
  | start
  /-- Its name is being read. -/
  | name (offset : Nat) (name : String)
  /-- Its name and some arguments have been read, and a blank after them. -/
  | between (call : Invocation)
  /-- An argument after those of `call` is being read. -/
  | word (call : Invocation) (word : Word) (inside : Inside)
  /-- It is a group whose closing parenthesis has been read. -/
  | closed
  deriving DecidableEq, Repr

structure Scanner where
  /-- The number of characters read. -/
  position : Nat := 0
  /-- The open groups, innermost first. -/
  groups : List OpenGroup := []
  /-- The finished clauses of the innermost scope. -/
  clauses : Chain := .nil
  /-- The link in front of the clause at hand. -/
  link : Link := .always
  phase : Phase := .start
  /-- Whether the rest of the line is skipped. -/
  comment : Bool := false
  deriving DecidableEq, Repr

namespace Scanner

/-! ### Clauses -/

/-- The clause at hand, as far as it is an invocation. -/
def call? (s : Scanner) : Option Invocation :=
  match s.phase with
  | .name offset name => some ⟨name, offset, []⟩
  | .between call => some call
  | .word call word _ => some { call with args := call.args ++ [word.argument] }
  | .start | .closed => none

/-- The clauses of the innermost scope, the one at hand included. The first clause of a scope is
joined to nothing. -/
def settled (s : Scanner) : Chain :=
  match s.call? with
  | none => s.clauses
  | some call =>
    s.clauses ++ Chain.command (if s.clauses.isNil then .always else s.link) call .nil

/-- Whether there is no clause at hand, as at the start of a scope and after a link. -/
def awaitsClause (s : Scanner) : Bool := s.phase == .start

/-! ### Single characters -/

/-- The next state, in another phase. -/
def next (s : Scanner) (phase : Phase) : Except SyntaxError Scanner :=
  .ok { s with phase := phase, position := s.position + 1, comment := false }

/-- The fault of the character at hand. -/
def refuse (s : Scanner) (fault : SyntaxFault) : Except SyntaxError Scanner :=
  .error ⟨fault, s.position, 1⟩

/-- A number sign: the rest of the line is a comment. -/
def beginComment (s : Scanner) : Except SyntaxError Scanner :=
  .ok { s with position := s.position + 1, comment := true }

/-- A blank: it ends a name or an argument. -/
def blank (s : Scanner) : Except SyntaxError Scanner :=
  match s.phase, s.call? with
  | .name .., some call | .word .., some call => s.next (.between call)
  | phase, _ => s.next phase

/-- The link `link`, written as `c`: it ends the clause at hand. -/
def join (s : Scanner) (c : Char) (link : Link) : Except SyntaxError Scanner :=
  if s.awaitsClause then s.refuse (.commandExpected c)
  else { s with clauses := s.settled, link := link }.next .start

/-- An opening parenthesis: it begins a group, where a clause may begin. -/
def openGroup (s : Scanner) : Except SyntaxError Scanner :=
  if s.awaitsClause then
    { s with
      groups := ⟨s.position, s.link, s.clauses⟩ :: s.groups
      clauses := .nil
      link := .always }.next .start
  else s.refuse .unexpectedOpen

/-- A closing parenthesis: it ends the innermost group, which must not be empty or end with a
link. -/
def closeGroup (s : Scanner) : Except SyntaxError Scanner :=
  match s.groups with
  | [] => s.refuse .unmatchedClose
  | g :: groups =>
    if s.awaitsClause then
      if s.clauses.isNil then .error ⟨.emptyGroup, g.offset, s.position - g.offset + 1⟩
      else s.refuse (.commandExpected ')')
    else
      let link := if g.before.isNil then .always else g.link
      { s with
        groups := groups
        clauses := g.before ++ Chain.group link g.offset s.settled .nil
        link := .always }.next .closed

/-- A quote outside quotes: it begins a quoted piece of an argument. A clause that begins with a
quote has an empty name. -/
def openQuote (s : Scanner) : Except SyntaxError Scanner :=
  match s.phase with
  | .closed => s.refuse (.linkExpected '"')
  | .start => s.next (.word ⟨"", s.position, []⟩ ⟨s.position, []⟩ (.quoted s.position))
  | .name offset name => s.next (.word ⟨name, offset, []⟩ ⟨s.position, []⟩ (.quoted s.position))
  | .between call => s.next (.word call ⟨s.position, []⟩ (.quoted s.position))
  | .word call word _ => s.next (.word call word (.quoted s.position))

/-- An opening brace outside quotes: it begins a reference, in an argument. -/
def openReference (s : Scanner) : Except SyntaxError Scanner :=
  match s.phase with
  | .closed => s.refuse (.linkExpected '{')
  | .start | .name .. => s.refuse .misplacedReference
  | .between call => s.next (.word call ⟨s.position, []⟩ (.reference s.position "" none))
  | .word call word _ => s.next (.word call word (.reference s.position "" none))

/-- A character of a name or of an argument, outside quotes. -/
def plainChar (s : Scanner) (c : Char) : Except SyntaxError Scanner :=
  match s.phase with
  | .closed => s.refuse (.linkExpected c)
  | .start => s.next (.name s.position (String.singleton c))
  | .name offset name => s.next (.name offset (name.push c))
  | .between call => s.next (.word call (Word.push ⟨s.position, []⟩ c s.position) .bare)
  | .word call word _ => s.next (.word call (word.push c s.position) .bare)

/-- A character outside comments, quotes and references. -/
def outerChar (s : Scanner) (c : Char) : Except SyntaxError Scanner :=
  if c == '#' then s.beginComment
  else if Text.isBlank c then s.blank
  else match Link.ofChar? c with
    | some link => s.join c link
    | none =>
      if c == '(' then s.openGroup
      else if c == ')' then s.closeGroup
      else if c == '"' then s.openQuote
      else if c == '{' then s.openReference
      else if c == '\\' then s.refuse .strayBackslash
      else s.plainChar c

/-- A character of the reference that begins at `start`, in the argument `word` of `call`. -/
def referenceChar (s : Scanner) (call : Invocation) (word : Word) (start : Nat) (name : String)
    (quote : Option Nat) (c : Char) : Except SyntaxError Scanner :=
  if c == '}' then
    if name.isEmpty then .error ⟨.emptyReference, start, s.position - start + 1⟩
    else s.next (.word call (word.refer name start)
      (match quote with | some q => .quoted q | none => .bare))
  else if c == '{' then s.refuse .nestedReference
  else if Text.isNameChar c then s.next (.word call word (.reference start (name.push c) quote))
  else if c == '"' && quote.isSome then
    .error ⟨.unterminatedReference, start, s.position - start⟩
  else s.refuse (.invalidReferenceChar c)

/-- A character of the quoted piece that begins at `start`. -/
def quotedChar (s : Scanner) (call : Invocation) (word : Word) (start : Nat) (c : Char) :
    Except SyntaxError Scanner :=
  if c == '\\' then s.next (.word call word (.escaped start s.position))
  else if c == '"' then s.next (.word call word .bare)
  else if c == '{' then s.next (.word call word (.reference s.position "" (some start)))
  else s.next (.word call (word.push c s.position) (.quoted start))

def step (s : Scanner) (c : Char) : Except SyntaxError Scanner :=
  if s.comment && c != '\n' then .ok { s with position := s.position + 1 }
  else match s.phase with
    | .word call word (.quoted start) => s.quotedChar call word start c
    | .word call word (.escaped start _) =>
      s.next (.word call (word.push c s.position) (.quoted start))
    | .word call word (.reference start name quote) => s.referenceChar call word start name quote c
    | _ => s.outerChar c

/-! ### Whole sources -/

/-- The query, once the source is at its end. A link at the end is dropped, and a source without
clauses is an invocation of nothing. -/
def finish (s : Scanner) : Except SyntaxError Query :=
  match s.phase with
  | .word _ _ (.escaped _ backslash) => .error ⟨.unterminatedEscape, backslash, 1⟩
  | .word _ _ (.quoted start) => .error ⟨.unterminatedString, start, s.position - start⟩
  | .word _ _ (.reference _ _ (some start)) =>
    .error ⟨.unterminatedString, start, s.position - start⟩
  | .word _ _ (.reference start _ none) =>
    .error ⟨.unterminatedReference, start, s.position - start⟩
  | _ =>
    match s.groups with
    | g :: _ => .error ⟨.unclosedGroup, g.offset, 1⟩
    | [] => .ok ⟨if s.settled.isNil then .command .always {} .nil else s.settled⟩

def run (s : Scanner) (cs : List Char) : Except SyntaxError Scanner := cs.foldlM step s

end Scanner

def parse (source : String) : Except SyntaxError Query := do
  (← Scanner.run {} source.toList).finish

end DevConsole
