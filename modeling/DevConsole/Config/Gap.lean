/-!
What stands between the pieces of a configuration file: blanks, comments, commas and brackets. A
reader takes what it reads off the front of a list of characters and answers with the rest, or with
nothing if the characters are not of the form it reads.
-/

namespace DevConsole.ConfigReader

/-! ### Blanks and comments -/

/-- Whether `c` is a blank of the notation: the property Pattern_White_Space of the Unicode
standard. -/
def isSpace (c : Char) : Bool :=
  let n := c.toNat
  (9 ≤ n && n ≤ 13) || n == 0x20 || n == 0x85 || n == 0x200E || n == 0x200F || n == 0x2028 ||
    n == 0x2029

/-- Where the characters between two pieces stand. -/
inductive Gap
  | outside
  | lineComment
  /-- In comments, each inside the one before it. -/
  | blockComment (depth : Nat)

/-- What follows the blanks and the comments; nothing if a comment does not end. -/
def skipFrom : Gap → List Char → Option (List Char)
  | .outside, [] => some []
  | .outside, '/' :: '/' :: cs => skipFrom .lineComment cs
  | .outside, '/' :: '*' :: cs => skipFrom (.blockComment 0) cs
  | .outside, c :: cs =>
    if isSpace c then skipFrom .outside cs else if c == '/' then none else some (c :: cs)
  | .lineComment, [] => some []
  | .lineComment, c :: cs => if c == '\n' then skipFrom .outside cs else skipFrom .lineComment cs
  | .blockComment _, [] => none
  | .blockComment 0, '*' :: '/' :: cs => skipFrom .outside cs
  | .blockComment (n + 1), '*' :: '/' :: cs => skipFrom (.blockComment n) cs
  | .blockComment n, '/' :: '*' :: cs => skipFrom (.blockComment (n + 1)) cs
  | .blockComment n, _ :: cs => skipFrom (.blockComment n) cs

def skip (cs : List Char) : Option (List Char) := skipFrom .outside cs

/-! ### Commas and brackets -/

def expect (c : Char) : List Char → Option (List Char)
  | d :: cs => if c == d then some cs else none
  | [] => none

/-- Whether a comma follows, after blanks, and what follows it and the blanks behind it. -/
def comma (cs : List Char) : Option (Bool × List Char) := do
  match ← skip cs with
  | ',' :: cs => return (true, ← skip cs)
  | cs => return (false, cs)

/-- The members of a group up to its closing bracket, each taken by `member` into what has been
gathered so far; `open?` tells whether another member may come, as one may at the start and behind
each comma. -/
def readMembers {α : Type} (member : α → List Char → Option (α × List Char)) (close : Char) :
    Nat → α → Bool → List Char → Option (α × List Char)
  | 0, _, _, _ => none
  | fuel + 1, a, open?, cs =>
    match expect close cs with
    | some rest => some (a, rest)
    | none =>
      if !open? then none
      else do
        let (a, cs) ← member a cs
        let (more, cs) ← comma cs
        readMembers member close fuel a more cs

/-- The members of a group behind its opening bracket, with no more of them than characters. -/
def readGroup {α : Type} (member : α → List Char → Option (α × List Char)) (close : Char) (a : α)
    (cs : List Char) : Option (α × List Char) := do
  let cs ← skip cs
  readMembers member close (cs.length + 1) a true cs

end DevConsole.ConfigReader
