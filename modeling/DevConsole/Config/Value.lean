import DevConsole.Config.Number

/-!
Values that are passed over: those of fields that a configuration does not know. Values may stand
in values to a certain depth.
-/

namespace DevConsole.ConfigReader

/-- Takes one value off the front of a text and answers with the rest. -/
abbrev Skipper : Type := List Char → Option (List Char)

/-! ### Groups -/

/-- What follows two values with a colon between them. -/
def skipPair (first second : Skipper) : Skipper := fun cs => do
  let cs ← expect ':' (← skip (← first cs))
  second (← skip cs)

def skipName : Skipper := fun cs => (readName cs).map (·.2)

/-- Whether a group in parentheses holds named values: whether a name and a colon come first. -/
def holdsNamed (cs : List Char) : Bool :=
  match skipName cs with
  | some rest => ((skip rest).bind List.head?) == some ':'
  | none => false

/-- What follows the members of a group and its closing bracket. -/
def skipMembers (member : Skipper) (close : Char) : Skipper := fun cs =>
  (readGroup (fun () cs => (member cs).map fun rest => ((), rest)) close () cs).map (·.2)

/-- What follows a group of values: a list in square brackets, pairs in braces, and values or named
values in parentheses. -/
def skipGroup (value : Skipper) : Skipper
  | '[' :: cs => skipMembers value ']' cs
  | '\x7b' :: cs => skipMembers (skipPair value value) '\x7d' cs
  | '(' :: cs => do
    let cs ← skip cs
    skipMembers (if holdsNamed cs then skipPair skipName value else value) ')' cs
  | _ => none

/-! ### Words -/

/-- What follows a value that may be there or not, behind the word for one that is. -/
def skipSome (value : Skipper) : Skipper := fun cs => do
  let cs ← skip (← expect '(' (← skip cs))
  let (_, cs) ← comma (← value cs)
  expect ')' cs

/-- What follows a name and its group in parentheses, if there is one. -/
def skipVariant (group : Skipper) : Skipper := fun cs => do
  let cs ← skip cs
  if cs.head? == some '(' then group cs else some cs

/-- What follows a word with all that belongs to it. -/
def skipWord (inner group : Skipper) : Skipper := fun cs =>
  match readRawName cs with
  | some (_, rest) => skipVariant group rest
  | none =>
    match readIdentifier cs with
    | some (word, rest) =>
      if word == "true" || word == "false" || word == "None" then some rest
      else if word == "Some" then skipSome inner rest
      else skipVariant group rest
    | none => none

/-! ### Values -/

/-- What follows a value, where `inner` passes over what stands behind the word for a value that is
there, and `group` over groups. -/
def skipValueWith (inner group : Skipper) : Skipper := fun cs =>
  skipNumeric cs <|> (readText cs).map (·.2) <|> skipBytes cs <|> skipByte cs <|>
    skipCharacter cs <|> (expect '(' cs).bind (expect ')') <|> group cs <|> skipWord inner group cs

/-- What follows a value with at most `depth` levels in it. A group takes one level for itself and
one for its members. -/
def skipValue : Nat → Skipper
  | 0 => skipValueWith (fun _ => none) (fun _ => none)
  | 1 => skipValueWith (skipValue 0) (skipGroup fun _ => none)
  | n + 2 => skipValueWith (skipValue (n + 1)) (skipGroup (skipValue n))

end DevConsole.ConfigReader
