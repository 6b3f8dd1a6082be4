import DevConsole.Text.Identifier

/-!
Words of a configuration file: the names of fields and of records, and names that stand for a
value. A name that is no identifier can be written raw, behind a mark.
-/

namespace DevConsole.ConfigReader

/-- The characters that a word has in front, and what follows them. -/
def takeWord (cs : List Char) : String × List Char :=
  (String.ofList (cs.takeWhile Text.continuesIdentifier), cs.dropWhile Text.continuesIdentifier)

/-- An identifier, which may begin with an underscore. -/
def readIdentifier : List Char → Option (String × List Char)
  | c :: cs =>
    if c == '_' || Text.beginsIdentifier c then some (takeWord (c :: cs)) else none
  | [] => none

/-- Whether `c` may stand in a raw name. -/
def inRawName (c : Char) : Bool :=
  Text.continuesIdentifier c || c == '.' || c == '+' || c == '-'

/-- A raw name, behind its mark. -/
def readRawName : List Char → Option (String × List Char)
  | 'r' :: '#' :: c :: cs =>
    if inRawName c then
      some (String.ofList (c :: cs.takeWhile inRawName), cs.dropWhile inRawName)
    else none
  | _ => none

def readName (cs : List Char) : Option (String × List Char) := readRawName cs <|> readIdentifier cs

end DevConsole.ConfigReader
