/-!
The names of commands, aliases and variables. A plain name is one or more ASCII letters, digits
and underscores; a paired name may carry one sign in front, as the halves of a press and release
pair do.
-/

namespace DevConsole.Text

def isNameChar (c : Char) : Bool := c.isAlphanum || c == '_'

def isPlainName (cs : List Char) : Bool := !cs.isEmpty && cs.all isNameChar

/-- The characters without one leading sign. -/
def withoutSign : List Char → List Char
  | '+' :: cs => cs
  | '-' :: cs => cs
  | cs => cs

def isValidName (name : String) : Bool := isPlainName name.toList

/-- Whether `name` is a plain name with or without one leading sign. -/
def isValidPairedName (name : String) : Bool := isPlainName (withoutSign name.toList)

end DevConsole.Text
