/-!
The lines of a text. A line ends at a line feed, a carriage return right before that belongs to
the end as well, and what follows the last line feed is a line only if it is not empty.
-/

namespace DevConsole.Text

/-- A line read backwards, without the carriage return it may end with. -/
def withoutReturn : List Char → List Char
  | '\r' :: line => line
  | line => line

/-- The lines of what is left, where `line` holds the current line so far, last character
first. -/
def linesFrom (line : List Char) : List Char → List String
  | [] => if line.isEmpty then [] else [String.ofList line.reverse]
  | '\n' :: rest => String.ofList (withoutReturn line).reverse :: linesFrom [] rest
  | c :: rest => linesFrom (c :: line) rest

/-- The lines of a text, without their ends. -/
def lines (text : String) : List String := linesFrom [] text.toList

end DevConsole.Text
