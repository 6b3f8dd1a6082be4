import DevConsole.Text.Escape
import DevConsole.Text.Invisible

/-!
Quoted texts for files and for inspection: what could not be told from its looks is written with a
backslash.
-/

namespace DevConsole.Text

/-- The character as it is written in quotes. -/
def writtenChar (c : Char) : String :=
  if c == '\x00' then "\\0"
  else if c == '\t' then "\\t"
  else if c == '\r' then "\\r"
  else if c == '\n' then "\\n"
  else if c == '\'' || c == '"' || c == '\\' then String.ofList ['\\', c]
  else if isInvisible c then byCode c
  else String.singleton c

/-- The text in quotes. -/
def quoted (text : String) : String :=
  "\"" ++ String.join (text.toList.map writtenChar) ++ "\""

/-- The text in quotes, for inspection: an apostrophe stands for itself. -/
def inspected (text : String) : String :=
  "\"" ++ String.join (text.toList.map fun c => if c == '\'' then "'" else writtenChar c) ++ "\""

end DevConsole.Text
