/-!
Characters that are shown in a message. Printable ASCII stands for itself apart from the quotes and
the backslash, three control characters have letters of their own, and all else is given by its
code.
-/

namespace DevConsole.Text

/-- The code of `c` in lower case hexadecimal digits. -/
def hexDigits (c : Char) : String := String.ofList (Nat.toDigits 16 c.toNat)

/-- The character by its code. -/
def byCode (c : Char) : String := "\\u\x7b" ++ hexDigits c ++ "\x7d"

/-- The character as messages show it. -/
def showChar (c : Char) : String :=
  if c == '\t' then "\\t"
  else if c == '\r' then "\\r"
  else if c == '\n' then "\\n"
  else if c == '\'' || c == '"' || c == '\\' then String.ofList ['\\', c]
  else if 0x20 ≤ c.toNat && c.toNat < 0x7F then String.singleton c
  else byCode c

end DevConsole.Text
