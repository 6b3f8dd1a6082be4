import DevConsole.Config.Quoted
import DevConsole.Config.Word
import DevConsole.Number.Decimal

/-!
Numbers of a configuration file: decimal numerals and words for what is not finite, whole numbers
in four bases, and ranges between numbers. Underscores may stand among the digits, and the width of
a number may stand behind it.
-/

namespace DevConsole.ConfigReader

open DevConsole.Number

/-! ### Decimal numerals -/

def inDecimal (c : Char) : Bool :=
  c.isDigit || c == 'e' || c == 'E' || c == '.' || c == '+' || c == '-' || c == '_'

/-- The characters that a decimal numeral has in front, and what follows them; two points belong to
a range. -/
def takeDecimal : List Char → List Char × List Char
  | '.' :: '.' :: cs => ([], '.' :: '.' :: cs)
  | c :: cs =>
    if inDecimal c then
      let (taken, rest) := takeDecimal cs
      (c :: taken, rest)
    else ([], c :: cs)
  | [] => ([], [])

/-- The characters without underscores; `open?` tells whether one may come, as one may behind a
digit or the mark of an exponent if no point stands in between. -/
def withoutUnderscores (open? : Bool) : List Char → Option (List Char)
  | [] => some []
  | c :: cs =>
    if c == '_' then if open? then withoutUnderscores true cs else none
    else
      let opens := c.isDigit || c == 'e' || c == 'E' || (open? && c != '.')
      (withoutUnderscores opens cs).map (c :: ·)

def skipDecimal (cs : List Char) : Option (List Char) := do
  let (taken, rest) := takeDecimal cs
  let _ ← Numeral.read? (String.ofList (← withoutUnderscores false taken))
  let (width, rest) := takeWord rest
  if ["", "f32", "f64"].contains width then some rest else none

/-- What follows a word for what is not finite, which may have a sign. -/
def skipNotFinite (cs : List Char) : Option (List Char) :=
  let (word, rest) := takeWord (takeSign cs).2
  if ["inf", "inff32", "inff64", "NaN", "NaNf32", "NaNf64"].contains word then some rest else none

/-! ### Whole numbers -/

/-- The base of a whole number, and what follows the mark for it. -/
def takeBase : List Char → Nat × List Char
  | '0' :: 'b' :: cs => (2, cs)
  | '0' :: 'o' :: cs => (8, cs)
  | '0' :: 'x' :: cs => (16, cs)
  | cs => (10, cs)

/-- The number that digits of a base stand for, with `value` for those in front of them. -/
def readDigits (base value : Nat) : List Char → Option Nat
  | [] => some value
  | c :: cs =>
    if c == '_' then readDigits base value cs
    else match hexValue? c with
      | some n => if n < base then readDigits base (base * value + n) cs else none
      | none => none

/-- Whether a whole number fits the width that is named behind it; without one, it has 64 bits. -/
def fitsWidth (width : String) (negative : Bool) (count : Nat) : Bool :=
  let signed (bits : Nat) := count < Nat.pow 2 (bits - 1) + if negative then 1 else 0
  let unsigned (bits : Nat) := count < if negative then 1 else Nat.pow 2 bits
  match width with
  | "i8" => signed 8
  | "i16" => signed 16
  | "i32" => signed 32
  | "i64" => signed 64
  | "u8" => unsigned 8
  | "u16" => unsigned 16
  | "u32" => unsigned 32
  | "u64" => unsigned 64
  | "" => if negative then signed 64 else unsigned 64
  | _ => false

def skipWhole (cs : List Char) : Option (List Char) := do
  let (negative, cs) := takeSign cs
  let (base, cs) := takeBase cs
  let inWhole (c : Char) := (hexValue? c).isSome || c == '_'
  let digits := cs.takeWhile inWhole
  if digits.isEmpty || digits.head? == some '_' then none
  else
    let count ← readDigits base 0 digits
    let (width, rest) := takeWord (cs.dropWhile inWhole)
    if fitsWidth width negative count then some rest else none

/-! ### Numbers and ranges -/

def skipNumber (cs : List Char) : Option (List Char) :=
  skipNotFinite cs <|> skipDecimal cs <|> skipWhole cs

/-- What follows the end of a range: two points, with a number behind them or with none; behind an
equals sign there must be one. -/
def skipRangeEnd : List Char → Option (List Char)
  | '.' :: '.' :: '=' :: cs => skipNumber cs
  | '.' :: '.' :: cs => some ((skipNumber cs).getD cs)
  | _ => none

def skipNumeric (cs : List Char) : Option (List Char) :=
  match skipNumber cs with
  | some rest => some ((skipRangeEnd rest).getD rest)
  | none => skipRangeEnd cs

end DevConsole.ConfigReader
