import DevConsole.Number.Binary
import DevConsole.Number.Whole

/-!
Numbers in decimal notation: an optional sign, digits with an optional point among them or at
either end, and an optional exponent; or a word for what is no number or not finite, in whatever
letter case. A numeral is read into a binary format by one rounding of its exact value.
-/

namespace DevConsole.Number

inductive Numeral
  | nan
  | infinite (negative : Bool)
  /-- A count of tens to the power of an exponent. -/
  | decimal (negative : Bool) (count : Nat) (exponent : Int)
  deriving DecidableEq, Repr

namespace Numeral

/-- The digits that `cs` begins with, and what follows them. -/
def takeDigits (cs : List Char) : List Char × List Char :=
  (cs.takeWhile Char.isDigit, cs.dropWhile Char.isDigit)

/-- The digits after a point, if there is one, and what follows them. -/
def takeFraction : List Char → List Char × List Char
  | '.' :: cs => takeDigits cs
  | cs => ([], cs)

/-- The exponent that makes up `cs`: zero if there is nothing. -/
def readExponent? : List Char → Option Int
  | [] => some 0
  | c :: cs => if c == 'e' || c == 'E' then readInt? (String.ofList cs) else none

/-- The numeral that an unsigned text in small letters stands for. -/
def ofUnsigned? (negative : Bool) (cs : List Char) : Option Numeral :=
  let (whole, rest) := takeDigits cs
  let (fraction, rest) := takeFraction rest
  let digits := whole ++ fraction
  if digits.isEmpty then none
  else (readExponent? rest).map fun exponent =>
    decimal negative (Nat.ofDigitChars 10 digits 0) (exponent - fraction.length)

def read? (text : String) : Option Numeral :=
  let (negative, cs) := takeSign text.toList
  let word := String.ofList (cs.map Char.toLower)
  if word == "nan" then some nan
  else if word == "inf" || word == "infinity" then some (infinite negative)
  else ofUnsigned? negative cs

/-! ### Reading into a format -/

/-- The number of the format `f` that is nearest to the numeral. A numeral whose first digit stands
farther from the point than the format's numbers have bits is infinite or zero. -/
def toBinary (f : BinaryFormat) : Numeral → Binary f
  | nan => .nan
  | infinite negative => .infinite negative
  | decimal negative count exponent =>
    let size := (Nat.toDigits 10 count).length + exponent
    if count = 0 || size < -f.width then .ofSteps negative 0
    else if size > f.width then .infinite negative
    else if 0 ≤ exponent then .ofFraction negative (count * Nat.pow 10 exponent.toNat) 1
    else .ofFraction negative count (Nat.pow 10 (-exponent).toNat)

end Numeral

def Binary.read? {f : BinaryFormat} (text : String) : Option (Binary f) :=
  (Numeral.read? text).map (·.toBinary f)

end DevConsole.Number
