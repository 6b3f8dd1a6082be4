/-!
Whole numbers in decimal digits, with an optional sign.
-/

namespace DevConsole.Number

/-- The number that digits alone stand for. -/
def readNat? (cs : List Char) : Option Nat :=
  if !cs.isEmpty && cs.all Char.isDigit then some (Nat.ofDigitChars 10 cs 0) else none

/-- Whether a sign is a minus sign, and what follows the sign. -/
def takeSign : List Char → Bool × List Char
  | '+' :: cs => (false, cs)
  | '-' :: cs => (true, cs)
  | cs => (false, cs)

def readInt? (text : String) : Option Int :=
  let (negative, digits) := takeSign text.toList
  (readNat? digits).map fun n => if negative then -(n : Int) else n

def readInt32? (text : String) : Option Int32 :=
  match readInt? text with
  | some n =>
    if Int32.minValue.toInt ≤ n ∧ n ≤ Int32.maxValue.toInt then some (Int32.ofInt n) else none
  | none => none

def readInt64? (text : String) : Option Int64 :=
  match readInt? text with
  | some n =>
    if Int64.minValue.toInt ≤ n ∧ n ≤ Int64.maxValue.toInt then some (Int64.ofInt n) else none
  | none => none

end DevConsole.Number
