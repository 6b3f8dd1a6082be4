import DevConsole.Number.Binary

/-!
The shortest decimal text of a binary number: the fewest digits that are read back as the same
number of the same format, and of these the nearest; of two equally near ones the greater. Numbers
are written without exponents.
-/

namespace DevConsole.Number

/-! ### Digits -/

/-- A count without the zeros at its end, and the power of ten it counts. -/
def dropZeros (count : Nat) (exponent : Int) : Nat × Int :=
  if h : 0 < count ∧ count % 10 = 0 then dropZeros (count / 10) (exponent + 1)
  else (count, exponent)
  termination_by count
  decreasing_by omega

/-- The decimals that are read back as a given number, of which `value` is one, from `low` to
`high`. The ends belong to the range if `closed`. -/
structure DecimalRange where
  low : Nat
  value : Nat
  high : Nat
  closed : Bool

/-- Whether a number is read back as the given one. -/
def DecimalRange.holds (r : DecimalRange) (n : Nat) : Bool :=
  if r.closed then r.low ≤ n && n ≤ r.high else r.low < n && n < r.high

/-- The multiple of `unit` in the range that is nearest to the value, as a count. -/
def DecimalRange.onGrid? (r : DecimalRange) (unit : Nat) : Option Nat :=
  let below := r.value / unit
  match r.holds (below * unit), r.holds ((below + 1) * unit) with
  | true, true => some (if 2 * (r.value % unit) < unit then below else below + 1)
  | true, false => some below
  | false, true => some (below + 1)
  | false, false => none

/-- The range of a positive count of steps, in quarters of ten to the power of minus the format's
scale. Half the way to its neighbours is read back as the number, and the neighbour below a power
of two is twice as near. -/
def decimalRange (f : BinaryFormat) (steps : Nat) : DecimalRange :=
  let gap := Nat.pow 2 (f.spareBits steps)
  let near := steps = Nat.pow 2 steps.log2 ∧ f.precision ≤ steps.log2 + 1
  let scaled (n : Nat) := n * Nat.pow 5 f.scale
  ⟨scaled (4 * steps - if near then gap else 2 * gap), scaled (4 * steps),
    scaled (4 * steps + 2 * gap), steps / gap % 2 == 0⟩

/-- The shortest digits of a positive count of steps, and the power of ten they count. -/
def shortestDigits (f : BinaryFormat) (steps : Nat) : Nat × Int :=
  let exact := steps * Nat.pow 5 f.scale
  let range := decimalRange f steps
  let places := (Nat.toDigits 10 exact).length
  let found := (List.range places).findSome? fun spared =>
    let power := places - 1 - spared
    (range.onGrid? (4 * Nat.pow 10 power)).map fun count => (count, (power : Int) - f.scale)
  let (count, exponent) := found.getD (exact, -f.scale)
  dropZeros count exponent

/-! ### Text -/

/-- The digits of `count` with the point that many places before their end, or zeros in place of a
point behind them. -/
def placePoint (count : Nat) (exponent : Int) : String :=
  let digits := Nat.toDigits 10 count
  if 0 ≤ exponent then String.ofList (digits ++ List.replicate exponent.toNat '0')
  else
    let places := (-exponent).toNat
    let padded := List.replicate (places + 1 - digits.length) '0' ++ digits
    String.ofList (padded.take (padded.length - places) ++
      '.' :: padded.drop (padded.length - places))

namespace Binary

variable {f : BinaryFormat}

def signed (negative : Bool) (text : String) : String := if negative then "-" ++ text else text

/-- The number in the fewest digits, filled up with zeros to the point. -/
def shortest : Binary f → String
  | nan => "NaN"
  | infinite negative => signed negative "inf"
  | finite negative 0 _ => signed negative "0"
  | finite negative (n + 1) _ =>
    let (count, exponent) := shortestDigits f (n + 1)
    signed negative (placePoint count exponent)

/-- The number in the fewest digits, but all its digits if it is whole. -/
def text : Binary f → String
  | finite negative steps h =>
    if steps % Nat.pow 2 f.scale = 0 then signed negative (toString (steps / Nat.pow 2 f.scale))
    else shortest (finite negative steps h)
  | x => x.shortest

end Binary

end DevConsole.Number
