/-!
Binary numbers of bounded precision, exactly. A format has a least positive number, its step; every
finite number is a whole count of steps, and a number of many steps has to be a multiple of a power
of two, so that it has few significant bits.
-/

namespace DevConsole.Number

/-! ### Formats -/

structure BinaryFormat where
  /-- The number of significant bits. -/
  precision : Nat
  /-- The step is two to the power of minus `scale`. -/
  scale : Nat
  /-- Finite numbers have fewer than two to the power of `width` steps. -/
  width : Nat

namespace BinaryFormat

/-- Numbers of 32 bits, of which 24 are significant. -/
def single : BinaryFormat := ⟨24, 149, 277⟩

/-- Numbers of 64 bits, of which 53 are significant. -/
def double : BinaryFormat := ⟨53, 1074, 2098⟩

variable (f : BinaryFormat)

/-- The number of low bits that are zero in a count of about `steps` steps. -/
def spareBits (steps : Nat) : Nat := steps.log2 + 1 - f.precision

/-- Whether a count of steps is one of the format's numbers. -/
def Holds (steps : Nat) : Prop :=
  steps < Nat.pow 2 f.width ∧ steps % Nat.pow 2 (f.spareBits steps) = 0

instance (steps : Nat) : Decidable (f.Holds steps) := inferInstanceAs (Decidable (_ ∧ _))

end BinaryFormat

/-! ### Numbers -/

/-- A number of the format `f`. -/
inductive Binary (f : BinaryFormat)
  /-- No number at all. -/
  | nan
  | infinite (negative : Bool)
  | finite (negative : Bool) (steps : Nat) (holds : f.Holds steps)
  deriving DecidableEq

namespace Binary

variable {f : BinaryFormat}

theorem holds_zero (f : BinaryFormat) : f.Holds 0 :=
  ⟨Nat.two_pow_pos _, Nat.zero_mod _⟩

instance : Inhabited (Binary f) := ⟨finite false 0 (holds_zero f)⟩

/-- The number with so many steps; a count too large for the format is infinite. -/
def ofSteps (negative : Bool) (steps : Nat) : Binary f :=
  if h : f.Holds steps then finite negative steps h else infinite negative

def isFinite : Binary f → Bool
  | finite .. => true
  | _ => false

/-- Where the number stands in the order: its signed count of steps, and beyond all of these the
infinite ones. -/
def position? : Binary f → Option Int
  | nan => none
  | infinite negative => some (if negative then -(Nat.pow 2 f.width) else Nat.pow 2 f.width)
  | finite negative steps _ => some (if negative then -steps else steps)

/-- Whether two numbers are equal. What is no number equals nothing, and the zeros are equal. -/
def same (a b : Binary f) : Bool :=
  match a.position?, b.position? with
  | some i, some j => i == j
  | _, _ => false

/-- The greater one of two; what is no number gives way to the other one. -/
def max (a b : Binary f) : Binary f :=
  match a.position?, b.position? with
  | none, _ => b
  | some _, none => a
  | some i, some j => if i < j then b else a

/-- The lesser one of two; what is no number gives way to the other one. -/
def min (a b : Binary f) : Binary f :=
  match a.position?, b.position? with
  | none, _ => b
  | some _, none => a
  | some i, some j => if j < i then b else a

/-! ### Rounding -/

/-- The quotient rounded to the nearest whole number, a half to the even one. -/
def divideEven (num den : Nat) : Nat :=
  let q := num / den
  let r := num % den
  if 2 * r < den then q else if den < 2 * r then q + 1 else q + q % 2

/-- The number nearest to a fraction, of two the one whose last significant bit is zero. -/
def ofFraction (negative : Bool) (num den : Nat) : Binary f :=
  let scaled := num * Nat.pow 2 f.scale
  let unit := Nat.pow 2 (f.spareBits (scaled / den))
  ofSteps negative (divideEven scaled (den * unit) * unit)

end Binary

end DevConsole.Number
