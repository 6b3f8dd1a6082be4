import DevConsole.Number.Decimal
import DevConsole.Number.Shortest
import DevConsole.Text.Blank
import DevConsole.Text.Lowercase

/-!
The kinds of values that variables hold: how a value is read from a text, how it is shown, when two
values are equal, and how bounds act on them.
-/

namespace DevConsole

open Number

inductive Kind
  | bool
  | int32
  | int64
  | float32
  | float64
  | text
  deriving DecidableEq, Repr, Inhabited

/-- Why a text is no value of a variable. -/
inductive CastError
  | noBoolean (text : String)
  | noInteger (text : String)
  | noNumber (text : String)
  /-- The host refuses the value, for a reason of its own. -/
  | refused (reason : String)
  deriving DecidableEq, Repr

def CastError.message : CastError → String
  | noBoolean text => "expected a boolean, got \"" ++ text ++ "\""
  | noInteger text => "expected an integer, got \"" ++ text ++ "\""
  | noNumber text => "expected a number, got \"" ++ text ++ "\""
  | refused reason => reason

namespace Kind

def name : Kind → String
  | bool => "bool"
  | int32 => "i32"
  | int64 => "i64"
  | float32 => "f32"
  | float64 => "f64"
  | text => "string"

abbrev Value : Kind → Type
  | bool => Bool
  | int32 => Int32
  | int64 => Int64
  | float32 => Binary .single
  | float64 => Binary .double
  | text => String

/-- The value of a kind that stands for nothing. -/
def zero : (k : Kind) → k.Value
  | bool => false
  | int32 => 0
  | int64 => 0
  | float32 => default
  | float64 => default
  | text => ""

/-! ### Texts -/

/-- The value of a text that stands for it plainly, without blanks around it. -/
def read? : (k : Kind) → String → Option k.Value
  | bool, s => if s == "true" then some true else if s == "false" then some false else none
  | int32, s => readInt32? s
  | int64, s => readInt64? s
  | float32, s => Binary.read? s
  | float64, s => Binary.read? s
  | text, s => some s

/-- The truth value that a word in small letters stands for. -/
def wordValue? (word : String) : Option Bool :=
  if word == "true" || word == "1" || word == "yes" || word == "on" then some true
  else if word == "false" || word == "0" || word == "no" || word == "off" then some false
  else none

/-- The finite number that a text stands for. -/
def finite? {f : BinaryFormat} (s : String) : Option (Binary f) :=
  (Binary.read? s).filter Binary.isFinite

/-- The value that a text is taken for when it is assigned. Blanks around it do not count, except
in a text; numbers have to be finite. -/
def cast : (k : Kind) → String → Except CastError k.Value
  | bool, s => (wordValue? (Text.lowercase (Text.trim s))).elim (.error (.noBoolean s)) .ok
  | int32, s => (readInt32? (Text.trim s)).elim (.error (.noInteger s)) .ok
  | int64, s => (readInt64? (Text.trim s)).elim (.error (.noInteger s)) .ok
  | float32, s => (finite? (Text.trim s)).elim (.error (.noNumber s)) .ok
  | float64, s => (finite? (Text.trim s)).elim (.error (.noNumber s)) .ok
  | text, s => .ok s

def format : (k : Kind) → k.Value → String
  | bool, b => if b then "1" else "0"
  | int32, n => toString n.toInt
  | int64, n => toString n.toInt
  | float32, x => x.text
  | float64, x => x.text
  | text, s => s

/-! ### Comparison -/

/-- Whether two values are equal, as values of their kind are. -/
def same : (k : Kind) → k.Value → k.Value → Bool
  | bool, a, b => a == b
  | int32, a, b => a == b
  | int64, a, b => a == b
  | float32, a, b => a.same b
  | float64, a, b => a.same b
  | text, a, b => a == b

/-- The value, raised to a lower bound. Only numbers have bounds. -/
def raise : (k : Kind) → k.Value → k.Value → k.Value
  | bool, v, _ => v
  | int32, v, bound => max v bound
  | int64, v, bound => max v bound
  | float32, v, bound => v.max bound
  | float64, v, bound => v.max bound
  | text, v, _ => v

/-- The value, lowered to an upper bound. -/
def lower : (k : Kind) → k.Value → k.Value → k.Value
  | bool, v, _ => v
  | int32, v, bound => min v bound
  | int64, v, bound => min v bound
  | float32, v, bound => v.min bound
  | float64, v, bound => v.min bound
  | text, v, _ => v

/-- The value within its bounds, of which the upper one is stronger. -/
def clamp (k : Kind) (least greatest : Option k.Value) (v : k.Value) : k.Value :=
  let raised := least.elim v (k.raise v)
  greatest.elim raised (k.lower raised)

end Kind

end DevConsole
