import DevConsole.Text.Quoted
import DevConsole.Variable.Flags
import DevConsole.Variable.Kind

/-!
Variables: a value of some kind with its default, its bounds and the rule by which texts are taken
for values.
-/

namespace DevConsole

structure Variable (k : Kind) where
  name : String
  value : k.Value
  default : k.Value
  least : Option k.Value := none
  greatest : Option k.Value := none
  cast : String → Except CastError k.Value := k.cast
  description : String := ""
  flags : Flags := {}

namespace Variable

variable {k : Kind}

/-- The variable that holds `default`, without bounds. -/
def ofDefault (name : String) (default : k.Value) : Variable k :=
  { name, value := default, default }

/-- The variable with a value taken into its bounds. -/
def store (v : Variable k) (value : k.Value) : Variable k :=
  { v with value := k.clamp v.least v.greatest value }

/-- The variable with a lower bound, which acts on its value at once. -/
def withLeast (v : Variable k) (bound : k.Value) : Variable k :=
  { v with least := some bound }.store v.value

/-- The variable with an upper bound, which acts on its value at once. -/
def withGreatest (v : Variable k) (bound : k.Value) : Variable k :=
  { v with greatest := some bound }.store v.value

def hasBounds (v : Variable k) : Bool := v.least.isSome || v.greatest.isSome

def text (v : Variable k) : String := k.format v.value

def defaultText (v : Variable k) : String := k.format v.default

def isModified (v : Variable k) : Bool := !k.same v.value v.default

/-- The variable after `raw` has been assigned, or nothing if it already has that value. -/
def assign (v : Variable k) (raw : String) : Except CastError (Option (Variable k)) := do
  let changed := v.store (← v.cast raw)
  return if k.same changed.value v.value then none else some changed

/-- The variable with its default for a value, or nothing if it already has that value. Bounds do
not act on the default. -/
def reset (v : Variable k) : Option (Variable k) :=
  if k.same v.value v.default then none else some { v with value := v.default }

/-- The variable in one line. -/
def display (v : Variable k) : String :=
  "\"" ++ v.name ++ "\" = \"" ++ v.text ++ "\"" ++
    (if v.description.isEmpty then "" else " - " ++ v.description)

end Variable

/-! ### Variables of any kind -/

/-- A variable of some kind, and whether it was declared by a user. -/
structure Entry where
  kind : Kind
  var : Variable kind
  user : Bool

namespace Entry

def name (e : Entry) : String := e.var.name

def description (e : Entry) : String := e.var.description

def flags (e : Entry) : Flags := e.var.flags

def text (e : Entry) : String := e.var.text

def defaultText (e : Entry) : String := e.var.defaultText

def isModified (e : Entry) : Bool := e.var.isModified

def value? (e : Entry) (k : Kind) : Option k.Value :=
  if h : e.kind = k then some (h ▸ e.var.value) else none

/-- The entry after `raw` has been assigned, or nothing if it already has that value. -/
def assign (e : Entry) (raw : String) : Except CastError (Option Entry) := do
  return (← e.var.assign raw).map fun v => { e with var := v }

/-- The entry with its default for a value, or nothing if it already has that value. -/
def reset (e : Entry) : Option Entry := e.var.reset.map fun v => { e with var := v }

def inspected (e : Entry) : String :=
  "ConVarMeta \x7b name: " ++ Text.inspected e.name ++ ", value: " ++ Text.inspected e.text ++
    ", flags: ConVarFlags(" ++ toString e.flags.bits ++ "), user: " ++ toString e.user ++ " \x7d"

end Entry

end DevConsole
