import DevConsole.NameMap
import DevConsole.Text.Name
import DevConsole.Text.Quoted
import DevConsole.Text.Lowercase

/-!
The registry of commands. A command may be one half of a pair, `+x` and `-x`; each half then names
the other, and a half that goes takes the name of itself from the other one. `η` is what runs a
command.
-/

namespace DevConsole

inductive RegistryError
  | invalidName (name : String)
  | notFound (name : String)
  deriving DecidableEq, Repr

def RegistryError.message : RegistryError → String
  | invalidName name => s!"Invalid name: '{name}'"
  | notFound name => s!"'{name}' not found"

structure Command (η : Type) where
  name : String
  handler : η
  description : String := ""
  /-- The other half of a pair. -/
  partner : Option String := none
  deriving Repr

def Command.inspected {η : Type} (c : Command η) : String :=
  let partner := match c.partner with
    | some p => "Some(" ++ Text.inspected p ++ ")"
    | none => "None"
  "ConCommand \x7b name: " ++ Text.inspected c.name ++ ", description: " ++
    Text.inspected c.description ++ ", partner: " ++ partner ++ ", .. \x7d"

/-- Commands by name. -/
structure Commands (η : Type) where
  byName : NameMap (Command η) := .empty

namespace Commands

variable {η : Type}

def find? (cs : Commands η) (name : String) : Option (Command η) := cs.byName.find? name

def contains (cs : Commands η) (name : String) : Bool := cs.byName.contains name

/-- The other half of a pair. -/
def partner? (cs : Commands η) (name : String) : Option String := (cs.find? name).bind (·.partner)

/-! ### Adding and removing commands -/

/-- The registry without the command of that name, whose partner loses its mark. -/
def unlink (cs : Commands η) (name : String) : Commands η :=
  let rest := cs.byName.erase name
  match cs.partner? name with
  | some other => ⟨rest.modify other fun c => { c with partner := none }⟩
  | none => ⟨rest⟩

/-- The registry with a command in place of any other one of its name, and whether there was
none. -/
def insert (cs : Commands η) (c : Command η) : Bool × Commands η :=
  (!cs.contains c.name, ⟨(cs.unlink c.name).byName.insert c.name c⟩)

/-- The registry with a command, and whether its name is new. -/
def register (cs : Commands η) (c : Command η) : Except RegistryError (Bool × Commands η) :=
  if Text.isValidName c.name then .ok (cs.insert c) else .error (.invalidName c.name)

/-- The registry with the two halves of the pair of that base name. -/
def registerPair (cs : Commands η) (base : String) (press release : Command η) :
    Except RegistryError (Commands η) :=
  let pressName := "+" ++ base
  let releaseName := "-" ++ base
  if !Text.isValidName base then .error (.invalidName base)
  else if press.name != pressName then .error (.invalidName press.name)
  else if release.name != releaseName then .error (.invalidName release.name)
  else
    let (_, cs) := cs.insert { press with partner := some releaseName }
    .ok (cs.insert { release with partner := some pressName }).2

def remove (cs : Commands η) (name : String) : Except RegistryError (Command η × Commands η) :=
  match cs.find? name with
  | some c => .ok (c, cs.unlink name)
  | none => .error (.notFound name)

def clear (_ : Commands η) : Commands η := {}

/-! ### Listing -/

def withStart (cs : Commands η) (start : String) : List (String × Command η) :=
  cs.byName.withStart start

/-- The commands that have `part` in their name or description. -/
def search (cs : Commands η) (part : String) : List (String × Command η) :=
  cs.byName.entries.filter fun e =>
    Text.occursIn part e.1 || Text.occursIn part e.2.description

end Commands

end DevConsole
