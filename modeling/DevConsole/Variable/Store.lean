import DevConsole.NameMap
import DevConsole.Text.Name
import DevConsole.Variable.Basic

/-!
The store of variables. The host registers built-in variables; users declare variables of their own,
whose names all begin with a reserved start, so that no name is in both sets. A change of a value is
told to the listeners of the variable and to a hook that sees to saving it, and is kept as an event.

Listeners and the hook act on a world `ω`, which is whatever lies outside the store.
-/

namespace DevConsole

/-- What the names of users' variables begin with. -/
def userStart : String := "uv_"

/-! ### Errors -/

inductive StoreError
  | notFound (name : String)
  | locked (name : String) (lock : Lock)
  | invalidValue (name : String) (reason : CastError)
  | invalidName (name : String)
  /-- A built-in variable would have a user's name. -/
  | reservedStart (name : String)
  /-- A user's variable would have a name of another form. -/
  | startRequired (name : String)
  | alreadyDeclared (name : String)
  | builtinRemoval (name : String)
  deriving DecidableEq, Repr

def Lock.message : Lock → String
  | readOnly => "variable is read-only"
  | cheat => "variable is cheat-protected"
  | replicated => "variable is replicated from the server"

def StoreError.message : StoreError → String
  | notFound name => s!"Unknown variable: '{name}'"
  | locked name lock => s!"Cannot set '{name}': " ++ lock.message
  | invalidValue name reason => s!"Cannot set '{name}': " ++ reason.message
  | invalidName name => s!"Invalid variable name: '{name}'"
  | reservedStart name =>
    s!"Built-in variable '{name}' may not use the reserved prefix '{userStart}'"
  | startRequired name => s!"User variable '{name}' must start with '{userStart}'"
  | alreadyDeclared name => s!"Variable '{name}' is already declared"
  | builtinRemoval name => s!"Cannot remove built-in variable '{name}'"

/-- What a handler or a listener leaves behind when it breaks off instead of returning. -/
inductive Panic
  | text (message : String)
  /-- It left nothing that could be shown. -/
  | silent
  deriving DecidableEq, Repr

def Panic.message : Panic → String
  | text message => message
  | silent => "unknown panic"

/-! ### The store -/

/-- A change of a value, by the texts of both values. -/
structure Change where
  name : String
  old : String
  new : String
  deriving DecidableEq, Repr

/-- What is told of a change: the new text, the old text and the variable, which already has its
new value. A listener may panic. -/
abbrev Listener (ω : Type) := String → String → Entry → ω → ω × Option Panic

/-- What sees to saving: it is told the name and the text of what changed, an empty text if it was
removed. -/
abbrev SaveHook (ω : Type) := String → String → ω → ω

/-- Variables, with those who are told of their changes. -/
structure Store (ω : Type) where
  builtins : NameMap Entry := .empty
  user : NameMap Entry := .empty
  listeners : NameMap (List (Listener ω)) := .empty
  hook : Option (SaveHook ω) := none
  /-- The changes that have not been taken, oldest first. -/
  changes : List Change := []

inductive Assigned
  | unchanged
  | changed (old new : String)
  deriving DecidableEq, Repr

/-- Why an assignment did not come to its end. -/
inductive AssignError
  | refused (e : StoreError)
  /-- A listener panicked; the value is assigned. -/
  | panicked (p : Panic)
  deriving DecidableEq, Repr

namespace Store

variable {ω : Type}

/-! ### Looking up -/

def find? (s : Store ω) (name : String) : Option Entry :=
  (s.builtins.find? name).or (s.user.find? name)

def has (s : Store ω) (name : String) : Bool :=
  s.builtins.contains name || s.user.contains name

def text? (s : Store ω) (name : String) : Option String := (s.find? name).map Entry.text

def value? (s : Store ω) (k : Kind) (name : String) : Option k.Value :=
  (s.find? name).bind (·.value? k)

/-- All variables, the built-in ones first, each set in name order. -/
def all (s : Store ω) : List (String × Entry) := s.builtins.entries ++ s.user.entries

def size (s : Store ω) : Nat := s.builtins.size + s.user.size

def isEmpty (s : Store ω) : Bool := s.builtins.isEmpty && s.user.isEmpty

def modified (s : Store ω) : List (String × Entry) := s.all.filter (·.2.isModified)

def archived (s : Store ω) : List (String × Entry) := s.all.filter (·.2.flags.archive)

/-- The variables that are not hidden and have `part` in their name or description. -/
def search (s : Store ω) (part : String) : List (String × Entry) :=
  s.all.filter fun e =>
    !e.2.flags.hidden && (Text.occursIn part e.1 || Text.occursIn part e.2.description)

/-! ### Adding and removing variables -/

/-- The store with a built-in variable, and whether its name is new. -/
def register (s : Store ω) {k : Kind} (v : Variable k) : Except StoreError (Bool × Store ω) :=
  if !Text.isValidName v.name then .error (.invalidName v.name)
  else if NameMap.beginsWith userStart v.name then .error (.reservedStart v.name)
  else .ok (!s.builtins.contains v.name,
    { s with builtins := s.builtins.insert v.name ⟨k, v, false⟩ })

/-- The store with a user's variable. -/
def declare (s : Store ω) {k : Kind} (v : Variable k) : Except StoreError (Store ω) :=
  if !Text.isValidName v.name then .error (.invalidName v.name)
  else if !NameMap.beginsWith userStart v.name || v.name.length = userStart.length then
    .error (.startRequired v.name)
  else if s.has v.name then .error (.alreadyDeclared v.name)
  else .ok { s with user := s.user.insert v.name ⟨k, v, true⟩ }

/-- The store without a user's variable and its listeners. -/
def remove (s : Store ω) (name : String) : Except StoreError (Store ω) :=
  if s.builtins.contains name then .error (.builtinRemoval name)
  else if !s.user.contains name then .error (.notFound name)
  else .ok { s with user := s.user.erase name, listeners := s.listeners.erase name }

/-! ### Assigning -/

/-- The store with another variable in place of the one of that name. -/
def replace (s : Store ω) (name : String) (e : Entry) : Store ω :=
  if s.builtins.contains name then { s with builtins := s.builtins.modify name fun _ => e }
  else { s with user := s.user.modify name fun _ => e }

/-- The world after the listeners have been told of a change, one after the other until one of them
panics. -/
def tellListeners (new old : String) (e : Entry) : List (Listener ω) → ω → ω × Option Panic
  | [], w => (w, none)
  | listener :: rest, w =>
    match listener new old e w with
    | (w, none) => tellListeners new old e rest w
    | (w, some p) => (w, some p)

/-- The world after the hook, if there is one, has been told of an edit. -/
def tellHook (s : Store ω) (name text : String) (w : ω) : ω :=
  match s.hook with
  | some hook => hook name text w
  | none => w

/-- The store and the world after the variable `name` has become `e`. The listeners are told
first, then the hook if the change goes through to it and the variable is saved, and then the change
is kept. -/
def commit (s : Store ω) (w : ω) (name : String) (old : String) (e : Entry) (through : Bool) :
    Store ω × ω × Except AssignError Assigned :=
  let s := s.replace name e
  match tellListeners e.text old e ((s.listeners.find? name).getD []) w with
  | (w, some p) => (s, w, .error (.panicked p))
  | (w, none) =>
    let w := if through && e.flags.archive then s.tellHook name e.text w else w
    ({ s with changes := s.changes ++ [⟨name, old, e.text⟩] }, w, .ok (.changed old e.text))

/-- The store and the world after `raw` has been assigned to a variable. -/
def set (s : Store ω) (w : ω) (name raw : String) (through : Bool) :
    Store ω × ω × Except AssignError Assigned :=
  match s.find? name with
  | none => (s, w, .error (.refused (.notFound name)))
  | some e =>
    match e.flags.lock? with
    | some lock => (s, w, .error (.refused (.locked e.name lock)))
    | none =>
      match e.assign raw with
      | .error reason => (s, w, .error (.refused (.invalidValue name reason)))
      | .ok none => (s, w, .ok .unchanged)
      | .ok (some changed) => s.commit w name e.text changed through

/-- The store and the world after a variable has been given its default. -/
def reset (s : Store ω) (w : ω) (name : String) (through : Bool) :
    Store ω × ω × Except AssignError Assigned :=
  match s.find? name with
  | none => (s, w, .error (.refused (.notFound name)))
  | some e =>
    match e.flags.lock? with
    | some lock => (s, w, .error (.refused (.locked e.name lock)))
    | none =>
      match e.reset with
      | none => (s, w, .ok .unchanged)
      | some changed => s.commit w name e.text changed through

/-! ### Those who are told -/

/-- The store with one more listener of a variable. -/
def listen (s : Store ω) (name : String) (listener : Listener ω) : Except StoreError (Store ω) :=
  if !s.has name then .error (.notFound name)
  else
    let told := (s.listeners.find? name).getD []
    .ok { s with listeners := s.listeners.insert name (told ++ [listener]) }

/-- The store with a hook, in place of any former one. -/
def withHook (s : Store ω) (hook : SaveHook ω) : Store ω := { s with hook := some hook }

/-- The store with the newest `count` changes. -/
def keepChanges (s : Store ω) (count : Nat) : Store ω :=
  { s with changes := s.changes.drop (s.changes.length - count) }

/-- The changes held, and the store without them. -/
def takeChanges (s : Store ω) : List Change × Store ω := (s.changes, { s with changes := [] })

end Store

end DevConsole
