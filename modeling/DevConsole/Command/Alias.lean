import DevConsole.Command.Registry

/-!
Aliases: names that stand for the text of a query. The text is read each time the alias runs.
-/

namespace DevConsole

/-- Queries by alias. -/
structure Aliases where
  byName : NameMap String := .empty

namespace Aliases

def find? (as : Aliases) (name : String) : Option String := as.byName.find? name

def contains (as : Aliases) (name : String) : Bool := as.byName.contains name

/-- The aliases with one more, and the text it stood for before. -/
def set (as : Aliases) (name body : String) : Except RegistryError (Option String × Aliases) :=
  if Text.isValidPairedName name then .ok (as.find? name, ⟨as.byName.insert name body⟩)
  else .error (.invalidName name)

def remove (as : Aliases) (name : String) : Except RegistryError (String × Aliases) :=
  match as.find? name with
  | some body => .ok (body, ⟨as.byName.erase name⟩)
  | none => .error (.notFound name)

/-- The name without any signs in front. -/
def baseName (name : String) : String :=
  String.ofList (name.toList.dropWhile fun c => c == '+' || c == '-')

/-- The name without signs, with a plus and with a minus, as far as there are such aliases, and the
aliases without them. -/
def removePaired (as : Aliases) (name : String) : Except RegistryError (List String × Aliases) :=
  let base := baseName name
  let removed := [base, "+" ++ base, "-" ++ base].filter as.contains
  if removed.isEmpty then .error (.notFound name)
  else .ok (removed, ⟨removed.foldl NameMap.erase as.byName⟩)

end Aliases

end DevConsole
