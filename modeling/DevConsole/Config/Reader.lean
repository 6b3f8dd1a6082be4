import DevConsole.Config.Snapshot
import DevConsole.Config.Switch
import DevConsole.Config.Value

/-!
Reading configuration files. A file is a record in parentheses, with or without its name, whose
fields are maps from texts to texts; each field may be missing, fields of other names are passed
over, and blanks and comments may stand between all pieces.
-/

namespace DevConsole.ConfigReader

/-! ### Maps -/

/-- The map `m` with one more entry; of two entries with one name the later one counts. -/
def readEntry (m : NameMap String) (cs : List Char) : Option (NameMap String × List Char) := do
  let (name, cs) ← readText cs
  let cs ← expect ':' (← skip cs)
  let (value, cs) ← readText (← skip cs)
  return (m.insert name value, cs)

def readMap (cs : List Char) : Option (NameMap String × List Char) := do
  readGroup readEntry '\x7d' .empty (← expect '\x7b' cs)

/-! ### Fields -/

structure Fields where
  values : Option (NameMap String) := none
  aliases : Option (NameMap String) := none
  binds : Option (NameMap String) := none

/-- The configuration that the fields make up; a field that is missing is empty. -/
def Fields.snapshot (fs : Fields) : Snapshot :=
  ⟨fs.values.getD .empty, fs.aliases.getD .empty, fs.binds.getD .empty⟩

/-- How many levels the value of an unknown field may have: 128 levels are allowed in a file, and
the record and the field take one each. -/
def fieldDepth : Nat := 126

/-- The fields after the value of `name` has been read. A known field must not come twice. -/
def Fields.read (fs : Fields) (name : String) (cs : List Char) : Option (Fields × List Char) :=
  if name == "convars" then
    if fs.values.isSome then none
    else (readMap cs).map fun (m, rest) => ({ fs with values := some m }, rest)
  else if name == "aliases" then
    if fs.aliases.isSome then none
    else (readMap cs).map fun (m, rest) => ({ fs with aliases := some m }, rest)
  else if name == "binds" then
    if fs.binds.isSome then none
    else (readMap cs).map fun (m, rest) => ({ fs with binds := some m }, rest)
  else (skipValue fieldDepth cs).map fun rest => (fs, rest)

def readField (fs : Fields) (cs : List Char) : Option (Fields × List Char) := do
  let (name, cs) ← readName cs
  let cs ← expect ':' (← skip cs)
  fs.read name (← skip cs)

/-! ### Files -/

/-- What follows the name of the record, which need not be there unless `required`. -/
def skipRecordName (required : Bool) (cs : List Char) : Option (List Char) :=
  if cs.head?.any Text.continuesIdentifier then do
    let (name, rest) ← readName cs
    if name == "ConsoleConfigFile" then skip rest else none
  else if required then none
  else some cs

def readFile (cs : List Char) : Option Snapshot := do
  let cs ← skip cs
  let (on, cs) ← readSwitches cs.length [] cs
  let cs ← skipRecordName (on.contains .explicitNames) cs
  let (fs, rest) ← readGroup readField ')' {} (← expect '(' cs)
  if (← skip rest).isEmpty then some fs.snapshot else none

end DevConsole.ConfigReader

namespace DevConsole

/-- The configuration that the text of a file holds. -/
def Snapshot.read? (text : String) : Option Snapshot := ConfigReader.readFile text.toList

end DevConsole
