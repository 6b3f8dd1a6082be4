import DevConsole.Config.Saved
import DevConsole.Program
import DevConsole.Query.Printer
import DevConsole.Query.Scanner

/-!
The console's own commands. Each is a program over the workspace; all but those that read or run
queries are a single step.
-/

namespace DevConsole

/-! ### Arguments -/

/-- The argument at an index, which has to be there. -/
def Call.require (call : Call) (index : Nat) (arguments : String) : Except CommandError String :=
  match call.get? index with
  | some value => .ok value
  | none => .error (.usage call.name arguments)

/-- Whether an argument would be split or read otherwise unless it is quoted. -/
def needsQuoting (arg : String) : Bool :=
  arg.isEmpty || arg.toList.any fun c =>
    Text.isBlank c || c == ';' || c == '&' || c == '|' || c == '(' || c == ')' || c == '"' ||
      c == '\\' || c == '{' || c == '}' || c == '#'

/-- The query that a list of arguments stands for. A single one is the whole query; of several the
first is a name and the others are its arguments. -/
def queryOf : List String → String
  | [] => ""
  | [query] => query
  | name :: args =>
    name ++ String.join (args.map fun arg => " " ++ if needsQuoting arg then quote arg else arg)

def Kind.ofWord? (word : String) : Option Kind :=
  if word == "bool" then some .bool
  else if word == "int" then some .int64
  else if word == "float" then some .float64
  else if word == "string" then some .text
  else none

namespace Workspace

variable {κ ε : Type}

def refuse (w : Workspace κ ε) (e : CommandError) : Workspace κ ε × Ending := (w, .refused e)

/-- The step that goes on with the argument at an index, or fails if there is none. -/
def withArg (call : Call) (index : Nat) (arguments : String)
    (f : String → Workspace κ ε → Workspace κ ε × Ending) (w : Workspace κ ε) :
    Workspace κ ε × Ending :=
  match call.require index arguments with
  | .ok value => f value w
  | .error e => w.refuse e

/-! ### Variables -/

/-- Assigns the arguments behind the first one, joined by blanks. -/
def runAssign (call : Call) : Workspace κ ε → Workspace κ ε × Ending :=
  withArg call 0 "<variable> <value>" fun name w =>
    if call.size < 2 then w.refuse (.usage "assign" "<variable> <value>")
    else match w.assign name (call.joinFrom 1 " ") true with
      | (w, .ok .unchanged) => (w, .passed)
      | (w, .ok (.changed _ new)) => (w.print .debug (name ++ " = \"" ++ new ++ "\""), .passed)
      | (w, .error e) => (w, .ofAssignError e)

/-- Declares a variable; the kind is text unless the second argument names one, and the arguments
behind that are its default. -/
def runDeclare (call : Call) : Workspace κ ε → Workspace κ ε × Ending :=
  withArg call 0 "<name> [bool|int|float|string] [value]" fun name w =>
    let (kind, first) := match (call.get? 1).bind Kind.ofWord? with
      | some kind => (kind, 2)
      | none => (.text, 1)
    let value := if first < call.size then kind.cast (call.joinFrom first " ") else .ok kind.zero
    match value with
    | .error e => w.refuse (.value e)
    | .ok value =>
      match w.vars.declare (.ofDefault name value) with
      | .ok vars => ({ w with vars }, .passed)
      | .error e => w.refuse (.store e)

def runUndeclare (call : Call) : Workspace κ ε → Workspace κ ε × Ending :=
  withArg call 0 "<name>" fun name w =>
    match w.vars.remove name with
    | .ok vars => ({ w with vars }, .passed)
    | .error e => w.refuse (.store e)

/-- The value after `current` among the values, the first one after the last one and after a value
that is not among them. -/
def nextValue (values : List String) (current : String) : String :=
  match values.findIdx? (· == current) with
  | some i => values.getD ((i + 1) % values.length) ""
  | none => values.headD ""

/-- What a truth value or a number is toggled to. -/
def toggled? (e : Entry) : Option String :=
  match e with
  | ⟨.bool, v, _⟩ => some (Kind.bool.format !v.value)
  | ⟨.int32, v, _⟩ => some (if v.value == 0 then "1" else "0")
  | ⟨.int64, v, _⟩ => some (if v.value == 0 then "1" else "0")
  | _ => none

/-- Assigns the next one of the values given, or the other truth value if none are. -/
def runToggle (call : Call) : Workspace κ ε → Workspace κ ε × Ending :=
  withArg call 0 "<variable> [value...]" fun name w =>
    match w.vars.find? name with
    | none => w.refuse (.store (.notFound name))
    | some e =>
      let next? := if 1 < call.size then some (nextValue (call.args.drop 1) e.text) else toggled? e
      match next? with
      | none => w.refuse (.cannotToggle name)
      | some next =>
        match w.assign name next true with
        | (w, .ok _) => (w.print .info (name ++ " = \"" ++ next ++ "\""), .passed)
        | (w, .error e) => (w, .ofAssignError e)

def runReset (call : Call) : Workspace κ ε → Workspace κ ε × Ending :=
  withArg call 0 "<variable>" fun name w =>
    match w.reset name true with
    | (w, .ok _) =>
      let value := (w.vars.text? name).getD ""
      (w.print .info (name ++ " reset to \"" ++ value ++ "\""), .passed)
    | (w, .error e) => (w, .ofAssignError e)

/-! ### Listings -/

/-- Prints some lines and then how many they are. -/
def printCounted (w : Workspace κ ε) (lines : List String) (what : String) : Workspace κ ε :=
  (w.printAll lines).print .info (toString lines.length ++ " " ++ what)

def runEcho (call : Call) (w : Workspace κ ε) : Workspace κ ε × Ending :=
  (w.print .info (call.join " "), .passed)

/-- Lists the variables whose names begin with the first argument, but for hidden ones. -/
def runListVariables (call : Call) (w : Workspace κ ε) : Workspace κ ε × Ending :=
  let shown := w.vars.all.filter fun e =>
    NameMap.beginsWith (call.getD 0 "") e.1 && !e.2.flags.hidden
  let line (e : String × Entry) :=
    e.1 ++ (if e.2.isModified then "*" else "") ++ " = \"" ++ e.2.text ++ "\""
  (w.printCounted (shown.map line) "convars", .passed)

/-- Lists the commands whose names begin with the first argument. -/
def runListCommands (call : Call) (w : Workspace κ ε) : Workspace κ ε × Ending :=
  let line (e : String × Command (Handler κ)) :=
    if e.2.description.isEmpty then e.1 else e.1 ++ " - " ++ e.2.description
  (w.printCounted ((w.commands.withStart (call.getD 0 "")).map line) "commands", .passed)

def helpOn (w : Workspace κ ε) (name : String) : Option (List String) :=
  let orNone (description : String) :=
    name ++ " - " ++ if description.isEmpty then "No description" else description
  match w.commands.find? name with
  | some c => some (orNone c.description :: (c.partner.map ("  Paired with: " ++ ·)).toList)
  | none =>
    match w.aliases.find? name with
    | some body => some [name ++ " - alias for: " ++ body]
    | none =>
      (w.vars.find? name).map fun e =>
        [orNone e.description, "  Type: " ++ e.kind.name, "  Current: " ++ e.text,
          "  Default: " ++ e.defaultText]

/-- Tells about a command, an alias or a variable, or lists the commands. -/
def runHelp (call : Call) (w : Workspace κ ε) : Workspace κ ε × Ending :=
  match call.get? 0 with
  | none =>
    let names := w.commands.byName.names.map ("  " ++ ·)
    (w.printAll ("Commands:" :: names ++
      ["Use 'help <name>' for details, 'cvarlist' for variables"]), .passed)
  | some name =>
    match w.helpOn name with
    | some lines => (w.printAll lines, .passed)
    | none => w.refuse (.unknownName name)

def resultLine (what name description : String) : String :=
  "[" ++ what ++ "] " ++ name ++ if description.isEmpty then "" else " - " ++ description

/-- Lists the commands and variables that have the first argument in their name or description, by
name. -/
def runFind (call : Call) : Workspace κ ε → Workspace κ ε × Ending :=
  withArg call 0 "<search term>" fun part w =>
    let commands := (w.commands.search part).map fun e =>
      (e.1, resultLine "cmd" e.1 e.2.description)
    let vars := (w.vars.search part).map fun e => (e.1, resultLine "var" e.1 e.2.description)
    let sorted := (commands ++ vars).mergeSort fun a b =>
      decide (a.1 < b.1) || a.1 == b.1 && decide (a.2 ≤ b.2)
    (w.printCounted (sorted.map (·.2)) "results", .passed)

/-- Lists the variables whose values differ from their defaults. -/
def runDifferences (w : Workspace κ ε) : Workspace κ ε × Ending :=
  let line (e : String × Entry) :=
    e.1 ++ " = \"" ++ e.2.text ++ "\" (default: \"" ++ e.2.defaultText ++ "\")"
  match w.vars.modified with
  | [] => (w.print .info "No modified convars", .passed)
  | modified => (w.printCounted (modified.map line) "modified convars", .passed)

/-! ### Aliases and bindings -/

def listAliases (w : Workspace κ ε) : Workspace κ ε × Ending :=
  match w.aliases.byName.entries with
  | [] => (w.print .info "No aliases defined", .passed)
  | entries =>
    (w.printAll ("Aliases:" :: entries.map fun e => "  " ++ e.1 ++ " -> " ++ e.2), .passed)

def showAlias (name : String) (w : Workspace κ ε) : Workspace κ ε × Ending :=
  match w.aliases.find? name with
  | some body => (w.print .result (name ++ " -> " ++ body), .passed)
  | none => w.refuse (.aliasNotFound name)

def defineAlias (name body : String) (w : Workspace κ ε) : Workspace κ ε × Ending :=
  match w.aliases.set name body with
  | .ok (_, aliases) => ({ w with aliases }.noteEdit name body, .passed)
  | .error e => w.refuse (.registry e)

/-- Removes an alias and those that differ from it by a sign. -/
def runRemoveAlias (call : Call) : Workspace κ ε → Workspace κ ε × Ending :=
  withArg call 0 "<alias>" fun name w =>
    match w.aliases.removePaired name with
    | .error e => w.refuse (.registry e)
    | .ok (removed, aliases) =>
      let w := removed.foldl (fun w name => w.noteEdit name "") { w with aliases }
      (w.print .info ("Removed " ++ ", ".intercalate removed), .passed)

def showBind (key : String) (w : Workspace κ ε) : Workspace κ ε × Ending :=
  match w.binds.queryFor? key with
  | some query => (w.print .result ("\"" ++ key ++ "\" = \"" ++ query ++ "\""), .passed)
  | none => w.refuse (.notBound key)

def defineBind (key query : String) (w : Workspace κ ε) : Workspace κ ε × Ending :=
  ({ w with binds := (w.binds.bind key query).2 }.noteEdit key query, .passed)

def runRemoveBind (call : Call) : Workspace κ ε → Workspace κ ε × Ending :=
  withArg call 0 "<key>" fun key w =>
    match w.binds.unbind key with
    | (none, _) => w.refuse (.notBound key)
    | (some _, binds) => ({ w with binds }.noteEdit key "", .passed)

def runClearBinds (w : Workspace κ ε) : Workspace κ ε × Ending :=
  if w.binds.byKey.isEmpty then (w, .passed)
  else ({ w with binds := {} }.noteEdit "unbind_all" "", .passed)

/-! ### Files -/

/-- Saves the configuration, to `path` unless the first argument is another file. -/
def runSaveConfig (path : String) (call : Call) (w : Workspace κ ε) : Workspace κ ε × Ending :=
  let path := call.getD 0 path
  match w.save path with
  | (w, .ok ()) => (w.print .info s!"Saved config to '{path}'", .passed)
  | (w, .error e) => w.refuse (.config e)

end Workspace

/-! ### Programs -/

section Programs

variable {κ ε : Type}

/-- Reads `source` as a query and goes on if it is one. -/
def Program.readQuery (source : String) (f : Workspace κ ε → Workspace κ ε × Ending) :
    Program (Workspace κ ε) :=
  .parse source fun
    | .ok _ => .act f
    | .error e => .stop (.refused (.query e source))

/-- Runs lines as queries and then tells how many of them failed, where `failed` have so far. -/
def Program.runLines (file : String) (failed : Nat) : List String → Program (Workspace κ ε)
  | [] => .stop (if failed = 0 then .passed else .refused (.failedLines failed file))
  | line :: lines => .execute true line fun passed =>
    runLines file (if passed then failed else failed + 1) lines

/-- The queries of a script, one on each line that is not blank. -/
def scriptLines (text : String) : List String :=
  ((Text.lines text).map Text.trim).filter fun line => !line.isEmpty

def Program.runScript (call : Call) : Program (Workspace κ ε) :=
  match call.require 0 "<filename>" with
  | .error e => .stop (.refused e)
  | .ok file => .get fun w =>
    match w.world.files.read file with
    | .error e => .stop (.refused (.unreadableScript file e))
    | .ok text => runLines file 0 (scriptLines text)

/-- What a built-in handler does when it is called. -/
def Builtin.program (b : Builtin) (call : Call) : Program (Workspace κ ε) :=
  match b with
  | assign => .act (Workspace.runAssign call)
  | echo => .act (Workspace.runEcho call)
  | editAlias =>
    match call.args with
    | [] => .act Workspace.listAliases
    | [name] => .act (Workspace.showAlias name)
    | name :: args => .readQuery (queryOf args) (Workspace.defineAlias name (queryOf args))
  | removeAlias => .act (Workspace.runRemoveAlias call)
  | declare => .act (Workspace.runDeclare call)
  | undeclare => .act (Workspace.runUndeclare call)
  | toggle => .act (Workspace.runToggle call)
  | reset => .act (Workspace.runReset call)
  | listVariables => .act (Workspace.runListVariables call)
  | listCommands => .act (Workspace.runListCommands call)
  | help => .act (Workspace.runHelp call)
  | find => .act (Workspace.runFind call)
  | differences => .act Workspace.runDifferences
  | editBind =>
    match call.args with
    | [] => .stop (.refused (.usage call.name "<key> [query]"))
    | [key] => .act (Workspace.showBind key)
    | key :: args => .readQuery (queryOf args) (Workspace.defineBind key (queryOf args))
  | removeBind => .act (Workspace.runRemoveBind call)
  | clearBinds => .act Workspace.runClearBinds
  | saveConfig path => .act (Workspace.runSaveConfig path call)
  | runScript => .runScript call

end Programs

/-! ### Registration -/

/-- The commands that every console has: their names, handlers and descriptions. -/
def coreCommands : List (String × Builtin × String) :=
  [("assign", .assign, "Assign a value to a variable"),
    ("echo", .echo, "Print text to console"),
    ("alias", .editAlias, "Create, show or list aliases"),
    ("unalias", .removeAlias, "Remove an alias and its +/- forms"),
    ("declare", .declare, "Declare a user variable"),
    ("undeclare", .undeclare, "Remove a user variable"),
    ("toggle", .toggle, "Toggle a variable or cycle it through values"),
    ("reset", .reset, "Reset a variable to its default value"),
    ("cvarlist", .listVariables, "List console variables"),
    ("cmdlist", .listCommands, "List console commands"),
    ("help", .help, "Show help for a command, alias or variable"),
    ("find", .find, "Search commands and variables by name or description"),
    ("differences", .differences, "Show variables with non-default values"),
    ("bind", .editBind, "Bind a key to a query, or show a binding"),
    ("unbind", .removeBind, "Remove a key binding"),
    ("unbind_all", .clearBinds, "Remove every key binding")]

/-- The commands that work on files, where `path` is that of the configuration. -/
def fileCommands (path : String) : List (String × Builtin × String) :=
  [("host_writeconfig", .saveConfig path,
      "Save ARCHIVE convars, aliases and binds to the config file"),
    ("exec", .runScript, "Run a file of queries, one per line")]

/-- The workspace with some of the console's own commands. -/
def Workspace.registerBuiltins {κ ε : Type} (w : Workspace κ ε)
    (commands : List (String × Builtin × String)) : Workspace κ ε :=
  let add (cs : Commands (Handler κ)) (c : String × Builtin × String) : Commands (Handler κ) :=
    (cs.insert { name := c.1, handler := .builtin c.2.1, description := c.2.2 }).2
  { w with commands := commands.foldl add w.commands }

end DevConsole
