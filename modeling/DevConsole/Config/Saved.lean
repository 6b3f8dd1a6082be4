import DevConsole.Config.Reader
import DevConsole.Config.Writer
import DevConsole.Workspace

/-!
Saving what a console holds and loading it again. Variables with the flag for it, aliases and
bindings are saved. Loading assigns without going through to the hook, so a configuration that has
just been loaded need not be saved.
-/

namespace DevConsole

/-! ### Files -/

def Snapshot.load (files : Files) (path : String) : Except ConfigError Snapshot :=
  match files.read path with
  | .error e => .error (.file path e)
  | .ok text =>
    match Snapshot.read? text with
    | some c => .ok c
    | none => .error (.unreadable path)

/-- The files with the directory that is to hold `path`, and those that it lies in. -/
def Files.prepare (files : Files) (path : String) : Files × Except ConfigError Unit :=
  match parentPaths path with
  | [] => (files, .ok ())
  | parent :: above =>
    if files.exists? parent then (files, .ok ())
    else match files.makeDirectories (parent :: above) with
      | (files, .ok ()) => (files, .ok ())
      | (files, .error e) => (files, .error (.file parent e))

/-- The files with the configuration in one of them. Directories on the way are made. -/
def Snapshot.save (c : Snapshot) (files : Files) (path : String) :
    Files × Except ConfigError Unit :=
  match files.prepare path with
  | (files, .error e) => (files, .error e)
  | (files, .ok ()) =>
    match files.write path c.text with
    | .ok written => (written, .ok ())
    | .error e => (files, .error (.file path e))

namespace Workspace

variable {κ ε : Type}

/-! ### Snapshots -/

/-- What would be saved. -/
def snapshot (w : Workspace κ ε) : Snapshot where
  values := .ofList (w.vars.archived.map fun e => (e.1, e.2.text))
  aliases := w.aliases.byName
  binds := w.binds.byKey

theorem find?_foldl_archived (m : NameMap Entry) (start : NameMap String) (name : String) :
    (((m.entries.filter (·.2.flags.archive)).map fun e => (e.1, e.2.text)).foldl
      (fun texts e => texts.insert e.1 e.2) start).find? name =
    (((m.find? name).filter (·.flags.archive)).map Entry.text).or (start.find? name) := by
  have hsorted : ((m.entries.filter (·.2.flags.archive)).map fun e => (e.1, e.2.text)).Pairwise
      (fun a b => a.1 < b.1) :=
    List.pairwise_map.2 (m.sorted.filter _)
  rw [NameMap.find?_foldl_insert hsorted, NameMap.lookup_map,
    NameMap.lookup_filter_value m.sorted (·.flags.archive)]
  rfl

/-- A snapshot holds the text of each variable that is saved. -/
theorem find?_values (w : Workspace κ ε) (name : String) : w.snapshot.values.find? name =
    (((w.vars.user.find? name).filter (·.flags.archive)).or
      ((w.vars.builtins.find? name).filter (·.flags.archive))).map Entry.text := by
  simp only [snapshot, Store.archived, Store.all, NameMap.ofList, List.filter_append,
    List.map_append, List.foldl_append, find?_foldl_archived, NameMap.find?_empty, Option.or_none,
    Option.map_or]

/-- The workspace after texts have been assigned to variables, and the number of those that could
be assigned. -/
def applyValues (w : Workspace κ ε) (applied : Nat) :
    List (String × String) → Workspace κ ε × Except Panic Nat
  | [] => (w, .ok applied)
  | (name, text) :: rest =>
    match w.assign name text false with
    | (w, .ok _) => w.applyValues (applied + 1) rest
    | (w, .error (.refused _)) => w.applyValues applied rest
    | (w, .error (.panicked p)) => (w, .error p)

/-- The workspace with one more alias, and the number of entries that could be applied. -/
def applyAlias (state : Workspace κ ε × Nat) (e : String × String) : Workspace κ ε × Nat :=
  match state.1.aliases.set e.1 e.2 with
  | .ok (_, aliases) => ({ state.1 with aliases }, state.2 + 1)
  | .error _ => state

def applyBind (state : Workspace κ ε × Nat) (e : String × String) : Workspace κ ε × Nat :=
  ({ state.1 with binds := (state.1.binds.bind e.1 e.2).2 }, state.2 + 1)

/-- The workspace with the entries of a configuration, and the number of those that could be
applied; the others are left out. -/
def apply (w : Workspace κ ε) (c : Snapshot) : Workspace κ ε × Except Panic Nat :=
  match w.applyValues 0 c.values.entries with
  | (w, .error p) => (w, .error p)
  | (w, .ok applied) =>
    let state := c.aliases.entries.foldl applyAlias (w, applied)
    let (w, applied) := c.binds.entries.foldl applyBind state
    (w, .ok applied)

/-! ### The files of the world -/

inductive LoadError
  | config (e : ConfigError)
  | panicked (p : Panic)

def save (w : Workspace κ ε) (path : String) : Workspace κ ε × Except ConfigError Unit :=
  let (files, answer) := w.snapshot.save w.world.files path
  ({ w with world := { w.world with files } }, answer)

/-- The workspace after a configuration has been loaded from a file, and the number of entries
applied; a file that is not there has none. -/
def load (w : Workspace κ ε) (path : String) : Workspace κ ε × Except LoadError Nat :=
  if !w.world.files.exists? path then (w, .ok 0)
  else match Snapshot.load w.world.files path with
    | .error e => (w, .error (.config e))
    | .ok c =>
      match w.apply c with
      | (w, .ok applied) => (w, .ok applied)
      | (w, .error p) => (w, .error (.panicked p))

/-- The workspace whose hook marks its world as changed. -/
def trackChanges (w : Workspace κ ε) : Workspace κ ε :=
  { w with vars := w.vars.withHook World.markDirty }

/-- Whether the world was marked as changed, and the workspace without the mark. -/
def takeDirty (w : Workspace κ ε) : Bool × Workspace κ ε :=
  (w.world.dirty, { w with world := { w.world with dirty := false } })

end Workspace

end DevConsole
