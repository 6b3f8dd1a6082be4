import DevConsole.Builtin
import DevConsole.Query.Cache
import DevConsole.Query.Resolve
import DevConsole.Query.Walk

/-!
The console: it runs queries on its workspace. An invocation runs a command, an alias, which is a
query of its own, or an assignment to a variable, which is a query that the console writes itself.
Queries inside queries are counted, and one too deep inside others aborts all of them.
-/

namespace DevConsole

/-! ### Consoles -/

/-- The limits of a console. -/
structure Settings where
  /-- How deep queries may run inside queries. -/
  maxDepth : Nat := 32
  /-- The number of clauses after which a running query is warned about. -/
  iterationWarning : Nat := 1000
  /-- The number of parsed queries that are held. -/
  cacheCapacity : Nat := 256
  /-- The number of output lines, and of changes, that are kept until they are taken. -/
  bufferCapacity : Nat := 4096
  deriving DecidableEq, Repr, Inhabited

structure Console (κ ε : Type) extends Workspace κ ε where
  maxDepth : Nat
  iterationWarning : Nat
  cache : QueryCache
  /-- The number of queries that are running, each inside the one before it. -/
  depth : Nat := 0
  /-- The number of clauses visited since the outermost query began. -/
  steps : Nat := 0
  /-- An error of a query that a handler ran, with the source of that query. It aborts the query
  that the handler belongs to as soon as the handler ends. -/
  pending : Option (String × QueryError) := none

namespace Console

variable {κ ε : Type}

/-- A console without commands, in the given state of the host. -/
def ofSettings (s : Settings) (host : ε) : Console κ ε where
  capacity := s.bufferCapacity
  world := { host }
  maxDepth := s.maxDepth
  iterationWarning := s.iterationWarning
  cache := { capacity := s.cacheCapacity }

def mapWorkspace (c : Console κ ε) (f : Workspace κ ε → Workspace κ ε) : Console κ ε :=
  { c with toWorkspace := f c.toWorkspace }

def print (c : Console κ ε) (level : Level) (message : String) : Console κ ε :=
  c.mapWorkspace (·.print level message)

def report (c : Console κ ε) (e : InvocationError) : Console κ ε := c.print .error e.message

/-- The query of a source, and the console after it has been looked up. -/
def parse (c : Console κ ε) (source : String) : Except SyntaxError Query × Console κ ε :=
  let (answer, cache) := c.cache.get source
  (answer, { c with cache })

/-! ### Queries that handlers run -/

/-- How the console runs a query, given with the name to blame for it, inside the one at hand. -/
abbrev Runner (κ ε : Type) :=
  String → Query → Console κ ε → Console κ ε × Except QueryError Bool

/-- The console after an error of a query: inside another query it is left to abort that one, unless
it is contained, and otherwise it is reported. -/
def settle (c : Console κ ε) (contained : Bool) (source : String) (e : QueryError) : Console κ ε :=
  if 0 < c.depth && (!contained || e.isTooDeep) then { c with pending := some (source, e) }
  else c.print .error (e.report source)

/-- The console with no more changes than are kept, unless it is inside a query. -/
def trim (c : Console κ ε) : Console κ ε :=
  if c.depth = 0 then c.mapWorkspace (·.keepChanges) else c

/-- What becomes of a source: whether it passed, or the error that aborted it. -/
def outcome (run : Runner κ ε) (source : String) (c : Console κ ε) :
    Console κ ε × Except QueryError Bool :=
  match c.parse source with
  | (.ok q, c) => run q.text q c
  | (.error e, c) => (c, .error (.malformed e))

/-- Runs a source: whether it passed. Nothing runs while an error is pending. -/
def runSource (run : Runner κ ε) (contained : Bool) (source : String) (c : Console κ ε) :
    Console κ ε × Bool :=
  if c.pending.isSome then (c, false)
  else match c.outcome run source with
    | (c, .ok passed) => (c.trim, passed)
    | (c, .error e) => (c.trim.settle contained source e, false)

/-- Carries out the program of a handler. -/
def perform (run : Runner κ ε) :
    Program (Workspace κ ε) → Console κ ε → Console κ ε × Ending
  | .stop e, c => (c, e)
  | .get k, c => perform run (k c.toWorkspace) c
  | .put w k, c => perform run k { c with toWorkspace := w }
  | .execute contained source k, c =>
    let (c, passed) := c.runSource run contained source
    perform run (k passed) c
  | .parse source k, c =>
    let (answer, c) := c.parse source
    perform run (k answer) c
  | .evaluate q k, c =>
    let (c, answer) := run q.text q c
    perform run (k answer) c

/-! ### Invocations -/

def program (host : Host κ (Workspace κ ε)) (handler : Handler κ) (call : Call) :
    Program (Workspace κ ε) :=
  match handler with
  | .builtin b => b.program call
  | .host k => host.run k call

/-- The console once the handler of the command `name` has ended, and whether the command failed. An
error that is pending counts for more than how the handler ended. -/
def close (c : Console κ ε) (name : String) (ending : Ending) :
    Console κ ε × Except QueryError Bool :=
  match c.pending, ending with
  | some (source, e), _ => ({ c with pending := none }, .error (e.within name source))
  | none, .passed => (c, .ok false)
  | none, .refused e => (c.report (.command name e), .ok true)
  | none, .panicked p => (c.report (.command name (.panicked p)), .ok true)

/-- Runs a command: whether it failed. -/
def invokeCommand (host : Host κ (Workspace κ ε)) (run : Runner κ ε) (handler : Handler κ)
    (call : Invocation) (c : Console κ ε) : Console κ ε × Except QueryError Bool :=
  match resolveAll c.vars.text? call.args with
  | .error e => (c, .error (.undefined e))
  | .ok args =>
    let (c, ending) := c.perform run (program host handler ⟨call.name, args, allConstant call.args⟩)
    c.close call.name ending

/-- The console after it has warned of the arguments of an alias, if there are any. -/
def warnArguments (c : Console κ ε) (call : Invocation) : Console κ ε :=
  if call.args.isEmpty then c
  else c.print .warn s!"Alias '{call.name}' takes no arguments, ignoring {call.args.length}"

/-- Runs an alias: whether it failed. Arguments are passed over. -/
def invokeAlias (run : Runner κ ε) (body : String) (call : Invocation) (c : Console κ ε) :
    Console κ ε × Except QueryError Bool :=
  match (c.warnArguments call).parse body with
  | (.error e, c) => (c, .error ((QueryError.malformed e).within call.name body))
  | (.ok q, c) =>
    match run call.name q c with
    | (c, .ok passed) => (c, .ok !passed)
    | (c, .error e) => (c, .error (e.within call.name body))

/-- The query that assigns `value` to a variable. -/
def assignment (name value : String) : String := "assign " ++ name ++ " " ++ quote value

/-- Shows a variable, or assigns the arguments to it: whether that failed. -/
def invokeVariable (run : Runner κ ε) (call : Invocation) (c : Console κ ε) :
    Console κ ε × Except QueryError Bool :=
  if call.args.isEmpty then
    let value := (c.vars.text? call.name).getD ""
    (c.print .result ("\"" ++ call.name ++ "\" = \"" ++ value ++ "\""), .ok false)
  else match resolveAll c.vars.text? call.args with
    | .error e => (c, .error (.undefined e))
    | .ok args =>
      match DevConsole.parse (assignment call.name (" ".intercalate args)) with
      | .error e => (c, .error (.malformed e))
      | .ok q =>
        match run call.name q c with
        | (c, .ok passed) => (c, .ok !passed)
        | (c, .error e) => (c, .error e)

/-- What a name stands for. -/
inductive Target (κ : Type)
  | command (handler : Handler κ)
  | alias (body : String)
  | variable
  | nothing

/-- What a name stands for: a command, or else an alias, or else a variable. -/
def target (c : Console κ ε) (name : String) : Target κ :=
  match c.commands.find? name, c.aliases.find? name with
  | some command, _ => .command command.handler
  | none, some body => .alias body
  | none, none => if c.vars.has name then .variable else .nothing

/-- Runs an invocation: whether it failed. -/
def invoke (host : Host κ (Workspace κ ε)) (run : Runner κ ε) (call : Invocation)
    (c : Console κ ε) : Console κ ε × Except QueryError Bool :=
  if call.name.isEmpty then
    if call.args.isEmpty then (c, .ok false) else (c.report .missingName, .ok true)
  else match c.target call.name with
    | .command handler => c.invokeCommand host run handler call
    | .alias body => c.invokeAlias run body call
    | .variable => c.invokeVariable run call
    | .nothing => (c.report (.notFound call.name), .ok true)

/-! ### Queries -/

/-- Counts a clause, and warns when there have been as many as are warned about. -/
def countStep (c : Console κ ε) : Console κ ε :=
  let c := { c with steps := c.steps + 1 }
  if c.steps = c.iterationWarning then
    c.print .warn s!"Query has run {c.steps} invocations, check for a runaway alias"
  else c

def enter (c : Console κ ε) : Console κ ε :=
  { c with depth := c.depth + 1, steps := if c.depth = 0 then 0 else c.steps }

def leave (c : Console κ ε) : Console κ ε := { c with depth := c.depth - 1 }

/-- Runs a query below which `levels` more may run; `name` is to blame if it may not run itself. -/
def descend (host : Host κ (Workspace κ ε)) : (levels : Nat) → Runner κ ε
  | 0 => fun name _ c => (c, .error (.tooDeep name c.maxDepth))
  | levels + 1 => fun _ q c =>
    let (c, answer) := q.run ⟨fun _ => countStep, invoke host (descend host levels)⟩ c.enter
    (c.leave, answer)

/-- Runs a query inside those that are running. -/
def runner (host : Host κ (Workspace κ ε)) : Runner κ ε := fun name q c =>
  descend host (c.maxDepth - c.depth) name q c

/-- Runs a query: whether no invocation failed. -/
def evaluate (host : Host κ (Workspace κ ε)) (q : Query) (c : Console κ ε) :
    Console κ ε × Except QueryError Bool :=
  runner host q.text q c

/-- Runs a source: whether no invocation failed. An error that aborts it is printed. -/
def execute (host : Host κ (Workspace κ ε)) (source : String) (c : Console κ ε) :
    Console κ ε × Bool :=
  c.runSource (runner host) false source

/-- Runs a source as a line of a script. -/
def executeLine (host : Host κ (Workspace κ ε)) (source : String) (c : Console κ ε) :
    Console κ ε × Bool :=
  c.runSource (runner host) true source

/-! ### Keys -/

/-- Runs the query that a key is bound to: whether there is one and it passed. -/
def press (host : Host κ (Workspace κ ε)) (key : String) (c : Console κ ε) :
    Console κ ε × Bool :=
  match c.binds.queryFor? key with
  | some source => c.execute host source
  | none => (c, false)

/-- The name with its first character replaced by a minus sign. -/
def releaseName (press : String) : String := String.ofList ('-' :: press.toList.drop 1)

/-- Runs the release of a key, which there is if the key is bound to one invocation of a name with a
plus sign: whether there is one and it passed. -/
def release (host : Host κ (Workspace κ ε)) (key : String) (c : Console κ ε) :
    Console κ ε × Bool :=
  match c.binds.queryFor? key with
  | none => (c, false)
  | some source =>
    match c.parse source with
    | (.error _, c) => (c, false)
    | (.ok q, c) =>
      match q.singlePress?.map releaseName with
      | none => (c, false)
      | some name =>
        if c.commands.contains name || c.aliases.contains name then c.execute host name
        else (c, false)

end Console

end DevConsole
