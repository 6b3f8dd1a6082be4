import DevConsole.Console

/-!
A console inside an application that runs in frames. In every frame the queries that were submitted
are run, then the keys that went down or up are handled; what the console has printed and which
variables have changed is passed on; and if something that is saved has changed, it is saved.
-/

namespace DevConsole

inductive Message
  | input (source : String)
  | press (key : String)
  | release (key : String)
  deriving DecidableEq, Repr

/-- What a console sends in a frame. -/
structure FrameReport where
  output : List OutputLine
  changes : List Change
  deriving DecidableEq, Repr

namespace Console

variable {κ ε : Type}

/-! ### The steps of a frame -/

/-- The console after a query has been submitted. It is echoed first; a blank one does nothing. -/
def submit (host : Host κ (Workspace κ ε)) (source : String) (c : Console κ ε) : Console κ ε :=
  let source := Text.trim source
  if source.isEmpty then c
  else ((c.print .command ("$ " ++ source)).execute host source).1

/-- The console after a message, if it is a query. -/
def handleInput (host : Host κ (Workspace κ ε)) (c : Console κ ε) : Message → Console κ ε
  | .input source => c.submit host source
  | _ => c

/-- The console after a message, if it is about a key. -/
def handleKey (host : Host κ (Workspace κ ε)) (c : Console κ ε) : Message → Console κ ε
  | .press key => (c.press host key).1
  | .release key => (c.release host key).1
  | .input _ => c

/-- What the console has to pass on, and the console without it. -/
def passOn (c : Console κ ε) : FrameReport × Console κ ε :=
  let (output, w) := c.toWorkspace.takeOutput
  let (changes, w) := w.takeChanges
  (⟨output, changes⟩, { c with toWorkspace := w })

/-- The console after it has been saved, if something has changed. The mark is gone even if the
file cannot be written. -/
def saveIfDirty (path : String) (c : Console κ ε) : Console κ ε :=
  c.mapWorkspace fun w =>
    match w.takeDirty with
    | (true, w) => (w.save path).1
    | (false, w) => w

/-- A frame with some messages. -/
def frame (host : Host κ (Workspace κ ε)) (path : String) (messages : List Message)
    (c : Console κ ε) : FrameReport × Console κ ε :=
  let c := messages.foldl (handleInput host) c
  let c := messages.foldl (handleKey host) c
  let (report, c) := c.passOn
  (report, c.saveIfDirty path)

/-! ### The start -/

/-- The console with the commands that every console has. -/
def installCore (c : Console κ ε) : Console κ ε :=
  c.mapWorkspace (·.registerBuiltins coreCommands)

/-- The console with the commands that work on files, and with a hook that sees to saving. -/
def installSaving (path : String) (c : Console κ ε) : Console κ ε :=
  c.mapWorkspace fun w => (w.registerBuiltins (fileCommands path)).trackChanges

/-- The console that sees to saving, with what was saved before. -/
def restore (path : String) (c : Console κ ε) : Console κ ε :=
  (c.installSaving path).mapWorkspace fun w => (w.load path).1

/-- The console at its first frame. -/
def start (path : String) (c : Console κ ε) : Console κ ε := c.installCore.restore path

end Console

end DevConsole
