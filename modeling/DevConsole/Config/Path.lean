/-!
Paths: texts that lead from the root of a tree to a place in it, with slashes between the steps.
-/

namespace DevConsole

/-! ### Pieces -/

/-- The pieces of a text between slashes, where `piece` holds the first one so far, last character
first. -/
def splitPath (piece : List Char) : List Char → List String
  | [] => [String.ofList piece.reverse]
  | '/' :: cs => String.ofList piece.reverse :: splitPath [] cs
  | c :: cs => splitPath (c :: piece) cs

def pathPieces (path : String) : List String := splitPath [] path.toList

/-- Whether a path can only be that of a directory. -/
def endsInSlash (path : String) : Bool := path.toList.getLast? == some '/'

/-! ### Steps -/

inductive PathStep
  | stay
  | up
  | down (name : String)
  deriving DecidableEq, Repr

/-- The step that a piece of a path stands for; an empty piece is none. -/
def PathStep.ofPiece? (piece : String) : Option PathStep :=
  if piece == "" then none
  else if piece == "." then some .stay
  else if piece == ".." then some .up
  else some (.down piece)

def pathSteps (path : String) : List PathStep := (pathPieces path).filterMap PathStep.ofPiece?

/-- Whether the name that a step leads down to is longer than names of files can be. -/
def PathStep.isTooLong : PathStep → Bool
  | down name => 255 < name.utf8ByteSize
  | _ => false

/-! ### Places -/

/-- A place in a tree: the names on the way to it from the root, last one first. The places above
the root have two points for each level. -/
abbrev Place : Type := List String

def Place.after (place : Place) : PathStep → Place
  | .stay => place
  | .up =>
    match place with
    | [] => [".."]
    | name :: above => if name == ".." then ".." :: place else above
  | .down name => name :: place

/-- Whether the place is the root or lies above it. -/
def Place.isOutside (place : Place) : Bool := place.all (· == "..")

def Place.path (place : Place) : String := "/".intercalate place.reverse

/-! ### Parents -/

/-- The paths that the pieces of a path, last one first, make up when more and more of them are
left off at the end, the longest one first. None ends in a piece that leads nowhere, but a single
point may stand alone. -/
def cutPaths : List String → List String
  | [] => []
  | piece :: pieces =>
    if piece == "" || (piece == "." && !pieces.isEmpty) then cutPaths pieces
    else Place.path (piece :: pieces) :: cutPaths pieces

/-- The paths of the directories that what `path` leads to lies in, the innermost first. -/
def parentPaths (path : String) : List String := (cutPaths (pathPieces path).reverse).drop 1

end DevConsole
