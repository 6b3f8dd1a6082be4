import DevConsole.Config.Path
import DevConsole.NameMap

/-!
A tree of text files. Paths start at its root. Each step of a path starts from a directory, also
one that stays there or leads up, and a path through a file is refused, as is reading or writing a
directory. Main statement: a text that has been written can be read (`read_of_write`).
-/

namespace DevConsole

inductive FileError
  | notFound
  | alreadyExists
  | notDirectory
  | isDirectory
  | nameTooLong
  /-- The path holds the character with the code zero. -/
  | nulByte
  deriving DecidableEq, Repr

def FileError.message : FileError → String
  | notFound => "No such file or directory (os error 2)"
  | alreadyExists => "File exists (os error 17)"
  | notDirectory => "Not a directory (os error 20)"
  | isDirectory => "Is a directory (os error 21)"
  | nameTooLong => "File name too long (os error 36)"
  | nulByte => "file name contained an unexpected NUL byte"

/-- What stands in a directory. -/
inductive FileNode
  | directory
  | file (text : String)
  deriving DecidableEq, Repr

/-- Directories and files by the paths of their places. -/
structure Files where
  nodes : NameMap FileNode := .empty

namespace Files

/-! ### Walks -/

/-- What stands at a place; above the root there are directories only. -/
def nodeAt? (fs : Files) (place : Place) : Option FileNode :=
  if place.isOutside then some .directory else fs.nodes.find? place.path

/-- The place that a step leads to from a directory. -/
def step (fs : Files) (place : Place) (s : PathStep) : Except FileError Place :=
  match fs.nodeAt? place with
  | none => .error .notFound
  | some (.file _) => .error .notDirectory
  | some .directory => if s.isTooLong then .error .nameTooLong else .ok (place.after s)

/-- The place that steps lead to from the root. -/
def walk (fs : Files) (steps : List PathStep) : Except FileError Place := steps.foldlM fs.step []

/-- The steps along a path, if there can be such a path. -/
def stepsOf (path : String) : Except FileError (List PathStep) :=
  if path.toList.contains '\x00' then .error .nulByte
  else if path.isEmpty then .error .notFound
  else if 4096 ≤ path.utf8ByteSize then .error .nameTooLong
  else .ok (pathSteps path)

/-- The directory that a path ends in, and the last step from there. -/
def approach (fs : Files) (path : String) : Except FileError (Place × PathStep) := do
  let steps ← stepsOf path
  let place ← fs.step (← fs.walk steps.dropLast) .stay
  return (place, steps.getLast?.getD .stay)

/-! ### Reading -/

def node (fs : Files) (path : String) : Except FileError FileNode := do
  let place ← fs.walk (← stepsOf path)
  match fs.nodeAt? place with
  | none => .error .notFound
  | some (.file text) => if endsInSlash path then .error .notDirectory else .ok (.file text)
  | some .directory => .ok .directory

def exists? (fs : Files) (path : String) : Bool := (fs.node path).toBool

def read (fs : Files) (path : String) : Except FileError String :=
  match fs.node path with
  | .ok (.file text) => .ok text
  | .ok .directory => .error .isDirectory
  | .error e => .error e

/-! ### Writing -/

def put (fs : Files) (place : Place) (n : FileNode) : Files :=
  { fs with nodes := fs.nodes.insert place.path n }

/-- The tree with a text in a file, which may be new but lies in a directory that is there. -/
def write (fs : Files) (path text : String) : Except FileError Files :=
  match fs.approach path with
  | .error e => .error e
  | .ok (above, .down name) =>
    if endsInSlash path then .error .isDirectory
    else match fs.step above (.down name) with
      | .error e => .error e
      | .ok place =>
        if fs.nodeAt? place = some .directory then .error .isDirectory
        else .ok (fs.put place (.file text))
  | .ok _ => .error .isDirectory

/-- The tree with a new directory, which lies in one that is there. -/
def makeDirectory (fs : Files) (path : String) : Except FileError Files :=
  match fs.approach path with
  | .error e => .error e
  | .ok (above, .down name) =>
    match fs.step above (.down name) with
    | .error e => .error e
    | .ok place =>
      if (fs.nodeAt? place).isSome then .error .alreadyExists else .ok (fs.put place .directory)
  | .ok _ => .error .alreadyExists

/-- The tree with a directory, which may be there already. -/
def ensureDirectory (fs : Files) (path : String) : Except FileError Files :=
  match fs.makeDirectory path with
  | .error .alreadyExists =>
    match fs.node path with
    | .ok .directory => .ok fs
    | _ => .error .alreadyExists
  | answer => answer

/-- The tree with the first of some directories, each of which lies in the next one. Those that are
missing are made from the outermost on, and stay if a later one cannot be made. -/
def makeDirectories (fs : Files) : List String → Files × Except FileError Unit
  | [] => (fs, .ok ())
  | path :: above =>
    match fs.ensureDirectory path with
    | .ok fs => (fs, .ok ())
    | .error .notFound =>
      match fs.makeDirectories above with
      | (fs, .error e) => (fs, .error e)
      | (fs, .ok ()) =>
        match fs.ensureDirectory path with
        | .ok fs => (fs, .ok ())
        | .error e => (fs, .error e)
    | .error e => (fs, .error e)

/-! ### What is read back -/

theorem nodeAt?_put_self {fs : Files} {place : Place} (n : FileNode)
    (h : fs.nodeAt? place ≠ some .directory) : (fs.put place n).nodeAt? place = some n := by
  have inside : place.isOutside = false := by
    cases ho : place.isOutside with
    | false => rfl
    | true => exact absurd (by simp [nodeAt?, ho]) h
  simp [nodeAt?, put, inside, NameMap.find?_insert]

theorem nodeAt?_put_directory {fs : Files} {place other : Place} (n : FileNode)
    (h : fs.nodeAt? place ≠ some .directory) (ho : fs.nodeAt? other = some .directory) :
    (fs.put place n).nodeAt? other = some .directory := by
  unfold nodeAt? at h ho ⊢
  cases hi : other.isOutside with
  | true => simp
  | false =>
    simp only [hi, Bool.false_eq_true, if_false, put, NameMap.find?_insert] at ho ⊢
    by_cases hp : other.path = place.path
    · rw [hp] at ho
      cases hj : place.isOutside <;> simp_all
    · simp [hp, ho]

theorem step_put {fs : Files} {place p q : Place} (n : FileNode) {s : PathStep}
    (h : fs.nodeAt? place ≠ some .directory) (hs : fs.step p s = .ok q) :
    (fs.put place n).step p s = .ok q := by
  unfold step at hs ⊢
  split at hs
  · cases hs
  · cases hs
  · rename_i hp
    rwa [nodeAt?_put_directory n h hp]

theorem foldlM_step_put {fs : Files} {place q : Place} (n : FileNode)
    (h : fs.nodeAt? place ≠ some .directory) (steps : List PathStep) :
    ∀ p, steps.foldlM fs.step p = .ok q → steps.foldlM (fs.put place n).step p = .ok q := by
  induction steps with
  | nil => exact fun _ hp => hp
  | cons s steps ih =>
    intro p hp
    cases hs : fs.step p s with
    | error e => simp [List.foldlM_cons, hs, bind, Except.bind] at hp
    | ok r =>
      rw [List.foldlM_cons, hs] at hp
      rw [List.foldlM_cons, step_put n h hs]
      exact ih r hp

/-- The parts of a way that can be gone, up to its last step. -/
theorem approach_eq_ok {fs : Files} {path : String} {above : Place} {s : PathStep}
    (h : fs.approach path = .ok (above, s)) :
    ∃ steps, stepsOf path = .ok steps ∧ fs.walk steps.dropLast = .ok above ∧
      s = steps.getLast?.getD .stay := by
  unfold approach at h
  cases hp : stepsOf path with
  | error e => simp [hp, bind, Except.bind] at h
  | ok steps =>
    cases hw : fs.walk steps.dropLast with
    | error e => simp [hp, hw, bind, Except.bind] at h
    | ok place =>
      refine ⟨steps, rfl, ?_⟩
      simp only [hp, hw, bind, Except.bind, step, PathStep.isTooLong, Place.after, pure,
        Except.pure] at h
      split at h
      · cases h
      · split at * <;> simp_all

/-- A text that has been written can be read. -/
theorem read_of_write {fs written : Files} {path text : String}
    (h : fs.write path text = .ok written) : written.read path = .ok text := by
  unfold write at h
  split at h
  · cases h
  · rename_i above name ha
    split at h
    · cases h
    · rename_i hslash
      split at h
      · cases h
      · rename_i place hplace
        split at h
        · cases h
        · rename_i hdir
          obtain rfl := Except.ok.inj h
          obtain ⟨steps, hsteps, hwalk, hlast⟩ := approach_eq_ok ha
          have hsplit : steps = steps.dropLast ++ [.down name] := by
            cases hl : steps.getLast? with
            | none => simp [hl] at hlast
            | some s =>
              obtain ⟨front, rfl⟩ := List.getLast?_eq_some_iff.1 hl
              simp [show s = .down name by simpa using hlast.symm]
          have hfull : (fs.put place (.file text)).walk steps = .ok place := by
            rw [hsplit, walk, List.foldlM_append, foldlM_step_put _ hdir _ _ hwalk]
            simp [bind, Except.bind, step_put _ hdir hplace, pure, Except.pure]
          simp [read, node, hsteps, hfull, bind, Except.bind, nodeAt?_put_self _ hdir, hslash]
  · cases h

end Files

end DevConsole
