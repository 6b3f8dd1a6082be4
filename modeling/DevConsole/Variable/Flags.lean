/-!
The flags of a variable: whether it is saved, whether and why it is locked, and whether it is
listed.
-/

namespace DevConsole

structure Flags where
  /-- The value is written to the configuration. -/
  archive : Bool := false
  /-- The value is protected against cheating. -/
  cheat : Bool := false
  /-- The value is fixed. -/
  readOnly : Bool := false
  /-- The value belongs to the server. -/
  replicated : Bool := false
  /-- The variable is left out of listings. -/
  hidden : Bool := false
  deriving DecidableEq, Repr, Inhabited

/-- Why a variable cannot be assigned. -/
inductive Lock
  | readOnly
  | cheat
  | replicated
  deriving DecidableEq, Repr

namespace Flags

def union (a b : Flags) : Flags :=
  ⟨a.archive || b.archive, a.cheat || b.cheat, a.readOnly || b.readOnly,
    a.replicated || b.replicated, a.hidden || b.hidden⟩

/-- The flags of `a` that `b` lacks. -/
def difference (a b : Flags) : Flags :=
  ⟨a.archive && !b.archive, a.cheat && !b.cheat, a.readOnly && !b.readOnly,
    a.replicated && !b.replicated, a.hidden && !b.hidden⟩

/-- Whether `a` has every flag of `b`. -/
def contains (a b : Flags) : Bool := a.union b == a

def isEmpty (a : Flags) : Bool := a == {}

/-- What locks a variable with these flags; of several locks the first one counts. -/
def lock? (a : Flags) : Option Lock :=
  if a.readOnly then some .readOnly
  else if a.cheat then some .cheat
  else if a.replicated then some .replicated
  else none

def isLocked (a : Flags) : Bool := a.lock?.isSome

/-- The flags as a number, one bit for each. -/
def bits (a : Flags) : Nat :=
  a.archive.toNat + 2 * a.cheat.toNat + 4 * a.readOnly.toNat + 8 * a.replicated.toNat +
    16 * a.hidden.toNat

end Flags

end DevConsole
