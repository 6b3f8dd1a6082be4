import DevConsole.Query.Basic

/-!
Running the clauses of a query. The walk holds the chains that remain to be run, the innermost
first: the rest of the scope it is in, and behind it what follows the groups it is inside. After
each invocation it goes on to the next clause whose link allows it. An invocation that is not
allowed ends its scope; a group that is not allowed is passed over.
-/

namespace DevConsole

/-! ### The next clause -/

/-- A clause that may run, with the chains that remain after it. -/
inductive Stop
  | command (call : Invocation) (rest : List Chain)
  /-- A group, by its offset; its body comes first among the chains that remain. -/
  | group (offset : Nat) (rest : List Chain)

/-- The next clause of a chain that may run after an invocation that failed, or did not, if `after`
remains behind the chain. -/
def Chain.stop? (failed : Bool) (after : List Chain) : Chain → Option Stop
  | .nil => none
  | .command link call rest =>
    if link.allows failed then some (.command call (rest :: after)) else none
  | .group link offset body rest =>
    if link.allows failed then some (.group offset (body :: rest :: after))
    else rest.stop? failed after

/-- The next clause of several chains that may run. -/
def nextStop? (failed : Bool) : List Chain → Option Stop
  | [] => none
  | c :: after =>
    match c.stop? failed after with
    | some stop => some stop
    | none => nextStop? failed after

/-! ### The measure of what remains -/

/-- The number of clauses in several chains. -/
def remaining : List Chain → Nat
  | [] => 0
  | c :: cs => c.size + remaining cs

def Stop.rest : Stop → List Chain
  | command _ rest => rest
  | group _ rest => rest

theorem Chain.remaining_stop? {failed : Bool} {after : List Chain} {stop : Stop} :
    ∀ {c : Chain}, c.stop? failed after = some stop →
      remaining stop.rest < c.size + remaining after
  | .nil, h => by simp [Chain.stop?] at h
  | .command link call rest, h => by
    simp only [Chain.stop?] at h
    split at h
    · cases h; simp [Stop.rest, remaining, Chain.size]
    · simp at h
  | .group link offset body rest, h => by
    simp only [Chain.stop?] at h
    split at h
    · cases h; simp [Stop.rest, remaining, Chain.size]; omega
    · have := Chain.remaining_stop? h
      simp only [Chain.size]; omega

theorem remaining_nextStop? {failed : Bool} {stop : Stop} :
    ∀ {cs : List Chain}, nextStop? failed cs = some stop → remaining stop.rest < remaining cs
  | [], h => by simp [nextStop?] at h
  | c :: after, h => by
    simp only [nextStop?] at h
    split at h
    · next s hs =>
      cases h
      have := Chain.remaining_stop? hs
      simp only [remaining] at this ⊢
      omega
    · have := remaining_nextStop? h
      simp only [remaining] at this ⊢
      omega

/-! ### The walk -/

/-- What happens at the clauses: `visit` at each of them, given its offset, and then `invoke` at an
invocation, which answers whether it failed or breaks off. -/
structure Visitor (σ ε : Type) where
  visit : Nat → σ → σ
  invoke : Invocation → σ → σ × Except ε Bool

/-- Runs the chains that remain, after an invocation that failed, or did not; `anyFailed` tells
whether one has failed so far. The answer is whether none failed. -/
def walk {σ ε : Type} (v : Visitor σ ε) (failed anyFailed : Bool) (cs : List Chain) (s : σ) :
    σ × Except ε Bool :=
  match _h : nextStop? failed cs with
  | none => (s, .ok (!anyFailed))
  | some (.group offset rest) => walk v failed anyFailed rest (v.visit offset s)
  | some (.command call rest) =>
    match v.invoke call (v.visit call.offset s) with
    | (s, .ok failed) => walk v failed (anyFailed || failed) rest s
    | (s, .error e) => (s, .error e)
  termination_by remaining cs
  decreasing_by all_goals exact remaining_nextStop? _h

/-- Runs a query: whether no invocation failed. -/
def Query.run {σ ε : Type} (q : Query) (v : Visitor σ ε) (s : σ) : σ × Except ε Bool :=
  walk v false false [q.clauses] s

end DevConsole
