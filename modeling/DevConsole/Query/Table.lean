import DevConsole.Query.Basic

/-!
The clauses of a query as a table. Clauses are numbered from zero in the order in which they end,
so a group comes after its body, and each row names the first clause of its group and the next
clause of its scope by their numbers.
-/

namespace DevConsole

/-- What a row of the table stands for. -/
inductive RowContent
  | command (call : Invocation)
  /-- A group, by the number of the first clause of its body. -/
  | group (body : Option Nat)
  deriving DecidableEq, Repr

/-- A clause with its number. -/
structure Row where
  id : Nat
  offset : Nat
  link : Link
  content : RowContent
  /-- The number of the next clause of the same scope. -/
  next : Option Nat
  deriving DecidableEq, Repr

/-- The number of the first clause of a chain whose clauses are numbered from `start`. -/
def Chain.firstId? (start : Nat) : Chain → Option Nat
  | .nil => none
  | .command .. => some start
  | .group _ _ body _ => some (start + body.size)

/-- The rows of a chain whose clauses are numbered from `start`, in the order of the numbers. -/
def Chain.rows (start : Nat) : Chain → List Row
  | .nil => []
  | .command link call rest =>
    ⟨start, call.offset, link, .command call, rest.firstId? (start + 1)⟩ :: rest.rows (start + 1)
  | .group link offset body rest =>
    let id := start + body.size
    body.rows start ++
      ⟨id, offset, link, .group (body.firstId? start), rest.firstId? (id + 1)⟩ :: rest.rows (id + 1)

def Query.rows (q : Query) : List Row := q.clauses.rows 0

/-- The number of the first clause of the outermost scope. -/
def Query.rootId? (q : Query) : Option Nat := q.clauses.firstId? 0

end DevConsole
