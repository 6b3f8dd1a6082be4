import Mathlib.Tactic.Common
import DevConsole.Query.Printer
import DevConsole.Query.Table

/-!
Queries up to their offsets. A tree without offsets is a tree whose offsets are all zero; the
canonical text of a query and the numbers in its table do not depend on the offsets.
-/

namespace DevConsole

/-! ### Trees without offsets -/

def Part.unplaced : Part → Part
  | .literal text _ => .literal text 0
  | .reference name _ => .reference name 0

def Argument.unplaced (a : Argument) : Argument := ⟨a.parts.map Part.unplaced, 0⟩

def Invocation.unplaced (call : Invocation) : Invocation :=
  ⟨call.name, 0, call.args.map Argument.unplaced⟩

/-- The chain with all offsets zero. -/
def Chain.unplaced : Chain → Chain
  | .nil => .nil
  | .command link call rest => .command link call.unplaced rest.unplaced
  | .group link _ body rest => .group link 0 body.unplaced rest.unplaced

def Row.unplaced (row : Row) : Row :=
  { row with
    offset := 0
    content := match row.content with
      | .command call => .command call.unplaced
      | .group body => .group body }

@[simp] theorem Invocation.unplaced_name (call : Invocation) : call.unplaced.name = call.name := rfl

@[simp] theorem Invocation.unplaced_args (call : Invocation) :
    call.unplaced.args = call.args.map Argument.unplaced := rfl

namespace Chain

@[simp] theorem unplaced_append : ∀ c d : Chain, (c ++ d).unplaced = c.unplaced ++ d.unplaced
  | nil, _ => rfl
  | command _ _ rest, d => by simp [unplaced, unplaced_append rest d]
  | group _ _ _ rest, d => by simp [unplaced, unplaced_append rest d]

@[simp] theorem isNil_unplaced (c : Chain) : c.unplaced.isNil = c.isNil := by cases c <;> rfl

@[simp] theorem size_unplaced : ∀ c : Chain, c.unplaced.size = c.size
  | nil => rfl
  | command _ _ rest => by simp [unplaced, size, size_unplaced rest]
  | group _ _ body rest => by simp [unplaced, size, size_unplaced body, size_unplaced rest]

end Chain

/-! ### What does not depend on offsets -/

@[simp] theorem Part.text_unplaced (p : Part) : p.unplaced.text = p.text := by cases p <;> rfl

@[simp] theorem Argument.text_unplaced (a : Argument) : a.unplaced.text = a.text := by
  simp [Argument.text, Argument.unplaced, Function.comp_def]

@[simp] theorem Invocation.text_unplaced (call : Invocation) : call.unplaced.text = call.text := by
  simp [Invocation.text, Function.comp_def]

@[simp] theorem Chain.text_unplaced (joined : Bool) (c : Chain) :
    c.unplaced.text joined = c.text joined := by
  induction c generalizing joined with
  | nil => rfl
  | command link call rest ih => simp [Chain.unplaced, Chain.text, ih]
  | group link offset body rest ihb ihr => simp [Chain.unplaced, Chain.text, ihb, ihr]

@[simp] theorem Chain.firstId?_unplaced (start : Nat) (c : Chain) :
    c.unplaced.firstId? start = c.firstId? start := by
  cases c <;> simp [Chain.unplaced, Chain.firstId?]

theorem Chain.rows_unplaced (start : Nat) (c : Chain) :
    c.unplaced.rows start = (c.rows start).map Row.unplaced := by
  induction c generalizing start with
  | nil => rfl
  | command link call rest ih =>
    simp [Chain.unplaced, Chain.rows, Row.unplaced, Invocation.unplaced, ih]
  | group link offset body rest ihb ihr =>
    simp [Chain.unplaced, Chain.rows, Row.unplaced, ihb, ihr]

theorem Query.text_congr {q q' : Query} (h : q'.clauses.unplaced = q.clauses.unplaced) :
    q'.text = q.text := by
  rw [Query.text, Query.text, ← Chain.text_unplaced, h, Chain.text_unplaced]

theorem Query.rows_congr {q q' : Query} (h : q'.clauses.unplaced = q.clauses.unplaced) :
    q'.rows.map Row.unplaced = q.rows.map Row.unplaced := by
  rw [Query.rows, Query.rows, ← Chain.rows_unplaced, h, Chain.rows_unplaced]

theorem Query.rootId?_congr {q q' : Query} (h : q'.clauses.unplaced = q.clauses.unplaced) :
    q'.rootId? = q.rootId? := by
  rw [Query.rootId?, Query.rootId?, ← Chain.firstId?_unplaced, h, Chain.firstId?_unplaced]

end DevConsole
