/-!
Queries. A query is a chain of clauses, each joined to the one before it by a link; a clause is
the invocation of a name with arguments, or a group, which is a chain in parentheses. Arguments
are made of literal text and of references to variables. Offsets count characters of the source.
-/

namespace DevConsole

/-! ### Links -/

/-- How a clause is joined to the one before it. -/
inductive Link
  /-- The clause runs whatever happened before, written as a semicolon. -/
  | always
  /-- The clause runs if the last invocation passed, written as an ampersand. -/
  | ifPassed
  /-- The clause runs if the last invocation failed, written as a bar. -/
  | ifFailed
  deriving DecidableEq, Repr, Inhabited

namespace Link

def symbol : Link → Char
  | always => ';'
  | ifPassed => '&'
  | ifFailed => '|'

def ofChar? : Char → Option Link
  | ';' => some always
  | '&' => some ifPassed
  | '|' => some ifFailed
  | _ => none

/-- Whether a clause with this link may run after an invocation that failed, or did not. -/
def allows (failed : Bool) : Link → Bool
  | always => true
  | ifPassed => !failed
  | ifFailed => failed

end Link

/-! ### Arguments and invocations -/

inductive Part
  /-- Text that stands for itself; the offset is that of its first character. -/
  | literal (text : String) (offset : Nat)
  /-- A reference to a variable; the offset is that of its opening brace. -/
  | reference (name : String) (offset : Nat)
  deriving DecidableEq, Repr

def Part.isReference : Part → Bool
  | .literal .. => false
  | .reference .. => true

/-- An argument: its parts in order, and the offset of its first character. -/
structure Argument where
  parts : List Part
  offset : Nat
  deriving DecidableEq, Repr

/-- Whether the argument has the same value whatever the variables hold. -/
def Argument.isConstant (a : Argument) : Bool := !a.parts.any Part.isReference

/-- A name with arguments. The name is empty if the clause begins with a quote. -/
structure Invocation where
  name : String := ""
  offset : Nat := 0
  args : List Argument := []
  deriving DecidableEq, Repr, Inhabited

/-- Whether nothing is invoked: no name and no arguments. -/
def Invocation.isNoop (call : Invocation) : Bool := call.name.isEmpty && call.args.isEmpty

/-! ### Chains -/

/-- The clauses of one scope, first to last. -/
inductive Chain
  | nil
  /-- An invocation and the clauses after it. -/
  | command (link : Link) (call : Invocation) (rest : Chain)
  /-- A group, with the offset of its parenthesis and its body, and the clauses after it. -/
  | group (link : Link) (offset : Nat) (body rest : Chain)
  deriving DecidableEq, Repr, Inhabited

namespace Chain

def isNil : Chain → Bool
  | nil => true
  | _ => false

def append : Chain → Chain → Chain
  | nil, d => d
  | command link call rest, d => command link call (rest.append d)
  | group link offset body rest, d => group link offset body (rest.append d)

instance : Append Chain := ⟨append⟩

/-- The number of clauses in the scope itself. -/
def length : Chain → Nat
  | nil => 0
  | command _ _ rest => rest.length + 1
  | group _ _ _ rest => rest.length + 1

/-- The number of clauses in the scope and in all groups inside it, groups included. -/
def size : Chain → Nat
  | nil => 0
  | command _ _ rest => rest.size + 1
  | group _ _ body rest => body.size + rest.size + 1

@[simp] theorem nil_append (c : Chain) : nil ++ c = c := rfl

@[simp] theorem command_append (link : Link) (call : Invocation) (rest c : Chain) :
    command link call rest ++ c = command link call (rest ++ c) := rfl

@[simp] theorem group_append (link : Link) (offset : Nat) (body rest c : Chain) :
    group link offset body rest ++ c = group link offset body (rest ++ c) := rfl

@[simp] theorem append_nil : ∀ c : Chain, c ++ nil = c
  | nil => rfl
  | command link call rest => by simp [append_nil rest]
  | group link offset body rest => by simp [append_nil rest]

theorem append_assoc : ∀ b c d : Chain, b ++ c ++ d = b ++ (c ++ d)
  | nil, _, _ => rfl
  | command _ _ rest, c, d => by simp [append_assoc rest c d]
  | group _ _ _ rest, c, d => by simp [append_assoc rest c d]

@[simp] theorem length_append : ∀ c d : Chain, (c ++ d).length = c.length + d.length
  | nil, _ => by simp [length]
  | command _ _ rest, d => by simp [length, length_append rest d]; omega
  | group _ _ _ rest, d => by simp [length, length_append rest d]; omega

@[simp] theorem size_append : ∀ c d : Chain, (c ++ d).size = c.size + d.size
  | nil, _ => by simp [size]
  | command _ _ rest, d => by simp [size, size_append rest d]; omega
  | group _ _ _ rest, d => by simp [size, size_append rest d]; omega

end Chain

/-! ### Queries -/

/-- A query: the clauses of its outermost scope. -/
structure Query where
  clauses : Chain
  deriving DecidableEq, Repr, Inhabited

/-- The name of the query if it is one invocation, without arguments, of a name that begins with
a plus sign. -/
def Query.singlePress? (q : Query) : Option String :=
  match q.clauses with
  | .command _ call .nil =>
    if call.args.isEmpty && call.name.toList.head? == some '+' then some call.name else none
  | _ => none

end DevConsole
