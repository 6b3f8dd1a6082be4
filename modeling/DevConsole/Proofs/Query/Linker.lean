import DevConsole.Proofs.Query.Moves
import DevConsole.Proofs.Query.Tables

/-!
Building tables. The linker keeps one growing table and the open scopes, each by the numbers of its
first and its last clause; a new clause is linked to the last one of the innermost scope, and a
closed group becomes a clause of the scope around it.
-/

namespace DevConsole

/-! ### The linker -/

structure OpenScope where
  /-- The offset of its parenthesis; the outermost scope has none. -/
  offset : Option Nat
  /-- The link in front of the group. -/
  link : Link
  first : Option Nat
  last : Option Nat
  deriving DecidableEq, Repr

structure Linker where
  rows : List Row := []
  /-- The open scopes, innermost first. -/
  scopes : List OpenScope := [⟨none, .always, none, none⟩]
  /-- The link in front of the next clause. -/
  link : Link := .always
  deriving DecidableEq, Repr

namespace Linker

/-- One more clause at the end of the innermost scope. It fails if no scope is open or if the last
clause of the scope is not in the table. -/
def append (l : Linker) (content : RowContent) (offset : Nat) : Option Linker :=
  match l.scopes with
  | [] => none
  | scope :: scopes =>
    let id := l.rows.length
    let row := ⟨id, offset, if scope.first.isNone then .always else l.link, content, none⟩
    match scope.last with
    | none => some
        ⟨l.rows ++ [row], { scope with first := some id, last := some id } :: scopes, .always⟩
    | some last =>
      if last < id then some
        ⟨l.rows.modify last ({ · with next := some id }) ++ [row],
          { scope with last := some id } :: scopes, .always⟩
      else none

def openScope (l : Linker) (offset : Nat) : Linker :=
  { l with scopes := ⟨some offset, l.link, none, none⟩ :: l.scopes, link := .always }

/-- The innermost scope becomes a clause of the scope around it. It fails if there is no such scope,
if it is the outermost one, and if it has no clause. -/
def closeScope (l : Linker) : Option Linker :=
  match l.scopes with
  | [] => none
  | scope :: scopes =>
    match scope.offset, scope.first with
    | some offset, some first =>
      { l with scopes := scopes, link := scope.link }.append (.group (some first)) offset
    | _, _ => none

/-- The clause at hand is put at the end of the innermost scope, if it is an invocation. -/
def finishClause (l : Linker) (s : Scanner) : Option Linker :=
  match s.call? with
  | none => some l
  | some call => l.append (.command call) call.offset

/-- What the linker does when the scanner is in state `s`, and a character makes a move. -/
def move (l : Linker) (s : Scanner) : Move → Option Linker
  | .stay => some l
  | .join link => (l.finishClause s).map ({ · with link := link })
  | .enter => some (l.openScope s.position)
  | .leave => (l.finishClause s).bind closeScope

/-- The number of the first clause, if the outermost scope alone is open. -/
def root? (l : Linker) : Option Nat :=
  match l.scopes with
  | [scope] => scope.first
  | _ => none

/-- The table and the number of its root, once the source is at its end. A source without clauses is
an invocation of nothing. It fails if there is no root. -/
def finish (l : Linker) (s : Scanner) : Option (List Row × Nat) :=
  (l.finishClause s).bind fun l =>
    (if l.root?.isNone then l.append (.command {}) 0 else some l).bind fun l =>
      l.root?.map fun root => (l.rows, root)

/-- Goes along with the scanner over the characters `cs`, as far as it accepts them, and to the
end. -/
def run (l : Linker) (s : Scanner) : List Char → Option (List Row × Nat)
  | [] => l.finish s
  | c :: cs =>
    match s.step c with
    | .error _ => none
    | .ok s' => (l.move s (s.move c)).bind (·.run s' cs)

end Linker

/-- The table that the linker builds of a source, and the number of its root. -/
def linked (source : String) : Option (List Row × Nat) := Linker.run {} {} source.toList

/-! ### The linker of a state -/

namespace Chain

/-- The number of the last clause of a chain whose clauses are numbered from `start`. -/
def lastId? (start : Nat) (c : Chain) : Option Nat :=
  if c.isNil then none else some (start + c.size - 1)

def scope (c : Chain) (start : Nat) (offset : Option Nat) (link : Link) : OpenScope :=
  ⟨offset, link, c.firstId? start, c.lastId? start⟩

end Chain

/-- The number of clauses that ended before the innermost open group began. -/
def startOf : List OpenGroup → Nat
  | [] => 0
  | g :: gs => startOf gs + g.before.size

def rowsBefore : List OpenGroup → List Row
  | [] => []
  | g :: gs => rowsBefore gs ++ g.before.rows (startOf gs)

/-- The open scopes if the innermost one holds the clauses of a chain. -/
def scopesOf : List OpenGroup → Chain → List OpenScope
  | [], c => [c.scope 0 none .always]
  | g :: gs, c => c.scope (startOf (g :: gs)) (some g.offset) g.link :: scopesOf gs g.before

/-- The linker among those groups, if the innermost scope holds the clauses of a chain. -/
def linkerOf (gs : List OpenGroup) (c : Chain) (link : Link) : Linker :=
  ⟨rowsBefore gs ++ c.rows (startOf gs), scopesOf gs c, link⟩

def Scanner.linker (s : Scanner) : Linker := linkerOf s.groups s.clauses s.link

@[simp] theorem length_rowsBefore (gs : List OpenGroup) :
    (rowsBefore gs).length = startOf gs := by
  induction gs with
  | nil => rfl
  | cons g gs ih => simp [rowsBefore, startOf, ih]

/-- What stands around the innermost scope does not depend on it. -/
theorem scopesOf_eq (gs : List OpenGroup) :
    ∃ offset link outer, ∀ c, scopesOf gs c = c.scope (startOf gs) offset link :: outer := by
  cases gs with
  | nil => exact ⟨none, .always, [], fun _ => rfl⟩
  | cons g gs => exact ⟨some g.offset, g.link, scopesOf gs g.before, fun _ => rfl⟩

/-! ### Appending clauses -/

namespace Chain

theorem isNil_eq_false_iff {c : Chain} : c.isNil = false ↔ c ≠ nil := by
  cases c <;> simp [isNil]

theorem exists_firstId? {c : Chain} (h : c ≠ nil) (start : Nat) :
    ∃ first, c.firstId? start = some first := by
  cases c with
  | nil => exact absurd rfl h
  | command => exact ⟨_, rfl⟩
  | group => exact ⟨_, rfl⟩

theorem lastId?_of_ne_nil {c : Chain} (h : c ≠ nil) (start : Nat) :
    c.lastId? start = some (start + c.size - 1) := by
  rw [lastId?, isNil_eq_false_iff.2 h]
  rfl

theorem firstId?_append {c : Chain} (h : c ≠ nil) (start : Nat) (d : Chain) :
    (c ++ d).firstId? start = c.firstId? start := by
  cases c with
  | nil => exact absurd rfl h
  | command => rfl
  | group => rfl

/-- Clauses behind a chain only add a link to the last row of the chain. -/
theorem rows_append {c : Chain} (h : c ≠ nil) (start : Nat) :
    ∃ init last, c.rows start = init ++ [last] ∧ init.length + 1 = c.size ∧ ∀ d : Chain,
      (c ++ d).rows start =
        init ++ { last with next := d.firstId? (start + c.size) } :: d.rows (start + c.size) := by
  induction c generalizing start with
  | nil => exact absurd rfl h
  | command link call rest ih =>
    by_cases hrest : rest = nil
    · subst hrest
      exact ⟨[], _, rfl, rfl, fun d => rfl⟩
    · obtain ⟨init, last, hrows, hsize, happend⟩ := ih hrest (start + 1)
      refine ⟨_ :: init, last, by rw [rows, hrows, List.cons_append], by simp [size, hsize],
        fun d => ?_⟩
      rw [command_append, rows, happend, firstId?_append hrest, size]
      simp only [List.cons_append, Nat.add_assoc, Nat.add_comm 1]
  | group link offset body rest _ ih =>
    by_cases hrest : rest = nil
    · subst hrest
      exact ⟨body.rows start, _, rfl, by simp [size], fun d => by simp [rows, size, Nat.add_assoc]⟩
    · obtain ⟨init, last, hrows, hsize, happend⟩ := ih hrest (start + body.size + 1)
      refine ⟨body.rows start ++ _ :: init, last,
        by rw [rows, hrows, ← List.cons_append, ← List.append_assoc], ?_, fun d => ?_⟩
      · simp [size, ← hsize]
      · have hadd : start + body.size + 1 + rest.size = start + (body.size + rest.size + 1) := by
          omega
        rw [group_append, rows, happend, firstId?_append hrest, size, hadd]
        simp

end Chain

theorem modify_append_cons {α : Type} (f : α → α) (xs ys : List α) (a : α) :
    (xs ++ a :: ys).modify xs.length f = xs ++ f a :: ys := by
  induction xs with
  | nil => rfl
  | cons x xs ih => simp [ih]

theorem append_first (rows : List Row) (offset? : Option Nat) (outerLink link : Link)
    (outer : List OpenScope) (content : RowContent) (offset : Nat) :
    Linker.append ⟨rows, ⟨offset?, outerLink, none, none⟩ :: outer, link⟩ content offset =
      some ⟨rows ++ [⟨rows.length, offset, .always, content, none⟩],
        ⟨offset?, outerLink, some rows.length, some rows.length⟩ :: outer, .always⟩ := rfl

theorem append_next {rows : List Row} {last : Nat} (h : last < rows.length) (offset? : Option Nat)
    (outerLink link : Link) (first : Nat) (outer : List OpenScope) (content : RowContent)
    (offset : Nat) :
    Linker.append ⟨rows, ⟨offset?, outerLink, some first, some last⟩ :: outer, link⟩ content offset =
      some ⟨rows.modify last ({ · with next := some rows.length }) ++
          [⟨rows.length, offset, link, content, none⟩],
        ⟨offset?, outerLink, some first, some rows.length⟩ :: outer, .always⟩ := by
  simp [Linker.append, h]

/-- A clause is appended whose rows, but for its own, are in the table already. -/
theorem append_eq (gs : List OpenGroup) (c d : Chain) (link : Link) (inner : List Row)
    (content : RowContent) (offset : Nat)
    (hrows : d.rows (startOf gs + c.size) = inner ++
      [⟨startOf gs + c.size + inner.length, offset, if c.isNil then .always else link, content, none⟩])
    (hfirst : d.firstId? (startOf gs + c.size) = some (startOf gs + c.size + inner.length)) :
    Linker.append ⟨rowsBefore gs ++ c.rows (startOf gs) ++ inner, scopesOf gs c, link⟩ content
      offset = some (linkerOf gs (c ++ d) .always) := by
  obtain ⟨around, before, outer, hscopes⟩ := scopesOf_eq gs
  have hlength : (rowsBefore gs ++ c.rows (startOf gs) ++ inner).length =
      startOf gs + c.size + inner.length := by simp [Nat.add_assoc]
  have hsize : d.size = inner.length + 1 := by
    rw [← Chain.length_rows (startOf gs + c.size) d, hrows]
    simp
  have hlastd : (c ++ d).lastId? (startOf gs) = some (startOf gs + c.size + inner.length) := by
    have hne : c ++ d ≠ .nil := by
      cases c <;> cases d <;> simp_all [Chain.firstId?]
    rw [Chain.lastId?_of_ne_nil hne, Chain.size_append, hsize, Option.some_inj]
    omega
  rw [linkerOf, hscopes, hscopes, Chain.scope, Chain.scope, hlastd]
  by_cases hc : c = .nil
  · subst hc
    have hnone : Chain.nil.lastId? (startOf gs) = none := rfl
    rw [hnone, Chain.firstId?, append_first, hlength, Chain.nil_append]
    simp only [Chain.size, Nat.add_zero] at hrows hfirst
    simp [hrows, hfirst, Chain.rows, Chain.isNil, Chain.size]
  · obtain ⟨init, last, hinit, hsizec, happend⟩ := Chain.rows_append hc (startOf gs)
    obtain ⟨first, hfirstc⟩ := Chain.exists_firstId? hc (startOf gs)
    have hlastc : c.lastId? (startOf gs) = some (startOf gs + init.length) := by
      rw [Chain.lastId?_of_ne_nil hc, ← hsizec, Option.some_inj]
      omega
    have hlt : startOf gs + init.length <
        (rowsBefore gs ++ c.rows (startOf gs) ++ inner).length := by
      rw [hlength, ← hsizec]
      omega
    -- The last clause of the scope is followed by the rows inside the new one.
    have hmodify : ∀ f : Row → Row,
        (rowsBefore gs ++ c.rows (startOf gs) ++ inner).modify (startOf gs + init.length) f =
          rowsBefore gs ++ init ++ f last :: inner := by
      intro f
      rw [hinit, ← List.append_assoc, List.append_assoc _ [last], List.singleton_append]
      simpa using modify_append_cons f (rowsBefore gs ++ init) inner last
    rw [hlastc, hfirstc, append_next hlt, hlength, hmodify, Chain.firstId?_append hc, hfirstc,
      happend, hfirst, hrows, Chain.isNil_eq_false_iff.2 hc]
    simp

/-! ### Ending clauses -/

theorem finishClause_linker (s : Scanner) :
    ∃ link, s.linker.finishClause s = some (linkerOf s.groups s.settled link) := by
  rw [Linker.finishClause, Scanner.settled]
  cases s.call? with
  | none => exact ⟨s.link, rfl⟩
  | some call =>
    refine ⟨.always, ?_⟩
    have happend := append_eq s.groups s.clauses
      (.command (if s.clauses.isNil then .always else s.link) call .nil) s.link []
      (.command call) call.offset rfl rfl
    simpa [Scanner.linker, linkerOf] using happend

theorem closeScope_linkerOf (g : OpenGroup) (gs : List OpenGroup) {c : Chain}
    (hc : c.isNil = false) (link : Link) :
    (linkerOf (g :: gs) c link).closeScope =
      some (linkerOf gs (g.before ++
        Chain.group (if g.before.isNil then .always else g.link) g.offset c .nil) .always) := by
  obtain ⟨first, hfirst⟩ :=
    Chain.exists_firstId? (Chain.isNil_eq_false_iff.1 hc) (startOf (g :: gs))
  have happend := append_eq gs g.before
    (.group (if g.before.isNil then .always else g.link) g.offset c .nil) g.link
    (c.rows (startOf (g :: gs))) (.group (some first)) g.offset
    (by simp [Chain.rows, ← hfirst, startOf, Chain.firstId?]) (by simp [Chain.firstId?])
  simp only [linkerOf, scopesOf, Linker.closeScope, Chain.scope, hfirst]
  exact happend

end DevConsole
