import DevConsole.Query.Table
import DevConsole.Proofs.Query.Scopes

/-!
Tables are trees. In the table of a parsed query all numbers are in range, clauses are linked
forwards and groups come after their bodies, and a walk along the links, down into every group,
comes to each row exactly once.
-/

namespace DevConsole

/-! ### Trees in tables -/

/-- `Visits rows id? ids` says that the walk over a scope from row `id?` on, and over the bodies of
its groups, comes to the rows `ids`, in this order. -/
inductive Visits (rows : List Row) : Option Nat → List Nat → Prop
  | done : Visits rows none []
  | command {id : Nat} {row : Row} {call : Invocation} {ids : List Nat} :
    rows[id]? = some row → row.content = .command call → Visits rows row.next ids →
    Visits rows (some id) (id :: ids)
  | group {id : Nat} {row : Row} {body : Option Nat} {inner ids : List Nat} :
    rows[id]? = some row → row.content = .group body → Visits rows body inner →
    Visits rows row.next ids → Visits rows (some id) (id :: inner ++ ids)

/-- Whether a scope begins with row `first`: the row is there, and it is joined to nothing. -/
def BeginsScope (rows : List Row) (first : Nat) : Prop :=
  ∃ row, rows[first]? = some row ∧ row.link = .always

/-- What the links of one row lead to. -/
structure WellLinked (rows : List Row) (row : Row) : Prop where
  next : ∀ i ∈ row.next, row.id < i ∧ i < rows.length
  /-- The body of a group is a scope whose rows all come before the group. -/
  body : ∀ first?, row.content = .group first? → ∃ first ids, first? = some first ∧
    BeginsScope rows first ∧ Visits rows (some first) ids ∧ ∀ i ∈ ids, i < row.id

/-- Whether the rows are a tree, the outermost scope of which begins with row `root`. -/
structure IsTree (rows : List Row) (root : Nat) : Prop where
  ids : rows.map Row.id = List.range rows.length
  scope : BeginsScope rows root
  linked : ∀ row ∈ rows, WellLinked rows row
  visits : ∃ ids, Visits rows (some root) ids ∧ ids.Perm (List.range rows.length)

/-! ### Rows of chains -/

namespace Chain

@[simp] theorem length_rows (start : Nat) (c : Chain) : (c.rows start).length = c.size := by
  induction c generalizing start with
  | nil => rfl
  | command link call rest ih => simp [rows, size, ih]
  | group link offset body rest ihb ihr =>
    simp [rows, size, ihb, ihr]
    omega

theorem map_id_rows (start : Nat) (c : Chain) :
    (c.rows start).map Row.id = List.range' start c.size := by
  induction c generalizing start with
  | nil => rfl
  | command link call rest ih => simp [rows, size, ih, List.range'_succ]
  | group link offset body rest ihb ihr =>
    have hsize : (group link offset body rest).size = body.size + (rest.size + 1) := by
      simp only [size]
      omega
    rw [hsize, ← List.range'_append_1, List.range'_succ]
    simp [rows, ihb, ihr]

theorem firstId?_bounds {start i : Nat} {c : Chain} (h : c.firstId? start = some i) :
    start ≤ i ∧ i < start + c.size := by
  cases c <;> cases h <;> simp only [size] <;> omega

/-- The numbers of the clauses, in the order in which the clauses begin. -/
def ids (start : Nat) : Chain → List Nat
  | nil => []
  | command _ _ rest => start :: rest.ids (start + 1)
  | group _ _ body rest =>
    (start + body.size) :: body.ids start ++ rest.ids (start + body.size + 1)

/-- The clauses begin in another order than they end, but they are the same clauses. -/
theorem perm_ids (start : Nat) (c : Chain) : (c.ids start).Perm (List.range' start c.size) := by
  induction c generalizing start with
  | nil => rfl
  | command link call rest ih =>
    rw [ids, size, List.range'_succ]
    exact (ih (start + 1)).cons start
  | group link offset body rest ihb ihr =>
    have hsize : (group link offset body rest).size = body.size + (rest.size + 1) := by
      simp only [size]
      omega
    rw [ids, hsize, ← List.range'_append_1, List.range'_succ, List.cons_append]
    exact (((ihb start).append (ihr _)).cons _).trans List.perm_middle.symm

/-! ### Chains in tables -/

/-- Whether the rows of the chain stand in the table, numbered from `start`. -/
def PlacedAt (c : Chain) (rows : List Row) (start : Nat) : Prop :=
  ∃ before after, rows = before ++ c.rows start ++ after ∧ before.length = start

namespace PlacedAt

variable {table : List Row} {start : Nat}

theorem add_size_le {c : Chain} (h : c.PlacedAt table start) : start + c.size ≤ table.length := by
  obtain ⟨before, after, rfl, rfl⟩ := h
  simp

theorem command {link : Link} {call : Invocation} {rest : Chain}
    (h : (Chain.command link call rest).PlacedAt table start) :
    table[start]? = some ⟨start, call.offset, link, .command call, rest.firstId? (start + 1)⟩ ∧
      rest.PlacedAt table (start + 1) := by
  obtain ⟨before, after, rfl, rfl⟩ := h
  exact ⟨by simp [rows], before ++ [⟨before.length, call.offset, link, .command call,
    rest.firstId? (before.length + 1)⟩], after, by simp [rows], by simp⟩

theorem group {link : Link} {offset : Nat} {body rest : Chain}
    (h : (Chain.group link offset body rest).PlacedAt table start) :
    table[start + body.size]? = some ⟨start + body.size, offset, link,
        .group (body.firstId? start), rest.firstId? (start + body.size + 1)⟩ ∧
      body.PlacedAt table start ∧ rest.PlacedAt table (start + body.size + 1) := by
  obtain ⟨before, after, rfl, rfl⟩ := h
  have hrows : (Chain.group link offset body rest).rows before.length =
      body.rows before.length ++ ⟨before.length + body.size, offset, link,
        .group (body.firstId? before.length), rest.firstId? (before.length + body.size + 1)⟩ ::
        rest.rows (before.length + body.size + 1) := rfl
  generalize Row.mk _ _ _ _ _ = row at hrows ⊢
  refine ⟨?_, ⟨before, row :: rest.rows (before.length + body.size + 1) ++ after, ?_, rfl⟩,
    before ++ body.rows before.length ++ [row], after, ?_, ?_⟩
  · simp [hrows]
  · simp [hrows]
  · simp [hrows]
  · simp [Nat.add_assoc]

/-- The walk comes to the clauses of a chain in the order in which they begin. -/
theorem visits {c : Chain} (h : c.PlacedAt table start) :
    Visits table (c.firstId? start) (c.ids start) := by
  induction c generalizing start with
  | nil => exact .done
  | command link call rest ih => exact .command h.command.1 rfl (ih h.command.2)
  | group link offset body rest ihb ihr =>
    obtain ⟨hrow, hbody, hrest⟩ := h.group
    exact .group hrow rfl (ihb hbody) (ihr hrest)

theorem beginsScope {c : Chain} (h : c.PlacedAt table start) (hfirst : c.firstLink? = some .always) :
    ∃ first, c.firstId? start = some first ∧ BeginsScope table first := by
  cases c with
  | nil => cases hfirst
  | command link call rest =>
    cases hfirst
    exact ⟨_, rfl, _, h.command.1, rfl⟩
  | group link offset body rest =>
    cases hfirst
    exact ⟨_, rfl, _, h.group.1, rfl⟩

theorem wellLinked {c : Chain} (h : c.PlacedAt table start) (hc : c.WellScoped) :
    ∀ row ∈ c.rows start, WellLinked table row := by
  have hnext : ∀ {id : Nat} {rest : Chain}, rest.PlacedAt table (id + 1) →
      ∀ i ∈ rest.firstId? (id + 1), id < i ∧ i < table.length := by
    intro id rest hrest i hi
    have hbounds := firstId?_bounds hi
    have hle := hrest.add_size_le
    omega
  induction c generalizing start with
  | nil => simp [rows]
  | command link call rest ih =>
    intro row hrow
    rcases List.mem_cons.1 hrow with rfl | hrow
    · exact ⟨hnext h.command.2, by simp⟩
    · exact ih h.command.2 hc row hrow
  | group link offset body rest ihb ihr =>
    obtain ⟨-, hbody, hrest⟩ := h.group
    obtain ⟨hfirst, hcb, hcr⟩ := hc
    intro row hrow
    rcases List.mem_append.1 hrow with hrow | hrow
    · exact ihb hbody hcb row hrow
    rcases List.mem_cons.1 hrow with rfl | hrow
    · refine ⟨hnext hrest, fun first? hcontent => ?_⟩
      cases hcontent
      obtain ⟨first, hid, hscope⟩ := hbody.beginsScope hfirst
      refine ⟨first, body.ids start, hid, hscope, hid ▸ hbody.visits, fun i hi => ?_⟩
      have hmem := (perm_ids start body).subset hi
      simp only [List.mem_range'_1] at hmem
      exact hmem.2
    · exact ihr hrest hcr row hrow

end PlacedAt

end Chain

/-! ### Tables of queries -/

/-- The table of a query is a tree if each of its scopes begins as it should. -/
theorem Query.isTree {q : Query} (hfirst : q.clauses.firstLink? = some .always)
    (hscoped : q.clauses.WellScoped) : ∃ root, q.rootId? = some root ∧ IsTree q.rows root := by
  have hplaced : q.clauses.PlacedAt q.rows 0 := ⟨[], [], by simp [Query.rows], rfl⟩
  obtain ⟨root, hroot, hscope⟩ := hplaced.beginsScope hfirst
  have hlength : q.rows.length = q.clauses.size := Chain.length_rows 0 q.clauses
  refine ⟨root, hroot, ?_, hscope, hplaced.wellLinked hscoped, q.clauses.ids 0, ?_, ?_⟩
  · rw [Query.rows, Chain.map_id_rows, Chain.length_rows, List.range_eq_range']
  · rw [← hroot]
    exact hplaced.visits
  · rw [hlength, List.range_eq_range']
    exact Chain.perm_ids 0 q.clauses

end DevConsole
