import DevConsole.Proofs.Query.Linker

/-!
The linker along with the scanner. It takes each step that the scanner takes, and builds the table
of the query: none of its steps fails, and no invocation that was read is lost.
-/

namespace DevConsole

open Scanner

/-! ### The linker goes along -/

/-- Whether a closed group is there if the state is right behind one. -/
def KeepsClosed (s : Scanner) : Prop := s.phase = .closed → s.clauses.isNil = false

theorem keepsClosed_of_moves {s s' : Scanner} {m : Move} (h : Moves s m s') (hs : KeepsClosed s) :
    KeepsClosed s' := by
  cases h with
  | stay hw =>
    intro hp
    rw [hw.clauses]
    exact hs ((hw.phase (.inr hp)).trans hp)
  | join link _ => simp [KeepsClosed]
  | enter _ => simp [KeepsClosed]
  | @leave g gs _ _ =>
    intro _
    cases g.before <;> rfl

/-- The linker makes each move that the scanner makes, and is then the linker of the next state. -/
theorem move_linker {s s' : Scanner} {m : Move} (h : Moves s m s') (hs : KeepsClosed s) :
    s.linker.move s m = some s'.linker := by
  obtain ⟨link', hfinish⟩ := finishClause_linker s
  cases h with
  | stay hw => rw [Linker.move, Scanner.linker, Scanner.linker, hw.groups, hw.clauses, hw.link]
  | join link _ =>
    rw [Linker.move, hfinish]
    rfl
  | enter _ =>
    simp [Linker.move, Linker.openScope, Scanner.linker, linkerOf, scopesOf, Chain.scope,
      Chain.firstId?, Chain.lastId?, Chain.isNil, rowsBefore, Chain.rows]
  | leave hgs hawaits =>
    rw [Linker.move, hfinish, hgs]
    exact closeScope_linkerOf _ _ (settled_isNil hs hawaits) link'

theorem finish_linker {s : Scanner} {q : Query} (h : s.finish = .ok q) {root : Nat}
    (hroot : q.rootId? = some root) : s.linker.finish s = some (q.rows, root) := by
  obtain ⟨hgroups, rfl⟩ := Scanner.finish_eq_ok h
  obtain ⟨link, hfinish⟩ := finishClause_linker s
  rw [hgroups] at hfinish
  have hroot? : ∀ c link, (linkerOf [] c link).root? = c.firstId? 0 := fun _ _ => rfl
  have hrows : ∀ c link, (linkerOf [] c link).rows = c.rows 0 := fun _ _ => List.nil_append _
  rw [Linker.finish, hfinish]
  by_cases hnil : s.settled.isNil
  · -- Nothing has been read, and the invocation of nothing is appended.
    have hsettled : s.settled = .nil := by
      cases hs : s.settled <;> simp_all [Chain.isNil]
    simp only [hsettled] at hroot ⊢
    cases hroot
    rfl
  · simp only [hnil] at hroot ⊢
    have hroot : s.settled.firstId? 0 = some root := hroot
    simp [hroot?, hrows, hroot, Query.rows]

theorem run_linker {s : Scanner} (hs : KeepsClosed s) {cs : List Char} {q : Query}
    (h : (s.run cs).bind Scanner.finish = .ok q) {root : Nat} (hroot : q.rootId? = some root) :
    s.linker.run s cs = some (q.rows, root) := by
  induction cs generalizing s with
  | nil => exact finish_linker h hroot
  | cons c cs ih =>
    cases hstep : s.step c with
    | error e => simp [hstep, Except.bind] at h
    | ok s' =>
      have hmoves := moves_of_step hstep
      simp only [Scanner.run_cons, hstep] at h
      simp only [Linker.run, hstep, move_linker hmoves hs]
      exact ih (keepsClosed_of_moves hmoves hs) h

/-! ### What has been read -/

/-- The invocation that a row stands for, if it is not a group. -/
def RowContent.call? : RowContent → Option Invocation
  | command call => some call
  | group _ => none

def callsOf (rows : List Row) : List Invocation := rows.filterMap (·.content.call?)

/-- The invocations that are read from the characters `cs`, in the order in which they end: one ends
when there is none at hand any more, or at the end of the source. -/
def Scanner.reads (s : Scanner) : List Char → List Invocation
  | [] => s.call?.toList
  | c :: cs =>
    match s.step c with
    | .error _ => []
    | .ok s' => (if s'.call?.isNone then s.call?.toList else []) ++ s'.reads cs

theorem callsOf_append (rows rows' : List Row) :
    callsOf (rows ++ rows') = callsOf rows ++ callsOf rows' := List.filterMap_append

theorem callsOf_modify_next (rows : List Row) (i : Nat) (next : Option Nat) :
    callsOf (rows.modify i ({ · with next := next })) = callsOf rows := by
  induction rows generalizing i with
  | nil => simp
  | cons row rows ih =>
    cases i with
    | zero => rfl
    | succ i =>
      have hcons : ∀ rows', callsOf (row :: rows') = callsOf [row] ++ callsOf rows' :=
        callsOf_append [row]
      rw [List.modify_succ_cons, hcons, ih, ← hcons]

/-- Nothing is lost when a clause is appended. -/
theorem calls_of_append {l l' : Linker} {content : RowContent} {offset : Nat}
    (h : l.append content offset = some l') :
    callsOf l'.rows = callsOf l.rows ++ content.call?.toList := by
  have hrow : ∀ row : Row, row.content = content → callsOf [row] = content.call?.toList := by
    rintro row rfl
    cases hc : row.content.call? <;> simp [callsOf, hc]
  obtain ⟨rows, scopes, link⟩ := l
  rcases scopes with _ | ⟨⟨offset?, outerLink, first, last⟩, outer⟩
  · cases h
  · cases last with
    | none =>
      cases h
      rw [callsOf_append, hrow _ rfl]
    | some last =>
      simp only [Linker.append] at h
      split at h
      · cases h
        rw [callsOf_append, callsOf_modify_next, hrow _ rfl]
      · cases h

theorem calls_of_finishClause {l l' : Linker} {s : Scanner} (h : l.finishClause s = some l') :
    callsOf l'.rows = callsOf l.rows ++ s.call?.toList := by
  unfold Linker.finishClause at h
  split at h
  · next hcall =>
    cases h
    simp [hcall]
  · next hcall =>
    rw [calls_of_append h, hcall]
    rfl

theorem calls_of_closeScope {l l' : Linker} (h : l.closeScope = some l') :
    callsOf l'.rows = callsOf l.rows := by
  unfold Linker.closeScope at h
  split at h
  · cases h
  · split at h
    · simpa [RowContent.call?] using calls_of_append h
    · cases h

theorem calls_of_move {s s' : Scanner} {m : Move} (h : Moves s m s') {l l' : Linker}
    (hl : l.move s m = some l') :
    callsOf l'.rows = callsOf l.rows ++ if s'.call?.isNone then s.call?.toList else [] := by
  cases h with
  | stay hw =>
    cases hl
    split
    · next hnone =>
      rw [Option.isNone_iff_eq_none, call?_eq_none_iff] at hnone
      have hcall : s.call? = none := call?_eq_none_iff.2 (hw.phase hnone ▸ hnone)
      simp [hcall]
    · simp
  | join link _ =>
    obtain ⟨l₁, hfinish, rfl⟩ := Option.map_eq_some_iff.1 hl
    have hcalls := calls_of_finishClause hfinish
    exact hcalls
  | enter hawaits =>
    cases hl
    have hcall : s.call? = none := call?_eq_none_iff.2 (.inl ((awaitsClause_iff s).1 hawaits))
    simp [Linker.openScope, hcall]
  | leave _ _ =>
    obtain ⟨l₁, hfinish, hclose⟩ := Option.bind_eq_some_iff.1 hl
    rw [calls_of_closeScope hclose, calls_of_finishClause hfinish]
    rfl

theorem calls_of_finish {l : Linker} {s : Scanner} {rows : List Row} {root : Nat}
    (h : l.finish s = some (rows, root)) :
    (callsOf l.rows ++ s.call?.toList).Sublist (callsOf rows) := by
  simp only [Linker.finish, Option.bind_eq_some_iff, Option.map_eq_some_iff] at h
  obtain ⟨l₁, hfinish, l₂, hl₂, root', -, hrows⟩ := h
  cases hrows
  rw [← calls_of_finishClause hfinish]
  split at hl₂
  · rw [calls_of_append hl₂]
    exact List.sublist_append_left _ _
  · cases hl₂
    exact List.Sublist.refl _

/-- Every invocation that is read is in the table in the end. -/
theorem calls_of_run {l : Linker} {s : Scanner} {cs : List Char} {rows : List Row} {root : Nat}
    (h : l.run s cs = some (rows, root)) :
    (callsOf l.rows ++ s.reads cs).Sublist (callsOf rows) := by
  induction cs generalizing l s with
  | nil => exact calls_of_finish h
  | cons c cs ih =>
    rw [Linker.run] at h
    cases hstep : s.step c with
    | error e => simp [hstep] at h
    | ok s' =>
      simp only [hstep, Option.bind_eq_some_iff] at h
      obtain ⟨l', hl', hrun⟩ := h
      rw [Scanner.reads, hstep, ← List.append_assoc, ← calls_of_move (moves_of_step hstep) hl']
      exact ih hrun

/-! ### Parsed queries -/

/-- **The table is built while reading.** On a source that is parsed the linker never fails. It
builds the table of the query, which is a tree and holds every invocation that was read. -/
theorem linked_of_parse {source : String} {q : Query} (h : parse source = .ok q) :
    ∃ root, q.rootId? = some root ∧ IsTree q.rows root ∧ linked source = some (q.rows, root) ∧
      (Scanner.reads {} source.toList).Sublist (callsOf q.rows) := by
  obtain ⟨hfirst, hscoped⟩ := wellScoped_of_parse h
  obtain ⟨root, hroot, htree⟩ := Query.isTree hfirst hscoped
  have hstart : KeepsClosed {} := by simp [KeepsClosed]
  have hlinked : linked source = some (q.rows, root) := run_linker hstart h hroot
  exact ⟨root, hroot, htree, hlinked, by simpa [callsOf] using calls_of_run hlinked⟩

/-- A group among three clauses, with a group inside it. -/
theorem linked_of_parse_groups :
    ∃ q, parse "a & (b; (c)); d" = .ok q ∧ ∃ root, q.rootId? = some root ∧ IsTree q.rows root ∧
      linked "a & (b; (c)); d" = some (q.rows, root) ∧
      (Scanner.reads {} "a & (b; (c)); d".toList).Sublist (callsOf q.rows) := by
  have hparse : parse "a & (b; (c)); d" = .ok ⟨.command .always ⟨"a", 0, []⟩ <|
      .group .ifPassed 4 (.command .always ⟨"b", 5, []⟩ <|
        .group .always 8 (.command .always ⟨"c", 9, []⟩ .nil) .nil) <|
      .command .always ⟨"d", 14, []⟩ .nil⟩ := by rfl
  exact ⟨_, hparse, linked_of_parse hparse⟩

end DevConsole
