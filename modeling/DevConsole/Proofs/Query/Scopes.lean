import DevConsole.Proofs.Query.Language

/-!
Scopes of parsed queries. In every scope of a query that has been parsed there is a clause, and the
first one is joined to nothing.
-/

namespace DevConsole

open Grammar

namespace Chain

def firstLink? : Chain → Option Link
  | nil => none
  | command link _ _ => some link
  | group link _ _ _ => some link

/-- Whether the body of each group has a first clause, which is joined to nothing. -/
def WellScoped : Chain → Prop
  | nil => True
  | command _ _ rest => rest.WellScoped
  | group _ _ body rest => body.firstLink? = some .always ∧ body.WellScoped ∧ rest.WellScoped

@[simp] theorem firstLink?_unplaced (c : Chain) : c.unplaced.firstLink? = c.firstLink? := by
  cases c <;> rfl

theorem wellScoped_unplaced (c : Chain) : c.unplaced.WellScoped ↔ c.WellScoped := by
  induction c with
  | nil => rfl
  | command link call rest ih => exact ih
  | group link offset body rest ihb ihr => simp [unplaced, WellScoped, ihb, ihr]

theorem WellScoped.append {c d : Chain} (hc : c.WellScoped) (hd : d.WellScoped) :
    (c ++ d).WellScoped := by
  induction c with
  | nil => exact hd
  | command link call rest ih => exact ih hc
  | group link offset body rest _ ih => exact ⟨hc.1, hc.2.1, ih hc.2.2⟩

end Chain

/-! ### Scopes in the grammar -/

namespace Grammar

theorem IsClause.firstLink? {ts : List Token} {link : Link} {c : Chain} (h : IsClause ts link c)
    (d : Chain) : (c ++ d).firstLink? = some link := by
  cases h <;> rfl

theorem IsChain.firstLink? {ts : List Token} {link : Link} {c : Chain} (h : IsChain ts link c) :
    c.firstLink? = some link := by
  cases h with
  | single h => simpa using h.firstLink? .nil
  | joined h _ => exact h.firstLink? _

mutual

theorem IsClause.wellScoped {ts : List Token} {link : Link} {c : Chain} :
    IsClause ts link c → c.WellScoped
  | .command _ => trivial
  | .group h => ⟨h.firstLink?, h.wellScoped, trivial⟩

theorem IsChain.wellScoped {ts : List Token} {link : Link} {c : Chain} :
    IsChain ts link c → c.WellScoped
  | .single h => h.wellScoped
  | .joined h h' => h.wellScoped.append h'.wellScoped

end

theorem IsQuery.wellScoped {ts : List Token} {c : Chain} (h : IsQuery ts c) :
    c.firstLink? = some .always ∧ c.WellScoped := by
  cases h with
  | empty => exact ⟨rfl, trivial⟩
  | chain h => exact ⟨h.firstLink?, h.wellScoped⟩
  | trailing _ h => exact ⟨h.firstLink?, h.wellScoped⟩

end Grammar

/-! ### Scopes of parsed queries -/

/-- Each scope of a parsed query has a first clause, and it is joined to nothing. -/
theorem wellScoped_of_parse {source : String} {q : Query} (h : parse source = .ok q) :
    q.clauses.firstLink? = some .always ∧ q.clauses.WellScoped := by
  obtain ⟨ts, -, hq⟩ := derives_of_parse h
  obtain ⟨hfirst, hscoped⟩ := hq.wellScoped
  rw [Chain.firstLink?_unplaced] at hfirst
  exact ⟨hfirst, (Chain.wellScoped_unplaced _).1 hscoped⟩

end DevConsole
