import DevConsole.Proofs.Console.Assignment
import DevConsole.Proofs.Query.References

/-!
Where errors come from. Clauses are read from a text, or the console or a handler has made them.
Main statements: an undefined reference stands in the text that its clause was read from, and the
query that the console writes to assign a value is read without a fault and refers to nothing.
-/

namespace DevConsole

open Grammar

/-! ### Undefined references -/

/-- The parts break off at a reference to a variable that is not there. -/
theorem resolveParts_eq_error {text? : String → Option String} {parts : List Part}
    {r : ReferenceError} (h : resolveParts text? parts = .error r) :
    text? r.name = none ∧ .reference r.name r.offset ∈ parts := by
  induction parts with
  | nil => cases h
  | cons p parts ih =>
    cases p with
    | literal text offset =>
      rcases hrest : resolveParts text? parts with r' | rest
      · rw [resolveParts, hrest] at h
        cases h
        obtain ⟨hnone, hmem⟩ := ih hrest
        exact ⟨hnone, List.mem_cons_of_mem _ hmem⟩
      · rw [resolveParts, hrest] at h
        cases h
    | reference name offset =>
      rw [resolveParts] at h
      split at h
      · next hnone =>
        cases h
        exact ⟨hnone, List.mem_cons_self⟩
      · rcases hrest : resolveParts text? parts with r' | rest
        · rw [hrest] at h
          cases h
          obtain ⟨hnone, hmem⟩ := ih hrest
          exact ⟨hnone, List.mem_cons_of_mem _ hmem⟩
        · rw [hrest] at h
          cases h

theorem resolveAll_cons (text? : String → Option String) (a : Argument) (args : List Argument) :
    resolveAll text? (a :: args) = (a.resolve text?).bind fun value =>
      (resolveAll text? args).bind fun values => .ok (value :: values) := by
  rw [resolveAll, List.mapM_cons]
  rfl

theorem resolveAll_eq_error {text? : String → Option String} {args : List Argument}
    {r : ReferenceError} (h : resolveAll text? args = .error r) :
    text? r.name = none ∧ ∃ a ∈ args, .reference r.name r.offset ∈ a.parts := by
  induction args with
  | nil => cases h
  | cons a args ih =>
    rw [resolveAll_cons] at h
    rcases ha : a.resolve text? with r' | value
    · rw [ha] at h
      cases h
      obtain ⟨hnone, hmem⟩ := resolveParts_eq_error ha
      exact ⟨hnone, a, List.mem_cons_self, hmem⟩
    · rcases hrest : resolveAll text? args with r' | values
      · rw [ha, hrest] at h
        cases h
        obtain ⟨hnone, b, hb, hmem⟩ := ih hrest
        exact ⟨hnone, b, List.mem_cons_of_mem _ hb, hmem⟩
      · rw [ha, hrest] at h
        cases h

/-! ### Where clauses come from -/

/-- Where the clauses of a query come from. -/
inductive Ground
  /-- They have been read from a text. -/
  | text (body : String)
  /-- They assign a value, and the console has written them itself. -/
  | assignment
  /-- A handler has made them. -/
  | handler

namespace Ground

/-- Where the clauses come from that assign a value for an invocation from here. -/
def assigning : Ground → Ground
  | .handler => .handler
  | _ => .assignment

/-- Whether the invocation may come from here. -/
def Gives : Ground → Invocation → Prop
  | .text body, call => call.StandsIn body.toList
  | .assignment, call =>
    (∀ c ∈ call.name.toList, isPlain c) ∧ ∀ text?, ∃ values, resolveAll text? call.args = .ok values
  | .handler, _ => True

/-- Whether the fault may come up here. -/
def Faulty : Ground → SyntaxError → Prop
  | .text body, fault => parse body = .error fault
  | .assignment, _ => False
  | .handler, _ => True

/-- Whether the reference may come up here. -/
def Refers : Ground → ReferenceError → Prop
  | .text body, r => StandsAt body.toList r.name r.offset
  | .assignment, _ => False
  | .handler, _ => True

variable {g : Ground}

theorem refers_of_gives {call : Invocation} (hcall : g.Gives call) {text? : String → Option String}
    {r : ReferenceError} (h : resolveAll text? call.args = .error r) : g.Refers r := by
  cases g with
  | text body =>
    obtain ⟨-, a, ha, hmem⟩ := resolveAll_eq_error h
    exact hcall.args a ha _ hmem
  | assignment =>
    obtain ⟨values, hvalues⟩ := hcall.2 text?
    cases h.symm.trans hvalues
  | handler => trivial

/-- If the text of an assignment has a fault, it is not from a text that it assigns. -/
theorem faulty_of_assignment {call : Invocation} (hcall : g.Gives call) (hne : call.name ≠ "")
    {value : String} {fault : SyntaxError}
    (h : parse (Console.assignment call.name value) = .error fault) : g.Faulty fault := by
  have hplain : (∀ c ∈ call.name.toList, isPlain c) → False := by
    intro hname
    obtain ⟨offset, args, hparse, -⟩ := exists_parse_assignment hne hname value
    cases h.symm.trans hparse
  cases g with
  | text body => exact (hplain hcall.name).elim
  | assignment => exact hplain hcall.1
  | handler => trivial

theorem gives_assignment {call : Invocation} (hcall : g.Gives call) (hne : call.name ≠ "")
    {value : String} {q : Query} (h : parse (Console.assignment call.name value) = .ok q) :
    q.clauses.All g.assigning.Gives := by
  have hplain : (∀ c ∈ call.name.toList, isPlain c) → q.clauses.All Ground.assignment.Gives := by
    intro hname
    obtain ⟨offset, args, hparse, hvalues⟩ := exists_parse_assignment hne hname value
    cases h.symm.trans hparse
    exact ⟨⟨isPlain_assign, fun text? => ⟨_, hvalues text?⟩⟩, trivial⟩
  cases g with
  | text body => exact hplain hcall.name
  | assignment => exact hplain hcall.1
  | handler => exact q.clauses.all_trivial fun _ => trivial

end Ground

/-! ### Errors that are explained -/

/-- Whether the error comes from the ground, or from the innermost text that it carries; `raised`
are the references that have come up. -/
def QueryError.Explained (raised : ReferenceError → Prop) (g : Ground) : QueryError → Prop
  | .malformed fault => g.Faulty fault
  | .undefined r => g.Refers r ∧ raised r
  | .tooDeep .. => True
  | .expanding _ body e => e.Explained raised (.text body)

namespace QueryError

variable {raised raised' : ReferenceError → Prop} {g : Ground} {e : QueryError}

theorem Explained.mono (h : e.Explained raised g) (hr : ∀ r, raised r → raised' r) :
    e.Explained raised' g := by
  induction e generalizing g with
  | malformed fault => exact h
  | undefined r => exact ⟨h.1, hr r h.2⟩
  | tooDeep name limit => trivial
  | expanding name body e ih => exact ih h

theorem Explained.within {body : String} (h : e.Explained raised (.text body)) (name : String) :
    (e.within name body).Explained raised g := by
  cases e with
  | tooDeep => trivial
  | _ => exact h

/-- The query of an assignment has no errors of its own. -/
theorem Explained.of_assigning (h : e.Explained raised g.assigning) : e.Explained raised g := by
  cases g with
  | text body | assignment =>
    cases e with
    | malformed => exact h.elim
    | undefined => exact h.1.elim
    | tooDeep => trivial
    | expanding => exact h
  | handler => exact h

end QueryError

end DevConsole
