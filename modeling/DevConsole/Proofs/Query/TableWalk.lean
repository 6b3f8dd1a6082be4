import DevConsole.Proofs.Query.Meaning
import DevConsole.Proofs.Query.Tables

/-!
Walking over tables. A query may also be run on its table alone, with a stack of the numbers of the
clauses that follow the groups met so far. It does what the walk over the chains does, which on a
parsed query is what its meaning says.
-/

namespace DevConsole

variable {σ ε : Type}

/-- The stack once a row has been met: the clause after a group is kept for later. -/
def Row.push (row : Row) (stack : List Nat) : List Nat :=
  match row.content, row.next with
  | .group _, some next => next :: stack
  | _, _ => stack

/-- `Runs rows v id? stack failed anyFailed s r` says that the run over the table goes on from row
`id?`, and where there is none from the top of the stack, and comes to `r` in the end. Every
constructor looks at one row. -/
inductive Runs (rows : List Row) (v : Visitor σ ε) :
    Option Nat → List Nat → Bool → Bool → σ → σ × Except ε Bool → Prop
  | done {failed anyFailed : Bool} {s : σ} : Runs rows v none [] failed anyFailed s (s, .ok !anyFailed)
  | pop {id : Nat} {stack : List Nat} {failed anyFailed : Bool} {s : σ} {r : σ × Except ε Bool} :
    Runs rows v (some id) stack failed anyFailed s r →
    Runs rows v none (id :: stack) failed anyFailed s r
  | refused {id : Nat} {row : Row} {stack : List Nat} {failed anyFailed : Bool} {s : σ}
      {r : σ × Except ε Bool} :
    rows[id]? = some row → row.link.allows failed = false →
    Runs rows v none (row.push stack) failed anyFailed s r →
    Runs rows v (some id) stack failed anyFailed s r
  | group {id : Nat} {row : Row} {body : Option Nat} {stack : List Nat} {failed anyFailed : Bool}
      {s : σ} {r : σ × Except ε Bool} :
    rows[id]? = some row → row.link.allows failed → row.content = .group body →
    Runs rows v body (row.push stack) failed anyFailed (v.visit row.offset s) r →
    Runs rows v (some id) stack failed anyFailed s r
  | command {id : Nat} {row : Row} {call : Invocation} {stack : List Nat}
      {failed failed' anyFailed : Bool} {s s' : σ} {r : σ × Except ε Bool} :
    rows[id]? = some row → row.link.allows failed → row.content = .command call →
    v.invoke call (v.visit row.offset s) = (s', .ok failed') →
    Runs rows v row.next stack failed' (anyFailed || failed') s' r →
    Runs rows v (some id) stack failed anyFailed s r
  | error {id : Nat} {row : Row} {call : Invocation} {stack : List Nat} {failed anyFailed : Bool}
      {s s' : σ} {e : ε} :
    rows[id]? = some row → row.link.allows failed → row.content = .command call →
    v.invoke call (v.visit row.offset s) = (s', .error e) →
    Runs rows v (some id) stack failed anyFailed s (s', .error e)

namespace Runs

variable {rows : List Row} {v : Visitor σ ε} {id? : Option Nat} {stack : List Nat}
  {failed anyFailed : Bool} {s : σ}

theorem unique {r r' : σ × Except ε Bool} (h : Runs rows v id? stack failed anyFailed s r)
    (h' : Runs rows v id? stack failed anyFailed s r') : r' = r := by
  induction h generalizing r' with
  | done => cases h'; rfl
  | pop _ ih => cases h' with | pop h' => exact ih h'
  | refused hrow hrefused _ ih => cases h' <;> grind
  | group hrow hallows hcontent _ ih => cases h' <;> grind
  | command hrow hallows hcontent hinvoke _ ih => cases h' <;> grind
  | error hrow hallows hcontent hinvoke => cases h' <;> grind

/-- What was kept for later is taken up when there is no row to go on from. -/
theorem resume {row : Row} {body : Option Nat} {r : σ × Except ε Bool}
    (hcontent : row.content = .group body) (h : Runs rows v row.next stack failed anyFailed s r) :
    Runs rows v none (row.push stack) failed anyFailed s r := by
  cases hnext : row.next with
  | none =>
    have hpush : row.push stack = stack := by simp [Row.push, hcontent, hnext]
    rw [hpush, ← hnext]
    exact h
  | some next =>
    have hpush : row.push stack = next :: stack := by simp [Row.push, hcontent, hnext]
    rw [hpush]
    exact .pop (hnext ▸ h)

/-- The run over the rows of a chain does what the walk over the chain does, if so it does from the
top of the stack on for what remains behind the chain. -/
theorem of_walk {c : Chain} {start : Nat} (h : c.PlacedAt rows start) {after : List Chain}
    (hafter : ∀ failed anyFailed s,
      Runs rows v none stack failed anyFailed s (walk v failed anyFailed after s)) :
    Runs rows v (c.firstId? start) stack failed anyFailed s
      (walk v failed anyFailed (c :: after) s) := by
  induction c generalizing start stack after failed anyFailed s with
  | nil =>
    have hstop : nextStop? failed (.nil :: after) = nextStop? failed after := rfl
    rw [walk_congr hstop]
    exact hafter failed anyFailed s
  | command link call rest ih =>
    obtain ⟨hrow, hrest⟩ := h.command
    by_cases ha : link.allows failed
    · have hstop : nextStop? failed (.command link call rest :: after) =
          some (.command call (rest :: after)) := by simp [nextStop?, Chain.stop?, ha]
      rcases hinvoke : v.invoke call (v.visit call.offset s) with ⟨s', e | failed'⟩
      · rw [walk_of_error hstop hinvoke]
        exact .error hrow ha rfl hinvoke
      · rw [walk_of_ok hstop hinvoke]
        exact .command hrow ha rfl hinvoke (ih hrest hafter)
    · have hstop : nextStop? failed (.command link call rest :: after) = nextStop? failed after := by
        simp [nextStop?, Chain.stop?, ha]
      rw [walk_congr hstop]
      exact .refused hrow (by simpa using ha) (hafter failed anyFailed s)
  | group link offset body rest ihb ihr =>
    obtain ⟨hrow, hbody, hrest⟩ := h.group
    have hresume : ∀ failed anyFailed s, Runs rows v none (Row.push ⟨start + body.size, offset, link,
        .group (body.firstId? start), rest.firstId? (start + body.size + 1)⟩ stack) failed anyFailed s
        (walk v failed anyFailed (rest :: after) s) :=
      fun failed anyFailed s => resume rfl (ihr hrest hafter)
    by_cases ha : link.allows failed
    · have hstop : nextStop? failed (.group link offset body rest :: after) =
          some (.group offset (body :: rest :: after)) := by simp [nextStop?, Chain.stop?, ha]
      rw [walk_of_group hstop]
      exact .group hrow ha rfl (ihb hbody hresume)
    · have hstop : nextStop? failed (.group link offset body rest :: after) =
          nextStop? failed (rest :: after) := by simp [nextStop?, Chain.stop?, ha]
      rw [walk_congr hstop]
      exact .refused hrow (by simpa using ha) (hresume failed anyFailed s)

end Runs

/-- The run over the table of a query comes to what the walk of the query comes to, and to nothing
else. -/
theorem runs_iff (q : Query) (v : Visitor σ ε) (s : σ) (r : σ × Except ε Bool) :
    Runs q.rows v q.rootId? [] false false s r ↔ r = q.run v s := by
  have hplaced : q.clauses.PlacedAt q.rows 0 := ⟨[], [], by simp [Query.rows], rfl⟩
  have hdone : ∀ failed anyFailed s,
      Runs q.rows v none [] failed anyFailed s (walk v failed anyFailed [] s) := by
    intro failed anyFailed s
    rw [walk_of_none rfl]
    exact .done
  have hruns : Runs q.rows v q.rootId? [] false false s (q.run v s) := .of_walk hplaced hdone
  constructor
  · exact hruns.unique
  · rintro rfl
    exact hruns

/-! ### Parsed queries -/

/-- **The walk does what the query means.** On a parsed query it performs the invocations of the
scopes in their order, and comes to the same state and the same answer; so does the run over the
table. -/
theorem run_eq_eval {source : String} {q : Query} (h : parse source = .ok q) (v : Visitor σ ε)
    (s : σ) :
    q.run v s = ((q.eval v s).state, (q.eval v s).answer) ∧
      q.run v.recorded (s, []) =
        (((q.eval v s).state, (q.eval v s).calls), (q.eval v s).answer) ∧
      ∀ r, Runs q.rows v q.rootId? [] false false s r ↔ r = q.run v s := by
  obtain ⟨hfirst, hscoped⟩ := wellScoped_of_parse h
  exact ⟨Query.run_eq hfirst hscoped v s, Query.run_recorded hfirst hscoped v s, runs_iff q v s⟩

/-- A visitor that counts the clauses visited, of which those named `fail` fail. -/
def countVisits : Visitor Nat Unit :=
  ⟨fun _ n => n + 1, fun call n => (n, .ok (call.name == "fail"))⟩

/-- A group is passed over and the next one is entered. -/
theorem run_eq_eval_of_groups :
    ∃ q, parse "fail & (b; c) | (d; e) & f" = .ok q ∧
      (q.eval countVisits 0).calls.map (·.1.name) = ["fail", "d", "e", "f"] ∧
      q.run countVisits 0 = ((q.eval countVisits 0).state, (q.eval countVisits 0).answer) ∧
      q.run countVisits.recorded (0, []) =
        (((q.eval countVisits 0).state, (q.eval countVisits 0).calls),
          (q.eval countVisits 0).answer) ∧
      ∀ r, Runs q.rows countVisits q.rootId? [] false false 0 r ↔ r = q.run countVisits 0 := by
  have hparse : parse "fail & (b; c) | (d; e) & f" = .ok ⟨.command .always ⟨"fail", 0, []⟩ <|
      .group .ifPassed 7 (.command .always ⟨"b", 8, []⟩ <| .command .always ⟨"c", 11, []⟩ .nil) <|
      .group .ifFailed 16 (.command .always ⟨"d", 17, []⟩ <| .command .always ⟨"e", 20, []⟩ .nil) <|
      .command .ifPassed ⟨"f", 25, []⟩ .nil⟩ := by rfl
  exact ⟨_, hparse, by rfl, run_eq_eval hparse countVisits 0⟩

end DevConsole
