import DevConsole.Query.Walk
import DevConsole.Proofs.Query.Scopes

/-!
The meaning of queries. A scope is run by recursion over its clauses, first to last, and carries
whether the last invocation failed. The walk keeps a stack of chains instead; on a parsed query the
two perform the same invocations in the same order and end in the same way.
-/

namespace DevConsole

variable {σ ε : Type}

/-! ### Running scopes -/

/-- What running some clauses comes to. -/
structure Outcome (σ ε : Type) where
  state : σ
  /-- The invocations performed, first to last, with what they answered. -/
  calls : List (Invocation × Except ε Bool)
  /-- Whether the last invocation failed, or what broke the run off. -/
  ending : Except ε Bool

namespace Outcome

/-- One outcome and, unless it broke off, what comes after it. -/
def andThen (r : Outcome σ ε) (next : Bool → σ → Outcome σ ε) : Outcome σ ε :=
  match r.ending with
  | .error _ => r
  | .ok failed =>
    let r' := next failed r.state
    ⟨r'.state, r.calls ++ r'.calls, r'.ending⟩

def anyFailed (r : Outcome σ ε) : Bool := r.calls.any fun c => c.2 matches .ok true

/-- The answer to a query: whether no invocation failed. -/
def answer (r : Outcome σ ε) : Except ε Bool := r.ending.map fun _ => !r.anyFailed

end Outcome

def Visitor.perform (v : Visitor σ ε) (call : Invocation) (s : σ) : Outcome σ ε :=
  let (s', answer) := v.invoke call (v.visit call.offset s)
  ⟨s', [(call, answer)], answer⟩

/-- Runs a scope from some clause on, after an invocation that failed, or did not; `first` tells
whether the clause is the first one of its scope, which runs whatever its link is. An invocation
that is not allowed ends the scope; a group that is not allowed is passed over. The body of a group
is a scope of its own, and the clause after the group is joined to what the body ends on. -/
def Chain.eval (v : Visitor σ ε) (first failed : Bool) : Chain → σ → Outcome σ ε
  | .nil, s => ⟨s, [], .ok failed⟩
  | .command link call rest, s =>
    if first || link.allows failed then (v.perform call s).andThen (rest.eval v false ·)
    else ⟨s, [], .ok failed⟩
  | .group link offset body rest, s =>
    if first || link.allows failed then
      (body.eval v true false (v.visit offset s)).andThen (rest.eval v false ·)
    else rest.eval v false failed s

def Query.eval (q : Query) (v : Visitor σ ε) (s : σ) : Outcome σ ε := q.clauses.eval v true false s

/-- A first clause that is joined to nothing runs in any case. -/
theorem Chain.eval_of_firstLink? {c : Chain} (h : c.firstLink? = some .always) (v : Visitor σ ε)
    (first first' failed failed' : Bool) (s : σ) :
    c.eval v first failed s = c.eval v first' failed' s := by
  cases c <;> cases h <;> simp [Chain.eval, Link.allows]

/-! ### The walk -/

/-- The walk over what remains after an outcome. -/
def Outcome.walk (r : Outcome σ ε) (v : Visitor σ ε) (anyFailed : Bool) (after : List Chain) :
    σ × Except ε Bool :=
  match r.ending with
  | .error e => (r.state, .error e)
  | .ok failed => DevConsole.walk v failed (anyFailed || r.anyFailed) after r.state

section Walk

variable {v : Visitor σ ε} {failed anyFailed : Bool} {cs rest after : List Chain} {s : σ}

theorem walk_of_none (h : nextStop? failed cs = none) :
    walk v failed anyFailed cs s = (s, .ok (!anyFailed)) := by
  rw [walk]
  split <;> simp_all

theorem walk_of_group {offset : Nat} (h : nextStop? failed cs = some (.group offset rest)) :
    walk v failed anyFailed cs s = walk v failed anyFailed rest (v.visit offset s) := by
  rw [walk]
  split <;> simp_all

theorem walk_of_ok {call : Invocation} {failed' : Bool} {s' : σ}
    (h : nextStop? failed cs = some (.command call rest))
    (hinvoke : v.invoke call (v.visit call.offset s) = (s', .ok failed')) :
    walk v failed anyFailed cs s = walk v failed' (anyFailed || failed') rest s' := by
  rw [walk]
  split <;> simp_all

theorem walk_of_error {call : Invocation} {e : ε} {s' : σ}
    (h : nextStop? failed cs = some (.command call rest))
    (hinvoke : v.invoke call (v.visit call.offset s) = (s', .error e)) :
    walk v failed anyFailed cs s = (s', .error e) := by
  rw [walk]
  split <;> simp_all

theorem walk_of_command {call : Invocation} (h : nextStop? failed cs = some (.command call rest)) :
    walk v failed anyFailed cs s = (v.perform call s).walk v anyFailed rest := by
  rw [Outcome.walk, Visitor.perform]
  rcases hinvoke : v.invoke call (v.visit call.offset s) with ⟨s', e | failed'⟩
  · exact walk_of_error h hinvoke
  · rw [walk_of_ok h hinvoke]
    cases failed' <;> rfl

/-- What remains matters to the walk only through the next clause that may run. -/
theorem walk_congr (h : nextStop? failed cs = nextStop? failed after) :
    walk v failed anyFailed cs s = walk v failed anyFailed after s := by
  cases hstop : nextStop? failed after with
  | none => rw [walk_of_none hstop, walk_of_none (h.trans hstop)]
  | some stop =>
    cases stop with
    | command call rest => rw [walk_of_command hstop, walk_of_command (h.trans hstop)]
    | group offset rest => rw [walk_of_group hstop, walk_of_group (h.trans hstop)]

theorem Outcome.walk_andThen (r : Outcome σ ε) (next : Bool → σ → Outcome σ ε) :
    (r.andThen next).walk v anyFailed after =
      match r.ending with
      | .error e => (r.state, .error e)
      | .ok failed => (next failed r.state).walk v (anyFailed || r.anyFailed) after := by
  obtain ⟨s, calls, ending⟩ := r
  cases ending with
  | error e => rfl
  | ok failed => simp [Outcome.andThen, Outcome.walk, Outcome.anyFailed, Bool.or_assoc]

/-- Nothing is run, so the walk goes on with what remains. -/
theorem Outcome.walk_mk_nil :
    Outcome.walk ⟨s, [], .ok failed⟩ v anyFailed after = DevConsole.walk v failed anyFailed after s := by
  simp [Outcome.walk, Outcome.anyFailed]

/-- The walk runs the chain it has in front as a scope, then what remains behind it. -/
theorem walk_cons {c : Chain} (hc : c.WellScoped) :
    walk v failed anyFailed (c :: after) s = (c.eval v false failed s).walk v anyFailed after := by
  induction c generalizing failed anyFailed after s with
  | nil =>
    have hstop : nextStop? failed (.nil :: after) = nextStop? failed after := rfl
    rw [walk_congr hstop, Chain.eval, Outcome.walk_mk_nil]
  | command link call rest ih =>
    by_cases ha : link.allows failed
    · have hstop : nextStop? failed (.command link call rest :: after) =
          some (.command call (rest :: after)) := by simp [nextStop?, Chain.stop?, ha]
      rw [walk_of_command hstop, Chain.eval, if_pos (by simpa using ha), Outcome.walk_andThen,
        Outcome.walk]
      split
      · rfl
      · rw [ih hc]
    · have hstop : nextStop? failed (.command link call rest :: after) = nextStop? failed after := by
        simp [nextStop?, Chain.stop?, ha]
      rw [walk_congr hstop, Chain.eval, if_neg (by simpa using ha), Outcome.walk_mk_nil]
  | group link offset body rest ihb ihr =>
    obtain ⟨hfirst, hbody, hrest⟩ := hc
    by_cases ha : link.allows failed
    · have hstop : nextStop? failed (.group link offset body rest :: after) =
          some (.group offset (body :: rest :: after)) := by simp [nextStop?, Chain.stop?, ha]
      rw [walk_of_group hstop, ihb hbody, Chain.eval, if_pos (by simpa using ha),
        Outcome.walk_andThen, Chain.eval_of_firstLink? hfirst v false true failed false, Outcome.walk]
      split
      · rfl
      · rw [ihr hrest]
    · -- The group is passed over, and the clause after it sees the same flag.
      have hstop : nextStop? failed (.group link offset body rest :: after) =
          nextStop? failed (rest :: after) := by simp [nextStop?, Chain.stop?, ha]
      rw [walk_congr hstop, Chain.eval, if_neg (by simpa using ha), ihr hrest]

end Walk

/-- The walk of a query runs its clauses as a scope. -/
theorem Query.run_eq {q : Query} (hfirst : q.clauses.firstLink? = some .always)
    (hscoped : q.clauses.WellScoped) (v : Visitor σ ε) (s : σ) :
    q.run v s = ((q.eval v s).state, (q.eval v s).answer) := by
  rw [Query.run, walk_cons hscoped, Query.eval,
    Chain.eval_of_firstLink? hfirst v false true false false]
  generalize q.clauses.eval v true false s = r
  cases hr : r.ending with
  | error e => simp [Outcome.walk, Outcome.answer, hr, Except.map]
  | ok failed =>
    simp only [Outcome.walk, Outcome.answer, hr, Except.map, Bool.false_or]
    exact walk_of_none rfl

/-! ### Recording invocations -/

/-- The visitor that also records each invocation that it performs, with what it answered. -/
def Visitor.recorded (v : Visitor σ ε) : Visitor (σ × List (Invocation × Except ε Bool)) ε where
  visit offset s := (v.visit offset s.1, s.2)
  invoke call s :=
    let (s', answer) := v.invoke call s.1
    ((s', s.2 ++ [(call, answer)]), answer)

def Outcome.recorded (r : Outcome σ ε) (log : List (Invocation × Except ε Bool)) :
    Outcome (σ × List (Invocation × Except ε Bool)) ε :=
  ⟨(r.state, log ++ r.calls), r.calls, r.ending⟩

theorem Outcome.recorded_andThen (r : Outcome σ ε) (next : Bool → σ → Outcome σ ε)
    (log : List (Invocation × Except ε Bool)) :
    (r.andThen next).recorded log = (r.recorded log).andThen fun failed s =>
      (next failed s.1).recorded s.2 := by
  obtain ⟨s, calls, ending⟩ := r
  cases ending with
  | error e => rfl
  | ok failed => simp [Outcome.andThen, Outcome.recorded]

/-- A recording visitor records the invocations of the scope. -/
theorem Chain.eval_recorded (c : Chain) (v : Visitor σ ε) (first failed : Bool) (s : σ)
    (log : List (Invocation × Except ε Bool)) :
    c.eval v.recorded first failed (s, log) = (c.eval v first failed s).recorded log := by
  induction c generalizing first failed s log with
  | nil => simp [Chain.eval, Outcome.recorded]
  | command link call rest ih =>
    simp only [Chain.eval]
    split
    · simp only [Outcome.recorded_andThen, ← ih]
      rfl
    · simp [Outcome.recorded]
  | group link offset body rest ihb ihr =>
    simp only [Chain.eval]
    split
    · simp only [Outcome.recorded_andThen, ← ihb, ← ihr]
      rfl
    · exact ihr false failed s log

theorem Query.run_recorded {q : Query} (hfirst : q.clauses.firstLink? = some .always)
    (hscoped : q.clauses.WellScoped) (v : Visitor σ ε) (s : σ) :
    q.run v.recorded (s, []) = (((q.eval v s).state, (q.eval v s).calls), (q.eval v s).answer) := by
  have heval : q.eval v.recorded (s, []) = (q.eval v s).recorded [] := Chain.eval_recorded ..
  rw [Query.run_eq hfirst hscoped, heval]
  rfl

end DevConsole
