import DevConsole.Proofs.Console.OutOfReach

/-!
Runs with all the moments that they pass through, and what is seen of them. Main statement: once a
query runs that is inside of no other, the console has counted just the clauses that were visited in
the run.
-/

namespace DevConsole

open Relation

variable {κ ε : Type}

/-! ### What is seen of a moment -/

def Moment.visits (m : Moment κ ε) : Bool :=
  match m.activity with
  | .clauses failed _ cs => (nextStop? failed cs).isSome
  | _ => false

def Moment.call? (m : Moment κ ε) : Option Invocation :=
  match m.activity with
  | .invocation call => some call
  | _ => none

/-- What an invocation has just come to. -/
def Moment.result? (m : Moment κ ε) : Option (Except QueryError Bool) :=
  match m.activity with
  | .returned answer => some answer
  | _ => none

/-! ### Runs -/

variable {host : Host κ (Workspace κ ε)} {m m' m'' : Moment κ ε} {ms : List (Moment κ ε)}

/-- `Passes host m ms m'` says that a run comes from the moment `m` to `m'`, and that `ms` are the
moments before `m'`, in their order. -/
inductive Passes (host : Host κ (Workspace κ ε)) (m : Moment κ ε) :
    List (Moment κ ε) → Moment κ ε → Prop
  | refl : Passes host m [] m
  | tail {ms : List (Moment κ ε)} {m' m'' : Moment κ ε} :
    Passes host m ms m' → Step host m' m'' → Passes host m (ms ++ [m']) m''

theorem Passes.leads (h : Passes host m ms m') : Leads host m m' := by
  induction h with
  | refl => exact .refl
  | tail _ hstep ih => exact ih.tail hstep

theorem Leads.exists_passes (h : Leads host m m') : ∃ ms, Passes host m ms m' := by
  induction h with
  | refl => exact ⟨[], .refl⟩
  | tail _ hstep ih =>
    obtain ⟨ms, hpasses⟩ := ih
    exact ⟨_, hpasses.tail hstep⟩

/-! ### Settings that no run changes -/

/-- The numbers at which the console refuses a query and warns about one. -/
def Console.bounds (c : Console κ ε) : Nat × Nat :=
  (c.settings.maxDepth, c.settings.iterationWarning)

theorem Step.bounds_eq (h : Step host m m') : m'.console.bounds = m.console.bounds := by
  unfold Console.bounds
  cases h with
  | malformedBody _ _ hparse | expand _ _ hparse =>
    rw [Console.settings_of_parse hparse, Console.settings_warnArguments]
  | malformedSource _ hparse | execute _ hparse => rw [Console.settings_of_parse hparse]
  | put => rfl
  | _ => simp

theorem Leads.bounds_eq (h : Leads host m m') : m'.console.bounds = m.console.bounds := by
  induction h with
  | refl => rfl
  | tail _ hstep ih => exact hstep.bounds_eq.trans ih

/-! ### The count of clauses -/

namespace Console

variable {c c' : Console κ ε}

@[simp] theorem steps_print (level : Level) (message : String) :
    (c.print level message).steps = c.steps := rfl

@[simp] theorem steps_report (e : InvocationError) : (c.report e).steps = c.steps := rfl

@[simp] theorem steps_leave : c.leave.steps = c.steps := rfl

@[simp] theorem steps_parse (source : String) : (c.parse source).2.steps = c.steps := rfl

theorem steps_of_parse {source : String} {answer : Except SyntaxError Query}
    (h : c.parse source = (answer, c')) : c'.steps = c.steps := by
  rw [← steps_parse (c := c) source, h]

@[simp] theorem steps_trim : c.trim.steps = c.steps := by
  unfold trim
  split <;> rfl

@[simp] theorem steps_warnArguments (call : Invocation) :
    (c.warnArguments call).steps = c.steps := by
  unfold warnArguments
  split <;> rfl

@[simp] theorem steps_settle (contained : Bool) (source : String) (e : QueryError) :
    (c.settle contained source e).steps = c.steps := by
  unfold settle
  split <;> rfl

@[simp] theorem steps_close (name : String) (ending : Ending) :
    (c.close name ending).1.steps = c.steps := by
  unfold close
  split <;> rfl

@[simp] theorem steps_countStep : c.countStep.steps = c.steps + 1 := by
  unfold countStep
  dsimp only
  split <;> rfl

/-- The count begins anew with a query that is inside of no other. -/
theorem steps_enter : c.enter.steps = if c.depth = 0 then 0 else c.steps := rfl

end Console

/-- Inside of a query a step counts the clause that it visits, and nothing else. -/
theorem Step.steps_eq (h : Step host m m')
    (hinside : ∀ name q, m.activity = .query name q → 0 < m.console.depth) :
    m'.console.steps = m.console.steps + if m.visits then 1 else 0 := by
  cases h with
  | enter =>
    rw [Console.steps_enter, if_neg (Nat.ne_of_gt (hinside _ _ rfl))]
    rfl
  | malformedBody _ _ hparse | expand _ _ hparse =>
    rw [Console.steps_of_parse hparse, Console.steps_warnArguments]
    rfl
  | malformedSource _ hparse | execute _ hparse =>
    rw [Console.steps_of_parse hparse]
    rfl
  | put => rfl
  | _ => simp_all [Moment.visits]

/-- Outside of all queries nothing waits. -/
theorem Moment.waiting_eq_nil_of_depth {limit : Nat} (hordered : m.Ordered .query)
    (hcounts : m.CountsFrom 0 limit) (hdepth : m.console.depth = 0) : m.waiting = [] := by
  obtain ⟨activity, K, c⟩ := m
  have hlevel : c.depth = 0 + Moment.level ⟨activity, K, c⟩ := congrArg Prod.fst hcounts
  have hnone : K.countP Waiting.isQuery = 0 := by
    simp only [Moment.level] at hlevel hdepth
    omega
  cases K with
  | nil => rfl
  | cons w K =>
    -- behind whatever waits there is a query
    obtain ⟨-, hserves⟩ := hordered
    rw [List.countP_cons] at hnone
    cases w with
    | rest => simp [Waiting.isQuery] at hnone
    | expansion | assignment | command =>
      have hpos := level_pos_of_serves (.inl hserves)
      omega
    | execute | evaluate =>
      have hpos := level_pos_of_serves (.inr hserves)
      omega

/-- No step comes to a query for which nothing waits. -/
theorem Passes.eq_nil_of_query {name : String} {q : Query} {c : Console κ ε}
    (h : Passes host m ms ⟨.query name q, [], c⟩) : ms = [] := by
  generalize hlast : (⟨.query name q, [], c⟩ : Moment κ ε) = last at h
  cases h with
  | refl => rfl
  | tail _ hstep => subst hlast; cases hstep

theorem Passes.eq_of_nil (h : Passes host m [] m') : m' = m := by
  generalize hms : ([] : List (Moment κ ε)) = ms at h
  cases h with
  | refl => rfl
  | tail => simp at hms

/-- **The console counts the clauses of a whole run.** Whatever it had counted before, once a query
runs that is inside of no other it has counted just those that were visited since. -/
theorem Passes.steps_eq {q : Query} {c : Console κ ε} (hzero : c.depth = 0)
    (hlt : c.depth < c.maxDepth) (h : Passes host (.start q c) ms m) (hms : ms ≠ []) :
    m.console.steps = ms.countP Moment.visits := by
  have hcounts : (Moment.start q c).CountsFrom 0 c.maxDepth := by
    simpa [hzero] using Moment.countsFrom_start q c
  induction h with
  | refl => exact absurd rfl hms
  | @tail ms m m' hpasses hstep ih =>
    rcases eq_or_ne ms [] with rfl | hne
    · obtain rfl := hpasses.eq_of_nil
      cases hstep with
      | tooDeep hle => exact absurd hlt (Nat.not_lt.2 hle)
      | enter => exact if_pos hzero
    · -- the first query is behind, so one that is about to run is inside of another
      have hinside : ∀ name q', m.activity = .query name q' → 0 < m.console.depth := by
        intro name q' hquery
        by_contra hout
        have hwaiting := Moment.waiting_eq_nil_of_depth
          (hpasses.leads.ordered (Moment.ordered_start q c)) (hpasses.leads.countsFrom hcounts)
          (Nat.eq_zero_of_not_pos hout)
        obtain ⟨activity, K, d⟩ := m
        obtain rfl : activity = .query name q' := hquery
        obtain rfl : K = [] := hwaiting
        exact hne hpasses.eq_nil_of_query
      rw [hstep.steps_eq hinside, ih hne, List.countP_append, List.countP_singleton]

end DevConsole
