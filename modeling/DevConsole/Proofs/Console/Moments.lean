import Mathlib.Logic.Relation
import DevConsole.Proofs.Console.Depth

/-!
The moments of a run. A query runs by recursion, and inside it run handlers and other queries. Seen
step by step, a run passes through moments: in each of them the console does one thing, and whatever
waits for its answer stands in a row behind it. Main statement: the console knows how many queries
run in a moment.
-/

namespace DevConsole

open Relation

variable {κ ε : Type}

/-! ### Moments -/

/-- What waits for an answer. -/
inductive Waiting (κ ε : Type)
  /-- A query, for an invocation in it; the chains `cs` remain behind the invocation. -/
  | rest (anyFailed : Bool) (cs : List Chain)
  /-- An alias, for the query that is its body. -/
  | expansion (name body : String)
  /-- A variable, for the query that assigns to it. -/
  | assignment
  /-- A command, for its handler. -/
  | command (name : String)
  /-- A handler, for the query of a source. -/
  | execute (contained : Bool) (source : String) (k : Bool → Program (Workspace κ ε))
  /-- A handler, for a query. -/
  | evaluate (k : Except QueryError Bool → Program (Workspace κ ε))

/-- What the console does. -/
inductive Activity (κ ε : Type)
  /-- It is about to run a query; `name` is to blame if that may not run. -/
  | query (name : String) (q : Query)
  /-- It goes through the clauses of a query. -/
  | clauses (failed anyFailed : Bool) (cs : List Chain)
  /-- It is about to perform an invocation. -/
  | invocation (call : Invocation)
  /-- It carries out the program of a handler. -/
  | handler (p : Program (Workspace κ ε))
  /-- An invocation has come to its end: whether it failed. -/
  | returned (answer : Except QueryError Bool)
  /-- A query has come to its end: whether it passed. -/
  | ended (answer : Except QueryError Bool)

structure Moment (κ ε : Type) where
  activity : Activity κ ε
  /-- What waits, the first one to be answered in front. -/
  waiting : List (Waiting κ ε)
  console : Console κ ε

/-- The moment at which a query is about to be run, inside nothing. -/
def Moment.start (q : Query) (c : Console κ ε) : Moment κ ε := ⟨.query q.text q, [], c⟩

/-! ### Steps -/

/-- `Step host m m'` says that the moment `m'` comes right after `m`. -/
inductive Step (host : Host κ (Workspace κ ε)) : Moment κ ε → Moment κ ε → Prop
  | tooDeep {name : String} {q : Query} {K : List (Waiting κ ε)} {c : Console κ ε} :
    c.maxDepth ≤ c.depth →
    Step host ⟨.query name q, K, c⟩ ⟨.ended (.error (.tooDeep name c.maxDepth)), K, c⟩
  | enter {name : String} {q : Query} {K : List (Waiting κ ε)} {c : Console κ ε} :
    c.depth < c.maxDepth →
    Step host ⟨.query name q, K, c⟩ ⟨.clauses false false [q.clauses], K, c.enter⟩
  | leave {failed anyFailed : Bool} {cs : List Chain} {K : List (Waiting κ ε)} {c : Console κ ε} :
    nextStop? failed cs = none →
    Step host ⟨.clauses failed anyFailed cs, K, c⟩ ⟨.ended (.ok !anyFailed), K, c.leave⟩
  | group {failed anyFailed : Bool} {cs rest : List Chain} {offset : Nat}
      {K : List (Waiting κ ε)} {c : Console κ ε} :
    nextStop? failed cs = some (.group offset rest) →
    Step host ⟨.clauses failed anyFailed cs, K, c⟩ ⟨.clauses failed anyFailed rest, K, c.countStep⟩
  | command {failed anyFailed : Bool} {cs rest : List Chain} {call : Invocation}
      {K : List (Waiting κ ε)} {c : Console κ ε} :
    nextStop? failed cs = some (.command call rest) →
    Step host ⟨.clauses failed anyFailed cs, K, c⟩
      ⟨.invocation call, .rest anyFailed rest :: K, c.countStep⟩
  | goOn {failed anyFailed : Bool} {cs : List Chain} {K : List (Waiting κ ε)} {c : Console κ ε} :
    Step host ⟨.returned (.ok failed), .rest anyFailed cs :: K, c⟩
      ⟨.clauses failed (anyFailed || failed) cs, K, c⟩
  | breakOff {e : QueryError} {anyFailed : Bool} {cs : List Chain} {K : List (Waiting κ ε)}
      {c : Console κ ε} :
    Step host ⟨.returned (.error e), .rest anyFailed cs :: K, c⟩ ⟨.ended (.error e), K, c.leave⟩
  -- invocations
  | noop {call : Invocation} {K : List (Waiting κ ε)} {c : Console κ ε} :
    call.name = "" → call.args = [] →
    Step host ⟨.invocation call, K, c⟩ ⟨.returned (.ok false), K, c⟩
  | missingName {call : Invocation} {K : List (Waiting κ ε)} {c : Console κ ε} :
    call.name = "" → call.args ≠ [] →
    Step host ⟨.invocation call, K, c⟩ ⟨.returned (.ok true), K, c.report .missingName⟩
  | notFound {call : Invocation} {K : List (Waiting κ ε)} {c : Console κ ε} :
    call.name ≠ "" → c.target call.name = .nothing →
    Step host ⟨.invocation call, K, c⟩ ⟨.returned (.ok true), K, c.report (.notFound call.name)⟩
  | undefinedArgument {call : Invocation} {handler : Handler κ} {r : ReferenceError}
      {K : List (Waiting κ ε)} {c : Console κ ε} :
    call.name ≠ "" → c.target call.name = .command handler →
    resolveAll c.vars.text? call.args = .error r →
    Step host ⟨.invocation call, K, c⟩ ⟨.returned (.error (.undefined r)), K, c⟩
  | handle {call : Invocation} {handler : Handler κ} {args : List String}
      {K : List (Waiting κ ε)} {c : Console κ ε} :
    call.name ≠ "" → c.target call.name = .command handler →
    resolveAll c.vars.text? call.args = .ok args →
    Step host ⟨.invocation call, K, c⟩
      ⟨.handler (Console.program host handler ⟨call.name, args, allConstant call.args⟩),
        .command call.name :: K, c⟩
  | malformedBody {call : Invocation} {body : String} {fault : SyntaxError}
      {K : List (Waiting κ ε)} {c c' : Console κ ε} :
    call.name ≠ "" → c.target call.name = .alias body →
    (c.warnArguments call).parse body = (.error fault, c') →
    Step host ⟨.invocation call, K, c⟩
      ⟨.returned (.error ((QueryError.malformed fault).within call.name body)), K, c'⟩
  | expand {call : Invocation} {body : String} {q : Query} {K : List (Waiting κ ε)}
      {c c' : Console κ ε} :
    call.name ≠ "" → c.target call.name = .alias body →
    (c.warnArguments call).parse body = (.ok q, c') →
    Step host ⟨.invocation call, K, c⟩ ⟨.query call.name q, .expansion call.name body :: K, c'⟩
  | expanded {answer : Except QueryError Bool} {name body : String} {K : List (Waiting κ ε)}
      {c : Console κ ε} :
    Step host ⟨.ended answer, .expansion name body :: K, c⟩
      ⟨.returned ((answer.map (!·)).mapError (·.within name body)), K, c⟩
  | tell {call : Invocation} {K : List (Waiting κ ε)} {c : Console κ ε} :
    call.name ≠ "" → c.target call.name = .variable → call.args = [] →
    Step host ⟨.invocation call, K, c⟩ ⟨.returned (.ok false), K,
      c.print .result ("\"" ++ call.name ++ "\" = \"" ++ (c.vars.text? call.name).getD "" ++ "\"")⟩
  | undefinedValue {call : Invocation} {r : ReferenceError} {K : List (Waiting κ ε)}
      {c : Console κ ε} :
    call.name ≠ "" → c.target call.name = .variable → call.args ≠ [] →
    resolveAll c.vars.text? call.args = .error r →
    Step host ⟨.invocation call, K, c⟩ ⟨.returned (.error (.undefined r)), K, c⟩
  | malformedAssignment {call : Invocation} {args : List String} {fault : SyntaxError}
      {K : List (Waiting κ ε)} {c : Console κ ε} :
    call.name ≠ "" → c.target call.name = .variable → call.args ≠ [] →
    resolveAll c.vars.text? call.args = .ok args →
    DevConsole.parse (Console.assignment call.name (" ".intercalate args)) = .error fault →
    Step host ⟨.invocation call, K, c⟩ ⟨.returned (.error (.malformed fault)), K, c⟩
  | assign {call : Invocation} {args : List String} {q : Query} {K : List (Waiting κ ε)}
      {c : Console κ ε} :
    call.name ≠ "" → c.target call.name = .variable → call.args ≠ [] →
    resolveAll c.vars.text? call.args = .ok args →
    DevConsole.parse (Console.assignment call.name (" ".intercalate args)) = .ok q →
    Step host ⟨.invocation call, K, c⟩ ⟨.query call.name q, .assignment :: K, c⟩
  | assigned {answer : Except QueryError Bool} {K : List (Waiting κ ε)} {c : Console κ ε} :
    Step host ⟨.ended answer, .assignment :: K, c⟩ ⟨.returned (answer.map (!·)), K, c⟩
  -- handlers
  | get {k : Workspace κ ε → Program (Workspace κ ε)} {K : List (Waiting κ ε)}
      {c : Console κ ε} :
    Step host ⟨.handler (.get k), K, c⟩ ⟨.handler (k c.toWorkspace), K, c⟩
  | put {w : Workspace κ ε} {p : Program (Workspace κ ε)} {K : List (Waiting κ ε)}
      {c : Console κ ε} :
    Step host ⟨.handler (.put w p), K, c⟩ ⟨.handler p, K, { c with toWorkspace := w }⟩
  | parse {source : String} {k : Except SyntaxError Query → Program (Workspace κ ε)}
      {K : List (Waiting κ ε)} {c : Console κ ε} :
    Step host ⟨.handler (.parse source k), K, c⟩
      ⟨.handler (k (c.parse source).1), K, (c.parse source).2⟩
  | skip {contained : Bool} {source : String} {k : Bool → Program (Workspace κ ε)}
      {K : List (Waiting κ ε)} {c : Console κ ε} :
    c.pending ≠ none →
    Step host ⟨.handler (.execute contained source k), K, c⟩ ⟨.handler (k false), K, c⟩
  | malformedSource {contained : Bool} {source : String} {k : Bool → Program (Workspace κ ε)}
      {fault : SyntaxError} {K : List (Waiting κ ε)} {c c' : Console κ ε} :
    c.pending = none → c.parse source = (.error fault, c') →
    Step host ⟨.handler (.execute contained source k), K, c⟩
      ⟨.ended (.error (.malformed fault)), .execute contained source k :: K, c'⟩
  | execute {contained : Bool} {source : String} {k : Bool → Program (Workspace κ ε)} {q : Query}
      {K : List (Waiting κ ε)} {c c' : Console κ ε} :
    c.pending = none → c.parse source = (.ok q, c') →
    Step host ⟨.handler (.execute contained source k), K, c⟩
      ⟨.query q.text q, .execute contained source k :: K, c'⟩
  | executed {passed contained : Bool} {source : String} {k : Bool → Program (Workspace κ ε)}
      {K : List (Waiting κ ε)} {c : Console κ ε} :
    Step host ⟨.ended (.ok passed), .execute contained source k :: K, c⟩
      ⟨.handler (k passed), K, c.trim⟩
  | settle {e : QueryError} {contained : Bool} {source : String}
      {k : Bool → Program (Workspace κ ε)} {K : List (Waiting κ ε)} {c : Console κ ε} :
    Step host ⟨.ended (.error e), .execute contained source k :: K, c⟩
      ⟨.handler (k false), K, c.trim.settle contained source e⟩
  | evaluate {q : Query} {k : Except QueryError Bool → Program (Workspace κ ε)}
      {K : List (Waiting κ ε)} {c : Console κ ε} :
    Step host ⟨.handler (.evaluate q k), K, c⟩ ⟨.query q.text q, .evaluate k :: K, c⟩
  | evaluated {answer : Except QueryError Bool}
      {k : Except QueryError Bool → Program (Workspace κ ε)} {K : List (Waiting κ ε)}
      {c : Console κ ε} :
    Step host ⟨.ended answer, .evaluate k :: K, c⟩ ⟨.handler (k answer), K, c⟩
  | close {ending : Ending} {name : String} {K : List (Waiting κ ε)} {c : Console κ ε} :
    Step host ⟨.handler (.stop ending), .command name :: K, c⟩
      ⟨.returned (c.close name ending).2, K, (c.close name ending).1⟩

/-- `Leads host m m'` says that a run comes from the moment `m` to `m'`. -/
abbrev Leads (host : Host κ (Workspace κ ε)) : Moment κ ε → Moment κ ε → Prop :=
  ReflTransGen (Step host)

variable {host : Host κ (Workspace κ ε)} {m m' m'' : Moment κ ε}

/-- A moment is followed by at most one. -/
theorem Step.unique (h : Step host m m') (h' : Step host m m'') : m'' = m' := by
  cases h <;> cases h' <;> first | rfl | (exfalso; omega) | simp_all

/-- All moments that a run comes to lie on one line. -/
theorem Leads.total (h : Leads host m m') (h' : Leads host m m'') :
    Leads host m' m'' ∨ Leads host m'' m' :=
  ReflTransGen.total_of_right_unique (fun _ _ _ h h' => h'.unique h) h h'

/-! ### More that waits -/

/-- The moment with more behind all that waits in it. -/
def Moment.before (m : Moment κ ε) (K : List (Waiting κ ε)) : Moment κ ε :=
  { m with waiting := m.waiting ++ K }

/-- What waits further behind does not matter to a step. -/
theorem Step.before (h : Step host m m') (K : List (Waiting κ ε)) :
    Step host (m.before K) (m'.before K) := by
  cases h <;> first
    | exact .undefinedValue ‹_› ‹_› ‹_› ‹_›
    | constructor <;> assumption

theorem Leads.before (h : Leads host m m') (K : List (Waiting κ ε)) :
    Leads host (m.before K) (m'.before K) :=
  h.lift (·.before K) fun _ _ hstep => hstep.before K

/-! ### What waits for what -/

/-- The three things that are waited for. -/
inductive Task
  | query
  | invocation
  | handler
  deriving DecidableEq

def Activity.task : Activity κ ε → Task
  | .query .. | .clauses .. | .ended _ => .query
  | .invocation _ | .returned _ => .invocation
  | .handler _ => .handler

def Waiting.needs : Waiting κ ε → Task
  | .rest .. => .invocation
  | .expansion .. | .assignment | .execute .. | .evaluate _ => .query
  | .command _ => .handler

/-- What it is that waits, or a part of it. -/
def Waiting.task : Waiting κ ε → Task
  | .rest .. => .query
  | .expansion .. | .assignment | .command _ => .invocation
  | .execute .. | .evaluate _ => .handler

/-- Whether what waits waits for the task, and each for the one in front of it. At the very end it
is the task `last` for which nothing waits. -/
def Serves (last : Task) : Task → List (Waiting κ ε) → Prop
  | t, [] => t = last
  | t, w :: K => w.needs = t ∧ Serves last w.task K

/-- Whether what waits in the moment waits for what the console does. -/
def Moment.Ordered (last : Task) (m : Moment κ ε) : Prop := Serves last m.activity.task m.waiting

theorem Step.ordered {last : Task} (h : Step host m m') (hm : m.Ordered last) :
    m'.Ordered last := by
  cases h <;>
    simp_all [Moment.Ordered, Serves, Activity.task, Waiting.needs, Waiting.task]

theorem Leads.ordered {last : Task} (h : Leads host m m') (hm : m.Ordered last) :
    m'.Ordered last := by
  induction h with
  | refl => exact hm
  | tail _ hstep ih => exact hstep.ordered ih

theorem Moment.ordered_start (q : Query) (c : Console κ ε) : (Moment.start q c).Ordered .query :=
  rfl

/-! ### How deep the console is -/

def Waiting.isQuery : Waiting κ ε → Bool
  | .rest .. => true
  | _ => false

/-- The number of queries that the activity goes on inside of, all that waits left aside. -/
def Activity.level : Activity κ ε → Nat
  | .clauses .. => 1
  | _ => 0

/-- The number of queries that run in the moment. -/
def Moment.level (m : Moment κ ε) : Nat := m.waiting.countP Waiting.isQuery + m.activity.level

/-- Whether the console is as deep as queries run in the moment, in a run that began at the depth
`d`, and may be as deep as `limit`. -/
def Moment.CountsFrom (d limit : Nat) (m : Moment κ ε) : Prop :=
  m.console.limits = (d + m.level, limit)

theorem limits_of_parse {c c' : Console κ ε} {source : String} {answer : Except SyntaxError Query}
    (h : c.parse source = (answer, c')) : c'.limits = c.limits := by
  rw [← Console.limits_parse (c := c) source, h]

theorem limits_enter {c : Console κ ε} {d limit : Nat} (h : c.limits = (d, limit)) :
    c.enter.limits = (d + 1, limit) := by
  simp_all [Console.limits, Console.enter]

theorem limits_leave {c : Console κ ε} {d limit : Nat} (h : c.limits = (d + 1, limit)) :
    c.leave.limits = (d, limit) := by
  simp_all [Console.limits, Console.leave]

/-- **The console knows how deep it is.** A step changes the depth of the console by as much as the
number of queries that run. -/
theorem Step.countsFrom {d limit : Nat} (h : Step host m m') (hm : m.CountsFrom d limit) :
    m'.CountsFrom d limit := by
  simp only [Moment.CountsFrom, Moment.level] at hm ⊢
  cases h with
  | enter _ => exact limits_enter hm
  | leave _ => exact limits_leave hm
  | breakOff =>
    refine limits_leave (hm.trans ?_)
    simp only [List.countP_cons, Waiting.isQuery, Activity.level]
    congr 1
  | malformedBody _ _ hparse | expand _ _ hparse =>
    have hlimits := limits_of_parse hparse
    rw [Console.limits_warnArguments] at hlimits
    rw [hlimits, hm]
    simp [Waiting.isQuery, Activity.level]
  | malformedSource _ hparse | execute _ hparse =>
    rw [limits_of_parse hparse, hm]
    simp [Waiting.isQuery, Activity.level]
  | put => exact hm
  | _ => simp_all [List.countP_cons, Waiting.isQuery, Activity.level]

theorem Leads.countsFrom {d limit : Nat} (h : Leads host m m') (hm : m.CountsFrom d limit) :
    m'.CountsFrom d limit := by
  induction h with
  | refl => exact hm
  | tail _ hstep ih => exact hstep.countsFrom ih

theorem Moment.countsFrom_start (q : Query) (c : Console κ ε) :
    (Moment.start q c).CountsFrom c.depth c.maxDepth := rfl

/-- An invocation, and a handler too, belongs to a query that runs. -/
theorem level_pos_of_serves {K : List (Waiting κ ε)} :
    Serves .query .invocation K ∨ Serves .query .handler K → 0 < K.countP Waiting.isQuery := by
  induction K with
  | nil => simp [Serves]
  | cons w K ih =>
    cases w with
    | rest => simp [Waiting.isQuery]
    | _ => simp_all [Serves, Waiting.needs, Waiting.task, Waiting.isQuery]

/-- The console is inside of a query while one waits. -/
theorem Moment.depth_pos {d limit : Nat} (hm : m.CountsFrom d limit)
    (hlevel : 0 < m.waiting.countP Waiting.isQuery) : 0 < m.console.depth := by
  have hdepth : m.console.depth = d + m.level := congrArg Prod.fst hm
  rw [hdepth, Moment.level]
  omega

end DevConsole
