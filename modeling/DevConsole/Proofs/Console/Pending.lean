import DevConsole.Proofs.Console.Simulation

/-!
Pending errors. An error of a query that a handler has executed is not printed but stays pending
while the handler goes on, until the invocation of the first handler that comes to its end takes it
up. Main statement: if the handler evaluates nothing that starts another one, nothing runs that it
executes, and its own invocation aborts the query that it belongs to with that error, labelled with
the name of the handler's command and with the text that was executed.
-/

namespace DevConsole

open Relation

variable {κ ε : Type} {host : Host κ (Workspace κ ε)} {m m' : Moment κ ε}

/-! ### What touches the pending error -/

namespace Console

variable {c c' : Console κ ε}

@[simp] theorem pending_print (level : Level) (message : String) :
    (c.print level message).pending = c.pending := rfl

@[simp] theorem pending_report (e : InvocationError) : (c.report e).pending = c.pending := rfl

@[simp] theorem pending_enter : c.enter.pending = c.pending := rfl

@[simp] theorem pending_leave : c.leave.pending = c.pending := rfl

@[simp] theorem pending_trim : c.trim.pending = c.pending := by
  unfold trim
  split <;> rfl

@[simp] theorem pending_countStep : c.countStep.pending = c.pending := by
  unfold countStep
  dsimp only
  split <;> rfl

@[simp] theorem pending_warnArguments (call : Invocation) :
    (c.warnArguments call).pending = c.pending := by
  unfold warnArguments
  split <;> rfl

@[simp] theorem pending_parse (source : String) : (c.parse source).2.pending = c.pending := rfl

theorem pending_of_parse {source : String} {answer : Except SyntaxError Query}
    (h : c.parse source = (answer, c')) : c'.pending = c.pending := by
  rw [← pending_parse (c := c) source, h]

theorem pending_close (name : String) (ending : Ending) :
    (c.close name ending).1.pending = none := by
  unfold close
  split <;> simp_all

/-- What is pending counts for more than how the handler ends. -/
theorem close_of_pending {source : String} {e : QueryError} (h : c.pending = some (source, e))
    (name : String) (ending : Ending) :
    c.close name ending = ({ c with pending := none }, .error (e.within name source)) := by
  simp only [close, h]

theorem trim_of_pos (h : 0 < c.depth) : c.trim = c := by
  rw [trim, if_neg (by omega)]

theorem settle_of_pos (h : 0 < c.depth) (source : String) (e : QueryError) :
    c.settle false source e = { c with pending := some (source, e) } := by
  rw [settle, if_pos (by simp [h])]

end Console

/-! ### How long an error is pending -/

/-- What follows a moment is that moment, or follows the one right after it. -/
theorem Leads.eq_or_leads {m₀ m₁ : Moment κ ε} (hstep : Step host m₀ m₁) (h : Leads host m₀ m) :
    m = m₀ ∨ Leads host m₁ m := by
  rcases ReflTransGen.cases_head h with rfl | ⟨m', hstep', hleads⟩
  · exact .inl rfl
  · rw [hstep.unique hstep'] at hleads
    exact .inr hleads

/-- Whatever a run passes through while some of what waits is not reached yet, it passes through
with less that waits too. -/
theorem Leads.before_cases {m₀ m₁ : Moment κ ε} {K : List (Waiting κ ε)} (h : Leads host m₀ m₁)
    (h' : Leads host (m₀.before K) m') :
    (∃ m, Leads host m₀ m ∧ m' = m.before K) ∨ Leads host (m₁.before K) m' := by
  induction h using ReflTransGen.head_induction_on with
  | refl => exact .inr h'
  | head hstep hleads ih =>
    rcases Leads.eq_or_leads (hstep.before K) h' with rfl | hleads'
    · exact .inl ⟨_, .refl, rfl⟩
    · rcases ih hleads' with ⟨m, hm, rfl⟩ | hm
      · exact .inl ⟨m, .head hstep hm, rfl⟩
      · exact .inr hm

/-- Whether it is a handler that waits for the query of a source. -/
def Waiting.isExecute : Waiting κ ε → Bool
  | .execute .. => true
  | _ => false

/-- Whether the error is pending in the rest of a handler, of which no source runs. -/
structure Moment.Carries (pending : String × QueryError) (m : Moment κ ε) : Prop where
  pending : m.console.pending = some pending
  running : ∀ w ∈ m.waiting, w.isExecute = false

/-- An error stays pending, and no source runs, until a handler is closed. -/
theorem Step.carries {pending : String × QueryError} (h : Step host m m')
    (hm : m.Carries pending) : m'.Carries pending ∨ ∃ ending name K,
      m.activity = .handler (.stop ending) ∧ m.waiting = .command name :: K := by
  obtain ⟨hpending, hrunning⟩ := hm
  cases h with
  | malformedSource hnone | execute hnone => simp [hnone] at hpending
  | executed | settle => simp [Waiting.isExecute] at hrunning
  | close => exact .inr ⟨_, _, _, rfl, rfl⟩
  | malformedBody _ _ hparse | expand _ _ hparse =>
    refine .inl ⟨?_, by simp_all [Waiting.isExecute]⟩
    rw [Console.pending_of_parse hparse, Console.pending_warnArguments, hpending]
  | _ => exact .inl ⟨by simpa using hpending, by simp_all [Waiting.isExecute]⟩

/-- Whether the error is pending from `m` on until the run comes to `t`. -/
def PendsUntil (host : Host κ (Workspace κ ε)) (pending : String × QueryError)
    (m t : Moment κ ε) : Prop :=
  Leads host m t ∧ ∀ m', Leads host m m' → m'.console.pending = some pending ∨ Leads host t m'

theorem PendsUntil.refl {pending : String × QueryError} (m : Moment κ ε) :
    PendsUntil host pending m m := ⟨.refl, fun _ h => .inr h⟩

theorem PendsUntil.head {pending : String × QueryError} {m₀ m₁ t : Moment κ ε}
    (hstep : Step host m₀ m₁) (hm₀ : m₀.console.pending = some pending)
    (h : PendsUntil host pending m₁ t) : PendsUntil host pending m₀ t := by
  refine ⟨.head hstep h.1, fun m' hm' => ?_⟩
  rcases hm'.eq_or_leads hstep with rfl | hleads
  · exact .inl hm₀
  · exact h.2 m' hleads

theorem PendsUntil.before {pending : String × QueryError} {m₀ t : Moment κ ε}
    (h : PendsUntil host pending m₀ t) (K : List (Waiting κ ε)) :
    PendsUntil host pending (m₀.before K) (t.before K) := by
  refine ⟨h.1.before K, fun m' hm' => ?_⟩
  rcases h.1.before_cases hm' with ⟨m, hm, rfl⟩ | hleads
  · exact (h.2 m hm).imp id fun hleads => hleads.before K
  · exact .inr hleads

/-- The error is pending all along a run, or until a handler has come to its end. -/
theorem Leads.pendsUntil {pending : String × QueryError} (h : Leads host m m')
    (hm : m.Carries pending) :
    m'.Carries pending ∧ PendsUntil host pending m m' ∨
      ∃ ending name K c, c.pending = some pending ∧
        PendsUntil host pending m ⟨.handler (.stop ending), .command name :: K, c⟩ := by
  induction h using ReflTransGen.head_induction_on with
  | refl => exact .inl ⟨hm, .refl _⟩
  | @head m m₁ hstep hleads ih =>
    rcases hstep.carries hm with hcarries | ⟨ending, name, K, hactivity, hwaiting⟩
    · rcases ih hcarries with ⟨hend, huntil⟩ | ⟨ending, name, K, c, hc, huntil⟩
      · exact .inl ⟨hend, huntil.head hstep hm.pending⟩
      · exact .inr ⟨ending, name, K, c, hc, huntil.head hstep hm.pending⟩
    · obtain ⟨activity, waiting, c⟩ := m
      obtain rfl : activity = _ := hactivity
      obtain rfl : waiting = _ := hwaiting
      exact .inr ⟨ending, name, K, c, hm.pending, .refl _⟩

variable (host) in
theorem exists_leads_stop (p : Program (Workspace κ ε)) (c : Console κ ε) :
    ∃ ending c', Leads host ⟨.handler p, [], c⟩ ⟨.handler (.stop ending), [], c'⟩ :=
  ⟨_, _, Console.leads_handler p [] c⟩

variable (host) in
/-- A handler with a pending error does not lose it: it is pending until the handler itself or one
inside it has come to its end. -/
theorem exists_pendsUntil (p : Program (Workspace κ ε)) {c : Console κ ε}
    {pending : String × QueryError} (hc : c.pending = some pending) (name : String)
    (K : List (Waiting κ ε)) :
    ∃ ending name' K' c', c'.pending = some pending ∧
      (name' = name ∧ K' = K ∨ ∃ inner, K' = inner ++ .command name :: K) ∧
      PendsUntil host pending ⟨.handler p, .command name :: K, c⟩
        ⟨.handler (.stop ending), .command name' :: K', c'⟩ := by
  obtain ⟨ending, c₁, hlocal⟩ := exists_leads_stop host p c
  rcases hlocal.pendsUntil ⟨hc, by simp⟩ with ⟨hend, huntil⟩ | ⟨ending', name', K', c', hc', huntil⟩
  · exact ⟨ending, name, K, c₁, hend.pending, .inl ⟨rfl, rfl⟩, huntil.before (.command name :: K)⟩
  · exact ⟨ending', name', _, c', hc', .inr ⟨K', rfl⟩, huntil.before (.command name :: K)⟩

/-! ### Handlers that evaluate quietly -/

/-- Whether a handler is about to start. -/
def Moment.StartsHandler (m : Moment κ ε) : Prop :=
  ∃ call handler args, m.activity = .invocation call ∧ call.name ≠ "" ∧
    m.console.target call.name = .command handler ∧
    resolveAll m.console.vars.text? call.args = .ok args

/-- Whether the handler that goes on with `p` starts no other one by the queries that it
evaluates. -/
def EvaluatesQuietly (host : Host κ (Workspace κ ε)) (p : Program (Workspace κ ε))
    (c : Console κ ε) : Prop :=
  ∀ m k, Leads host ⟨.handler p, [], c⟩ m → .evaluate k ∈ m.waiting → ¬ m.StartsHandler

/-- Whether the error is pending in the rest of a handler, which has started no other one and has no
source running. -/
structure Moment.Holds (pending : String × QueryError) (m : Moment κ ε) : Prop
    extends m.Carries pending where
  ordered : m.Ordered .handler
  alone : ∀ w ∈ m.waiting, w.needs ≠ .handler

/-- A query inside a handler is there because the handler has it evaluated. -/
theorem exists_evaluate_of_serves {K : List (Waiting κ ε)} {t : Task} (ht : t ≠ .handler)
    (h : Serves .handler t K) (hrunning : ∀ w ∈ K, w.isExecute = false)
    (halone : ∀ w ∈ K, w.needs ≠ .handler) : ∃ k, Waiting.evaluate k ∈ K := by
  induction K generalizing t with
  | nil => exact absurd h ht
  | cons w K ih =>
    obtain ⟨hw, hK⟩ := List.forall_mem_cons.1 hrunning
    obtain ⟨hw', hK'⟩ := List.forall_mem_cons.1 halone
    have hserves := h.2
    cases w with
    | evaluate k => exact ⟨k, List.mem_cons_self⟩
    | execute => cases hw
    | command => exact absurd rfl hw'
    | rest | expansion | assignment =>
      obtain ⟨k, hk⟩ := ih (by simp [Waiting.task]) hserves hK hK'
      exact ⟨k, List.mem_cons_of_mem _ hk⟩

/-- The error stays pending as long as no other handler starts. -/
theorem Step.holds {pending : String × QueryError} (h : Step host m m') (hm : m.Holds pending)
    (hquiet : ¬ m.StartsHandler) : m'.Holds pending := by
  rcases h.carries hm.toCarries with hcarries | ⟨ending, name, K, -, hwaiting⟩
  · refine ⟨hcarries, h.ordered hm.ordered, ?_⟩
    have halone := hm.alone
    cases h with
    | handle hname htarget hresolve => exact absurd ⟨_, _, _, rfl, hname, htarget, hresolve⟩ hquiet
    | _ => simp_all [Waiting.needs]
  · exact absurd rfl (hm.alone (.command name) (hwaiting ▸ List.mem_cons_self))

/-- The error stays pending to the end of a handler that evaluates quietly, and no other one starts
until then. -/
theorem Leads.holds {p : Program (Workspace κ ε)} {c : Console κ ε} {pending : String × QueryError}
    (hc : c.pending = some pending) (hquiet : EvaluatesQuietly host p c)
    (h : Leads host ⟨.handler p, [], c⟩ m) : m.Holds pending ∧ ¬ m.StartsHandler := by
  have hstarts : ∀ m, Leads host ⟨.handler p, [], c⟩ m → m.Holds pending → ¬ m.StartsHandler := by
    intro m hm hholds hstart
    obtain ⟨call, handler, args, hcall, -⟩ := id hstart
    have hordered := hholds.ordered
    rw [Moment.Ordered, hcall] at hordered
    obtain ⟨k, hk⟩ := exists_evaluate_of_serves (by simp [Activity.task]) hordered
      hholds.running hholds.alone
    exact hquiet m k hm hk hstart
  have hholds : m.Holds pending := by
    induction h with
    | refl => exact ⟨⟨hc, by simp⟩, rfl, by simp⟩
    | tail hleads hstep ih => exact hstep.holds ih (hstarts _ hleads ih)
  exact ⟨hholds, hstarts m h hholds⟩

/-- A moment that starts a handler comes after each one before it that does not. -/
theorem Leads.of_startsHandler {m₀ m₁ : Moment κ ε} (hstep : Step host m₀ m₁)
    (hm₀ : ¬ m₀.StartsHandler) (h : Leads host m₀ m) (hm : m.StartsHandler) : Leads host m₁ m := by
  rcases h.eq_or_leads hstep with rfl | hleads
  · exact absurd hm hm₀
  · exact hleads

/-! ### The way out -/

/-- The error as what waits passes it on: each alias adds its label, the innermost first. -/
def labelled : List (Waiting κ ε) → QueryError → QueryError
  | [], e => e
  | .expansion name body :: K, e => labelled K (e.within name body)
  | _ :: K, e => labelled K e

/-- An error goes out through aliases and assignments to the end of the outermost query. -/
theorem leads_labelled (K : List (Waiting κ ε)) (hK : ∀ w ∈ K, w.needs ≠ .handler) (e : QueryError)
    (c : Console κ ε) :
    (Serves .query .query K → ∃ c', Leads host ⟨.ended (.error e), K, c⟩
      ⟨.ended (.error (labelled K e)), [], c'⟩) ∧
    (Serves .query .invocation K → ∃ c', Leads host ⟨.returned (.error e), K, c⟩
      ⟨.ended (.error (labelled K e)), [], c'⟩) := by
  induction K generalizing e c with
  | nil => exact ⟨fun _ => ⟨c, .refl⟩, fun h => by cases h⟩
  | cons w K ih =>
    have hrest := fun w' hw' => hK w' (List.mem_cons_of_mem w hw')
    refine ⟨fun h => ?_, fun h => ?_⟩
    · obtain ⟨hneeds, hserves⟩ := h
      cases w with
      | rest | command => cases hneeds
      | expansion name body =>
        obtain ⟨c', hc'⟩ := (ih hrest (e.within name body) c).2 hserves
        exact ⟨c', .head .expanded hc'⟩
      | assignment =>
        obtain ⟨c', hc'⟩ := (ih hrest e c).2 hserves
        exact ⟨c', .head .assigned hc'⟩
      | execute | evaluate =>
        -- what a handler waits for is followed by the handler's command
        cases K with
        | nil => cases hserves
        | cons w' K => exact absurd hserves.1 (hrest w' List.mem_cons_self)
    · obtain ⟨hneeds, hserves⟩ := h
      cases w with
      | rest anyFailed cs =>
        obtain ⟨c', hc'⟩ := (ih hrest e c.leave).1 hserves
        exact ⟨c', .head .breakOff hc'⟩
      | _ => cases hneeds

/-- What waits for an answer in front of `w` is in order by itself. -/
theorem serves_of_append {last t : Task} {K K' : List (Waiting κ ε)} {w : Waiting κ ε}
    (h : Serves last t (K ++ w :: K')) : Serves w.needs t K := by
  induction K generalizing t with
  | nil => exact h.1.symm
  | cons w' K ih => exact ⟨h.1, ih h.2⟩

/-! ### A host with two commands -/

def Query.ofName (name : String) : Query := ⟨.command .always { name } .nil⟩

/-- A host with a handler that carries out `p`, and with one that does nothing. -/
def Host.carryingOut (p : Program (Workspace Bool Unit)) : Host Bool (Workspace Bool Unit) where
  run first _ := if first then p else .stop .passed

/-- A console with a command for each of them, and with an alias for the first. -/
def twoCommands : Console Bool Unit :=
  (Console.ofSettings {} ()).mapWorkspace fun w =>
    let commands := (w.commands.insert { name := "run", handler := .host true }).2
    { w with
      commands := (commands.insert { name := "idle", handler := .host false }).2
      aliases := ⟨.ofList [("go", "run")]⟩ }

/-- Executes a source, and has a query evaluated that does nothing. -/
def Program.patient : Program (Workspace Bool Unit) :=
  .execute false "idle" fun _ => .evaluate (.ofName "") fun _ => .stop .passed

/-- Has a query evaluated that invokes another command. -/
def Program.hasty : Program (Workspace Bool Unit) :=
  .evaluate (.ofName "idle") fun _ => .stop .passed

/-- Executes a malformed source, and goes on. -/
def Program.afterFailure (p : Program (Workspace Bool Unit)) : Program (Workspace Bool Unit) :=
  .execute false ")" fun _ => p

def unmatchedAtStart : QueryError := .malformed ⟨.unmatchedClose, 0, 1⟩

theorem leads_unmatched (p : Program (Workspace Bool Unit)) :
    ∃ c, Leads (.carryingOut (.afterFailure p)) (.start (.ofName "run") twoCommands)
      ⟨.ended (.error unmatchedAtStart),
        [.execute false ")" fun _ => p, .command "run", .rest false [.nil]], c⟩ := by
  constructor
  refine .head (.enter (by decide)) ?_
  refine .head (.command rfl) ?_
  refine .head (.handle (by decide) rfl rfl) ?_
  exact .single (.malformedSource rfl rfl)

theorem leads_unmatched_of_alias (p : Program (Workspace Bool Unit)) :
    ∃ c, Leads (.carryingOut (.afterFailure p)) (.start (.ofName "go") twoCommands)
      ⟨.ended (.error unmatchedAtStart),
        [.execute false ")" fun _ => p, .command "run", .rest false [.nil], .expansion "go" "run",
          .rest false [.nil]], c⟩ := by
  constructor
  refine .head (.enter (by decide)) ?_
  refine .head (.command rfl) ?_
  refine .head (.expand (by decide) (rfl : Console.target _ _ = .alias "run")
    (rfl : Console.parse _ _ = (.ok (.ofName "run"), _))) ?_
  refine .head (.enter (by decide)) ?_
  refine .head (.command rfl) ?_
  refine .head (.handle (by decide) rfl rfl) ?_
  exact .single (.malformedSource rfl rfl)

/-- The patient handler starts no other one: its source is skipped, and the query that it has
evaluated invokes nothing. -/
theorem evaluatesQuietly_patient {host : Host Bool (Workspace Bool Unit)} {c : Console Bool Unit}
    (hc : c.pending ≠ none) : EvaluatesQuietly host .patient c := by
  intro m k hm hk hstart
  have hquery := (hm.of_startsHandler (.skip hc) (by simp [Moment.StartsHandler]) hstart)
    |>.of_startsHandler .evaluate (by simp [Moment.StartsHandler]) hstart
  have hended : ∃ answer c',
      Leads host ⟨.ended answer, [.evaluate fun _ => .stop .passed], c'⟩ m := by
    by_cases hdepth : c.depth < c.maxDepth
    · have hclauses := hquery.of_startsHandler (.enter hdepth) (by simp [Moment.StartsHandler])
        hstart
      have hcall := hclauses.of_startsHandler (.command rfl) (by simp [Moment.StartsHandler]) hstart
      have hdone := hcall.of_startsHandler (.noop rfl rfl) (by simp [Moment.StartsHandler]) hstart
      have hrest := hdone.of_startsHandler .goOn (by simp [Moment.StartsHandler]) hstart
      exact ⟨_, _, hrest.of_startsHandler (.leave rfl) (by simp [Moment.StartsHandler]) hstart⟩
    · have hdeep := hquery.of_startsHandler (.tooDeep (by omega)) (by simp [Moment.StartsHandler])
        hstart
      exact ⟨_, _, hdeep⟩
  obtain ⟨answer, c', hended⟩ := hended
  have hstop := hended.of_startsHandler .evaluated (by simp [Moment.StartsHandler]) hstart
  rcases ReflTransGen.cases_head hstop with rfl | ⟨_, hstep, -⟩
  · cases hk
  · cases hstep

/-! ### The error of an executed query -/

/-- A handler that is closed with a pending error takes it up. -/
theorem step_close_of_pending {source : String} {e : QueryError} {c : Console κ ε}
    (hc : c.pending = some (source, e)) (ending : Ending) (name : String)
    (K : List (Waiting κ ε)) :
    Step host ⟨.handler (.stop ending), .command name :: K, c⟩
      ⟨.returned (.error (e.within name source)), K, { c with pending := none }⟩ := by
  have hclose : Step host ⟨.handler (.stop ending), .command name :: K, c⟩ _ := .close
  rwa [Console.close_of_pending hc] at hclose

/-- A handler with a pending error that evaluates quietly aborts the query it belongs to, and no
other handler starts before that. -/
theorem leads_of_pending {p : Program (Workspace κ ε)} {c : Console κ ε} {source : String}
    {e : QueryError} (hc : c.pending = some (source, e)) (hquiet : EvaluatesQuietly host p c)
    (name : String) (anyFailed : Bool) (cs : List Chain) (K : List (Waiting κ ε)) :
    ∃ c', c'.pending = none ∧
      Leads host ⟨.handler p, .command name :: .rest anyFailed cs :: K, c⟩
        ⟨.ended (.error (e.within name source)), K, c'⟩ ∧
      ∀ m, Leads host ⟨.handler p, .command name :: .rest anyFailed cs :: K, c⟩ m →
        m.StartsHandler → Leads host ⟨.ended (.error (e.within name source)), K, c'⟩ m := by
  obtain ⟨ending, c₁, hlocal⟩ := exists_leads_stop host p c
  have hpending : c₁.pending = some (source, e) := (hlocal.holds hc hquiet).1.pending
  -- the handler comes to its end, is closed, and breaks the query off
  have hclose : Step host _ _ :=
    step_close_of_pending hpending ending name (.rest anyFailed cs :: K)
  have hbreak : Step host ⟨.returned (.error (e.within name source)), .rest anyFailed cs :: K,
      { c₁ with pending := none }⟩ _ := .breakOff
  have hlong := hlocal.before (.command name :: .rest anyFailed cs :: K)
  refine ⟨_, rfl, (hlong.tail hclose).tail hbreak, fun m hm hstart => ?_⟩
  rcases hlocal.before_cases hm with ⟨m, hleads, rfl⟩ | hafter
  · exact absurd hstart (hleads.holds hc hquiet).2
  · have hreturned := Leads.of_startsHandler hclose (by simp [Moment.StartsHandler]) hafter hstart
    exact hreturned.of_startsHandler hbreak (by simp [Moment.StartsHandler]) hstart

/-- **A query that a handler executed aborts the query of the handler.** When it breaks off with an
error, nothing is printed, and the error is left pending while the handler goes on. It is pending
until the first handler comes to its end, this one or one inside it, and the invocation of that one
takes it up, under the name of its command and the text that was executed. If the handler evaluates
quietly, no other one starts until the query that it belongs to has come to its end with this error,
under the name of its own command. With the labels of the aliases around it the error comes to the
handler that has had this query evaluated, or is what the whole evaluation answers. -/
theorem aborts_of_executed_error {q : Query} {c₀ c : Console κ ε} {e : QueryError}
    {source name : String} {k : Bool → Program (Workspace κ ε)} {anyFailed : Bool}
    {cs : List Chain} {K : List (Waiting κ ε)}
    (herror : Leads host (.start q c₀) ⟨.ended (.error e),
      .execute false source k :: .command name :: .rest anyFailed cs :: K, c⟩) :
    let left : Moment κ ε := ⟨.handler (k false), .command name :: .rest anyFailed cs :: K,
      { c with pending := some (source, e) }⟩
    Step host ⟨.ended (.error e),
      .execute false source k :: .command name :: .rest anyFailed cs :: K, c⟩ left ∧
    (∃ ending name' K' c',
      (name' = name ∧ K' = .rest anyFailed cs :: K ∨
        ∃ inner, K' = inner ++ .command name :: .rest anyFailed cs :: K) ∧
      PendsUntil host (source, e) left ⟨.handler (.stop ending), .command name' :: K', c'⟩ ∧
      Step host ⟨.handler (.stop ending), .command name' :: K', c'⟩
        ⟨.returned (.error (e.within name' source)), K', { c' with pending := none }⟩) ∧
    (EvaluatesQuietly host (k false) left.console →
      ∃ c', c'.pending = none ∧
        Leads host left ⟨.ended (.error (e.within name source)), K, c'⟩ ∧
        (∀ m, Leads host left m → m.StartsHandler →
          Leads host ⟨.ended (.error (e.within name source)), K, c'⟩ m) ∧
        (∀ inner k' outer, K = inner ++ .evaluate k' :: outer →
          (∀ w ∈ inner, w.needs ≠ .handler) →
          ∃ c'', Leads host ⟨.ended (.error (e.within name source)), K, c'⟩
            ⟨.handler (k' (.error (labelled inner (e.within name source)))), outer, c''⟩) ∧
        ((∀ w ∈ K, w.needs ≠ .handler) →
          (c₀.evaluate host q).2 = .error (labelled K (e.within name source)))) := by
  intro left
  have hcounts := herror.countsFrom (Moment.countsFrom_start q c₀)
  have hdepth : 0 < c.depth := by
    refine Moment.depth_pos hcounts ?_
    simp [Waiting.isQuery]
  have hsettle : Step host ⟨.ended (.error e),
      .execute false source k :: .command name :: .rest anyFailed cs :: K, c⟩ _ := .settle
  rw [Console.trim_of_pos hdepth, Console.settle_of_pos hdepth] at hsettle
  have hpending : left.console.pending = some (source, e) := rfl
  obtain ⟨ending, name', K', c', hc', hplace, huntil⟩ :=
    exists_pendsUntil host (k false) hpending name (.rest anyFailed cs :: K)
  refine ⟨hsettle, ⟨ending, name', K', c', hplace, huntil, step_close_of_pending hc' ..⟩,
    fun hquiet => ?_⟩
  obtain ⟨c', hnone, hend, hstarts⟩ := leads_of_pending hpending hquiet name anyFailed cs K
  have hlong : Leads host (.start q c₀) ⟨.ended (.error (e.within name source)), K, c'⟩ :=
    (herror.tail hsettle).trans hend
  have hserves : Serves .query .query K := hlong.ordered (Moment.ordered_start q c₀)
  refine ⟨c', hnone, hend, hstarts, ?_, fun hK => ?_⟩
  · rintro inner k' outer rfl hinner
    obtain ⟨c'', hc''⟩ :=
      (leads_labelled inner hinner (e.within name source) c').1 (serves_of_append hserves)
    exact ⟨c'', (hc''.before (.evaluate k' :: outer)).tail .evaluated⟩
  · obtain ⟨c'', hc''⟩ := (leads_labelled K hK (e.within name source) c').1 hserves
    have hall : Leads host (.start q c₀) _ := hlong.trans hc''
    rw [hall.evaluate_eq]

/-- The patient handler, invoked by an alias. -/
theorem aborts_of_executed_error_in_alias :
    ∃ c, Leads (.carryingOut (.afterFailure .patient)) (.start (.ofName "go") twoCommands)
        ⟨.ended (.error unmatchedAtStart),
          [.execute false ")" fun _ => .patient, .command "run", .rest false [.nil],
            .expansion "go" "run", .rest false [.nil]], c⟩ ∧
      EvaluatesQuietly (.carryingOut (.afterFailure .patient)) .patient
        { c with pending := some (")", unmatchedAtStart) } ∧
      (twoCommands.evaluate (.carryingOut (.afterFailure .patient)) (.ofName "go")).2 =
        .error (.expanding "go" "run" (.expanding "run" ")" unmatchedAtStart)) := by
  obtain ⟨c, herror⟩ := leads_unmatched_of_alias .patient
  have hquiet : EvaluatesQuietly (.carryingOut (.afterFailure .patient)) .patient
      { c with pending := some (")", unmatchedAtStart) } := evaluatesQuietly_patient (by simp)
  obtain ⟨c', -, -, -, -, hresult⟩ := (aborts_of_executed_error herror).2.2 hquiet
  exact ⟨c, herror, hquiet, hresult (by simp [Waiting.needs])⟩

/-- Whether the error of a query that was executed by a handler, one that the query `q` itself
invokes, is always what the evaluation of `q` answers, under the name of the command and the text
that was executed. -/
def ReturnsExecutedErrors (host : Host κ (Workspace κ ε)) (q : Query) (c₀ : Console κ ε) : Prop :=
  ∀ e source name k anyFailed cs c, Leads host (.start q c₀) ⟨.ended (.error e),
      [.execute false source k, .command name, .rest anyFailed cs], c⟩ →
    (c₀.evaluate host q).2 = .error (e.within name source)

/-- An error is lost that the handler of another command takes up inside a query that is evaluated:
the hasty handler's query passes. -/
theorem not_returnsExecutedErrors :
    ¬ ReturnsExecutedErrors (.carryingOut (.afterFailure .hasty)) (.ofName "run") twoCommands := by
  intro h
  obtain ⟨c, hleads⟩ := leads_unmatched .hasty
  have hclaimed := h _ _ _ _ _ _ c hleads
  have hactual : (twoCommands.evaluate (.carryingOut (.afterFailure .hasty))
      (.ofName "run")).2 = .ok true := by
    decide +kernel
  rw [hactual] at hclaimed
  cases hclaimed

end DevConsole
