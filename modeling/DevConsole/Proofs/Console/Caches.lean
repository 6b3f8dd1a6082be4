import DevConsole.Proofs.Console.Reports

/-!
Consoles and their caches. Main statement: a cache gives what reading a source would give and holds
no more than it may, and nothing that a console does depends on its cache: with another one, of
whatever capacity, every run goes through the same moments and comes to the same end.
-/

namespace DevConsole

open Relation

variable {κ ε : Type}

/-! ### Consoles with another cache -/

namespace Console

def withCache (c : Console κ ε) (cache : QueryCache) : Console κ ε := { c with cache }

variable {c c' : Console κ ε} {k : QueryCache}

theorem trim_withCache : (c.withCache k).trim = c.trim.withCache k := by
  have hdepth : (c.withCache k).depth = c.depth := rfl
  rw [trim, trim, hdepth]
  split <;> rfl

theorem countStep_withCache : (c.withCache k).countStep = c.countStep.withCache k := by
  by_cases hsteps : c.steps + 1 = c.iterationWarning
  · have hwarned : c.countStep = _ := if_pos hsteps
    have hwarned' : (c.withCache k).countStep = _ := if_pos hsteps
    rw [hwarned, hwarned']
    rfl
  · have hcounted : c.countStep = _ := if_neg hsteps
    have hcounted' : (c.withCache k).countStep = _ := if_neg hsteps
    rw [hcounted, hcounted']
    rfl

theorem warnArguments_withCache (call : Invocation) :
    (c.withCache k).warnArguments call = (c.warnArguments call).withCache k := by
  unfold warnArguments
  split <;> rfl

theorem settle_withCache (contained : Bool) (source : String) (e : QueryError) :
    (c.withCache k).settle contained source e = (c.settle contained source e).withCache k := by
  have hdepth : (c.withCache k).depth = c.depth := rfl
  rw [settle, settle, hdepth]
  split <;> rfl

theorem close_withCache (name : String) (ending : Ending) : (c.withCache k).close name ending =
    ((c.close name ending).1.withCache k, (c.close name ending).2) := by
  have hpending : (c.withCache k).pending = c.pending := rfl
  unfold close
  rw [hpending]
  split <;> rfl

/-- What a source is read as does not depend on the cache. -/
theorem parse_withCache (hc : c.cache.Faithful) (hk : k.Faithful) {source : String}
    {answer : Except SyntaxError Query} (hparse : c.parse source = (answer, c')) :
    ∃ k', (c.withCache k).parse source = (answer, c'.withCache k') ∧
      c'.cache.Faithful ∧ k'.Faithful := by
  obtain ⟨hanswer, hcache⟩ := hc.get source
  obtain ⟨hanswer', hcache'⟩ := hk.get source
  obtain ⟨rfl, rfl⟩ := Prod.mk.inj hparse
  exact ⟨(k.get source).2, Prod.ext (hanswer'.trans hanswer.symm) rfl, hcache, hcache'⟩

end Console

/-! ### Runs with another cache -/

def Moment.withCache (m : Moment κ ε) (k : QueryCache) : Moment κ ε :=
  { m with console := m.console.withCache k }

variable {host : Host κ (Workspace κ ε)} {m m' : Moment κ ε} {k : QueryCache}

/-- **A step is the same with another cache.** -/
theorem Step.withCache (h : Step host m m') (hm : m.console.cache.Faithful) (hk : k.Faithful) :
    ∃ k', Step host (m.withCache k) (m'.withCache k') ∧
      m'.console.cache.Faithful ∧ k'.Faithful := by
  cases h with
  | tooDeep hdeep => exact ⟨k, .tooDeep hdeep, hm, hk⟩
  | enter hlt => exact ⟨k, .enter hlt, hm, hk⟩
  | leave hstop => exact ⟨k, .leave hstop, hm, hk⟩
  | @group failed anyFailed cs rest offset K c hstop =>
    have hstep : Step host ⟨.clauses failed anyFailed cs, K, c.withCache k⟩ _ := .group hstop
    rw [Console.countStep_withCache] at hstep
    exact ⟨k, hstep, by simpa using hm, hk⟩
  | @command failed anyFailed cs rest call K c hstop =>
    have hstep : Step host ⟨.clauses failed anyFailed cs, K, c.withCache k⟩ _ := .command hstop
    rw [Console.countStep_withCache] at hstep
    exact ⟨k, hstep, by simpa using hm, hk⟩
  | goOn => exact ⟨k, .goOn, hm, hk⟩
  | breakOff => exact ⟨k, .breakOff, hm, hk⟩
  -- invocations
  | noop hname hargs => exact ⟨k, .noop hname hargs, hm, hk⟩
  | missingName hname hargs => exact ⟨k, .missingName hname hargs, hm, hk⟩
  | notFound hname htarget => exact ⟨k, .notFound hname htarget, hm, hk⟩
  | undefinedArgument hname htarget hresolve =>
    exact ⟨k, .undefinedArgument hname htarget hresolve, hm, hk⟩
  | handle hname htarget hresolve => exact ⟨k, .handle hname htarget hresolve, hm, hk⟩
  | malformedBody hname htarget hparse =>
    obtain ⟨k', hparse', hc', hk'⟩ :=
      Console.parse_withCache (by simpa using hm) hk hparse
    rw [← Console.warnArguments_withCache] at hparse'
    exact ⟨k', .malformedBody hname htarget hparse', hc', hk'⟩
  | expand hname htarget hparse =>
    obtain ⟨k', hparse', hc', hk'⟩ :=
      Console.parse_withCache (by simpa using hm) hk hparse
    rw [← Console.warnArguments_withCache] at hparse'
    exact ⟨k', .expand hname htarget hparse', hc', hk'⟩
  | expanded => exact ⟨k, .expanded, hm, hk⟩
  | tell hname htarget hargs => exact ⟨k, .tell hname htarget hargs, hm, hk⟩
  | undefinedValue hname htarget hargs hresolve =>
    exact ⟨k, .undefinedValue hname htarget hargs hresolve, hm, hk⟩
  | malformedAssignment hname htarget hargs hresolve hparse =>
    exact ⟨k, .malformedAssignment hname htarget hargs hresolve hparse, hm, hk⟩
  | assign hname htarget hargs hresolve hparse =>
    exact ⟨k, .assign hname htarget hargs hresolve hparse, hm, hk⟩
  | assigned => exact ⟨k, .assigned, hm, hk⟩
  -- handlers
  | get => exact ⟨k, .get, hm, hk⟩
  | put => exact ⟨k, .put, hm, hk⟩
  | @parse source next K c =>
    rcases hparse : c.parse source with ⟨answer, c'⟩
    obtain ⟨k', hparse', hc', hk'⟩ := Console.parse_withCache hm hk hparse
    have hstep : Step host ⟨.handler (.parse source next), K, c.withCache k⟩ _ := .parse
    rw [hparse'] at hstep
    exact ⟨k', hstep, hc', hk'⟩
  | skip hpending => exact ⟨k, .skip hpending, hm, hk⟩
  | malformedSource hnone hparse =>
    obtain ⟨k', hparse', hc', hk'⟩ := Console.parse_withCache hm hk hparse
    exact ⟨k', .malformedSource hnone hparse', hc', hk'⟩
  | execute hnone hparse =>
    obtain ⟨k', hparse', hc', hk'⟩ := Console.parse_withCache hm hk hparse
    exact ⟨k', .execute hnone hparse', hc', hk'⟩
  | @executed passed contained source next K c =>
    have hstep : Step host ⟨.ended (.ok passed), .execute contained source next :: K,
      c.withCache k⟩ _ := .executed
    rw [Console.trim_withCache] at hstep
    exact ⟨k, hstep, by simpa using hm, hk⟩
  | @settle e contained source next K c =>
    have hstep : Step host ⟨.ended (.error e), .execute contained source next :: K,
      c.withCache k⟩ _ := .settle
    rw [Console.trim_withCache, Console.settle_withCache] at hstep
    exact ⟨k, hstep, by simpa using hm, hk⟩
  | evaluate => exact ⟨k, .evaluate, hm, hk⟩
  | evaluated => exact ⟨k, .evaluated, hm, hk⟩
  | @close ending name K c =>
    have hstep : Step host ⟨.handler (.stop ending), .command name :: K, c.withCache k⟩ _ := .close
    rw [Console.close_withCache] at hstep
    exact ⟨k, hstep, by simpa using hm, hk⟩

theorem Leads.withCache (h : Leads host m m') (hm : m.console.cache.Faithful) (hk : k.Faithful) :
    ∃ k', Leads host (m.withCache k) (m'.withCache k') ∧
      m'.console.cache.Faithful ∧ k'.Faithful := by
  induction h with
  | refl => exact ⟨k, .refl, hm, hk⟩
  | tail _ hstep ih =>
    obtain ⟨k₁, hleads, hm₁, hk₁⟩ := ih
    obtain ⟨k₂, hstep₂, hm₂, hk₂⟩ := hstep.withCache hm₁ hk₁
    exact ⟨k₂, hleads.tail hstep₂, hm₂, hk₂⟩

/-- Two runs from one moment that are both over have come to the same. -/
theorem Leads.eq_of_over {m₁ m₂ : Moment κ ε} (h₁ : Leads host m m₁) (h₂ : Leads host m m₂)
    (hover₁ : ∀ m', ¬ Step host m₁ m') (hover₂ : ∀ m', ¬ Step host m₂ m') : m₂ = m₁ := by
  have heq : ∀ {m m' : Moment κ ε}, Leads host m m' → (∀ m'', ¬ Step host m m'') → m' = m := by
    intro m m' h hover
    rcases ReflTransGen.cases_head h with rfl | ⟨m'', hstep, -⟩
    · rfl
    · exact (hover m'' hstep).elim
  rcases h₁.total h₂ with h | h
  · exact heq h hover₁
  · exact (heq h hover₂).symm

namespace Console

variable {c c' : Console κ ε}

/-- What a program of the host comes to can be seen step by step. -/
theorem perform_eq_of_leads {p : Program (Workspace κ ε)} {ending : Ending}
    (h : Leads host ⟨.handler p, [], c⟩ ⟨.handler (.stop ending), [], c'⟩) :
    c.perform (runner host) p = (c', ending) := by
  have heq := h.eq_of_over (leads_handler p [] c) (by rintro _ ⟨⟩) (by rintro _ ⟨⟩)
  simp only [Moment.mk.injEq, Activity.handler.injEq, Program.stop.injEq, true_and] at heq
  exact Prod.ext heq.2 heq.1

/-- A query that has come to its end is over if nothing waits for it. -/
theorem not_step_of_ended (answer : Except QueryError Bool) (m : Moment κ ε) :
    ¬ Step host ⟨.ended answer, [], c⟩ m := by
  rintro ⟨⟩

theorem evaluate_eq_of_leads {q : Query} {answer : Except QueryError Bool}
    (h : Leads host (.start q c) ⟨.ended answer, [], c'⟩) :
    c.evaluate host q = (c', answer) := by
  have heq := h.eq_of_over (leads_evaluate q c) (not_step_of_ended _) (not_step_of_ended _)
  simp only [Moment.mk.injEq, Activity.ended.injEq, true_and] at heq
  exact Prod.ext heq.2 heq.1

theorem perform_withCache (host : Host κ (Workspace κ ε)) (hc : c.cache.Faithful)
    (hk : k.Faithful) (p : Program (Workspace κ ε)) :
    ∃ k', (c.withCache k).perform (runner host) p =
      ((c.perform (runner host) p).1.withCache k', (c.perform (runner host) p).2) := by
  have hleads : Leads host ⟨.handler p, [], c⟩ _ := leads_handler p [] c
  obtain ⟨k', hleads', -, -⟩ := hleads.withCache hc hk
  exact ⟨k', perform_eq_of_leads hleads'⟩

theorem evaluate_withCache (host : Host κ (Workspace κ ε)) (hc : c.cache.Faithful)
    (hk : k.Faithful) (q : Query) :
    ∃ k', (c.withCache k).evaluate host q =
      ((c.evaluate host q).1.withCache k', (c.evaluate host q).2) := by
  have hleads : Leads host (.start q c) _ := leads_evaluate q c
  obtain ⟨k', hleads', -, -⟩ := hleads.withCache hc hk
  exact ⟨k', evaluate_eq_of_leads hleads'⟩

end Console

namespace CacheOp

/-- **A cache is not seen.** However it has been used, a cache answers with what reading the source
gives, holds only sources with their own queries and no more than it may, and does not change for a
source with a fault. So whatever a host does with a console, and whatever its handlers do, runs with
two caches, of whatever capacities and with whatever in them, go through the same moments, have the
same results and leave the same console behind, but for the cache. -/
theorem unseen_after (host : Host κ (Workspace κ ε)) (c : Console κ ε)
    (p : Program (Workspace κ ε)) (capacity : Nat) (ops : List CacheOp) :
    (∀ source, ((after capacity ops).get source).1 = parse source) ∧
    (∀ source q, (after capacity ops).queries.find? source = some q → parse source = .ok q) ∧
    (after capacity ops).queries.size ≤ capacity ∧
    (∀ source fault, parse source = .error fault →
      ((after capacity ops).get source).2 = after capacity ops) ∧
    ∀ capacity' ops',
      (∀ m, Leads host ⟨.handler p, [], c.withCache (after capacity ops)⟩ m →
        ∃ k, Leads host ⟨.handler p, [], c.withCache (after capacity' ops')⟩ (m.withCache k)) ∧
      ∃ (d : Console κ ε) (k k' : QueryCache) (ending : Ending),
        (c.withCache (after capacity ops)).perform (Console.runner host) p =
          (d.withCache k, ending) ∧
        (c.withCache (after capacity' ops')).perform (Console.runner host) p =
          (d.withCache k', ending) := by
  have hcache := faithful_after capacity ops
  refine ⟨fun source => (hcache.get source).1, hcache, (bounded_after capacity ops).size_le,
    fun source fault => QueryCache.get_of_error, fun capacity' ops' => ⟨fun m hleads => ?_, ?_⟩⟩
  · obtain ⟨k, hleads', -, -⟩ := hleads.withCache hcache (faithful_after capacity' ops')
    exact ⟨k, hleads'⟩
  · obtain ⟨k', hrun⟩ := Console.perform_withCache host
      (c := c.withCache (after capacity ops)) hcache (faithful_after capacity' ops') p
    exact ⟨_, _, k', _, rfl, hrun⟩

end CacheOp

end DevConsole
