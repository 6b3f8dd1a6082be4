import DevConsole.Proofs.Console.Moments

/-!
Runs by recursion, seen step by step. A query that runs by recursion passes through moments, from
the one at which it is about to run to the one at which it has come to its end, and the console and
the answer are the same there.
-/

namespace DevConsole

open Relation

namespace Console

variable {κ ε : Type} {host : Host κ (Workspace κ ε)} {run : Runner κ ε} {c : Console κ ε}
variable {K : List (Waiting κ ε)}

/-! ### From a runner to all that uses it -/

/-- Whether the runner comes to its answers step by step, on consoles with the given limits. -/
def Stepwise (host : Host κ (Workspace κ ε)) (run : Runner κ ε) (l : Nat × Nat) : Prop :=
  ∀ name q K c, c.limits = l →
    Leads host ⟨.query name q, K, c⟩ ⟨.ended (run name q c).2, K, (run name q c).1⟩

section Stepwise

variable (hkeeps : KeepsLimits run) (hrun : Stepwise host run c.limits)
include hrun

theorem leads_runSource (contained : Bool) (source : String)
    (k : Bool → Program (Workspace κ ε)) :
    Leads host ⟨.handler (.execute contained source k), K, c⟩
      ⟨.handler (k (c.runSource run contained source).2), K,
        (c.runSource run contained source).1⟩ := by
  unfold runSource
  split
  · next hpending =>
    have hne : c.pending ≠ none := by
      intro h
      simp [h] at hpending
    exact .single (.skip hne)
  · next hpending =>
    have hnone : c.pending = none := by simpa using hpending
    unfold outcome
    rcases hparse : c.parse source with ⟨fault | q, c'⟩
    · refine .head (.malformedSource hnone hparse) ?_
      exact .single .settle
    · have hlimits := limits_of_parse hparse
      refine .head (.execute hnone hparse) ?_
      refine .tail (hrun q.text q _ c' hlimits) ?_
      dsimp only
      rcases run q.text q c' with ⟨c'', e | passed⟩
      · exact .settle
      · exact .executed

include hkeeps in
theorem leads_perform (p : Program (Workspace κ ε)) :
    Leads host ⟨.handler p, K, c⟩
      ⟨.handler (.stop (c.perform run p).2), K, (c.perform run p).1⟩ := by
  induction p generalizing c with
  | stop e => exact .refl
  | get k ih => exact .head .get (ih c.toWorkspace hrun)
  | put w k ih => exact .head .put (ih hrun)
  | execute contained source k ih =>
    have hlimits := limits_runSource (c := c) hkeeps contained source
    exact (leads_runSource hrun contained source k).trans (ih _ (hlimits ▸ hrun))
  | parse source k ih => exact .head .parse (ih _ hrun)
  | evaluate q k ih =>
    have hlimits := hkeeps q.text q c
    refine .head .evaluate ?_
    refine (hrun q.text q _ c rfl).trans ?_
    exact .head .evaluated (ih _ (hlimits ▸ hrun))

theorem leads_invokeAlias {call : Invocation} {body : String} (hname : call.name ≠ "")
    (htarget : c.target call.name = .alias body) :
    Leads host ⟨.invocation call, K, c⟩
      ⟨.returned (c.invokeAlias run body call).2, K, (c.invokeAlias run body call).1⟩ := by
  unfold invokeAlias
  rcases hparse : (c.warnArguments call).parse body with ⟨fault | q, c'⟩
  · exact .single (.malformedBody hname htarget hparse)
  · have hlimits := limits_of_parse hparse
    rw [limits_warnArguments] at hlimits
    refine .head (.expand hname htarget hparse) ?_
    refine .tail (hrun call.name q _ c' hlimits) ?_
    dsimp only
    rcases run call.name q c' with ⟨c'', e | passed⟩
    · exact .expanded
    · exact .expanded

theorem leads_invokeVariable {call : Invocation} (hname : call.name ≠ "")
    (htarget : c.target call.name = .variable) :
    Leads host ⟨.invocation call, K, c⟩
      ⟨.returned (c.invokeVariable run call).2, K, (c.invokeVariable run call).1⟩ := by
  unfold invokeVariable
  split
  · next hargs =>
    exact .single (.tell hname htarget (List.isEmpty_iff.1 hargs))
  · next hargs =>
    have hne : call.args ≠ [] := by simpa using hargs
    rcases hresolve : resolveAll c.vars.text? call.args with r | args
    · exact .single (.undefinedValue hname htarget hne hresolve)
    · dsimp only
      rcases hparse : DevConsole.parse (assignment call.name (" ".intercalate args)) with fault | q
      · exact .single (.malformedAssignment hname htarget hne hresolve hparse)
      · refine .head (.assign hname htarget hne hresolve hparse) ?_
        refine .tail (hrun call.name q _ c rfl) ?_
        dsimp only
        rcases run call.name q c with ⟨c', e | passed⟩
        · exact .assigned
        · exact .assigned

include hkeeps in
theorem leads_invokeCommand {call : Invocation} {handler : Handler κ} (hname : call.name ≠ "")
    (htarget : c.target call.name = .command handler) :
    Leads host ⟨.invocation call, K, c⟩
      ⟨.returned (c.invokeCommand host run handler call).2, K,
        (c.invokeCommand host run handler call).1⟩ := by
  unfold invokeCommand
  rcases hresolve : resolveAll c.vars.text? call.args with r | args
  · exact .single (.undefinedArgument hname htarget hresolve)
  · refine .head (.handle hname htarget hresolve) ?_
    exact .tail (leads_perform hkeeps hrun _) .close

include hkeeps in
theorem leads_invoke (call : Invocation) :
    Leads host ⟨.invocation call, K, c⟩
      ⟨.returned (c.invoke host run call).2, K, (c.invoke host run call).1⟩ := by
  unfold invoke
  split
  · next hempty =>
    have hname : call.name = "" := by simpa using hempty
    split
    · next hargs => exact .single (.noop hname (List.isEmpty_iff.1 hargs))
    · next hargs => exact .single (.missingName hname (by simpa using hargs))
  · next hempty =>
    have hname : call.name ≠ "" := by simpa using hempty
    split
    · next handler htarget => exact leads_invokeCommand hkeeps hrun hname htarget
    · next body htarget => exact leads_invokeAlias hrun hname htarget
    · next htarget => exact leads_invokeVariable hrun hname htarget
    · next htarget => exact .single (.notFound hname htarget)

include hkeeps in
/-- The clauses that remain of a query are gone through as by the walk. -/
theorem leads_walk (failed anyFailed : Bool) (cs : List Chain) :
    Leads host ⟨.clauses failed anyFailed cs, K, c⟩
      ⟨.ended (walk (visitor host run) failed anyFailed cs c).2, K,
        (walk (visitor host run) failed anyFailed cs c).1.leave⟩ := by
  induction failed, anyFailed, cs, c using walk.induct (v := visitor host run) with
  | case1 failed anyFailed cs c hstop =>
    rw [walk_of_none hstop]
    exact .single (.leave hstop)
  | case2 failed anyFailed cs c offset rest hstop ih =>
    rw [walk_of_group hstop]
    exact .head (.group hstop) (ih (limits_countStep (c := c) ▸ hrun))
  | case3 failed anyFailed cs c call rest hstop c' failed' hcall ih =>
    have hlimits : (c.countStep.invoke host run call).1.limits = c.countStep.limits :=
      limits_invoke hkeeps call
    have hinvoke := leads_invoke (K := .rest anyFailed rest :: K) hkeeps
      (limits_countStep (c := c) ▸ hrun) call
    have hcall' : c.countStep.invoke host run call = (c', .ok failed') := hcall
    rw [hcall'] at hlimits hinvoke
    rw [walk_of_ok hstop hcall]
    refine .head (.command hstop) (hinvoke.trans (.head .goOn (ih ?_)))
    rw [hlimits, limits_countStep]
    exact hrun
  | case4 failed anyFailed cs c call rest hstop c' e hcall =>
    have hinvoke := leads_invoke (K := .rest anyFailed rest :: K) hkeeps
      (limits_countStep (c := c) ▸ hrun) call
    have hcall' : c.countStep.invoke host run call = (c', .error e) := hcall
    rw [hcall'] at hinvoke
    rw [walk_of_error hstop hcall]
    exact .head (.command hstop) (.tail hinvoke .breakOff)

end Stepwise

/-! ### Queries -/

/-- The runner of the console comes to its answers step by step. -/
theorem stepwise_runner (l : Nat × Nat) : Stepwise host (runner host) l := by
  obtain ⟨depth, limit⟩ := l
  -- by induction on the number of levels that are left
  induction hlevels : limit - depth generalizing depth with
  | zero =>
    intro name q K c hc
    obtain ⟨rfl, rfl⟩ := Prod.mk.inj hc
    have hle : c.maxDepth ≤ c.depth := by omega
    rw [runner_of_le hle]
    exact .single (.tooDeep hle)
  | succ levels ih =>
    intro name q K c hc
    obtain ⟨rfl, rfl⟩ := Prod.mk.inj hc
    have hlt : c.depth < c.maxDepth := by omega
    rw [runner_of_lt hlt]
    have hinside : Stepwise host (runner host) c.enter.limits := ih (c.depth + 1) (by omega)
    exact .head (.enter hlt) (leads_walk keepsLimits_runner hinside false false [q.clauses])

/-- **A query runs step by step.** It comes from the moment at which it is about to run to its end,
with the answer that it has by recursion. -/
theorem leads_runner (name : String) (q : Query) (K : List (Waiting κ ε)) (c : Console κ ε) :
    Leads host ⟨.query name q, K, c⟩
      ⟨.ended (runner host name q c).2, K, (runner host name q c).1⟩ :=
  stepwise_runner c.limits name q K c rfl

theorem leads_evaluate (q : Query) (c : Console κ ε) :
    Leads host (.start q c) ⟨.ended (evaluate host q c).2, [], (evaluate host q c).1⟩ :=
  leads_runner q.text q [] c

theorem leads_handler (p : Program (Workspace κ ε)) (K : List (Waiting κ ε)) (c : Console κ ε) :
    Leads host ⟨.handler p, K, c⟩
      ⟨.handler (.stop (c.perform (runner host) p).2), K, (c.perform (runner host) p).1⟩ :=
  leads_perform keepsLimits_runner (stepwise_runner c.limits) p

end Console

/-! ### The end of a run -/

variable {κ ε : Type} {host : Host κ (Workspace κ ε)} {m m' : Moment κ ε}

/-- A run that comes to the end of a query with nothing waiting is over. -/
theorem Leads.eq_of_ended {answer : Except QueryError Bool} {c : Console κ ε}
    (h : Leads host ⟨.ended answer, [], c⟩ m) : m = ⟨.ended answer, [], c⟩ := by
  rcases ReflTransGen.cases_head h with rfl | ⟨m', hstep, -⟩
  · rfl
  · cases hstep

/-- Every moment of a run leads to its end. -/
theorem Leads.leads_end {q : Query} {c : Console κ ε} (h : Leads host (.start q c) m) :
    Leads host m ⟨.ended (c.evaluate host q).2, [], (c.evaluate host q).1⟩ := by
  rcases h.total (Console.leads_evaluate q c) with h' | h'
  · exact h'
  · rw [h'.eq_of_ended]

/-- A moment of a run at which the query ends with nothing waiting tells what the query comes to. -/
theorem Leads.evaluate_eq {q : Query} {c c' : Console κ ε} {answer : Except QueryError Bool}
    (h : Leads host (.start q c) ⟨.ended answer, [], c'⟩) :
    c.evaluate host q = (c', answer) := by
  have hend := h.leads_end.eq_of_ended
  simp only [Moment.mk.injEq, Activity.ended.injEq, true_and] at hend
  exact Prod.ext hend.2 hend.1

end DevConsole
