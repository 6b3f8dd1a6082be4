import DevConsole.Console
import DevConsole.Proofs.Query.Meaning

/-!
Queries inside queries. Whatever a query does, the console is as deep afterwards as before and has
the same limit. So the console itself tells how many more levels there are, and all queries, at
whatever level, run by one rule.
-/

namespace DevConsole

/-! ### What walks keep -/

section Walk

variable {σ ε : Type} {v w : Visitor σ ε} {P : σ → Prop}

theorem walk_keeps (hvisit : ∀ offset s, P s → P (v.visit offset s))
    (hinvoke : ∀ call s, P s → P (v.invoke call s).1) (failed anyFailed : Bool) (cs : List Chain)
    (s : σ) (hs : P s) : P (walk v failed anyFailed cs s).1 := by
  induction failed, anyFailed, cs, s using walk.induct (v := v) with
  | case1 failed anyFailed cs s hstop =>
    rw [walk_of_none hstop]
    exact hs
  | case2 failed anyFailed cs s offset rest hstop ih =>
    rw [walk_of_group hstop]
    exact ih (hvisit offset s hs)
  | case3 failed anyFailed cs s call rest hstop s' failed' hcall ih =>
    have hs' := hinvoke call _ (hvisit call.offset s hs)
    rw [hcall] at hs'
    rw [walk_of_ok hstop hcall]
    exact ih hs'
  | case4 failed anyFailed cs s call rest hstop s' e hcall =>
    have hs' := hinvoke call _ (hvisit call.offset s hs)
    rw [hcall] at hs'
    rw [walk_of_error hstop hcall]
    exact hs'

/-- Two walks are the same if their invocations do the same in all states that come up. -/
theorem walk_congr_of_keeps (hvisit : ∀ offset s, P s → P (v.visit offset s))
    (hinvoke : ∀ call s, P s → P (v.invoke call s).1) (hsame : w.visit = v.visit)
    (hcongr : ∀ call s, P s → w.invoke call s = v.invoke call s) (failed anyFailed : Bool)
    (cs : List Chain) (s : σ) (hs : P s) :
    walk w failed anyFailed cs s = walk v failed anyFailed cs s := by
  induction failed, anyFailed, cs, s using walk.induct (v := v) with
  | case1 failed anyFailed cs s hstop => rw [walk_of_none hstop, walk_of_none hstop]
  | case2 failed anyFailed cs s offset rest hstop ih =>
    rw [walk_of_group hstop, walk_of_group hstop, hsame]
    exact ih (hvisit offset s hs)
  | case3 failed anyFailed cs s call rest hstop s' failed' hcall ih =>
    have hs₁ := hvisit call.offset s hs
    have hs' := hinvoke call _ hs₁
    rw [hcall] at hs'
    have hcall' : w.invoke call (w.visit call.offset s) = (s', .ok failed') := by
      rw [hsame, hcongr call _ hs₁, hcall]
    rw [walk_of_ok hstop hcall', walk_of_ok hstop hcall]
    exact ih hs'
  | case4 failed anyFailed cs s call rest hstop s' e hcall =>
    have hcall' : w.invoke call (w.visit call.offset s) = (s', .error e) := by
      rw [hsame, hcongr call _ (hvisit call.offset s hs), hcall]
    rw [walk_of_error hstop hcall', walk_of_error hstop hcall]

end Walk

namespace Console

variable {κ ε : Type} {host : Host κ (Workspace κ ε)} {run run' : Runner κ ε} {c : Console κ ε}

/-! ### Limits -/

/-- How deep the console is, and how deep it may be. -/
def limits (c : Console κ ε) : Nat × Nat := (c.depth, c.maxDepth)

@[simp] theorem limits_print (level : Level) (message : String) :
    (c.print level message).limits = c.limits := rfl

@[simp] theorem limits_report (e : InvocationError) : (c.report e).limits = c.limits := rfl

@[simp] theorem limits_parse (source : String) : (c.parse source).2.limits = c.limits := rfl

@[simp] theorem limits_trim : c.trim.limits = c.limits := by
  unfold trim
  split <;> rfl

@[simp] theorem limits_settle (contained : Bool) (source : String) (e : QueryError) :
    (c.settle contained source e).limits = c.limits := by
  unfold settle
  split <;> rfl

@[simp] theorem limits_close (name : String) (ending : Ending) :
    (c.close name ending).1.limits = c.limits := by
  unfold close
  split <;> rfl

@[simp] theorem limits_warnArguments (call : Invocation) :
    (c.warnArguments call).limits = c.limits := by
  unfold warnArguments
  split <;> rfl

@[simp] theorem limits_countStep : c.countStep.limits = c.limits := by
  unfold countStep
  dsimp only
  split <;> rfl

/-! ### What queries keep -/

def KeepsLimits (run : Runner κ ε) : Prop := ∀ name q c, (run name q c).1.limits = c.limits

/-- Whether two runners do the same on consoles with the given limits. -/
def AgreeAt (limits : Nat × Nat) (run run' : Runner κ ε) : Prop :=
  ∀ name q c, c.limits = limits → run' name q c = run name q c

theorem limits_outcome (h : KeepsLimits run) (source : String) :
    (c.outcome run source).1.limits = c.limits := by
  unfold outcome
  split
  · next q c' hparse =>
    have hc' : c'.limits = c.limits := by rw [← limits_parse (c := c) source, hparse]
    rw [h, hc']
  · next e c' hparse =>
    have hc' : c'.limits = c.limits := by rw [← limits_parse (c := c) source, hparse]
    exact hc'

theorem limits_runSource (h : KeepsLimits run) (contained : Bool) (source : String) :
    (c.runSource run contained source).1.limits = c.limits := by
  have houtcome := limits_outcome (c := c) h source
  unfold runSource
  split
  · rfl
  · split
    · next c' passed heq =>
      rw [heq] at houtcome
      rw [limits_trim, houtcome]
    · next c' e heq =>
      rw [heq] at houtcome
      rw [limits_settle, limits_trim, houtcome]

theorem limits_perform (h : KeepsLimits run) (p : Program (Workspace κ ε)) :
    (c.perform run p).1.limits = c.limits := by
  induction p generalizing c with
  | stop e => rfl
  | get k ih => exact ih c.toWorkspace
  | put w k ih => exact ih
  | execute contained source k ih =>
    rw [perform, ih, limits_runSource h]
  | parse source k ih =>
    rw [perform, ih, limits_parse]
  | evaluate q k ih =>
    rw [perform, ih, h]

theorem limits_invokeAlias (h : KeepsLimits run) (body : String) (call : Invocation) :
    (c.invokeAlias run body call).1.limits = c.limits := by
  have hparse := limits_parse (c := c.warnArguments call) body
  rw [limits_warnArguments] at hparse
  unfold invokeAlias
  split
  · next e c' heq =>
    rw [heq] at hparse
    exact hparse
  · next q c' heq =>
    rw [heq] at hparse
    have hrun := h call.name q c'
    split
    · next c'' passed heq' =>
      rw [heq'] at hrun
      rw [hrun, hparse]
    · next c'' e heq' =>
      rw [heq'] at hrun
      rw [hrun, hparse]

theorem limits_invokeVariable (h : KeepsLimits run) (call : Invocation) :
    (c.invokeVariable run call).1.limits = c.limits := by
  unfold invokeVariable
  split
  · rfl
  · split
    · rfl
    · split
      · rfl
      · next q _ =>
        have hrun := h call.name q c
        split
        · next c' passed heq =>
          rw [heq] at hrun
          exact hrun
        · next c' e heq =>
          rw [heq] at hrun
          exact hrun

theorem invoke_of_command {call : Invocation} {handler : Handler κ} (hname : call.name ≠ "")
    (htarget : c.target call.name = .command handler) :
    c.invoke host run call = c.invokeCommand host run handler call := by
  rw [invoke, if_neg (by simpa using hname), htarget]

theorem invokeCommand_of_act {b : Builtin} {call : Invocation}
    {f : Workspace κ ε → Workspace κ ε × Ending} {args : List String}
    (hargs : resolveAll c.vars.text? call.args = .ok args)
    (hb : b.program ⟨call.name, args, allConstant call.args⟩ = .act f) :
    c.invokeCommand host run (.builtin b) call =
      { c with toWorkspace := (f c.toWorkspace).1 }.close call.name (f c.toWorkspace).2 := by
  simp only [invokeCommand, hargs, program, hb, Program.act, perform]

theorem limits_invokeCommand (h : KeepsLimits run) (handler : Handler κ) (call : Invocation) :
    (c.invokeCommand host run handler call).1.limits = c.limits := by
  unfold invokeCommand
  split
  · rfl
  · rw [limits_close, limits_perform h]

theorem limits_invoke (h : KeepsLimits run) (call : Invocation) :
    (c.invoke host run call).1.limits = c.limits := by
  unfold invoke
  split
  · split <;> rfl
  · split
    · exact limits_invokeCommand h ..
    · exact limits_invokeAlias h ..
    · exact limits_invokeVariable h ..
    · rfl

/-- The visitor by which the console runs the clauses of a query. -/
def visitor (host : Host κ (Workspace κ ε)) (run : Runner κ ε) :
    Visitor (Console κ ε) QueryError :=
  ⟨fun _ => countStep, invoke host run⟩

theorem limits_run (host : Host κ (Workspace κ ε)) (h : KeepsLimits run) (q : Query) :
    (q.run (visitor host run) c).1.limits = c.limits := by
  refine walk_keeps (P := fun c' : Console κ ε => c'.limits = c.limits) ?_ ?_ _ _ _ _ rfl
  · intro offset c' hc'
    exact limits_countStep.trans hc'
  · intro call c' hc'
    exact (limits_invoke h call).trans hc'

theorem depth_of_limits {c' : Console κ ε} (h : c'.limits = c.limits) :
    c'.depth = c.depth ∧ c'.maxDepth = c.maxDepth := by
  simpa [limits] using h

theorem descend_succ (levels : Nat) (name : String) (q : Query) :
    descend host (levels + 1) name q c =
      ((q.run (visitor host (descend host levels)) c.enter).1.leave,
        (q.run (visitor host (descend host levels)) c.enter).2) := rfl

theorem keepsLimits_descend (levels : Nat) : KeepsLimits (descend host levels) := by
  induction levels with
  | zero => exact fun name q c => rfl
  | succ levels ih =>
    intro name q c
    obtain ⟨hdepth, hmax⟩ := depth_of_limits (limits_run (c := c.enter) host ih q)
    rw [descend_succ]
    simp only [limits, leave, hdepth, hmax]
    rfl

/-- **A query leaves the console as deep as it was.** -/
theorem keepsLimits_runner : KeepsLimits (runner host : Runner κ ε) :=
  fun name q c => keepsLimits_descend (c.maxDepth - c.depth) name q c

/-! ### One rule for all levels -/

section Agree

variable {l : Nat × Nat}

theorem outcome_congr (h : AgreeAt l run run') (hc : c.limits = l) (source : String) :
    c.outcome run' source = c.outcome run source := by
  have hparse := limits_parse (c := c) source
  unfold outcome
  split
  · next q c' heq =>
    rw [heq] at hparse
    exact h _ _ _ (hparse.trans hc)
  · rfl

theorem runSource_congr (h : AgreeAt l run run') (hc : c.limits = l) (contained : Bool)
    (source : String) : c.runSource run' contained source = c.runSource run contained source := by
  unfold runSource
  rw [outcome_congr h hc]

theorem perform_congr (hkeeps : KeepsLimits run) (h : AgreeAt l run run') (hc : c.limits = l)
    (p : Program (Workspace κ ε)) : c.perform run' p = c.perform run p := by
  induction p generalizing c with
  | stop e => rfl
  | get k ih => exact ih c.toWorkspace hc
  | put w k ih => exact ih hc
  | execute contained source k ih =>
    rw [perform, perform, runSource_congr h hc]
    exact ih _ ((limits_runSource hkeeps contained source).trans hc)
  | parse source k ih => exact ih _ hc
  | evaluate q k ih =>
    rw [perform, perform, h q.text q c hc]
    exact ih _ ((hkeeps q.text q c).trans hc)

theorem invoke_congr (hkeeps : KeepsLimits run) (h : AgreeAt l run run') (hc : c.limits = l)
    (call : Invocation) : c.invoke host run' call = c.invoke host run call := by
  have hcommand : ∀ handler, c.invokeCommand host run' handler call =
      c.invokeCommand host run handler call := by
    intro handler
    unfold invokeCommand
    split
    · rfl
    · rw [perform_congr hkeeps h hc]
  have halias : ∀ body, c.invokeAlias run' body call = c.invokeAlias run body call := by
    intro body
    have hparse := limits_parse (c := c.warnArguments call) body
    rw [limits_warnArguments] at hparse
    unfold invokeAlias
    split
    · rfl
    · next q c' heq =>
      rw [heq] at hparse
      rw [h call.name q c' (hparse.trans hc)]
  have hvariable : c.invokeVariable run' call = c.invokeVariable run call := by
    unfold invokeVariable
    split
    · rfl
    · split
      · rfl
      · split
        · rfl
        · rw [h call.name _ c hc]
  unfold invoke
  rw [hvariable]
  split
  · rfl
  · split
    · exact hcommand _
    · exact halias _
    · rfl
    · rfl

end Agree

theorem runner_of_le (h : c.maxDepth ≤ c.depth) (name : String) (q : Query) :
    runner host name q c = (c, .error (.tooDeep name c.maxDepth)) := by
  have hlevels : c.maxDepth - c.depth = 0 := by omega
  rw [runner, hlevels]
  rfl

/-- **Queries run by one rule.** A query that may run has its clauses run one level deeper, and the
queries inside it run by the same rule. -/
theorem runner_of_lt (h : c.depth < c.maxDepth) (name : String) (q : Query) :
    runner host name q c =
      ((q.run (visitor host (runner host)) c.enter).1.leave,
        (q.run (visitor host (runner host)) c.enter).2) := by
  obtain ⟨levels, hlevels⟩ : ∃ levels, c.maxDepth - c.depth = levels + 1 :=
    ⟨c.maxDepth - c.depth - 1, by omega⟩
  -- below this query the levels that are left are what the console tells
  have hagree : AgreeAt c.enter.limits (descend host levels) (runner host) := by
    intro name q c' hc'
    obtain ⟨hdepth, hmax⟩ := depth_of_limits hc'
    have hleft : c'.maxDepth - c'.depth = levels := by
      rw [hdepth, hmax]
      simp only [enter]
      omega
    rw [runner, hleft]
  have hrun : q.run (visitor host (runner host)) c.enter =
      q.run (visitor host (descend host levels)) c.enter := by
    refine walk_congr_of_keeps (v := visitor host (descend host levels))
      (w := visitor host (runner host)) (P := fun c' : Console κ ε => c'.limits = c.enter.limits)
      ?_ ?_ rfl ?_ _ _ _ _ rfl
    · intro offset c' hc'
      exact limits_countStep.trans hc'
    · intro call c' hc'
      exact (limits_invoke (keepsLimits_descend levels) call).trans hc'
    · intro call c' hc'
      exact invoke_congr (keepsLimits_descend levels) hagree hc' call
  rw [hrun, runner, hlevels, descend_succ]

end Console

end DevConsole
