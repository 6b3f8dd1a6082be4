import DevConsole.Proofs.Console.Recursion
import DevConsole.Proofs.Console.Reports

/-!
Runs inside of other queries. Main statement: as long as no query is too deep and no clause is
warned about, a query does the same inside of other queries as it does inside of none: it comes to
the same answer and leaves the same workspace behind.
-/

namespace DevConsole

open Relation

variable {κ ε : Type}

/-! ### Consoles inside of more queries -/

namespace Console

/-- The console inside of `d` more queries, with another count of clauses and another cache. -/
def inside (d steps : Nat) (cache : QueryCache) (c : Console κ ε) : Console κ ε :=
  { c with depth := c.depth + d, steps, cache }

/-- Whether a run on the console may also take place inside of other queries, where `s` clauses are
counted and the cache is `k`. -/
structure Fits (s : Nat) (k : QueryCache) (c : Console κ ε) : Prop where
  /-- Inside of no query the count begins anew with the next one. -/
  steps : 0 < c.depth → c.steps ≤ s
  quiet : c.iterationWarning = 0 ∨ s < c.iterationWarning
  cache : c.cache.Faithful
  otherCache : k.Faithful

variable {c c' : Console κ ε} {d s : Nat} {k : QueryCache}

/-- What the console counts and what it has read. -/
def pace (c : Console κ ε) : Nat × Nat × Nat × QueryCache :=
  (c.depth, c.steps, c.iterationWarning, c.cache)

theorem Fits.of_pace (h : c.Fits s k) (hpace : c'.pace = c.pace) : c'.Fits s k := by
  simp only [pace, Prod.mk.injEq] at hpace
  obtain ⟨hdepth, hsteps, hwarning, hcache⟩ := hpace
  refine ⟨?_, hwarning ▸ h.quiet, hcache ▸ h.cache, h.otherCache⟩
  rw [hdepth, hsteps]
  exact h.steps

theorem pace_warnArguments (call : Invocation) : (c.warnArguments call).pace = c.pace := by
  unfold warnArguments
  split <;> rfl

theorem pace_settle (contained : Bool) (source : String) (e : QueryError) :
    (c.settle contained source e).pace = c.pace := by
  unfold settle
  split <;> rfl

theorem pace_close (name : String) (ending : Ending) : (c.close name ending).1.pace = c.pace := by
  unfold close
  split <;> rfl

/-! ### What consoles do inside of more queries -/

theorem enter_inside (hd : 0 < d) : (c.inside d s k).enter = c.enter.inside d s k := by
  have hdepth : (c.inside d s k).depth ≠ 0 := by
    simp only [inside]
    omega
  rw [enter, if_neg hdepth]
  simp only [inside, enter, Nat.add_right_comm]

theorem leave_inside (hc : 0 < c.depth) : (c.inside d s k).leave = c.leave.inside d s k := by
  have hdepth : c.depth + d - 1 = c.depth - 1 + d := by omega
  simp only [inside, leave, hdepth]

theorem countStep_of_ne (hc : c.steps + 1 ≠ c.iterationWarning) :
    c.countStep = { c with steps := c.steps + 1 } := by
  rw [countStep]
  exact if_neg hc

theorem warnArguments_inside (call : Invocation) :
    (c.inside d s k).warnArguments call = (c.warnArguments call).inside d s k := by
  unfold warnArguments
  split <;> rfl

theorem settle_inside (hc : 0 < c.depth) (contained : Bool) (source : String) (e : QueryError) :
    (c.inside d s k).settle contained source e = (c.settle contained source e).inside d s k := by
  have hdepth : 0 < (c.inside d s k).depth := Nat.add_pos_left hc d
  simp only [settle, hc, hdepth, decide_true, Bool.true_and]
  split <;> rfl

theorem close_inside (name : String) (ending : Ending) : (c.inside d s k).close name ending =
    ((c.close name ending).1.inside d s k, (c.close name ending).2) := by
  have hpending : (c.inside d s k).pending = c.pending := rfl
  unfold close
  rw [hpending]
  split <;> rfl

theorem Fits.parse (h : c.Fits s k) {source : String} {answer : Except SyntaxError Query}
    (hparse : (c.inside d s k).parse source = (answer, c')) :
    ∃ c₁ k₁, c.parse source = (answer, c₁) ∧ c' = c₁.inside d s k₁ ∧ c₁.Fits s k₁ := by
  obtain ⟨hanswer, hcache⟩ := h.cache.get source
  obtain ⟨hanswer', hcache'⟩ := h.otherCache.get source
  obtain ⟨rfl, rfl⟩ := Prod.mk.inj hparse
  refine ⟨(c.parse source).2, (k.get source).2, ?_, rfl, h.steps, h.quiet, hcache, hcache'⟩
  exact Prod.ext (hanswer.trans hanswer'.symm) rfl

theorem Fits.enter (h : c.Fits s k) : c.enter.Fits s k := by
  refine ⟨fun _ => ?_, h.quiet, h.cache, h.otherCache⟩
  simp only [Console.enter]
  split
  · exact Nat.zero_le s
  · next hdepth => exact h.steps (by omega)

theorem Fits.leave (h : c.Fits s k) : c.leave.Fits s k :=
  ⟨fun hdepth => h.steps (by simp only [Console.leave] at hdepth; omega), h.quiet, h.cache,
    h.otherCache⟩

/-- A clause that is not warned about further inside is not warned about here. -/
theorem Fits.countStep (h : c.Fits s k) (hc : 0 < c.depth) (hs : s + 1 ≠ c.iterationWarning) :
    (c.inside d s k).countStep = c.countStep.inside d (s + 1) k ∧ c.countStep.Fits (s + 1) k := by
  have hsteps := h.steps hc
  have hnot : c.steps + 1 ≠ c.iterationWarning := by
    rcases h.quiet with hquiet | hquiet <;> omega
  have hother : (c.inside d s k).steps + 1 ≠ (c.inside d s k).iterationWarning := hs
  rw [countStep_of_ne hnot, countStep_of_ne hother]
  refine ⟨rfl, fun _ => Nat.succ_le_succ hsteps, ?_, h.cache, h.otherCache⟩
  rcases h.quiet with hquiet | hquiet
  · exact .inl hquiet
  · exact .inr (Nat.lt_of_le_of_ne hquiet hs)

end Console

/-! ### Moments inside of more queries -/

/-- Whether nothing is cut short in the moment: no query is too deep, no clause is warned about, and
there are no more changes than are kept. -/
structure Moment.Roomy (m : Moment κ ε) : Prop where
  depth : ∀ name q, m.activity = .query name q → m.console.depth < m.console.maxDepth
  steps : ∀ failed anyFailed cs, m.activity = .clauses failed anyFailed cs →
    nextStop? failed cs ≠ none → m.console.steps + 1 ≠ m.console.iterationWarning
  changes : m.console.vars.changes.length ≤ m.console.capacity

def Moment.inside (d s : Nat) (k : QueryCache) (m : Moment κ ε) : Moment κ ε :=
  { m with console := m.console.inside d s k }

variable {host : Host κ (Workspace κ ε)} {m m' : Moment κ ε} {d s limit : Nat} {k : QueryCache}

/-- A handler that has a source run is itself inside of a query. -/
theorem Moment.depth_pos_of_execute {n : Nat} {answer : Except QueryError Bool} {contained : Bool}
    {source : String} {next : Bool → Program (Workspace κ ε)} {K : List (Waiting κ ε)}
    {c : Console κ ε}
    (hordered : Moment.Ordered .query ⟨.ended answer, .execute contained source next :: K, c⟩)
    (hcounts : Moment.CountsFrom n limit
      ⟨.ended answer, .execute contained source next :: K, c⟩) : 0 < c.depth := by
  have hlevel := level_pos_of_serves (.inr hordered.2)
  exact Moment.depth_pos hcounts (by simpa [Waiting.isQuery] using hlevel)

/-- **A step inside of more queries is a step inside of none.** -/
theorem Step.of_inside (hd : 0 < d) (h : Step host (m.inside d s k) m')
    (hordered : m.Ordered .query) (hcounts : m.CountsFrom 0 limit) (hfits : m.console.Fits s k)
    (hroomy : (m.inside d s k).Roomy) :
    ∃ m₁ s₁ k₁, Step host m m₁ ∧ m' = m₁.inside d s₁ k₁ ∧ m₁.console.Fits s₁ k₁ := by
  obtain ⟨activity, K, c⟩ := m
  have hdepth : c.depth = 0 + Moment.level ⟨activity, K, c⟩ := congrArg Prod.fst hcounts
  cases h with
  | tooDeep hdeep => exact absurd hdeep (Nat.not_le.2 (hroomy.depth _ _ rfl))
  | enter hlt =>
    refine ⟨_, s, k, .enter (Nat.lt_of_le_of_lt (Nat.le_add_right ..) hlt), ?_, hfits.enter⟩
    rw [Console.enter_inside hd]
    rfl
  | leave hstop =>
    refine ⟨_, s, k, .leave hstop, ?_, hfits.leave⟩
    rw [Console.leave_inside (by simp [hdepth, Moment.level, Activity.level])]
    rfl
  | group hstop =>
    have hnot := hroomy.steps _ _ _ rfl (by simp [hstop])
    obtain ⟨heq, hfits'⟩ := hfits.countStep (by simp [hdepth, Moment.level, Activity.level]) hnot
    refine ⟨_, s + 1, k, .group hstop, ?_, hfits'⟩
    rw [heq]
    rfl
  | command hstop =>
    have hnot := hroomy.steps _ _ _ rfl (by simp [hstop])
    obtain ⟨heq, hfits'⟩ := hfits.countStep (by simp [hdepth, Moment.level, Activity.level]) hnot
    refine ⟨_, s + 1, k, .command hstop, ?_, hfits'⟩
    rw [heq]
    rfl
  | goOn => exact ⟨_, s, k, .goOn, rfl, hfits⟩
  | breakOff =>
    refine ⟨_, s, k, .breakOff, ?_, hfits.leave⟩
    rw [Console.leave_inside (Moment.depth_pos hcounts (by simp [Waiting.isQuery]))]
    rfl
  -- invocations
  | noop hname hargs => exact ⟨_, s, k, .noop hname hargs, rfl, hfits⟩
  | missingName hname hargs =>
    exact ⟨_, s, k, .missingName hname hargs, rfl, hfits.of_pace rfl⟩
  | notFound hname htarget => exact ⟨_, s, k, .notFound hname htarget, rfl, hfits.of_pace rfl⟩
  | undefinedArgument hname htarget hresolve =>
    exact ⟨_, s, k, .undefinedArgument hname htarget hresolve, rfl, hfits⟩
  | handle hname htarget hresolve =>
    exact ⟨_, s, k, .handle hname htarget hresolve, rfl, hfits⟩
  | malformedBody hname htarget hparse =>
    rw [Console.warnArguments_inside] at hparse
    obtain ⟨c₁, k₁, hparse₁, rfl, hfits₁⟩ :=
      (hfits.of_pace (Console.pace_warnArguments _)).parse hparse
    exact ⟨_, s, k₁, .malformedBody hname htarget hparse₁, rfl, hfits₁⟩
  | expand hname htarget hparse =>
    rw [Console.warnArguments_inside] at hparse
    obtain ⟨c₁, k₁, hparse₁, rfl, hfits₁⟩ :=
      (hfits.of_pace (Console.pace_warnArguments _)).parse hparse
    exact ⟨_, s, k₁, .expand hname htarget hparse₁, rfl, hfits₁⟩
  | expanded => exact ⟨_, s, k, .expanded, rfl, hfits⟩
  | tell hname htarget hargs =>
    exact ⟨_, s, k, .tell hname htarget hargs, rfl, hfits.of_pace rfl⟩
  | undefinedValue hname htarget hargs hresolve =>
    exact ⟨_, s, k, .undefinedValue hname htarget hargs hresolve, rfl, hfits⟩
  | malformedAssignment hname htarget hargs hresolve hparse =>
    exact ⟨_, s, k, .malformedAssignment hname htarget hargs hresolve hparse, rfl, hfits⟩
  | assign hname htarget hargs hresolve hparse =>
    exact ⟨_, s, k, .assign hname htarget hargs hresolve hparse, rfl, hfits⟩
  | assigned => exact ⟨_, s, k, .assigned, rfl, hfits⟩
  -- handlers
  | get => exact ⟨_, s, k, .get, rfl, hfits⟩
  | put => exact ⟨_, s, k, .put, rfl, hfits.of_pace rfl⟩
  | @parse source next =>
    rcases hparse : (c.inside d s k).parse source with ⟨answer, c'⟩
    obtain ⟨c₁, k₁, hparse₁, rfl, hfits₁⟩ := hfits.parse hparse
    have hstep : Step host ⟨.handler (.parse source next), K, c⟩ _ := .parse
    rw [hparse₁] at hstep
    exact ⟨_, s, k₁, hstep, rfl, hfits₁⟩
  | skip hpending => exact ⟨_, s, k, .skip hpending, rfl, hfits⟩
  | malformedSource hnone hparse =>
    obtain ⟨c₁, k₁, hparse₁, rfl, hfits₁⟩ := hfits.parse hparse
    exact ⟨_, s, k₁, .malformedSource hnone hparse₁, rfl, hfits₁⟩
  | execute hnone hparse =>
    obtain ⟨c₁, k₁, hparse₁, rfl, hfits₁⟩ := hfits.parse hparse
    exact ⟨_, s, k₁, .execute hnone hparse₁, rfl, hfits₁⟩
  | @executed passed contained source next K =>
    have hpos : 0 < c.depth := Moment.depth_pos_of_execute hordered hcounts
    have hstep : Step host ⟨.ended (.ok passed), .execute contained source next :: K, c⟩ _ :=
      .executed
    rw [Console.trim_of_pos hpos] at hstep
    refine ⟨_, s, k, hstep, ?_, hfits⟩
    rw [Console.trim_of_pos (Nat.add_pos_left hpos d)]
    rfl
  | @settle e contained source next K =>
    have hpos : 0 < c.depth := Moment.depth_pos_of_execute hordered hcounts
    have hstep : Step host ⟨.ended (.error e), .execute contained source next :: K, c⟩ _ :=
      .settle
    rw [Console.trim_of_pos hpos] at hstep
    refine ⟨_, s, k, hstep, ?_, hfits.of_pace (Console.pace_settle ..)⟩
    rw [Console.trim_of_pos (Nat.add_pos_left hpos d), Console.settle_inside hpos]
    rfl
  | evaluate => exact ⟨_, s, k, .evaluate, rfl, hfits⟩
  | evaluated => exact ⟨_, s, k, .evaluated, rfl, hfits⟩
  | close =>
    refine ⟨_, s, k, .close, ?_, hfits.of_pace (Console.pace_close ..)⟩
    rw [Console.close_inside]
    rfl

theorem Leads.of_inside (hd : 0 < d) (h : Leads host (m.inside d s k) m')
    (hordered : m.Ordered .query) (hcounts : m.CountsFrom 0 limit) (hfits : m.console.Fits s k)
    (hroomy : ∀ m'', Leads host (m.inside d s k) m'' → m''.Roomy) :
    ∃ m₁ s₁ k₁, Leads host m m₁ ∧ m' = m₁.inside d s₁ k₁ ∧ m₁.console.Fits s₁ k₁ := by
  induction h with
  | refl => exact ⟨m, s, k, .refl, rfl, hfits⟩
  | tail hleads hstep ih =>
    obtain ⟨m₁, s₁, k₁, hleads₁, rfl, hfits₁⟩ := ih
    obtain ⟨m₂, s₂, k₂, hstep₂, rfl, hfits₂⟩ := hstep.of_inside hd (hleads₁.ordered hordered)
      (hleads₁.countsFrom hcounts) hfits₁ (hroomy _ hleads)
    exact ⟨m₂, s₂, k₂, hleads₁.tail hstep₂, rfl, hfits₂⟩

/-! ### Errors other than recursion limits -/

theorem QueryError.isTooDeep_within (e : QueryError) (name body : String) :
    (e.within name body).isTooDeep = e.isTooDeep := by
  cases e <;> rfl

/-- Whether no error in the moment is a recursion limit. -/
structure Moment.Tame (m : Moment κ ε) : Prop where
  answer : ∀ e, m.activity = .ended (.error e) ∨ m.activity = .returned (.error e) →
    e.isTooDeep = false
  pending : ∀ source e, m.console.pending = some (source, e) → e.isTooDeep = false

theorem Step.tame (h : Step host m m') (hroomy : m.Roomy) (hm : m.Tame) : m'.Tame := by
  obtain ⟨hanswer, hpending⟩ := hm
  refine ⟨fun e he => ?_, fun source e he => ?_⟩
  · cases h with
    | tooDeep hdeep => exact absurd hdeep (Nat.not_le.2 (hroomy.depth _ _ rfl))
    | breakOff => exact hanswer e (.inr (by simpa using he))
    | undefinedArgument | undefinedValue | malformedAssignment | malformedSource =>
      obtain rfl : _ = e := by simpa using he
      rfl
    | malformedBody =>
      obtain rfl : _ = e := by simpa using he
      rw [QueryError.isTooDeep_within]
      rfl
    | @expanded answer name body =>
      rcases answer with e' | passed
      · obtain rfl : e'.within name body = e := by simpa [Except.map, Except.mapError] using he
        rw [QueryError.isTooDeep_within]
        exact hanswer e' (.inl rfl)
      · simp [Except.map, Except.mapError] at he
    | @assigned answer =>
      rcases answer with e' | passed
      · exact hanswer e (.inl (by simpa [Except.map] using he))
      · simp [Except.map] at he
    | @close ending name K c =>
      rcases hpend : c.pending with _ | ⟨source, e'⟩
      · cases ending <;> simp [Console.close, hpend] at he
      · rw [Console.close_of_pending hpend] at he
        obtain rfl : e'.within name source = e := by simpa using he
        rw [QueryError.isTooDeep_within]
        exact hpending source e' hpend
    | _ => simp at he
  · cases h with
    | malformedBody _ _ hparse | expand _ _ hparse =>
      rw [Console.pending_of_parse hparse, Console.pending_warnArguments] at he
      exact hpending source e he
    | malformedSource _ hparse | execute _ hparse =>
      rw [Console.pending_of_parse hparse] at he
      exact hpending source e he
    | settle =>
      unfold Console.settle at he
      split at he
      · cases he
        exact hanswer e (.inl rfl)
      · exact hpending source e (by simpa using he)
    | close => cases (Console.pending_close _ _).symm.trans he
    | _ => exact hpending source e (by simpa using he)

theorem Leads.tame (h : Leads host m m') (hroomy : ∀ m'', Leads host m m'' → m''.Roomy)
    (hm : m.Tame) : m'.Tame := by
  induction h with
  | refl => exact hm
  | tail hleads hstep ih => exact hstep.tame (hroomy _ hleads) ih

/-! ### Queries and lines -/

namespace Console

variable {c : Console κ ε} {q : Query} {source : String}

/-- A query does the same inside of other queries. -/
theorem Fits.evaluate (hd : 0 < d) (h : c.Fits s k) (hc : c.depth = 0)
    (hroomy : ∀ m, Leads host (.start q (c.inside d s k)) m → m.Roomy) :
    ∃ s₁ k₁, (c.inside d s k).evaluate host q =
        ((c.evaluate host q).1.inside d s₁ k₁, (c.evaluate host q).2) ∧
      (c.evaluate host q).1.Fits s₁ k₁ := by
  have hcounts : (Moment.start q c).CountsFrom 0 c.maxDepth := by
    rw [← hc]
    exact Moment.countsFrom_start q c
  obtain ⟨⟨activity, K, c₁⟩, s₁, k₁, hleads, heq, hfits⟩ :=
    Leads.of_inside hd (m := .start q c) (leads_evaluate q (c.inside d s k))
      (Moment.ordered_start q c) hcounts h hroomy
  simp only [Moment.inside, Moment.mk.injEq] at heq
  obtain ⟨rfl, rfl, heq⟩ := heq
  have hend := hleads.evaluate_eq
  refine ⟨s₁, k₁, ?_, ?_⟩
  · exact Prod.ext (heq.trans (by rw [hend])) (by rw [hend])
  · rw [hend]
    exact hfits

theorem trim_of_changes (h : c.vars.changes.length ≤ c.capacity) : c.trim = c := by
  have hdrop : c.vars.changes.length - c.capacity = 0 := by omega
  unfold trim
  split
  · simp only [mapWorkspace, Workspace.keepChanges, Store.keepChanges, hdrop, List.drop_zero]
  · rfl

/-- An error of a line is printed, as is one of a query inside of no other. -/
theorem settle_inside_of_contained (hc : c.depth = 0) {e : QueryError} (he : e.isTooDeep = false)
    (source : String) :
    (c.inside d s k).settle true source e = (c.settle false source e).inside d s k := by
  simp only [settle, hc, he]
  simp
  rfl

/-- A line does what it would do as a query inside of no other, if it comes to the same outcome. -/
theorem Fits.executeLine_of_outcome (hd : 0 < d) {c₁ : Console κ ε} {s₁ : Nat} {k₁ : QueryCache}
    {answer : Except QueryError Bool} (hpending : c.pending = none)
    (houtcome : c.outcome (runner host) source = (c₁, answer))
    (hinside : (c.inside d s k).outcome (runner host) source = (c₁.inside d s₁ k₁, answer))
    (hfits : c₁.Fits s₁ k₁) (hdepth : c₁.depth = 0)
    (hchanges : c₁.vars.changes.length ≤ c₁.capacity)
    (htame : ∀ e, answer = .error e → e.isTooDeep = false) :
    (c.inside d s k).executeLine host source =
        ((c.execute host source).1.inside d s₁ k₁, (c.execute host source).2) ∧
      (c.execute host source).1.Fits s₁ k₁ := by
  have hnone : (c.inside d s k).pending = none := hpending
  have hpos : 0 < (c₁.inside d s₁ k₁).depth := Nat.add_pos_right _ hd
  simp only [Console.executeLine, Console.execute, runSource, hpending, hnone, houtcome, hinside,
    Option.isSome_none, Bool.false_eq_true, if_false]
  rcases answer with e | passed
  · dsimp only
    rw [trim_of_pos hpos, trim_of_changes hchanges,
      settle_inside_of_contained hdepth (htame e rfl)]
    exact ⟨rfl, hfits.of_pace (pace_settle ..)⟩
  · dsimp only
    rw [trim_of_pos hpos, trim_of_changes hchanges]
    exact ⟨rfl, hfits⟩

/-- **A line of a script does what it would do as a query inside of no other**, as long as nothing
is cut short. -/
theorem Fits.executeLine (hd : 0 < d) (h : c.Fits s k) (hc : c.depth = 0)
    (hpending : c.pending = none) {next : Bool → Program (Workspace κ ε)} {K : List (Waiting κ ε)}
    (hroomy : ∀ m, Leads host ⟨.handler (.execute true source next), K, c.inside d s k⟩ m →
      m.Roomy) :
    ∃ s₁ k₁, (c.inside d s k).executeLine host source =
        ((c.execute host source).1.inside d s₁ k₁, (c.execute host source).2) ∧
      (c.execute host source).1.Fits s₁ k₁ := by
  have hnone : (c.inside d s k).pending = none := hpending
  rcases hparse : (c.inside d s k).parse source with ⟨fault | q, c'⟩
  · obtain ⟨c₁, k₁, hparse₁, rfl, hfits₁⟩ := h.parse hparse
    have hdepth : c₁.depth = 0 := (depth_of_limits (limits_of_parse hparse₁)).1.trans hc
    have hended := hroomy _ (.single (.malformedSource hnone hparse))
    exact ⟨s, k₁, executeLine_of_outcome hd hpending (by rw [outcome, hparse₁])
      (by rw [outcome, hparse]) hfits₁ hdepth hended.changes (by rintro _ ⟨⟩; rfl)⟩
  · obtain ⟨c₁, k₁, hparse₁, rfl, hfits₁⟩ := h.parse hparse
    have hdepth : c₁.depth = 0 := (depth_of_limits (limits_of_parse hparse₁)).1.trans hc
    have hstep : Step host ⟨.handler (.execute true source next), K, c.inside d s k⟩
        ((Moment.start q (c₁.inside d s k₁)).before (.execute true source next :: K)) :=
      .execute hnone hparse
    have hroomy₁ : ∀ m, Leads host (.start q (c₁.inside d s k₁)) m → m.Roomy := by
      intro m hm
      have h := hroomy _ (.head hstep (hm.before _))
      exact ⟨h.depth, h.steps, h.changes⟩
    have htame : (Moment.start q (c₁.inside d s k₁)).Tame := by
      refine ⟨by simp [Moment.start], fun source' e he => ?_⟩
      have hpending₁ : c₁.pending = none := (pending_of_parse hparse₁).trans hpending
      cases hpending₁.symm.trans he
    have hend : Leads host (.start q (c₁.inside d s k₁)) ⟨.ended
        ((c₁.inside d s k₁).evaluate host q).2, [], ((c₁.inside d s k₁).evaluate host q).1⟩ :=
      leads_evaluate q (c₁.inside d s k₁)
    have htame' := hend.tame hroomy₁ htame
    have hchanges := (hroomy₁ _ hend).changes
    obtain ⟨s₂, k₂, heval, hfits₂⟩ := hfits₁.evaluate hd hdepth hroomy₁
    rw [heval] at htame' hchanges
    have houtcome : c.outcome (runner host) source =
        ((c₁.evaluate host q).1, (c₁.evaluate host q).2) := by
      rw [outcome, hparse₁]
      rfl
    have hinside : (c.inside d s k).outcome (runner host) source =
        ((c₁.evaluate host q).1.inside d s₂ k₂, (c₁.evaluate host q).2) := by
      rw [outcome, hparse]
      exact heval
    refine ⟨s₂, k₂, executeLine_of_outcome hd hpending houtcome hinside hfits₂ ?_ hchanges
      fun e he => htame'.answer e (.inl (by rw [he]))⟩
    exact (depth_of_limits (keepsLimits_runner ..)).1.trans hdepth

end Console

end DevConsole
