import DevConsole.Proofs.Console.Heedless
import DevConsole.Proofs.Console.HigherLimits
import DevConsole.Proofs.Console.Traces

/-!
Warnings of queries with many clauses. Main statement: a query that runs inside of no other is
warned about once, at the clause with the number that the console warns at, whatever aliases,
assignments and handlers the clauses belong to, and the warning changes nothing but the output.
-/

namespace DevConsole

open Relation

variable {κ ε : Type}

/-! ### What is warned about -/

/-- The line that warns of a query in which so many clauses have been visited. -/
def runawayWarning (count : Nat) : OutputLine :=
  ⟨.warn, s!"Query has run {count} invocations, check for a runaway alias"⟩

/-- What the console prints when it visits the clauses that are visited in the moments. -/
def warnings (ms : List (Moment κ ε)) : List Event :=
  (ms.filter Moment.visits).flatMap Moment.ownEvents

theorem warnings_append (ms ns : List (Moment κ ε)) :
    warnings (ms ++ ns) = warnings ms ++ warnings ns := by
  rw [warnings, List.filter_append, List.flatMap_append]
  rfl

/-- A clause is warned about if its number is the one that the console warns at. -/
theorem Console.prints_countStep (c : Console κ ε) : c.prints countStep =
    if c.steps + 1 = c.iterationWarning then [.print (runawayWarning c.iterationWarning)]
    else [] := by
  have hsteps : (c.withOutput []).steps = c.steps := rfl
  have hwarning : (c.withOutput []).iterationWarning = c.iterationWarning := rfl
  simp only [prints, countStep, hsteps, hwarning]
  split
  · next heq =>
    rw [heq]
    simp [print, mapWorkspace, withOutput, Workspace.print, pushBounded, runawayWarning]
  · rfl

variable {host : Host κ (Workspace κ ε)} {m m' : Moment κ ε} {ms : List (Moment κ ε)}
variable {q : Query} {c : Console κ ε}

theorem Moment.ownEvents_of_visits (h : m.visits = true) :
    m.ownEvents = m.console.prints .countStep := by
  obtain ⟨activity, K, c⟩ := m
  cases activity with
  | clauses failed anyFailed cs => exact if_pos h
  | _ => cases h

/-- Clauses are visited inside of queries. -/
theorem Moment.level_pos_of_visits (h : m.visits = true) : 0 < m.level := by
  obtain ⟨activity, K, c⟩ := m
  cases activity with
  | clauses => exact Nat.succ_pos _
  | _ => cases h

/-- **A query is warned about once.** -/
theorem Passes.warnings_eq (hzero : c.depth = 0) (h : Passes host (.start q c) ms m) :
    warnings ms =
      if 1 ≤ c.iterationWarning ∧ c.iterationWarning ≤ ms.countP Moment.visits then
        [.print (runawayWarning c.iterationWarning)]
      else [] := by
  induction h with
  | refl =>
    rw [if_neg (by simp; omega)]
    rfl
  | @tail ms m m' hpasses hstep ih =>
    rw [warnings_append, ih, List.countP_append, List.countP_singleton]
    rcases hvisits : m.visits with _ | _
    · have hquiet : warnings [m] = [] := by simp [warnings, hvisits]
      rw [hquiet]
      simp
    · -- the clause has the number that follows those of the clauses visited before
      have hlevel := Moment.level_pos_of_visits hvisits
      have hdepth : m.console.limits = (c.depth + m.level, c.maxDepth) :=
        hpasses.leads.countsFrom (Moment.countsFrom_start q c)
      have hle : m.console.limits.1 ≤ m.console.limits.2 :=
        hpasses.leads.depth_le (by simp [Moment.start, Console.limits, hzero])
      rw [hdepth] at hle
      have hne : ms ≠ [] := by
        rintro rfl
        obtain rfl := hpasses.eq_of_nil
        cases hvisits
      have hsteps := hpasses.steps_eq hzero (by omega) hne
      have hwarning : m.console.iterationWarning = c.iterationWarning :=
        congrArg Prod.snd hpasses.leads.bounds_eq
      have hprints : warnings [m] = m.console.prints .countStep := by
        simp [warnings, hvisits, Moment.ownEvents_of_visits hvisits]
      rw [hprints, Console.prints_countStep, hsteps, hwarning, if_pos rfl]
      split <;> split <;> split <;> first | rfl | (exfalso; omega)

/-! ### What a warning changes -/

def Console.withWarning (c : Console κ ε) (warning : Nat) : Console κ ε :=
  { c with iterationWarning := warning }

def Moment.withWarning (m : Moment κ ε) (warning : Nat) : Moment κ ε :=
  { m with console := m.console.withWarning warning }

def Moment.withOutput (m : Moment κ ε) (output : List OutputLine) : Moment κ ε :=
  { m with console := m.console.withOutput output }

theorem Console.countStep_withWarning (c : Console κ ε) (warning : Nat) :
    ∃ output, (c.withWarning warning).countStep =
      (c.countStep.withWarning warning).withOutput output := by
  unfold countStep
  dsimp only
  split <;> split <;> exact ⟨_, rfl⟩

/-- **A warning changes nothing but the output.** Whatever the host, each step is the same at
another number that is warned at, but for the output if a clause is visited. -/
theorem Step.withWarning (h : Step host m m') (warning : Nat) :
    ∃ output, Step host (m.withWarning warning) ((m'.withWarning warning).withOutput output) ∧
      (m.visits = false → output = m'.console.output) := by
  rcases hvisits : m.visits with _ | _
  · have hmax : m'.console.maxDepth = m.console.maxDepth := congrArg Prod.fst h.bounds_eq
    have hend : m'.withBounds (m.console.maxDepth, warning) = m'.withWarning warning := by
      rw [← hmax]
      rfl
    have hstep := h.withBounds (m.console.maxDepth, warning) (fun _ _ _ => .inl rfl)
      (by simp [hvisits])
    rw [hend] at hstep
    exact ⟨m'.console.output, hstep, fun _ => rfl⟩
  · obtain ⟨activity, K, c⟩ := m
    obtain ⟨output, hcount⟩ := c.countStep_withWarning warning
    cases h with
    | @group failed anyFailed _ _ _ _ _ hstop =>
      have hstep : Step host ⟨.clauses failed anyFailed _, K, c.withWarning warning⟩ _ :=
        .group hstop
      rw [hcount] at hstep
      exact ⟨output, hstep, by simp⟩
    | @command failed anyFailed _ _ _ _ _ hstop =>
      have hstep : Step host ⟨.clauses failed anyFailed _, K, c.withWarning warning⟩ _ :=
        .command hstop
      rw [hcount] at hstep
      exact ⟨output, hstep, by simp⟩
    | leave hstop => simp [Moment.visits, hstop] at hvisits
    | _ => cases hvisits

/-- Consoles that are alike but for the output differ in their settings and the output only. -/
theorem Console.Alike.eq_withOutput {c c' : Console κ ε}
    (h : c.Alike Workspace.SameButOutput c') :
    ∃ output, c' = (c.withBounds c'.bounds).withOutput output := by
  obtain ⟨w', maxDepth, iterationWarning, cache, depth, steps, pending⟩ := c'
  obtain ⟨⟨output, rfl⟩, rfl, rfl, rfl, rfl⟩ := h
  exact ⟨output, rfl⟩

/-- If no handler looks at the output, then a run goes side by side with one at another number that
is warned at. -/
theorem Passes.withWarning (hhost : host.IgnoresOutput) (h : Passes host (.start q c) ms m)
    (warning : Nat) :
    ∃ ns n, Passes host (.start q (c.withWarning warning)) ns n ∧
      List.Forall₂ (Moment.Alike Workspace.SameButOutput) ms ns ∧
      m.Alike Workspace.SameButOutput n :=
  h.alike Workspace.unseen_sameButOutput Workspace.absorbs_sameButOutput hhost.respects
    ⟨rfl, .nil, ⟨Workspace.SameButOutput.refl _, rfl, rfl, rfl, rfl⟩⟩ rfl

namespace Console

theorem evaluate_withWarning (hhost : host.IgnoresOutput) (q : Query) (c : Console κ ε)
    (warning : Nat) :
    ∃ output, (c.withWarning warning).evaluate host q =
      (((c.evaluate host q).1.withWarning warning).withOutput output, (c.evaluate host q).2) := by
  have hleads : Leads host (.start q c) _ := leads_evaluate q c
  obtain ⟨ms, hpasses⟩ := hleads.exists_passes
  obtain ⟨ns, n, hpasses', -, halike⟩ := hpasses.withWarning hhost warning
  obtain ⟨activity, K, c'⟩ := n
  obtain rfl : activity = _ := halike.activity
  obtain rfl : K = [] := by simpa using halike.waiting
  obtain ⟨output, hc'⟩ : ∃ output, c' = (Console.withBounds _ c'.bounds).withOutput output :=
    halike.console.eq_withOutput
  have hbounds : c'.bounds = ((c.evaluate host q).1.maxDepth, warning) := by
    have hmax := congrArg Prod.fst hleads.bounds_eq
    exact hpasses'.leads.bounds_eq.trans (congrArg (·, warning) hmax.symm)
  rw [hbounds] at hc'
  exact ⟨output, by rw [hpasses'.leads.evaluate_eq, hc']; rfl⟩

/-- **A query is warned about once, and nothing else comes of it.** Let a query run inside of no
other. In whatever aliases, assignments and handlers clauses are visited in its run, the console
prints one warning if it warns at some number of clauses and so many have been visited, and
otherwise none. It counts from nought, whatever was counted before, and so it does for the next
query. At another number that is warned at each single step is the same but for the output; if no
handler looks at the output, the whole run goes through the same invocations, with the same results,
and leaves the same console behind but for the output. -/
theorem warns_once (host : Host κ (Workspace κ ε)) (hzero : c.depth = 0) (q : Query) :
    (∃ ms, Passes host (.start q c) ms
      ⟨.ended (c.evaluate host q).2, [], (c.evaluate host q).1⟩) ∧
    (∀ ms m, Passes host (.start q c) ms m →
      warnings ms =
        (if 1 ≤ c.iterationWarning ∧ c.iterationWarning ≤ ms.countP Moment.visits then
          [.print (runawayWarning c.iterationWarning)]
        else []) ∧
      (0 < c.maxDepth → ms ≠ [] → m.console.steps = ms.countP Moment.visits)) ∧
    (c.evaluate host q).1.depth = 0 ∧
    (∀ m m' warning, Step host m m' → ∃ output,
      Step host (m.withWarning warning) ((m'.withWarning warning).withOutput output) ∧
        (m.visits = false → output = m'.console.output)) ∧
    (host.IgnoresOutput → ∀ warning,
      (∀ ms m, Passes host (.start q c) ms m → ∃ ns n,
        Passes host (.start q (c.withWarning warning)) ns n ∧
        ns.map Moment.visits = ms.map Moment.visits ∧ ns.map Moment.call? = ms.map Moment.call? ∧
        ns.map Moment.result? = ms.map Moment.result?) ∧
      ∃ output, (c.withWarning warning).evaluate host q =
        (((c.evaluate host q).1.withWarning warning).withOutput output,
          (c.evaluate host q).2)) := by
  refine ⟨(leads_evaluate q c).exists_passes, fun ms m h => ⟨h.warnings_eq hzero, fun hmax hms =>
    h.steps_eq hzero (by omega) hms⟩, ?_, fun m m' warning h => h.withWarning warning,
    fun hhost warning => ⟨fun ms m h => ?_, evaluate_withWarning hhost q c warning⟩⟩
  · exact (depth_of_limits (keepsLimits_runner ..)).1.trans hzero
  · obtain ⟨ns, n, hpasses, hall, -⟩ := h.withWarning hhost warning
    refine ⟨ns, n, hpasses, ?_, ?_, ?_⟩
    all_goals
      clear hpasses h
      induction hall with
      | nil => rfl
      | cons halike _ ih =>
        simp only [List.map_cons, ih, halike.visits_eq, halike.call?_eq, halike.result?_eq]

/-- A console that warns at the third clause and has counted seven before. -/
def busyConsole : Console Bool Unit := { twoCommands with iterationWarning := 3, steps := 7 }

/-- The clause of the query, that of the alias and that of the line which the handler executes make
three. -/
theorem warns_once_busyConsole :
    busyConsole.depth = 0 ∧ relayingHost.IgnoresOutput ∧
      (∃ ms, Passes relayingHost (.start (.ofName "go") busyConsole) ms
          ⟨.ended (.ok true), [], (busyConsole.evaluate relayingHost (.ofName "go")).1⟩ ∧
        ms.countP Moment.visits = 3 ∧ warnings ms = [.print (runawayWarning 3)]) ∧
      (busyConsole.evaluate relayingHost (.ofName "go")).1.output = [runawayWarning 3] ∧
      ((busyConsole.withWarning 0).evaluate relayingHost (.ofName "go")).2 = .ok true := by
  have hhost : relayingHost.IgnoresOutput := by
    intro k call
    cases k with
    | false => exact .stop _
    | true => exact .execute fun _ => .stop _
  have hanswer : (busyConsole.evaluate relayingHost (.ofName "go")).2 = .ok true := by
    decide +kernel
  have hsteps : (busyConsole.evaluate relayingHost (.ofName "go")).1.steps = 3 := by
    decide +kernel
  obtain ⟨⟨ms, hpasses⟩, hcounts, -, -, hsame⟩ := warns_once relayingHost
    (show busyConsole.depth = 0 from rfl) (.ofName "go")
  rw [hanswer] at hpasses
  have hms : ms ≠ [] := by
    rintro rfl
    cases hpasses.eq_of_nil
  obtain ⟨hwarnings, hvisits⟩ := hcounts ms _ hpasses
  have hthree : ms.countP Moment.visits = 3 := (hvisits (by decide) hms).symm.trans hsteps
  obtain ⟨-, output, hevaluate⟩ := hsame hhost 0
  rw [hthree] at hwarnings
  exact ⟨rfl, hhost, ⟨ms, hpasses, hthree, hwarnings⟩, by decide +kernel,
    by rw [hevaluate, hanswer]⟩

end Console

end DevConsole
