import DevConsole.Proofs.Console.Edits
import DevConsole.Proofs.Console.Inside

/-!
Scripts. The lines of a script run inside of the query that runs the script. Main statement: as long
as nothing is cut short, a script leaves behind what its lines leave behind when each of them is
executed inside of no query, and then one line of output tells how many have failed, if any has.
-/

namespace DevConsole

open Relation

variable {κ ε : Type} {host : Host κ (Workspace κ ε)}

namespace Console

variable {c : Console κ ε}

/-! ### Sources in a row -/

/-- The number of sources that fail when they are executed, one after the other. -/
def failures (host : Host κ (Workspace κ ε)) : List String → Console κ ε → Nat
  | [], _ => 0
  | source :: sources, c =>
    (if (c.execute host source).2 then 0 else 1) + failures host sources (c.execute host source).1

structure AtRest (c : Console κ ε) : Prop where
  depth : c.depth = 0
  pending : c.pending = none

theorem AtRest.execute (h : c.AtRest) (source : String) : (c.execute host source).1.AtRest := by
  have hlimits : c.WithinLimits := ⟨by simp [h.depth], fun _ => h.pending⟩
  have hdepth : (c.execute host source).1.depth = 0 :=
    (depth_of_limits (limits_runSource keepsLimits_runner false source)).1.trans h.depth
  exact ⟨hdepth, (hlimits.runSource false source).pending hdepth⟩

/-! ### Lines of scripts -/

/-- **The lines of a script run one after the other**, each as it would inside of no query. -/
theorem Fits.leads_runLines {d s failed : Nat} {k : QueryCache} {file : String}
    {K : List (Waiting κ ε)} {pre post : List String} (hd : 0 < d) (h : c.Fits s k)
    (hc : c.AtRest)
    (hroomy : ∀ m, Leads host
      ⟨.handler (.runLines file failed (pre ++ post)), K, c.inside d s k⟩ m → m.Roomy) :
    (c.executeAll host pre).AtRest ∧
    ∃ s₁ k₁, Leads host ⟨.handler (.runLines file failed (pre ++ post)), K, c.inside d s k⟩
      ⟨.handler (.runLines file (failed + c.failures host pre) post), K,
        (c.executeAll host pre).inside d s₁ k₁⟩ := by
  induction pre generalizing c s k failed with
  | nil => exact ⟨hc, s, k, .refl⟩
  | cons line pre ih =>
    obtain ⟨s₁, k₁, hline, hfits⟩ := h.executeLine hd hc.depth hc.pending hroomy
    have hstepwise : Stepwise host (runner host) (c.inside d s k).limits := stepwise_runner _
    have hrun := leads_runSource (K := K) hstepwise true line fun passed =>
      .runLines file (if passed then failed else failed + 1) (pre ++ post)
    rw [← Console.executeLine, hline] at hrun
    obtain ⟨hrest, s₂, k₂, hlines⟩ :=
      ih hfits (hc.execute line) fun m hm => hroomy m (hrun.trans hm)
    have hcount : (if (c.execute host line).2 then failed else failed + 1) +
        (c.execute host line).1.failures host pre = failed + c.failures host (line :: pre) := by
      rw [failures]
      split <;> omega
    rw [hcount] at hlines
    exact ⟨hrest, s₂, k₂, hrun.trans hlines⟩

/-! ### Scripts -/

/-- Whether the query does nothing but run the script in the file, which has that text. -/
structure RunsScript (q : Query) (call : Invocation) (file text : String) (c : Console κ ε) :
    Prop where
  clauses : q.clauses = .command .always call .nil
  named : call.name ≠ ""
  target : c.target call.name = .command (.builtin .runScript)
  args : ∃ args, resolveAll c.vars.text? call.args = .ok (file :: args)
  read : c.world.files.read file = .ok text

/-- The console after it has told how many lines of a script have failed, if any has. -/
def reportFailed (name file : String) (failed : Nat) (c : Console κ ε) : Console κ ε :=
  if failed = 0 then c else c.report (.command name (.failedLines failed file))

variable {q : Query} {call : Invocation} {source file text : String} {s s₁ : Nat}
variable {k : QueryCache}

/-- The query that runs a script begins with the first of the lines. -/
theorem RunsScript.leads_lines (h : c.RunsScript q call file text) (hc : c.AtRest)
    (hroomy : ∀ m, Leads host (.start q (c.inside 0 s k)) m → m.Roomy) :
    1 ≠ c.iterationWarning ∧
    Leads host (.start q (c.inside 0 s k)) ⟨.handler (.runLines file 0 (scriptLines text)),
      [.command call.name, .rest false [.nil]], c.inside 1 1 k⟩ := by
  obtain ⟨args, hargs⟩ := h.args
  have hlt : (c.inside 0 s k).depth < c.maxDepth := (hroomy _ .refl).depth _ _ rfl
  have hstop : nextStop? false [q.clauses] = some (.command call [.nil]) := by
    rw [h.clauses]
    rfl
  have hsteps : (c.inside 0 s k).enter.steps + 1 ≠ c.iterationWarning :=
    (hroomy _ (.single (.enter hlt))).steps _ _ _ rfl (by simp [hstop])
  have hcount : (c.inside 0 s k).enter.countStep = c.inside 1 1 k := by
    rw [countStep_of_ne hsteps]
    simp [enter, inside, hc.depth]
  refine ⟨by simpa [enter, inside, hc.depth] using hsteps, ?_⟩
  refine .head (.enter hlt) (.head (.command hstop) ?_)
  rw [hcount]
  have hread : (c.inside 1 1 k).world.files.read file = .ok text := h.read
  refine .head (.handle h.named h.target hargs) (.head .get ?_)
  simp only [hread]
  exact .refl

/-- The query that runs a script comes to each of the lines, with the lines in front of it run. -/
theorem RunsScript.leads_line (h : c.RunsScript q call file text) (hc : c.AtRest)
    (hcache : c.cache.Faithful) (hother : k.Faithful)
    (hroomy : ∀ m, Leads host (.start q (c.inside 0 s k)) m → m.Roomy) {pre post : List String}
    (hsplit : scriptLines text = pre ++ post) :
    (c.executeAll host pre).AtRest ∧
    ∃ s₁ k₁, Leads host (.start q (c.inside 0 s k))
      ⟨.handler (.runLines file (c.failures host pre) post),
        [.command call.name, .rest false [.nil]], (c.executeAll host pre).inside 1 s₁ k₁⟩ := by
  obtain ⟨hwarning, hbegin⟩ := h.leads_lines hc hroomy
  have hfits : c.Fits 1 k := ⟨by simp [hc.depth], by omega, hcache, hother⟩
  rw [hsplit] at hbegin
  obtain ⟨hrest, s₁, k₁, hrun⟩ := hfits.leads_runLines Nat.one_pos hc
    fun m hm => hroomy m (hbegin.trans hm)
  rw [Nat.zero_add] at hrun
  exact ⟨hrest, s₁, k₁, hbegin.trans hrun⟩

/-- The script ends, and with it the query that runs it. -/
theorem leads_endScript {name : String} {failed : Nat} (hpending : c.pending = none) :
    Leads host ⟨.handler (.runLines file failed []), [.command name, .rest false [.nil]],
        c.inside 1 s k⟩
      ⟨.ended (.ok (decide (failed = 0))), [], (c.reportFailed name file failed).inside 0 s k⟩ := by
  have hnone : (c.inside 1 s k).pending = none := hpending
  by_cases hfailed : failed = 0
  · have hclose : (c.inside 1 s k).close name .passed = (c.inside 1 s k, .ok false) := by
      simp only [close, hnone]
    refine .head .close ?_
    rw [if_pos hfailed, hclose, reportFailed, if_pos hfailed, decide_eq_true hfailed]
    exact .head .goOn (.single (.leave rfl))
  · have hclose : (c.inside 1 s k).close name (.refused (.failedLines failed file)) =
        ((c.inside 1 s k).report (.command name (.failedLines failed file)), .ok true) := by
      simp only [close, hnone]
    refine .head .close ?_
    rw [if_neg hfailed, hclose, reportFailed, if_neg hfailed, decide_eq_false hfailed]
    exact .head .goOn (.single (.leave rfl))

/-- A source that has been run to its end inside of nothing has been executed. -/
theorem execute_of_leads {passed : Bool} {c' : Console κ ε} (hpending : c.pending = none)
    (hparse : c.parse source = (.ok q, c.inside 0 s k))
    (hend : Leads host (.start q (c.inside 0 s k)) ⟨.ended (.ok passed), [], c'⟩)
    (hchanges : c'.vars.changes.length ≤ c'.capacity) :
    c.execute host source = (c', passed) := by
  have heval := Leads.evaluate_eq hend
  rw [evaluate] at heval
  simp only [execute, runSource, hpending, outcome, hparse, heval, Option.isSome_none,
    Bool.false_eq_true, if_false, trim_of_changes hchanges]

/-- **A script does what its lines do.** Where nothing is cut short, the query that runs a script
leaves behind what its lines leave behind when they are executed one after the other, and then one
line of output tells how many of them failed, if any did; the query passes if none did. Every line
is run, with nothing pending, after what the lines in front of it have left behind. -/
theorem execute_script (hc : c.AtRest) (hcache : c.cache.Faithful)
    (hparse : DevConsole.parse source = .ok q) (h : c.RunsScript q call file text)
    (hroomy : ∀ m, Leads host (.startAll [source] c) m → m.Roomy) :
    (c.execute host source).1.toWorkspace = ((c.executeAll host (scriptLines text)).reportFailed
      call.name file (c.failures host (scriptLines text))).toWorkspace ∧
    (c.execute host source).2 = decide (c.failures host (scriptLines text) = 0) ∧
    ∀ pre line post, scriptLines text = pre ++ line :: post → ∃ c' K,
      Leads host (.startAll [source] c)
        ⟨.handler (.runLines file (c.failures host pre) (line :: post)), K, c'⟩ ∧
      c'.pending = none ∧ c'.toWorkspace = (c.executeAll host pre).toWorkspace := by
  obtain ⟨hanswer, hother⟩ := hcache.get source
  have hparse₀ : c.parse source = (.ok q, c.inside 0 c.steps (c.cache.get source).2) :=
    Prod.ext (hanswer.trans hparse) rfl
  have hexecute : Leads host (.startAll [source] c)
      ((Moment.start q (c.inside 0 c.steps (c.cache.get source).2)).before
        [.execute false source fun _ => .executeAll []]) := .single (.execute hc.pending hparse₀)
  have hinner : ∀ m, Leads host (.start q (c.inside 0 c.steps (c.cache.get source).2)) m →
      m.Roomy := by
    intro m hm
    have hlater := hroomy _ (hexecute.trans (hm.before _))
    exact ⟨hlater.depth, hlater.steps, hlater.changes⟩
  obtain ⟨hrest, s₁, k₁, hall⟩ := h.leads_line hc hcache hother hinner (List.append_nil _).symm
  have hend := hall.trans (leads_endScript hrest.pending)
  rw [execute_of_leads hc.pending hparse₀ hend (hinner _ hend).changes]
  refine ⟨rfl, rfl, fun pre line post hsplit => ?_⟩
  obtain ⟨hrest, s₁, k₁, hrun⟩ := h.leads_line hc hcache hother hinner hsplit
  exact ⟨_, _, hexecute.trans (hrun.before _), hrest.pending, rfl⟩

/-! ### A script of which no line passes -/

/-- A host with a handler that executes a malformed source. -/
def failingHost : Host Bool (Workspace Bool Unit) := .carryingOut (.afterFailure (.stop .passed))

/-- A console with that handler, and with a script whose first line invokes it. -/
def scriptedConsole : Console Bool Unit :=
  twoCommands.mapWorkspace fun w =>
    { w with
      commands := (w.commands.insert { name := "exec", handler := .builtin .runScript }).2
      world := { w.world with files := ⟨.ofList [("auto.cfg", .file "run\nhi")]⟩ } }

def scriptQuery : Query :=
  ⟨.command .always { name := "exec", args := [⟨[.literal "auto.cfg" 5], 5⟩] } .nil⟩

theorem parse_scriptQuery : DevConsole.parse "exec auto.cfg" = .ok scriptQuery := by rfl

theorem runsScript_scriptQuery : scriptedConsole.RunsScript scriptQuery
    { name := "exec", args := [⟨[.literal "auto.cfg" 5], 5⟩] } "auto.cfg" "run\nhi" where
  clauses := rfl
  named := by decide
  target := rfl
  args := ⟨[], rfl⟩
  read := rfl

/-- Whether the console is far from all that may be cut short. -/
def hasRoom (c : Console κ ε) : Bool :=
  c.depth < c.maxDepth && c.steps + 1 < c.iterationWarning && c.vars.changes.length ≤ c.capacity

theorem roomy_of_hasRoom {m : Moment κ ε} (h : m.console.hasRoom) : m.Roomy := by
  simp only [hasRoom, Bool.and_eq_true, decide_eq_true_eq] at h
  exact ⟨fun _ _ _ => h.1.1, fun _ _ _ _ _ => Nat.ne_of_lt h.1.2, h.2⟩

/-- One step of a run in which there is room in all moments. -/
theorem roomy_of_step {m m' : Moment κ ε} (h : Step host m m') (hm : m.console.hasRoom)
    (hnext : ∀ m'', Leads host m' m'' → m''.Roomy) : ∀ m'', Leads host m m'' → m''.Roomy := by
  intro m'' hleads
  rcases ReflTransGen.cases_head hleads with rfl | ⟨m₁, hstep, hrest⟩
  · exact roomy_of_hasRoom hm
  · exact hnext _ (h.unique hstep ▸ hrest)

/-- In no moment of the run is anything cut short. -/
theorem roomy_scriptedConsole : ∀ m,
    Leads failingHost (.startAll ["exec auto.cfg"] scriptedConsole) m → m.Roomy := by
  refine roomy_of_step (.execute rfl (rfl : Console.parse _ _ = (.ok scriptQuery, _)))
    (by decide) ?_
  refine roomy_of_step (.enter (by decide)) (by decide) ?_
  refine roomy_of_step (.command rfl) (by decide) ?_
  refine roomy_of_step (.handle (by decide) rfl rfl) (by decide) ?_
  refine roomy_of_step .get (by decide) ?_
  -- the first line
  refine roomy_of_step (.execute rfl (rfl : Console.parse _ _ = (.ok (.ofName "run"), _)))
    (by decide) ?_
  refine roomy_of_step (.enter (by decide)) (by decide) ?_
  refine roomy_of_step (.command rfl) (by decide) ?_
  refine roomy_of_step (.handle (by decide) rfl rfl) (by decide) ?_
  refine roomy_of_step (.malformedSource rfl rfl) (by decide) ?_
  refine roomy_of_step .settle (by decide) ?_
  refine roomy_of_step .close (by decide) ?_
  refine roomy_of_step .breakOff (by decide) ?_
  refine roomy_of_step .settle (by decide) ?_
  -- the second line
  refine roomy_of_step (.execute rfl (rfl : Console.parse _ _ = (.ok (.ofName "hi"), _)))
    (by decide) ?_
  refine roomy_of_step (.enter (by decide)) (by decide) ?_
  refine roomy_of_step (.command rfl) (by decide) ?_
  refine roomy_of_step (.notFound (by decide) rfl) (by decide) ?_
  refine roomy_of_step .goOn (by decide) ?_
  refine roomy_of_step (.leave rfl) (by decide) ?_
  refine roomy_of_step .executed (by decide) ?_
  -- the end of the script
  refine roomy_of_step .close (by decide) ?_
  refine roomy_of_step .goOn (by decide) ?_
  refine roomy_of_step (.leave rfl) (by decide) ?_
  refine roomy_of_step .executed (by decide) ?_
  intro m hleads
  rcases ReflTransGen.cases_head hleads with rfl | ⟨m₁, hstep, hrest⟩
  · exact roomy_of_hasRoom (by decide)
  · cases hstep

/-- The first line is aborted by what its handler executes, the second invokes nothing that there
is, and both are counted. -/
theorem execute_script_scriptedConsole :
    scriptLines "run\nhi" = ["run", "hi"] ∧
    scriptedConsole.failures failingHost ["run", "hi"] = 2 ∧
    (scriptedConsole.execute failingHost "exec auto.cfg").1.toWorkspace =
      ((scriptedConsole.executeAll failingHost ["run", "hi"]).reportFailed "exec" "auto.cfg"
        2).toWorkspace ∧
    (scriptedConsole.execute failingHost "exec auto.cfg").2 = false := by
  have hlines : scriptLines "run\nhi" = ["run", "hi"] := by decide +kernel
  have hfailures : scriptedConsole.failures failingHost ["run", "hi"] = 2 := by decide +kernel
  obtain ⟨hleft, hanswer, -⟩ := execute_script (c := scriptedConsole) ⟨rfl, rfl⟩
    (fun _ _ h => by simp [scriptedConsole, twoCommands, mapWorkspace, ofSettings] at h)
    parse_scriptQuery runsScript_scriptQuery roomy_scriptedConsole
  rw [hlines, hfailures] at hleft hanswer
  exact ⟨hlines, hfailures, hleft, hanswer⟩

end Console

end DevConsole
