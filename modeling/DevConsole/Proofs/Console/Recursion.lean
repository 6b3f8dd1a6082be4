import DevConsole.Proofs.Console.Pending

/-!
Queries too deep inside others. The depth of the console never passes its limit, and it is restored
by whatever runs; an error is pending only inside a handler. Main statement: if handlers run queries
only by executing them, then a query that is too deep aborts all that it is inside of, with one
error that is reported once.
-/

namespace DevConsole

open Relation

variable {κ ε : Type} {host : Host κ (Workspace κ ε)} {m m' : Moment κ ε}

/-! ### Pending errors belong to handlers -/

/-- Whether an error is pending only inside a handler. -/
def Moment.PendsInside (m : Moment κ ε) : Prop :=
  m.console.pending ≠ none → ∃ name, Waiting.command name ∈ m.waiting

theorem Step.pendsInside (h : Step host m m') (hordered : m.Ordered .query)
    (hm : m.PendsInside) : m'.PendsInside := by
  intro hpending
  cases h with
  | settle =>
    -- it is a handler that has executed the source
    rename_i K c
    obtain ⟨-, hserves⟩ := hordered
    cases K with
    | nil => cases hserves
    | cons w K =>
      cases w with
      | command name => exact ⟨name, List.mem_cons_self⟩
      | _ => cases hserves.1
  | close => exact absurd (Console.pending_close _ _) hpending
  | malformedBody _ _ hparse | expand _ _ hparse =>
    rw [Console.pending_of_parse hparse, Console.pending_warnArguments] at hpending
    simpa using hm hpending
  | malformedSource _ hparse | execute _ hparse =>
    rw [Console.pending_of_parse hparse] at hpending
    simpa using hm hpending
  | handle => exact ⟨_, List.mem_cons_self⟩
  | _ => simpa [Moment.PendsInside] using hm (by simpa using hpending)

theorem Leads.pendsInside (h : Leads host m m') (hordered : m.Ordered .query)
    (hm : m.PendsInside) : m'.PendsInside := by
  induction h with
  | refl => exact hm
  | tail hleads hstep ih => exact hstep.pendsInside (Leads.ordered hleads hordered) ih

/-- A command whose handler runs belongs to a query that runs. -/
theorem level_pos_of_mem {K : List (Waiting κ ε)} {t : Task} (h : Serves .query t K) {name : String}
    (hname : .command name ∈ K) : 0 < K.countP Waiting.isQuery := by
  induction K generalizing t with
  | nil => cases hname
  | cons w K ih =>
    rw [List.countP_cons]
    rcases List.mem_cons.1 hname with rfl | hmem
    · have hpos := level_pos_of_serves (.inl h.2)
      omega
    · have hpos := ih h.2 hmem
      omega

/-! ### Limits that are kept -/

/-- Whether the console is no deeper than it may be, and has no error pending outside of queries. -/
structure Console.WithinLimits (c : Console κ ε) : Prop where
  depth_le : c.depth ≤ c.maxDepth
  pending : c.depth = 0 → c.pending = none

theorem Step.depth_le (h : Step host m m') (hm : m.console.limits.1 ≤ m.console.limits.2) :
    m'.console.limits.1 ≤ m'.console.limits.2 := by
  cases h with
  | enter hlt => exact hlt
  | leave _ | breakOff =>
    simp only [Console.limits, Console.leave] at hm ⊢
    omega
  | malformedBody _ _ hparse | expand _ _ hparse =>
    rw [limits_of_parse hparse, Console.limits_warnArguments]
    exact hm
  | malformedSource _ hparse | execute _ hparse =>
    rw [limits_of_parse hparse]
    exact hm
  | put => exact hm
  | _ => simpa using hm

theorem Leads.depth_le (h : Leads host m m') (hm : m.console.limits.1 ≤ m.console.limits.2) :
    m'.console.limits.1 ≤ m'.console.limits.2 := by
  induction h with
  | refl => exact hm
  | tail _ hstep ih => exact hstep.depth_le ih

theorem Leads.withinLimits {q : Query} {c : Console κ ε} (hc : c.WithinLimits)
    (h : Leads host (.start q c) m) : m.console.WithinLimits := by
  constructor
  · exact h.depth_le hc.depth_le
  · intro hzero
    have hordered := h.ordered (Moment.ordered_start q c)
    have hdepth : m.console.depth = c.depth + m.level :=
      congrArg Prod.fst (h.countsFrom (Moment.countsFrom_start q c))
    have hnone : c.pending = none := hc.pending (by omega)
    by_contra hpending
    have hstart : (Moment.start q c).PendsInside := fun hne => absurd hnone hne
    obtain ⟨name, hname⟩ := h.pendsInside (Moment.ordered_start q c) hstart hpending
    have hlevel := level_pos_of_mem hordered hname
    rw [Moment.level] at hdepth
    omega

namespace Console

variable {c c' : Console κ ε}

theorem WithinLimits.of_eq (hc : c.WithinLimits) (hlimits : c'.limits = c.limits)
    (hpending : c'.pending = c.pending) : c'.WithinLimits := by
  obtain ⟨hdepth, hmax⟩ := depth_of_limits hlimits
  constructor
  · rw [hdepth, hmax]
    exact hc.depth_le
  · rw [hdepth, hpending]
    exact hc.pending

theorem WithinLimits.evaluate (hc : c.WithinLimits) (q : Query) :
    (c.evaluate host q).1.WithinLimits :=
  Leads.withinLimits hc (leads_evaluate q c)

theorem WithinLimits.settle (hc : c.WithinLimits) (contained : Bool) (source : String)
    (e : QueryError) : (c.settle contained source e).WithinLimits := by
  refine ⟨?_, fun hzero => ?_⟩
  · obtain ⟨hdepth, hmax⟩ := depth_of_limits (limits_settle (c := c) contained source e)
    rw [hdepth, hmax]
    exact hc.depth_le
  · rw [(depth_of_limits (limits_settle contained source e)).1] at hzero
    rw [Console.settle, if_neg (by simp [hzero])]
    exact hc.pending hzero

theorem WithinLimits.runSource (hc : c.WithinLimits) (contained : Bool) (source : String) :
    (c.runSource (runner host) contained source).1.WithinLimits := by
  unfold Console.runSource
  split
  · exact hc
  · rcases hparse : c.parse source with ⟨fault | q, c'⟩
    all_goals
      have hc' : c'.WithinLimits := hc.of_eq (limits_of_parse hparse) (pending_of_parse hparse)
    · rw [outcome, hparse]
      exact (hc'.of_eq limits_trim pending_trim).settle ..
    · have hend : (runner host q.text q c').1.WithinLimits := hc'.evaluate q
      rw [outcome, hparse]
      dsimp only
      rcases hrun : runner host q.text q c' with ⟨c'', e | passed⟩
      all_goals rw [hrun] at hend
      · exact (hend.of_eq limits_trim pending_trim).settle ..
      · exact hend.of_eq limits_trim pending_trim

end Console

/-! ### Handlers that only execute -/

/-- Whether the program runs queries only by executing them. -/
def Program.OnlyExecutes {γ : Type} : Program γ → Prop
  | .stop _ => True
  | .get k => ∀ w, (k w).OnlyExecutes
  | .put _ k => k.OnlyExecutes
  | .execute _ _ k => ∀ passed, (k passed).OnlyExecutes
  | .parse _ k => ∀ answer, (k answer).OnlyExecutes
  | .evaluate .. => False

namespace Program

variable {γ : Type}

@[simp] theorem onlyExecutes_stop (e : Ending) : (stop e : Program γ).OnlyExecutes := trivial

@[simp] theorem onlyExecutes_act (f : γ → γ × Ending) : (act f).OnlyExecutes := fun _ => trivial

theorem onlyExecutes_readQuery (source : String)
    (f : Workspace κ ε → Workspace κ ε × Ending) : (readQuery source f).OnlyExecutes := by
  intro answer
  cases answer <;> simp

theorem onlyExecutes_runLines (file : String) (failed : Nat) (lines : List String) :
    (runLines file failed lines : Program (Workspace κ ε)).OnlyExecutes := by
  induction lines generalizing failed with
  | nil => exact onlyExecutes_stop _
  | cons line lines ih => exact fun passed => ih _

theorem onlyExecutes_runScript (call : Call) :
    (runScript call : Program (Workspace κ ε)).OnlyExecutes := by
  unfold runScript
  split
  · exact onlyExecutes_stop _
  · intro w
    dsimp only
    split
    · exact onlyExecutes_stop _
    · exact onlyExecutes_runLines ..

/-- The console's own handlers run queries only by executing them. -/
theorem onlyExecutes_builtin (b : Builtin) (call : Call) :
    (b.program call : Program (Workspace κ ε)).OnlyExecutes := by
  cases b with
  | editAlias | editBind =>
    simp only [Builtin.program]
    split
    · simp
    · simp
    · exact onlyExecutes_readQuery _ _
  | runScript => exact onlyExecutes_runScript call
  | _ => exact onlyExecutes_act _

end Program

/-- Whether all programs of handlers in the moment run queries only by executing them. -/
structure Moment.OnlyExecutes (m : Moment κ ε) : Prop where
  handler : ∀ p, m.activity = .handler p → p.OnlyExecutes
  execute : ∀ contained source k, .execute contained source k ∈ m.waiting →
    ∀ passed, (k passed).OnlyExecutes
  evaluate : ∀ k, .evaluate k ∉ m.waiting

theorem Console.onlyExecutes_program (hhost : ∀ k call, (host.run k call).OnlyExecutes)
    (handler : Handler κ) (call : Call) : (Console.program host handler call).OnlyExecutes := by
  cases handler with
  | builtin b => exact Program.onlyExecutes_builtin b call
  | host k => exact hhost k call

theorem Step.onlyExecutes (hhost : ∀ k call, (host.run k call).OnlyExecutes) (h : Step host m m')
    (hm : m.OnlyExecutes) : m'.OnlyExecutes := by
  obtain ⟨hhandler, hexecute, hevaluate⟩ := hm
  cases h with
  | handle =>
    refine ⟨?_, by simpa using hexecute, by simpa using hevaluate⟩
    rintro p ⟨⟩
    exact Console.onlyExecutes_program hhost _ _
  | get | parse =>
    refine ⟨?_, hexecute, hevaluate⟩
    rintro p ⟨⟩
    exact hhandler _ rfl _
  | put =>
    have hput : (Program.put _ _).OnlyExecutes := hhandler _ rfl
    refine ⟨?_, hexecute, hevaluate⟩
    rintro p ⟨⟩
    exact hput
  | skip =>
    refine ⟨?_, hexecute, hevaluate⟩
    rintro p ⟨⟩
    exact hhandler _ rfl false
  | malformedSource | execute =>
    refine ⟨by simp, ?_, by simpa using hevaluate⟩
    intro contained source k hmem
    rcases List.mem_cons.1 hmem with heq | hmem
    · cases heq
      exact hhandler _ rfl
    · exact hexecute _ _ _ hmem
  | executed | settle =>
    refine ⟨?_, fun _ _ _ hmem => hexecute _ _ _ (List.mem_cons_of_mem _ hmem),
      fun k hmem => hevaluate k (List.mem_cons_of_mem _ hmem)⟩
    rintro p ⟨⟩
    exact hexecute _ _ _ List.mem_cons_self _
  | evaluate => exact (hhandler _ rfl).elim
  | evaluated => exact (hevaluate _ List.mem_cons_self).elim
  | _ => exact ⟨by simp, by simpa using hexecute, by simpa using hevaluate⟩

/-- What holds in the moments of a run that begins at the depth `d`, if handlers run queries only by
executing them. -/
structure Moment.Regular (d limit : Nat) (m : Moment κ ε) : Prop where
  ordered : m.Ordered .query
  counts : m.CountsFrom d limit
  onlyExecutes : m.OnlyExecutes

theorem Moment.regular_start (q : Query) (c : Console κ ε) :
    (Moment.start q c).Regular c.depth c.maxDepth :=
  ⟨rfl, rfl, ⟨by simp [Moment.start], by simp [Moment.start], by simp [Moment.start]⟩⟩

theorem Leads.regular {d limit : Nat} (hhost : ∀ k call, (host.run k call).OnlyExecutes)
    (h : Leads host m m') (hm : m.Regular d limit) : m'.Regular d limit := by
  induction h with
  | refl => exact hm
  | tail _ hstep ih =>
    exact ⟨hstep.ordered ih.ordered, hstep.countsFrom ih.counts,
      hstep.onlyExecutes hhost ih.onlyExecutes⟩

/-! ### The way out from a query that is too deep -/

theorem QueryError.within_of_isTooDeep {e : QueryError} (he : e.isTooDeep) (name body : String) :
    e.within name body = e := by
  cases e <;> first | rfl | cases he

/-- Inside a query a recursion limit is left pending even if it is contained. -/
theorem Console.settle_of_isTooDeep {c : Console κ ε} (h : 0 < c.depth) {e : QueryError}
    (he : e.isTooDeep) (contained : Bool) (source : String) :
    c.settle contained source e = { c with pending := some (source, e) } := by
  rw [settle, if_pos (by simp [h, he])]

/-- Whether the moment lies on the way out with the error: a query or an invocation has come to its
end with it, or it is pending in a handler. -/
def Moment.Aborts (e : QueryError) (m : Moment κ ε) : Prop :=
  m.activity = .ended (.error e) ∨ m.activity = .returned (.error e) ∨
    ∃ p source, m.activity = .handler p ∧ m.console.pending = some (source, e)

theorem Moment.Aborts.not_startsHandler {e : QueryError} (hm : m.Aborts e) : ¬ m.StartsHandler := by
  rintro ⟨call, handler, args, hcall, -⟩
  rcases hm with h | h | ⟨p, source, h, -⟩ <;> cases hcall.symm.trans h

/-- The way out is not left, and on it nothing but handlers changes the output. -/
theorem Step.aborts {e : QueryError} (he : e.isTooDeep) (h : Step host m m') {d limit : Nat}
    (hregular : m.Regular d limit) (hm : m.Aborts e) :
    m'.Aborts e ∧ ((∀ w p, m.activity ≠ .handler (.put w p)) →
      m'.console.output = m.console.output) := by
  have hwithin := QueryError.within_of_isTooDeep he
  cases h with
  | breakOff =>
    obtain rfl : _ = e := by simpa [Moment.Aborts] using hm
    exact ⟨.inl rfl, fun _ => rfl⟩
  | expanded =>
    obtain rfl : _ = Except.error e := by simpa [Moment.Aborts] using hm
    refine ⟨.inr (.inl ?_), fun _ => rfl⟩
    simp [Except.map, Except.mapError, hwithin]
  | assigned =>
    obtain rfl : _ = Except.error e := by simpa [Moment.Aborts] using hm
    exact ⟨.inr (.inl rfl), fun _ => rfl⟩
  | settle =>
    obtain rfl : _ = e := by simpa [Moment.Aborts] using hm
    have hlevel := level_pos_of_serves (.inr hregular.ordered.2)
    have hdepth := Moment.depth_pos hregular.counts (by simpa [Waiting.isQuery] using hlevel)
    rw [Console.trim_of_pos hdepth, Console.settle_of_isTooDeep hdepth he]
    exact ⟨.inr (.inr ⟨_, _, rfl, rfl⟩), fun _ => rfl⟩
  | get | parse | skip =>
    obtain ⟨source, hpending⟩ : ∃ source, _ = some (source, e) := by simpa [Moment.Aborts] using hm
    exact ⟨.inr (.inr ⟨_, source, rfl, hpending⟩), fun _ => rfl⟩
  | put =>
    obtain ⟨source, hpending⟩ : ∃ source, _ = some (source, e) := by simpa [Moment.Aborts] using hm
    exact ⟨.inr (.inr ⟨_, source, rfl, hpending⟩), fun hput => absurd rfl (hput _ _)⟩
  | malformedSource hnone | execute hnone => simp [Moment.Aborts, hnone] at hm
  | evaluate => exact (hregular.onlyExecutes.handler _ rfl).elim
  | evaluated => exact (hregular.onlyExecutes.evaluate _ List.mem_cons_self).elim
  | close =>
    obtain ⟨source, hpending⟩ : ∃ source, _ = some (source, e) := by simpa [Moment.Aborts] using hm
    rw [Console.close_of_pending hpending, hwithin]
    exact ⟨.inr (.inl rfl), fun _ => rfl⟩
  | _ => simp [Moment.Aborts] at hm

/-- After a query was too deep, a run is on the way out. -/
theorem Leads.aborts {q q' : Query} {c c' : Console κ ε} {name : String} {K : List (Waiting κ ε)}
    (hhost : ∀ k call, (host.run k call).OnlyExecutes)
    (hquery : Leads host (.start q c) ⟨.query name q', K, c'⟩) (hdeep : c'.maxDepth ≤ c'.depth)
    (h : Leads host ⟨.query name q', K, c'⟩ m) :
    m = ⟨.query name q', K, c'⟩ ∨ m.Regular c.depth c.maxDepth ∧
      m.Aborts (.tooDeep name c.maxDepth) := by
  have hregular := hquery.regular hhost (Moment.regular_start q c)
  have hmax : c'.maxDepth = c.maxDepth := congrArg Prod.snd hregular.counts
  induction h with
  | refl => exact .inl rfl
  | tail hleads hstep ih =>
    have hnext := Leads.regular hhost (hleads.tail hstep) hregular
    rcases ih with rfl | ⟨hbefore, haborts⟩
    · have hended : Step host ⟨.query name q', K, c'⟩ _ := .tooDeep hdeep
      rw [hended.unique hstep] at hnext ⊢
      exact .inr ⟨hnext, .inl (by rw [hmax])⟩
    · exact .inr ⟨hnext, (hstep.aborts rfl hbefore haborts).1⟩

/-- The report of a recursion limit is its message, in one line of output. -/
theorem Console.execute_of_tooDeep {source name : String} {limit : Nat} {q : Query}
    {c c₀ : Console κ ε} (hc : c.WithinLimits) (hzero : c.depth = 0)
    (hparse : c₀.parse source = (.ok q, c))
    (hanswer : (c.evaluate host q).2 = .error (.tooDeep name limit)) :
    c₀.execute host source = ((c.evaluate host q).1.trim.print .error
      (QueryError.tooDeep name limit).message, false) := by
  have hnone : c₀.pending = none := (pending_of_parse hparse).symm.trans (hc.pending hzero)
  have hdepth : (c.evaluate host q).1.trim.depth = 0 := by
    rw [(depth_of_limits limits_trim).1, evaluate, (depth_of_limits (keepsLimits_runner ..)).1,
      hzero]
  rw [evaluate] at hanswer hdepth ⊢
  rw [execute, runSource, hnone, outcome, hparse]
  rcases hrun : runner host q.text q c with ⟨c', answer⟩
  rw [hrun] at hanswer hdepth
  cases hanswer
  simp only [Option.isSome_none, Bool.false_eq_true, if_false, hrun]
  rw [settle, if_neg (by simp [hdepth])]
  rfl

/-- **Recursion is bounded, and a query that is too deep aborts everything at once.** Whatever runs
leaves the console as deep as it was, and in all moments of a run the console is within its limits;
at the greatest depth nothing runs. If handlers run queries only by executing them, then after a
query was too deep no handler starts, the console prints nothing until the outermost query has come
to its end with just this error, and then it prints one line. -/
theorem recursion_withinLimits {c : Console κ ε} (hc : c.WithinLimits) :
    (∀ q, (c.evaluate host q).1.depth = c.depth ∧ (c.evaluate host q).1.WithinLimits) ∧
    (∀ source, (c.execute host source).1.depth = c.depth ∧
      (c.execute host source).1.WithinLimits) ∧
    (∀ source, (c.executeLine host source).1.depth = c.depth ∧
      (c.executeLine host source).1.WithinLimits) ∧
    (∀ q m, Leads host (.start q c) m → m.console.WithinLimits ∧
      ∀ name q', m.activity = .query name q' → m.console.depth = m.console.maxDepth →
        Console.runner host name q' m.console =
          (m.console, .error (.tooDeep name m.console.maxDepth))) ∧
    ((∀ k call, (host.run k call).OnlyExecutes) → c.depth = 0 →
      ∀ q name q' K c', Leads host (.start q c) ⟨.query name q', K, c'⟩ → c'.depth = c'.maxDepth →
        (∀ m, Leads host ⟨.query name q', K, c'⟩ m → ¬ m.StartsHandler) ∧
        (∀ m m', Leads host ⟨.query name q', K, c'⟩ m → Step host m m' →
          (∀ w p, m.activity ≠ .handler (.put w p)) → m'.console.output = m.console.output) ∧
        (c.evaluate host q).2 = .error (.tooDeep name c.maxDepth) ∧
        ∀ (source : String) (c₀ : Console κ ε), c₀.parse source = (.ok q, c) →
          c₀.execute host source = ((c.evaluate host q).1.trim.print .error
            (QueryError.tooDeep name c.maxDepth).message, false)) := by
  refine ⟨fun q => ⟨?_, hc.evaluate q⟩, fun source => ⟨?_, hc.runSource false source⟩,
    fun source => ⟨?_, hc.runSource true source⟩, fun q m hm => ⟨hm.withinLimits hc, ?_⟩, ?_⟩
  · exact (Console.depth_of_limits (Console.keepsLimits_runner ..)).1
  · exact (Console.depth_of_limits (Console.limits_runSource Console.keepsLimits_runner ..)).1
  · exact (Console.depth_of_limits (Console.limits_runSource Console.keepsLimits_runner ..)).1
  · intro name q' _ hdeep
    exact Console.runner_of_le (Nat.le_of_eq hdeep.symm) name q'
  · intro hhost hzero q name q' K c' hquery hdeep
    have hle : c'.maxDepth ≤ c'.depth := Nat.le_of_eq hdeep.symm
    have hout : ∀ {m}, Leads host ⟨.query name q', K, c'⟩ m → _ := Leads.aborts hhost hquery hle
    have hanswer : (c.evaluate host q).2 = .error (.tooDeep name c.maxDepth) := by
      rcases hout hquery.leads_end with heq | ⟨-, haborts⟩
      · cases heq
      · simpa [Moment.Aborts] using haborts
    refine ⟨fun m hm => ?_, fun m m' hm hstep hput => ?_, hanswer, fun source c₀ hparse => ?_⟩
    · rcases hout hm with rfl | ⟨-, haborts⟩
      · simp [Moment.StartsHandler]
      · exact haborts.not_startsHandler
    · rcases hout hm with rfl | ⟨hregular, haborts⟩
      · rw [(Step.tooDeep hle).unique hstep]
      · exact (hstep.aborts rfl hregular haborts).2 hput
    · exact Console.execute_of_tooDeep hc hzero hparse hanswer

/-- A host with a handler that executes a line, which is an alias for the command of the handler. -/
def loopingHost : Host Bool (Workspace Bool Unit) :=
  .carryingOut (.execute true "go" fun _ => .stop .passed)

/-- A console in which two queries may run, one inside the other. -/
def shallowConsole : Console Bool Unit := { twoCommands with maxDepth := 2 }

/-- The body of the alias is too deep, by which the line, the handler and all are aborted. -/
theorem recursion_withinLimits_of_line :
    ∃ c, shallowConsole.WithinLimits ∧ (∀ k call, (loopingHost.run k call).OnlyExecutes) ∧
      Leads loopingHost (.start (.ofName "run") shallowConsole)
        ⟨.query "go" (.ofName "run"), [.expansion "go" "run", .rest false [.nil],
          .execute true "go" fun _ => .stop .passed, .command "run", .rest false [.nil]], c⟩ ∧
      c.depth = c.maxDepth ∧
      (shallowConsole.evaluate loopingHost (.ofName "run")).2 = .error (.tooDeep "go" 2) := by
  have hlimits : shallowConsole.WithinLimits := ⟨by decide, fun _ => rfl⟩
  have hhost : ∀ k call, (loopingHost.run k call).OnlyExecutes := by
    intro k call
    cases k with
    | false => exact Program.onlyExecutes_stop _
    | true => exact fun _ => Program.onlyExecutes_stop _
  have hleads : ∃ c, Leads loopingHost (.start (.ofName "run") shallowConsole)
      ⟨.query "go" (.ofName "run"), [.expansion "go" "run", .rest false [.nil],
        .execute true "go" fun _ => .stop .passed, .command "run", .rest false [.nil]], c⟩ := by
    constructor
    refine .head (.enter (by decide)) ?_
    refine .head (.command rfl) ?_
    refine .head (.handle (by decide) rfl rfl) ?_
    refine .head (.execute rfl (rfl : Console.parse _ _ = (.ok (.ofName "go"), _))) ?_
    refine .head (.enter (by decide)) ?_
    refine .head (.command rfl) ?_
    exact .single (.expand (by decide) (rfl : Console.target _ _ = .alias "run")
      (rfl : Console.parse _ _ = (.ok (.ofName "run"), _)))
  obtain ⟨c, hquery⟩ := hleads
  have hdeep : c.depth = c.maxDepth := by
    obtain ⟨hdepth, hmax⟩ := Prod.mk.inj (hquery.countsFrom (Moment.countsFrom_start _ _))
    exact hdepth.trans hmax.symm
  have hall := (recursion_withinLimits hlimits).2.2.2.2 hhost rfl
  exact ⟨c, hlimits, hhost, hquery, hdeep, (hall _ _ _ _ _ hquery hdeep).2.2.1⟩

end DevConsole
