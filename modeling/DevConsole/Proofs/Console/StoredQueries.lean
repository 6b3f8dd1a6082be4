import Mathlib.Data.List.Forall2
import DevConsole.Proofs.Command.Keys
import DevConsole.Proofs.Console.Assignment
import DevConsole.Proofs.Console.Reports

/-!
Queries that are stored. The commands for aliases and bindings put a query together again from the
arguments that they are called with, and store its text. Main statement: when that text is read back
and run, it calls the name that was given with just the arguments that were given, and does nothing
else.
-/

namespace DevConsole

open Grammar

/-! ### The text of a stored query -/

/-- What needs no quotes is plain. -/
theorem isPlain_of_not_needsQuoting {arg : String} (h : needsQuoting arg = false) :
    arg ≠ "" ∧ ∀ c ∈ arg.toList, isPlain c := by
  obtain ⟨hempty, hany⟩ := Bool.or_eq_false_iff.1 h
  refine ⟨by simpa using hempty, fun c hc => ?_⟩
  have hmarks := List.any_eq_false.1 hany c hc
  rcases class_cases c with rfl | hblank | ⟨link, hlink⟩ | rfl | rfl | rfl | rfl | rfl | hplain
  · simp at hmarks
  · simp [hblank] at hmarks
  · rcases link_cases hlink with rfl | rfl | rfl <;> simp at hmarks
  all_goals first | exact hplain | simp at hmarks

/-- The word that is written for an argument spells it. -/
theorem spells_argument (arg : String) :
    Spells (if needsQuoting arg then quote arg else arg) arg := by
  split
  · exact .quoted arg
  · next h =>
    obtain ⟨hne, hplain⟩ := isPlain_of_not_needsQuoting (Bool.not_eq_true _ ▸ h)
    exact .bare hne hplain

example : queryOf ["echo", "a b", "", "x", "\x7bnote\x7d"] =
    "echo \"a b\" \"\" x \"\\\x7bnote\x7d\"" := by decide

/-- A query put together from a name and arguments is read back as these. -/
theorem exists_parse_queryOf {name : String} (hne : name ≠ "")
    (hname : ∀ c ∈ name.toList, isPlain c) {args : List String} (hargs : args ≠ []) :
    ∃ call : Invocation, call.Passes name args ∧
      parse (queryOf (name :: args)) = .ok ⟨.command .always call .nil⟩ := by
  have hspells : List.Forall₂ Spells
      (args.map fun arg => if needsQuoting arg then quote arg else arg) args := by
    rw [List.forall₂_map_left_iff]
    exact List.forall₂_same.2 fun arg _ => spells_argument arg
  have hquery : queryOf (name :: args) = name ++ String.join
      ((args.map fun arg => if needsQuoting arg then quote arg else arg).map (" " ++ ·)) := by
    cases args with
    | nil => exact absurd rfl hargs
    | cons arg args => simp [queryOf, Function.comp_def]
  rw [hquery]
  exact exists_parse_of_spells hne hname hspells

section Run

variable {κ ε : Type} {host : Host κ (Workspace κ ε)} {run : Console.Runner κ ε}

namespace Console

variable {c d : Console κ ε}

/-! ### Storing it -/

theorem parse_of_faithful (hc : c.cache.Faithful) {source : String}
    {answer : Except SyntaxError Query} (hparse : DevConsole.parse source = answer) :
    c.parse source = (answer, (c.parse source).2) :=
  Prod.ext ((hc.get source).1.trans hparse) rfl

/-- A step behind the reading of a query is taken if the query has no fault. -/
theorem perform_readQuery (hc : c.cache.Faithful) {source : String} {q : Query}
    (hparse : DevConsole.parse source = .ok q)
    (f : Workspace κ ε → Workspace κ ε × Ending) :
    c.perform run (.readQuery source f) =
      ({ (c.parse source).2 with toWorkspace := (f c.toWorkspace).1 }, (f c.toWorkspace).2) := by
  rw [Program.readQuery, perform, parse_of_faithful hc hparse]
  rfl

/-- Whether the command for aliases, called with `args` behind the name, passes and leaves an alias
with the text `body`, and the rest of what matters to running it as it was. -/
def DefinesAlias (c : Console κ ε) (name : String) (args : List String) (body : String) : Prop :=
  ∀ (run : Runner κ ε) (called : String) (constant : Bool), ∃ d : Console κ ε,
    c.perform run (Builtin.editAlias.program ⟨called, name :: args, constant⟩) = (d, .passed) ∧
      d.aliases.find? name = some body ∧ d.cache.Faithful ∧ d.commands = c.commands ∧
      d.limits = c.limits

/-- Whether the command for bindings, called with `args` behind the key, passes and binds the key to
`body`. -/
def DefinesKey (c : Console κ ε) (key : String) (args : List String) (body : String) : Prop :=
  ∀ (run : Runner κ ε) (called : String) (constant : Bool), ∃ d : Console κ ε,
    c.perform run (Builtin.editBind.program ⟨called, key :: args, constant⟩) = (d, .passed) ∧
      d.binds.queryFor? key = some body ∧ d.cache.Faithful ∧ d.limits = c.limits ∧
      d.pending = c.pending

theorem definesAlias_of_parse (hc : c.cache.Faithful) {other name : String}
    (hother : Text.isValidPairedName other = true) {args : List String} {q : Query}
    (hparse : DevConsole.parse (queryOf (name :: args)) = .ok q) :
    c.DefinesAlias other (name :: args) (queryOf (name :: args)) := by
  intro run called constant
  have hset : c.aliases.set other (queryOf (name :: args)) = .ok (c.aliases.find? other,
      ⟨c.aliases.byName.insert other (queryOf (name :: args))⟩) := if_pos hother
  refine ⟨_, (perform_readQuery hc hparse _).trans (Prod.ext rfl ?_), ?_, (hc.get _).2, ?_, rfl⟩
  all_goals simp only [Workspace.defineAlias, hset]
  · simp [Workspace.noteEdit, Aliases.find?, NameMap.find?_insert]
  · rfl

theorem definesKey_of_parse (hc : c.cache.Faithful) (key : String) {name : String}
    {args : List String} {q : Query}
    (hparse : DevConsole.parse (queryOf (name :: args)) = .ok q) :
    c.DefinesKey key (name :: args) (queryOf (name :: args)) := by
  intro run called constant
  refine ⟨_, perform_readQuery hc hparse _, ?_, (hc.get _).2, rfl, rfl⟩
  simp [Workspace.defineBind, Workspace.noteEdit, Binds.queryFor?, Binds.byKey_bind]

/-! ### Running it -/

/-- Whether `d` is the console `c` at the first clause of one more query: only output, the cache and
the number of steps may be other ones. -/
structure Entered (c d : Console κ ε) : Prop where
  holdings : d.holdings = c.holdings
  limits : d.limits = (c.depth + 1, c.maxDepth)
  pending : d.pending = c.pending

theorem entered_countStep (h : d.holdings = c.holdings) (hlimits : d.limits = c.limits)
    (hpending : d.pending = c.pending) : c.Entered d.enter.countStep where
  holdings := by rw [holdings_countStep, holdings_enter, h]
  limits := by
    rw [limits_countStep]
    exact limits_enter hlimits
  pending := by rw [pending_countStep, pending_enter, hpending]

theorem depth_lt_of_limits (hlimits : d.limits = c.limits) (h : c.depth < c.maxDepth) :
    d.depth < d.maxDepth := by
  obtain ⟨hdepth, hmax⟩ := depth_of_limits hlimits
  rwa [hdepth, hmax]

/-- Whether the alias `name`, which stands for `body`, does no more than to perform an invocation. -/
def AliasPerforms (host : Host κ (Workspace κ ε)) (c : Console κ ε) (name body : String)
    (inner : Invocation) : Prop :=
  ∀ call : Invocation, call.name = name → ∃ d, c.Entered d ∧
    c.invoke host (runner host) call =
      let (e, answer) := d.invoke host (runner host) inner
      (e.leave, answer.mapError (·.within name body))

/-- Whether a key that is bound to `body` does no more than to perform an invocation. -/
def KeyPerforms (host : Host κ (Workspace κ ε)) (c : Console κ ε) (key body : String)
    (inner : Invocation) : Prop :=
  ∃ d, c.Entered d ∧ c.press host key =
    match d.invoke host (runner host) inner with
    | (e, .ok failed) => (e.leave.trim, !failed)
    | (e, .error reason) => (e.leave.trim.settle false body reason, false)

/-- A query of one command, run inside those that are running, does no more than this command. -/
theorem runner_ofCommand (hdepth : c.depth < c.maxDepth) (name : String) (call : Invocation) :
    runner host name ⟨.command .always call .nil⟩ c =
      let (e, answer) := c.enter.countStep.invoke host (runner host) call
      (e.leave, answer.map (!·)) := by
  rw [runner_of_lt hdepth, run_ofCommand]

theorem aliasPerforms_of_parse (hc : c.cache.Faithful) (hdepth : c.depth < c.maxDepth)
    {name body : String} (hname : name ≠ "") (hcommand : c.commands.find? name = none)
    (halias : c.aliases.find? name = some body) {inner : Invocation}
    (hparse : DevConsole.parse body = .ok ⟨.command .always inner .nil⟩) :
    c.AliasPerforms host name body inner := by
  rintro call rfl
  have hcache : (c.warnArguments call).cache.Faithful := by rwa [cache_warnArguments]
  have htarget : c.target call.name = .alias body := by rw [target, hcommand, halias]
  have hlimits := (c.warnArguments call).limits_parse body
  rw [limits_warnArguments] at hlimits
  have hdepth' := depth_lt_of_limits hlimits hdepth
  refine ⟨_, entered_countStep (d := ((c.warnArguments call).parse body).2)
    (holdings_warnArguments call) hlimits (pending_warnArguments call), ?_⟩
  rw [invoke, if_neg (by simpa using hname), htarget]
  simp only [invokeAlias]
  rw [parse_of_faithful hcache hparse]
  simp only [runner_ofCommand hdepth']
  rcases invoke host (runner host) inner _ with ⟨e, reason | failed⟩
  · rfl
  · simp [Except.map, Except.mapError]

theorem keyPerforms_of_parse (hc : c.cache.Faithful) (hdepth : c.depth < c.maxDepth)
    (hpending : c.pending = none) {key body : String} (hbind : c.binds.queryFor? key = some body)
    {inner : Invocation}
    (hparse : DevConsole.parse body = .ok ⟨.command .always inner .nil⟩) :
    c.KeyPerforms host key body inner := by
  refine ⟨_, entered_countStep (d := (c.parse body).2) rfl rfl rfl, ?_⟩
  have hnone : ¬ c.pending.isSome := by simp [hpending]
  simp only [press, hbind, execute, runSource, if_neg hnone, outcome]
  rw [parse_of_faithful hc hparse]
  have hdepth' : (c.parse body).2.depth < (c.parse body).2.maxDepth := hdepth
  simp only [runner_ofCommand hdepth']
  rcases invoke host (runner host) inner _ with ⟨e, reason | failed⟩ <;> rfl

/-- What is passed to a command does not depend on the console. -/
theorem invoke_of_passes {call : Invocation} {name : String} {args : List String}
    (hcall : call.Passes name args) (hname : name ≠ "") {handler : Handler κ}
    (htarget : c.target name = .command handler) :
    c.invoke host run call =
      let (d, ending) := c.perform run (program host handler ⟨name, args, true⟩)
      d.close name ending := by
  obtain ⟨rfl, -, hconstant, hresolve⟩ := hcall
  have hall : allConstant call.args = true := List.all_eq_true.2 hconstant
  rw [invoke_of_command hname htarget]
  simp only [invokeCommand, hresolve, hall]

/-- **A stored query does what it was made of.** Let the command for aliases, or the one for
bindings, be called with a plain name and any arguments for it behind the alias or the key. The text
that it stores is read as one command, which passes just these arguments to the name, whatever the
variables are. The handler passes and stores this text; and wherever it is stored, the alias, if
there is no command of its name, and the key perform this one invocation and nothing else. All that
is asked of the console is room for one more query, and of its cache that it holds sources with
their own queries, as every cache does that begins empty. -/
theorem performs_stored (host : Host κ (Workspace κ ε)) {name : String} (hne : name ≠ "")
    (hname : ∀ c ∈ name.toList, isPlain c) {args : List String} (hargs : args ≠ []) :
    ∃ inner : Invocation, inner.Passes name args ∧
      DevConsole.parse (queryOf (name :: args)) = .ok ⟨.command .always inner .nil⟩ ∧
      (∀ (c : Console κ ε) (run : Runner κ ε) (handler : Handler κ),
        c.target name = .command handler →
        c.invoke host run inner =
          let (d, ending) := c.perform run (program host handler ⟨name, args, true⟩)
          d.close name ending) ∧
      ∀ c : Console κ ε, c.cache.Faithful →
        (∀ other, Text.isValidPairedName other = true →
          c.DefinesAlias other (name :: args) (queryOf (name :: args)) ∧
          (c.aliases.find? other = some (queryOf (name :: args)) →
            c.commands.find? other = none → c.depth < c.maxDepth →
            c.AliasPerforms host other (queryOf (name :: args)) inner)) ∧
        ∀ key,
          c.DefinesKey key (name :: args) (queryOf (name :: args)) ∧
          (c.binds.queryFor? key = some (queryOf (name :: args)) →
            c.pending = none → c.depth < c.maxDepth →
            c.KeyPerforms host key (queryOf (name :: args)) inner) := by
  obtain ⟨inner, hpasses, hparse⟩ := exists_parse_queryOf hne hname hargs
  refine ⟨inner, hpasses, hparse, fun c run handler => invoke_of_passes hpasses hne,
    fun c hc => ⟨fun other hother => ⟨definesAlias_of_parse hc hother hparse, ?_⟩,
      fun key => ⟨definesKey_of_parse hc key hparse, ?_⟩⟩⟩
  · have hother' : other ≠ "" := by
      rintro rfl
      cases hother
    exact fun halias hcommand hdepth =>
      aliasPerforms_of_parse hc hdepth hother' hcommand halias hparse
  · exact fun hbind hpending hdepth => keyPerforms_of_parse hc hdepth hpending hbind hparse

/-- An alias for a command whose arguments are a text with a blank, the empty text and what would be
a reference. -/
theorem performs_stored_notebook : ∃ (inner : Invocation) (d : Console Unit Unit),
    inner.Passes "echo" ["a b", "", "\x7bnote\x7d"] ∧
    notebook.perform (runner idleHost) (Builtin.editAlias.program
      ⟨"alias", ["say", "echo", "a b", "", "\x7bnote\x7d"], true⟩) = (d, .passed) ∧
    d.AliasPerforms idleHost "say" (queryOf ["echo", "a b", "", "\x7bnote\x7d"]) inner := by
  have hne : "echo" ≠ "" := by decide
  have hname : ∀ c ∈ "echo".toList, isPlain c := List.all_eq_true.1 rfl
  have hargs : ["a b", "", "\x7bnote\x7d"] ≠ [] := by decide
  obtain ⟨inner, hpasses, -, -, hstored⟩ := performs_stored idleHost hne hname hargs
  obtain ⟨hdefined, -⟩ := (hstored notebook (.empty 256)).1 "say" (by decide)
  obtain ⟨d, hperform, halias, hcache, hcommands, hlimits⟩ :=
    hdefined (runner idleHost) "alias" true
  obtain ⟨-, hruns⟩ := (hstored d hcache).1 "say" (by decide)
  have hcommand : d.commands.find? "say" = none := by
    rw [hcommands]
    rfl
  have hdepth : notebook.depth < notebook.maxDepth := by decide
  exact ⟨inner, d, hpasses, hperform,
    hruns halias hcommand (depth_lt_of_limits hlimits hdepth)⟩

end Console

end Run

end DevConsole
