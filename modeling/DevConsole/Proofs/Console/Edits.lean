import DevConsole.Proofs.Command.Pairs
import DevConsole.Proofs.Console.Simulation
import DevConsole.Proofs.Variable.History

/-!
Edits of the workspace. The console's own commands change the workspace by a few kinds of edits.
Main statement: on a console that has no other commands, the workspace in any moment of a run comes
by such edits from the one at the beginning.
-/

namespace DevConsole

open Relation

variable {κ ε : Type}

/-! ### Edits -/

namespace Workspace

/-- `Edit may w w'` says that one edit makes `w` into `w'`, where users' variables are removed only
if `may` holds of their names. -/
inductive Edit (may : String → Prop) : Workspace κ ε → Workspace κ ε → Prop
  | print {w : Workspace κ ε} (level : Level) (message : String) :
    Edit may w (w.print level message)
  | keepChanges {w : Workspace κ ε} : Edit may w w.keepChanges
  -- variables
  | assign {w : Workspace κ ε} (name raw : String) : Edit may w (w.assign name raw true).1
  | reset {w : Workspace κ ε} (name : String) : Edit may w (w.reset name true).1
  | declare {w : Workspace κ ε} {vars : Store (World ε)} (name : String) {k : Kind}
      (value : k.Value) :
    w.vars.declare (.ofDefault name value) = .ok vars → Edit may w { w with vars }
  | undeclare {w : Workspace κ ε} {vars : Store (World ε)} {name : String} :
    may name → w.vars.remove name = .ok vars → Edit may w { w with vars }
  -- aliases and bindings
  | defineAlias {w : Workspace κ ε} {name body : String} {former : Option String}
      {aliases : Aliases} :
    w.aliases.set name body = .ok (former, aliases) →
    Edit may w ({ w with aliases }.noteEdit name body)
  | removeAliases {w : Workspace κ ε} {name : String} {removed : List String} {aliases : Aliases} :
    w.aliases.removePaired name = .ok (removed, aliases) →
    Edit may w (removed.foldl (fun w name => w.noteEdit name "") { w with aliases })
  | bind {w : Workspace κ ε} (key query : String) :
    Edit may w ({ w with binds := (w.binds.bind key query).2 }.noteEdit key query)
  | unbind {w : Workspace κ ε} {key query : String} {binds : Binds} :
    w.binds.unbind key = (some query, binds) → Edit may w ({ w with binds }.noteEdit key "")
  | clearBinds {w : Workspace κ ε} :
    Edit may w ({ w with binds := {} }.noteEdit "unbind_all" "")
  -- files
  | save {w : Workspace κ ε} (path : String) : Edit may w (w.save path).1

/-- `Edits may w w'` says that edits, one after the other, make `w` into `w'`. -/
abbrev Edits (may : String → Prop) : Workspace κ ε → Workspace κ ε → Prop :=
  ReflTransGen (Edit may)

variable {may : String → Prop} {w w' : Workspace κ ε}

/-- What a step may end with that began on `w`: one that passes has edited the workspace, one that
refuses leaves it as it is, and one breaks off only where a listener may panic. -/
inductive Ends (may : String → Prop) (w : Workspace κ ε) : Workspace κ ε × Ending → Prop
  | passed {w' : Workspace κ ε} : Edits may w w' → Ends may w (w', .passed)
  | refused (e : CommandError) : Ends may w (w, .refused e)
  | panicked {w' : Workspace κ ε} (p : Panic) :
    ¬ w.vars.Calm → Edits may w w' → Ends may w (w', .panicked p)

theorem Ends.edits {r : Workspace κ ε × Ending} (h : w.Ends may r) : Edits may w r.1 := by
  cases h with
  | passed hedits => exact hedits
  | refused => exact .refl
  | panicked _ _ hedits => exact hedits

/-! ### What commands do in one step -/

theorem edits_print (level : Level) (message : String) : Edits may w (w.print level message) :=
  .single (.print level message)

theorem edits_printAll (messages : List String) : Edits may w (w.printAll messages) := by
  unfold printAll
  induction messages generalizing w with
  | nil => exact .refl
  | cons message messages ih => exact .head (.print ..) ih

theorem edits_printCounted (lines : List String) (what : String) :
    Edits may w (w.printCounted lines what) :=
  (edits_printAll lines).tail (.print ..)

theorem ends_withArg {call : Call} {index : Nat} {arguments : String}
    {f : String → Workspace κ ε → Workspace κ ε × Ending}
    (h : ∀ value, call.get? index = some value → w.Ends may (f value w)) :
    w.Ends may (withArg call index arguments f w) := by
  unfold withArg Call.require
  rcases hvalue : call.get? index with _ | value
  · exact .refused _
  · exact h value hvalue

theorem edits_of_assign {name raw : String} {answer : Except AssignError Assigned}
    (h : w.assign name raw true = (w', answer)) : Edits may w w' := by
  have hassign : Edit may w _ := .assign name raw
  rw [h] at hassign
  exact .single hassign

theorem edits_of_reset {name : String} {answer : Except AssignError Assigned}
    (h : w.reset name true = (w', answer)) : Edits may w w' := by
  have hreset : Edit may w _ := .reset name
  rw [h] at hreset
  exact .single hreset

theorem edits_of_save {path : String} {answer : Except ConfigError Unit}
    (h : w.save path = (w', answer)) : Edits may w w' := by
  have hsave : Edit may w _ := .save path
  rw [h] at hsave
  exact .single hsave

/-- An assignment that comes to no end is refused and changes nothing, or a listener panicked. -/
theorem ends_of_run {a : Assignment} {e : AssignError}
    (hedits : Edits may w
      { w with vars := (a.run w.vars w.world).1, world := (a.run w.vars w.world).2.1 })
    (h : (a.run w.vars w.world).2.2 = .error e) :
    w.Ends may ({ w with vars := (a.run w.vars w.world).1, world := (a.run w.vars w.world).2.1 },
      .ofAssignError e) := by
  rcases a.run_cases w.vars w.world with
    ⟨reason, -, hrun⟩ | ⟨before, value, -, ⟨-, hrun⟩ | ⟨-, hrun⟩⟩
  · rw [hrun] at h ⊢
    cases h
    exact .refused _
  · rw [hrun] at h
    cases h
  · rw [hrun] at h hedits ⊢
    obtain ⟨p, rfl, hcalm⟩ := Store.panicked_of_commit h
    exact .panicked p hcalm hedits

theorem ends_of_assign {name raw : String} {e : AssignError}
    (h : w.assign name raw true = (w', .error e)) : w.Ends may (w', .ofAssignError e) := by
  have hedits : Edits may w w' := edits_of_assign h
  obtain ⟨rfl, herror⟩ := Prod.mk.inj h
  exact ends_of_run (a := .set name raw true) hedits herror

theorem ends_of_reset {name : String} {e : AssignError}
    (h : w.reset name true = (w', .error e)) : w.Ends may (w', .ofAssignError e) := by
  have hedits : Edits may w w' := edits_of_reset h
  obtain ⟨rfl, herror⟩ := Prod.mk.inj h
  exact ends_of_run (a := .reset name true) hedits herror

theorem ends_runAssign (call : Call) : w.Ends may (runAssign call w) := by
  refine ends_withArg fun name _ => ?_
  split
  · exact .refused _
  · split
    · next h => exact .passed (edits_of_assign h)
    · next h => exact .passed ((edits_of_assign h).tail (.print ..))
    · next h => exact ends_of_assign h

theorem ends_runDeclare (call : Call) : w.Ends may (runDeclare call w) := by
  refine ends_withArg fun name _ => ?_
  dsimp only
  split
  · exact .refused _
  · split
    · next hdeclare => exact .passed (.single (.declare name _ hdeclare))
    · exact .refused _

theorem ends_runUndeclare (call : Call) (h : ∀ name, call.get? 0 = some name → may name) :
    w.Ends may (runUndeclare call w) := by
  refine ends_withArg fun name hname => ?_
  split
  · next hremove => exact .passed (.single (.undeclare (h name hname) hremove))
  · exact .refused _

theorem ends_runToggle (call : Call) : w.Ends may (runToggle call w) := by
  refine ends_withArg fun name _ => ?_
  dsimp only
  split
  · exact .refused _
  · split
    · exact .refused _
    · split
      · next h => exact .passed ((edits_of_assign h).tail (.print ..))
      · next h => exact ends_of_assign h

theorem ends_runReset (call : Call) : w.Ends may (runReset call w) := by
  refine ends_withArg fun name _ => ?_
  split
  · next h => exact .passed ((edits_of_reset h).tail (.print ..))
  · next h => exact ends_of_reset h

theorem ends_runEcho (call : Call) : w.Ends may (runEcho call w) := .passed (edits_print ..)

theorem ends_runListVariables (call : Call) : w.Ends may (runListVariables call w) :=
  .passed (edits_printCounted ..)

theorem ends_runListCommands (call : Call) : w.Ends may (runListCommands call w) :=
  .passed (edits_printCounted ..)

theorem ends_runHelp (call : Call) : w.Ends may (runHelp call w) := by
  unfold runHelp
  split
  · exact .passed (edits_printAll _)
  · split
    · exact .passed (edits_printAll _)
    · exact .refused _

theorem ends_runFind (call : Call) : w.Ends may (runFind call w) :=
  ends_withArg fun _ _ => .passed (edits_printCounted ..)

theorem ends_runDifferences : w.Ends may (runDifferences w) := by
  unfold runDifferences
  dsimp only
  split
  · exact .passed (edits_print ..)
  · exact .passed (edits_printCounted ..)

theorem ends_listAliases : w.Ends may (listAliases w) := by
  unfold listAliases
  split
  · exact .passed (edits_print ..)
  · exact .passed (edits_printAll _)

theorem ends_showAlias (name : String) : w.Ends may (showAlias name w) := by
  unfold showAlias
  split
  · exact .passed (edits_print ..)
  · exact .refused _

theorem ends_defineAlias (name body : String) : w.Ends may (defineAlias name body w) := by
  unfold defineAlias
  split
  · next hset => exact .passed (.single (.defineAlias hset))
  · exact .refused _

theorem ends_runRemoveAlias (call : Call) : w.Ends may (runRemoveAlias call w) := by
  refine ends_withArg fun name _ => ?_
  dsimp only
  split
  · exact .refused _
  · next hremove => exact .passed (.tail (.single (.removeAliases hremove)) (.print ..))

theorem ends_showBind (key : String) : w.Ends may (showBind key w) := by
  unfold showBind
  split
  · exact .passed (edits_print ..)
  · exact .refused _

theorem ends_defineBind (key query : String) : w.Ends may (defineBind key query w) :=
  .passed (.single (.bind key query))

theorem ends_runRemoveBind (call : Call) : w.Ends may (runRemoveBind call w) := by
  refine ends_withArg fun key _ => ?_
  split
  · exact .refused _
  · next hunbind => exact .passed (.single (.unbind hunbind))

theorem ends_runClearBinds : w.Ends may (runClearBinds w) := by
  unfold runClearBinds
  split
  · exact .passed .refl
  · exact .passed (.single .clearBinds)

/-- Saving does not end in that way: when it is refused, directories may have been made. -/
theorem edits_runSaveConfig (path : String) (call : Call) :
    Edits may w (runSaveConfig path call w).1 := by
  unfold runSaveConfig
  dsimp only
  split
  · next h => exact (edits_of_save h).tail (.print ..)
  · next h => exact edits_of_save h

end Workspace

/-! ### Programs that only edit -/

namespace Program

variable {may : String → Prop}

/-- Whether the program changes the workspace only by edits, when it starts on `w`. While a query
runs, the workspace may become any other one. -/
def Edits (may : String → Prop) : Program (Workspace κ ε) → Workspace κ ε → Prop
  | stop _, _ => True
  | get k, w => (k w).Edits may w
  | put w' p, w => w.Edits may w' ∧ p.Edits may w'
  | execute _ _ k, _ => ∀ passed w, (k passed).Edits may w
  | parse _ k, w => ∀ answer, (k answer).Edits may w
  | evaluate _ k, _ => ∀ answer w, (k answer).Edits may w

theorem edits_act {f : Workspace κ ε → Workspace κ ε × Ending} {w : Workspace κ ε}
    (h : w.Edits may (f w).1) : (act f).Edits may w := ⟨h, trivial⟩

theorem edits_readQuery {f : Workspace κ ε → Workspace κ ε × Ending} {w : Workspace κ ε}
    (source : String) (h : w.Edits may (f w).1) : (readQuery source f).Edits may w := by
  rintro (e | q)
  · trivial
  · exact edits_act h

theorem edits_runLines (file : String) (lines : List String) (failed : Nat) (w : Workspace κ ε) :
    (runLines file failed lines).Edits may w := by
  induction lines generalizing failed w with
  | nil => trivial
  | cons line lines ih => exact fun passed w => ih _ w

theorem edits_runScript (call : Call) (w : Workspace κ ε) :
    (runScript call).Edits may w := by
  unfold runScript
  split
  · trivial
  · rw [Program.Edits]
    split
    · trivial
    · exact edits_runLines ..

end Program

/-- Whether all that the program does is one step, which may come after the reading of a query. -/
inductive Program.TakesStep (may : String → Prop) : Program (Workspace κ ε) → Prop
  | refuse (e : CommandError) : TakesStep may (.stop (.refused e))
  | act {f : Workspace κ ε → Workspace κ ε × Ending} :
    (∀ w : Workspace κ ε, w.Ends may (f w)) → TakesStep may (.act f)
  | readQuery (source : String) {f : Workspace κ ε → Workspace κ ε × Ending} :
    (∀ w : Workspace κ ε, w.Ends may (f w)) → TakesStep may (.readQuery source f)

theorem Program.TakesStep.edits {may : String → Prop} {p : Program (Workspace κ ε)}
    (h : p.TakesStep may) (w : Workspace κ ε) : p.Edits may w := by
  cases h with
  | refuse => trivial
  | act hf => exact edits_act (hf w).edits
  | readQuery source hf => exact edits_readQuery source (hf w).edits

namespace Builtin

/-- The console's own commands that work on no files. -/
def isCore : Builtin → Bool
  | saveConfig _ | runScript => false
  | _ => true

/-- The handlers of the core commands take one step. -/
theorem takesStep_program {may : String → Prop} {b : Builtin} (hb : b.isCore = true) (call : Call)
    (h : b = .undeclare → ∀ name, call.get? 0 = some name → may name) :
    (b.program call : Program (Workspace κ ε)).TakesStep may := by
  cases b with
  | assign => exact .act fun _ => Workspace.ends_runAssign call
  | echo => exact .act fun _ => Workspace.ends_runEcho call
  | editAlias =>
    unfold program
    dsimp only
    split
    · exact .act fun _ => Workspace.ends_listAliases
    · exact .act fun _ => Workspace.ends_showAlias _
    · exact .readQuery _ fun _ => Workspace.ends_defineAlias ..
  | removeAlias => exact .act fun _ => Workspace.ends_runRemoveAlias call
  | declare => exact .act fun _ => Workspace.ends_runDeclare call
  | undeclare => exact .act fun _ => Workspace.ends_runUndeclare call (h rfl)
  | toggle => exact .act fun _ => Workspace.ends_runToggle call
  | reset => exact .act fun _ => Workspace.ends_runReset call
  | listVariables => exact .act fun _ => Workspace.ends_runListVariables call
  | listCommands => exact .act fun _ => Workspace.ends_runListCommands call
  | help => exact .act fun _ => Workspace.ends_runHelp call
  | find => exact .act fun _ => Workspace.ends_runFind call
  | differences => exact .act fun _ => Workspace.ends_runDifferences
  | editBind =>
    unfold program
    dsimp only
    split
    · exact .refuse _
    · exact .act fun _ => Workspace.ends_showBind _
    · exact .readQuery _ fun _ => Workspace.ends_defineBind ..
  | removeBind => exact .act fun _ => Workspace.ends_runRemoveBind call
  | clearBinds => exact .act fun _ => Workspace.ends_runClearBinds
  | saveConfig | runScript => cases hb

/-- **The console's own commands only edit the workspace**, and undeclare no variable but the one
that they are told to. -/
theorem edits_program {may : String → Prop} (b : Builtin) (call : Call) (w : Workspace κ ε)
    (h : b = .undeclare → ∀ name, call.get? 0 = some name → may name) :
    (b.program call).Edits may w := by
  by_cases hb : b.isCore = true
  · exact (takesStep_program hb call h).edits w
  · cases b with
    | saveConfig path => exact Program.edits_act (Workspace.edits_runSaveConfig path call)
    | runScript => exact Program.edits_runScript call w
    | _ => exact absurd rfl hb

end Builtin

/-! ### Consoles without other commands -/

/-- Whether all commands are run by the console's own handlers. -/
def Workspace.OnlyBuiltins (w : Workspace κ ε) : Prop :=
  ∀ name command, w.commands.find? name = some command → ∃ b, command.handler = .builtin b

namespace Workspace

variable {may : String → Prop} {w w' : Workspace κ ε}

@[simp] theorem commands_noteEdit (name text : String) :
    (w.noteEdit name text).commands = w.commands := rfl

theorem commands_noteEdits (names : List String) :
    (names.foldl (fun w name => w.noteEdit name "") w).commands = w.commands := by
  induction names generalizing w with
  | nil => rfl
  | cons name names ih => exact ih

/-- No edit adds or removes a command. -/
theorem Edit.commands_eq (h : Edit may w w') : w'.commands = w.commands := by
  cases h with
  | removeAliases h => exact commands_noteEdits _
  | _ => rfl

theorem Edits.commands_eq (h : w.Edits may w') : w'.commands = w.commands := by
  induction h with
  | refl => rfl
  | tail _ hedit ih => exact hedit.commands_eq.trans ih

theorem onlyBuiltins_registerBuiltins (hw : w.OnlyBuiltins)
    (commands : List (String × Builtin × String)) : (w.registerBuiltins commands).OnlyBuiltins := by
  unfold registerBuiltins
  dsimp only
  induction commands generalizing w with
  | nil => exact hw
  | cons command commands ih =>
    let added : Command (Handler κ) :=
      { name := command.1, handler := .builtin command.2.1, description := command.2.2 }
    have hadded : { w with commands := (w.commands.insert added).2 }.OnlyBuiltins :=
      Commands.forall_handler_insert (P := fun handler : Handler κ => ∃ b, handler = .builtin b)
        hw ⟨command.2.1, rfl⟩
    exact ih hadded

theorem OnlyBuiltins.of_edits (hw : w.OnlyBuiltins) (h : w.Edits may w') : w'.OnlyBuiltins := by
  rw [OnlyBuiltins, h.commands_eq]
  exact hw

end Workspace

namespace Console

variable {may : String → Prop} {c c' : Console κ ε}

theorem edits_print (level : Level) (message : String) :
    c.toWorkspace.Edits may (c.print level message).toWorkspace :=
  Workspace.edits_print level message

theorem edits_report (e : InvocationError) : c.toWorkspace.Edits may (c.report e).toWorkspace :=
  edits_print ..

theorem edits_countStep : c.toWorkspace.Edits may c.countStep.toWorkspace := by
  unfold countStep
  dsimp only
  split
  · exact Workspace.edits_print ..
  · exact .refl

theorem edits_warnArguments (call : Invocation) :
    c.toWorkspace.Edits may (c.warnArguments call).toWorkspace := by
  unfold warnArguments
  split
  · exact .refl
  · exact edits_print ..

theorem edits_trim : c.toWorkspace.Edits may c.trim.toWorkspace := by
  unfold trim
  split
  · exact .single .keepChanges
  · exact .refl

theorem edits_settle (contained : Bool) (source : String) (e : QueryError) :
    c.toWorkspace.Edits may (c.settle contained source e).toWorkspace := by
  unfold settle
  split
  · exact .refl
  · exact edits_print ..

theorem edits_close (name : String) (ending : Ending) :
    c.toWorkspace.Edits may (c.close name ending).1.toWorkspace := by
  unfold close
  split
  · exact .refl
  · exact .refl
  · exact edits_report _
  · exact edits_report _

theorem toWorkspace_of_parse {source : String} {answer : Except SyntaxError Query}
    (h : c.parse source = (answer, c')) : c'.toWorkspace = c.toWorkspace := by
  obtain rfl : (c.parse source).2 = c' := by rw [h]
  rfl

/-- A command of such a console is run by one of its own handlers. -/
theorem exists_builtin (hc : c.OnlyBuiltins) {name : String} {handler : Handler κ}
    (h : c.target name = .command handler) : ∃ b, handler = .builtin b := by
  unfold target at h
  split at h
  · next command hcommand =>
    cases h
    exact hc name command hcommand
  · cases h
  · split at h <;> cases h

end Console

/-! ### Runs -/

/-- Whether the variable of that name is about to be undeclared. -/
def Moment.Undeclares (m : Moment κ ε) (name : String) : Prop :=
  ∃ call args, m.activity = .invocation call ∧ call.name ≠ "" ∧
    m.console.target call.name = .command (.builtin .undeclare) ∧
    resolveAll m.console.vars.text? call.args = .ok (name :: args)

/-- Whether what waits only edits the workspace when it goes on. -/
def Waiting.Edits (may : String → Prop) : Waiting κ ε → Prop
  | .execute _ _ k => ∀ passed w, (k passed).Edits may w
  | .evaluate k => ∀ answer w, (k answer).Edits may w
  | _ => True

/-- Whether a handler that goes on does so by edits of the workspace. -/
def Activity.Edits (may : String → Prop) (w : Workspace κ ε) : Activity κ ε → Prop
  | .handler p => p.Edits may w
  | _ => True

/-- Whether the console has no other commands than its own and all that goes on only edits its
workspace. -/
structure Moment.Edits (may : String → Prop) (m : Moment κ ε) : Prop where
  commands : m.console.OnlyBuiltins
  activity : m.activity.Edits may m.console.toWorkspace
  waiting : ∀ x ∈ m.waiting, x.Edits may

variable {host : Host κ (Workspace κ ε)} {may : String → Prop} {m m' : Moment κ ε}

theorem Step.edits (h : Step host m m') (hm : m.activity.Edits may m.console.toWorkspace) :
    m.console.toWorkspace.Edits may m'.console.toWorkspace := by
  cases h with
  | group | command => exact Console.edits_countStep
  | missingName | notFound => exact Console.edits_report _
  | tell => exact Console.edits_print ..
  | malformedBody _ _ hparse | expand _ _ hparse =>
    rw [Console.toWorkspace_of_parse hparse]
    exact Console.edits_warnArguments _
  | malformedSource _ hparse | execute _ hparse =>
    rw [Console.toWorkspace_of_parse hparse]
  | put => exact hm.1
  | executed => exact Console.edits_trim
  | settle => exact Console.edits_trim.trans (Console.edits_settle ..)
  | close => exact Console.edits_close ..
  | _ => exact .refl

/-- A handler that starts is one of the console's own. -/
theorem Step.edits_handle {call : Invocation} {handler : Handler κ} {args : List String}
    {K : List (Waiting κ ε)} {c : Console κ ε} (hname : call.name ≠ "")
    (htarget : c.target call.name = .command handler)
    (hresolve : resolveAll c.vars.text? call.args = .ok args) (hc : c.OnlyBuiltins)
    (hmay : ∀ name, Moment.Undeclares ⟨.invocation call, K, c⟩ name → may name) :
    (Console.program host handler ⟨call.name, args, allConstant call.args⟩).Edits may
      c.toWorkspace := by
  obtain ⟨b, rfl⟩ := Console.exists_builtin hc htarget
  refine Builtin.edits_program b _ _ ?_
  rintro rfl name hget
  obtain ⟨rest, rfl⟩ : ∃ rest, args = name :: rest := by
    cases args with
    | nil => cases hget
    | cons first rest => exact ⟨rest, by rw [Option.some.inj hget]⟩
  exact hmay name ⟨call, rest, rfl, hname, htarget, hresolve⟩

/-- What goes on after one step only edits the workspace again. -/
theorem Step.keeps_edits (h : Step host m m') (hm : m.Edits may)
    (hmay : ∀ name, m.Undeclares name → may name) : m'.Edits may := by
  refine ⟨hm.commands.of_edits (h.edits hm.activity), ?_, ?_⟩
  · obtain ⟨hcommands, hactivity, hwaiting⟩ := hm
    cases h with
    | handle hname htarget hresolve =>
      exact Step.edits_handle hname htarget hresolve hcommands hmay
    | get => exact hactivity
    | put => exact hactivity.2
    | parse => exact hactivity _
    | skip => exact hactivity _ _
    | executed | settle | evaluated => exact hwaiting _ List.mem_cons_self _ _
    | _ => trivial
  · obtain ⟨-, hactivity, hwaiting⟩ := hm
    cases h with
    | command | expand | assign => exact List.forall_mem_cons.2 ⟨trivial, hwaiting⟩
    | handle => exact List.forall_mem_cons.2 ⟨trivial, hwaiting⟩
    | malformedSource | execute | evaluate => exact List.forall_mem_cons.2 ⟨hactivity, hwaiting⟩
    | goOn | breakOff | expanded | assigned | executed | settle | evaluated | close =>
      exact (List.forall_mem_cons.1 hwaiting).2
    | _ => exact hwaiting

/-- **A run only edits the workspace**, on a console that has no other commands than its own, and
undeclares no variables but those that it is told to. -/
theorem Leads.edits (h : Leads host m m') (hm : m.Edits may)
    (hmay : ∀ m'', Leads host m m'' → Leads host m'' m' → ∀ name, m''.Undeclares name → may name) :
    m.console.toWorkspace.Edits may m'.console.toWorkspace ∧ m'.Edits may := by
  induction h with
  | refl => exact ⟨.refl, hm⟩
  | tail hleads hstep ih =>
    obtain ⟨hedits, hlast⟩ := ih fun m'' h h' => hmay m'' h (h'.tail hstep)
    exact ⟨hedits.trans (hstep.edits hlast.activity),
      hstep.keeps_edits hlast (hmay _ hleads (.single hstep))⟩

/-! ### Sources in a row -/

/-- Runs sources as queries, one after the other. -/
def Program.executeAll {γ : Type} : List String → Program γ
  | [] => .stop .passed
  | source :: sources => .execute false source fun _ => executeAll sources

theorem Program.edits_executeAll (sources : List String) (w : Workspace κ ε) :
    (executeAll sources).Edits may w := by
  induction sources generalizing w with
  | nil => trivial
  | cons source sources ih => exact fun _ w => ih w

def Console.executeAll (host : Host κ (Workspace κ ε)) (sources : List String)
    (c : Console κ ε) : Console κ ε :=
  sources.foldl (fun c source => (c.execute host source).1) c

theorem Console.perform_executeAll (sources : List String) (c : Console κ ε) :
    c.perform (runner host) (.executeAll sources) = (c.executeAll host sources, .passed) := by
  induction sources generalizing c with
  | nil => rfl
  | cons source sources ih => exact ih _

/-- The moment at which sources are about to be executed, inside nothing. -/
def Moment.startAll (sources : List String) (c : Console κ ε) : Moment κ ε :=
  ⟨.handler (.executeAll sources), [], c⟩

theorem leads_executeAll (sources : List String) (c : Console κ ε) :
    Leads host (.startAll sources c)
      ⟨.handler (.stop .passed), [], c.executeAll host sources⟩ := by
  have h : Leads host ⟨.handler (.executeAll sources), [], c⟩ _ := Console.leads_handler _ [] c
  rwa [Console.perform_executeAll] at h

theorem Moment.edits_startAll {c : Console κ ε} (hc : c.OnlyBuiltins) (sources : List String) :
    (startAll sources c).Edits may :=
  ⟨hc, Program.edits_executeAll sources _, fun _ h => by cases h⟩

end DevConsole
