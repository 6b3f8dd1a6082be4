import DevConsole.Proofs.Console.Lockstep

/-!
Handlers that do not look at the output. They may print, but what they do else is the same whatever
has been printed before. Main statement: all of the console's own handlers are such.
-/

namespace DevConsole

variable {κ ε : Type}

/-! ### Workspaces with other output -/

namespace Workspace

/-- Whether the workspaces are the same but for the output. -/
def SameButOutput (w w' : Workspace κ ε) : Prop := ∃ output, w' = { w with output }

variable {w w' : Workspace κ ε}

theorem SameButOutput.refl (w : Workspace κ ε) : w.SameButOutput w := ⟨w.output, rfl⟩

/-- The console does not look at the output. -/
theorem unseen_sameButOutput : Unseen (SameButOutput : Workspace κ ε → Workspace κ ε → Prop) where
  vars := by rintro w _ ⟨output, rfl⟩; rfl
  commands := by rintro w _ ⟨output, rfl⟩; rfl
  aliases := by rintro w _ ⟨output, rfl⟩; rfl
  print := by rintro w _ level message ⟨output, rfl⟩; exact ⟨_, rfl⟩
  keepChanges := by rintro w _ ⟨output, rfl⟩; exact ⟨_, rfl⟩

theorem absorbs_sameButOutput :
    Absorbs (SameButOutput : Workspace κ ε → Workspace κ ε → Prop) where
  left := by rintro w _ level message ⟨output, rfl⟩; exact ⟨_, rfl⟩
  right := by rintro w _ level message ⟨output, rfl⟩; exact ⟨_, rfl⟩

/-! ### Steps of handlers -/

/-- Whether the step does and ends the same whatever the output is, but for the output. -/
def Heedless (f : Workspace κ ε → Workspace κ ε × Ending) : Prop :=
  ∀ w output, (f w).1.SameButOutput (f { w with output }).1 ∧ (f { w with output }).2 = (f w).2

theorem heedless_refuse (e : CommandError) : Heedless fun w : Workspace κ ε => w.refuse e :=
  fun _ _ => ⟨⟨_, rfl⟩, rfl⟩

theorem heedless_withArg {call : Call} {index : Nat} {arguments : String}
    {f : String → Workspace κ ε → Workspace κ ε × Ending} (hf : ∀ value, Heedless (f value)) :
    Heedless (withArg call index arguments f) := by
  intro w output
  unfold withArg
  split
  · exact hf _ w output
  · exact heedless_refuse _ w output

theorem sameButOutput_printAll (messages : List String) (h : w.SameButOutput w') :
    (w.printAll messages).SameButOutput (w'.printAll messages) := by
  unfold printAll
  induction messages generalizing w w' with
  | nil => exact h
  | cons message messages ih => exact ih (unseen_sameButOutput.print _ _ h)

theorem sameButOutput_printCounted (lines : List String) (what : String)
    (h : w.SameButOutput w') :
    (w.printCounted lines what).SameButOutput (w'.printCounted lines what) :=
  unseen_sameButOutput.print _ _ (sameButOutput_printAll lines h)

theorem heedless_runAssign (call : Call) : Heedless (runAssign call : Workspace κ ε → _) := by
  refine heedless_withArg fun name w output => ?_
  have hassign (raw : String) : assign { w with output } name raw true =
      ({ (w.assign name raw true).1 with output }, (w.assign name raw true).2) := rfl
  split
  · exact heedless_refuse _ w output
  · rw [hassign]
    rcases w.assign name (call.joinFrom 1 " ") true with ⟨w', e | _ | _⟩
    all_goals exact ⟨⟨_, rfl⟩, rfl⟩

theorem heedless_runDeclare (call : Call) : Heedless (runDeclare call : Workspace κ ε → _) := by
  refine heedless_withArg fun name w output => ?_
  dsimp only
  split
  · exact heedless_refuse _ w output
  · split <;> exact ⟨⟨_, rfl⟩, rfl⟩

theorem heedless_runUndeclare (call : Call) :
    Heedless (runUndeclare call : Workspace κ ε → _) := by
  refine heedless_withArg fun name w output => ?_
  dsimp only
  split <;> exact ⟨⟨_, rfl⟩, rfl⟩

theorem heedless_runToggle (call : Call) : Heedless (runToggle call : Workspace κ ε → _) := by
  refine heedless_withArg fun name w output => ?_
  have hassign (raw : String) : assign { w with output } name raw true =
      ({ (w.assign name raw true).1 with output }, (w.assign name raw true).2) := rfl
  dsimp only
  split
  · exact heedless_refuse _ w output
  · split
    · exact heedless_refuse _ w output
    · next next _ =>
      rw [hassign]
      rcases w.assign name next true with ⟨w', e | _⟩
      all_goals exact ⟨⟨_, rfl⟩, rfl⟩

theorem heedless_runReset (call : Call) : Heedless (runReset call : Workspace κ ε → _) := by
  refine heedless_withArg fun name w output => ?_
  have hreset : reset { w with output } name true =
      ({ (w.reset name true).1 with output }, (w.reset name true).2) := rfl
  dsimp only
  rw [hreset]
  rcases w.reset name true with ⟨w', e | _⟩
  all_goals exact ⟨⟨_, rfl⟩, rfl⟩

theorem heedless_runEcho (call : Call) : Heedless (runEcho call : Workspace κ ε → _) :=
  fun _ _ => ⟨⟨_, rfl⟩, rfl⟩

theorem heedless_runListVariables (call : Call) :
    Heedless (runListVariables call : Workspace κ ε → _) :=
  fun _ output => ⟨sameButOutput_printCounted _ _ ⟨output, rfl⟩, rfl⟩

theorem heedless_runListCommands (call : Call) :
    Heedless (runListCommands call : Workspace κ ε → _) :=
  fun _ output => ⟨sameButOutput_printCounted _ _ ⟨output, rfl⟩, rfl⟩

theorem heedless_runHelp (call : Call) : Heedless (runHelp call : Workspace κ ε → _) := by
  intro w output
  have hhelp (name : String) : helpOn { w with output } name = w.helpOn name := rfl
  unfold runHelp
  split
  · exact ⟨sameButOutput_printAll _ ⟨output, rfl⟩, rfl⟩
  · rw [hhelp]
    split
    · exact ⟨sameButOutput_printAll _ ⟨output, rfl⟩, rfl⟩
    · exact heedless_refuse _ w output

theorem heedless_runFind (call : Call) : Heedless (runFind call : Workspace κ ε → _) :=
  heedless_withArg fun _ _ output => ⟨sameButOutput_printCounted _ _ ⟨output, rfl⟩, rfl⟩

theorem heedless_runDifferences : Heedless (runDifferences : Workspace κ ε → _) := by
  intro w output
  unfold runDifferences
  dsimp only
  split
  · exact ⟨⟨_, rfl⟩, rfl⟩
  · exact ⟨sameButOutput_printCounted _ _ ⟨output, rfl⟩, rfl⟩

theorem heedless_listAliases : Heedless (listAliases : Workspace κ ε → _) := by
  intro w output
  unfold listAliases
  dsimp only
  split
  · exact ⟨⟨_, rfl⟩, rfl⟩
  · exact ⟨sameButOutput_printAll _ ⟨output, rfl⟩, rfl⟩

theorem heedless_showAlias (name : String) : Heedless (showAlias name : Workspace κ ε → _) := by
  intro w output
  unfold showAlias
  dsimp only
  split <;> exact ⟨⟨_, rfl⟩, rfl⟩

theorem heedless_defineAlias (name body : String) :
    Heedless (defineAlias name body : Workspace κ ε → _) := by
  intro w output
  unfold defineAlias
  dsimp only
  split <;> exact ⟨⟨_, rfl⟩, rfl⟩

theorem sameButOutput_noteEdits (names : List String) (h : w.SameButOutput w') :
    (names.foldl (fun w name => w.noteEdit name "") w).SameButOutput
      (names.foldl (fun w name => w.noteEdit name "") w') := by
  induction names generalizing w w' with
  | nil => exact h
  | cons name names ih =>
    obtain ⟨output, rfl⟩ := h
    exact ih ⟨output, rfl⟩

theorem heedless_runRemoveAlias (call : Call) :
    Heedless (runRemoveAlias call : Workspace κ ε → _) := by
  refine heedless_withArg fun name w output => ?_
  dsimp only
  split
  · exact heedless_refuse _ w output
  · exact ⟨unseen_sameButOutput.print _ _ (sameButOutput_noteEdits _ ⟨output, rfl⟩), rfl⟩

theorem heedless_showBind (key : String) : Heedless (showBind key : Workspace κ ε → _) := by
  intro w output
  unfold showBind
  dsimp only
  split <;> exact ⟨⟨_, rfl⟩, rfl⟩

theorem heedless_defineBind (key query : String) :
    Heedless (defineBind key query : Workspace κ ε → _) :=
  fun _ _ => ⟨⟨_, rfl⟩, rfl⟩

theorem heedless_runRemoveBind (call : Call) :
    Heedless (runRemoveBind call : Workspace κ ε → _) := by
  refine heedless_withArg fun key w output => ?_
  dsimp only
  split <;> exact ⟨⟨_, rfl⟩, rfl⟩

theorem heedless_runClearBinds : Heedless (runClearBinds : Workspace κ ε → _) := by
  intro w output
  unfold runClearBinds
  dsimp only
  split <;> exact ⟨⟨_, rfl⟩, rfl⟩

theorem heedless_runSaveConfig (path : String) (call : Call) :
    Heedless (runSaveConfig path call : Workspace κ ε → _) := by
  intro w output
  have hsave (path : String) : save { w with output } path =
      ({ (w.save path).1 with output }, (w.save path).2) := rfl
  unfold runSaveConfig
  dsimp only
  rw [hsave]
  rcases w.save (call.getD 0 path) with ⟨w', e | _⟩
  all_goals exact ⟨⟨_, rfl⟩, rfl⟩

end Workspace

/-! ### Programs -/

def Program.IgnoresOutput (p : Program (Workspace κ ε)) : Prop := p.Alike Workspace.SameButOutput p

namespace Program

theorem ignoresOutput_act {f : Workspace κ ε → Workspace κ ε × Ending}
    (hf : Workspace.Heedless f) : (act f).IgnoresOutput := by
  refine .get ?_
  rintro w _ ⟨output, rfl⟩
  obtain ⟨hsame, hending⟩ := hf w output
  dsimp only
  rw [hending]
  exact .put hsame (.stop _)

theorem ignoresOutput_readQuery (source : String) {f : Workspace κ ε → Workspace κ ε × Ending}
    (hf : Workspace.Heedless f) : (readQuery source f).IgnoresOutput := by
  refine .parse fun answer => ?_
  cases answer with
  | error e => exact .stop _
  | ok q => exact ignoresOutput_act hf

theorem ignoresOutput_runLines (file : String) (failed : Nat) (lines : List String) :
    (runLines file failed lines : Program (Workspace κ ε)).IgnoresOutput := by
  induction lines generalizing failed with
  | nil => exact .stop _
  | cons line lines ih => exact .execute fun passed => ih _

theorem ignoresOutput_runScript (call : Call) :
    (runScript call : Program (Workspace κ ε)).IgnoresOutput := by
  unfold runScript
  split
  · exact .stop _
  · refine .get ?_
    rintro w _ ⟨output, rfl⟩
    dsimp only
    split
    · exact .stop _
    · exact ignoresOutput_runLines ..

/-- **The console's own handlers do not look at the output.** -/
theorem ignoresOutput_builtin (b : Builtin) (call : Call) :
    (b.program call : Program (Workspace κ ε)).IgnoresOutput := by
  cases b with
  | editAlias =>
    simp only [Builtin.program]
    split
    · exact ignoresOutput_act Workspace.heedless_listAliases
    · exact ignoresOutput_act (Workspace.heedless_showAlias _)
    · exact ignoresOutput_readQuery _ (Workspace.heedless_defineAlias _ _)
  | editBind =>
    simp only [Builtin.program]
    split
    · exact .stop _
    · exact ignoresOutput_act (Workspace.heedless_showBind _)
    · exact ignoresOutput_readQuery _ (Workspace.heedless_defineBind _ _)
  | assign => exact ignoresOutput_act (Workspace.heedless_runAssign call)
  | echo => exact ignoresOutput_act (Workspace.heedless_runEcho call)
  | removeAlias => exact ignoresOutput_act (Workspace.heedless_runRemoveAlias call)
  | declare => exact ignoresOutput_act (Workspace.heedless_runDeclare call)
  | undeclare => exact ignoresOutput_act (Workspace.heedless_runUndeclare call)
  | toggle => exact ignoresOutput_act (Workspace.heedless_runToggle call)
  | reset => exact ignoresOutput_act (Workspace.heedless_runReset call)
  | listVariables => exact ignoresOutput_act (Workspace.heedless_runListVariables call)
  | listCommands => exact ignoresOutput_act (Workspace.heedless_runListCommands call)
  | help => exact ignoresOutput_act (Workspace.heedless_runHelp call)
  | find => exact ignoresOutput_act (Workspace.heedless_runFind call)
  | differences => exact ignoresOutput_act Workspace.heedless_runDifferences
  | removeBind => exact ignoresOutput_act (Workspace.heedless_runRemoveBind call)
  | clearBinds => exact ignoresOutput_act Workspace.heedless_runClearBinds
  | saveConfig path => exact ignoresOutput_act (Workspace.heedless_runSaveConfig path call)
  | runScript => exact ignoresOutput_runScript call

end Program

def Host.IgnoresOutput (host : Host κ (Workspace κ ε)) : Prop :=
  ∀ k call, (host.run k call).IgnoresOutput

theorem Host.IgnoresOutput.respects {host : Host κ (Workspace κ ε)} (h : host.IgnoresOutput) :
    host.Respects Workspace.SameButOutput := by
  intro handler call
  cases handler with
  | builtin b => exact Program.ignoresOutput_builtin b call
  | host k => exact h k call

end DevConsole
