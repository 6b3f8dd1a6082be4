import DevConsole.Frame
import DevConsole.Proofs.Console.OutOfReach

/-!
Listings and hidden variables. Main statement: on two consoles that differ in hidden variables only,
the list of variables and the search print the same lines. So does the list of differences as long
as all hidden variables have their defaults for values: it does not ask whether a variable is
hidden.
-/

namespace DevConsole

/-! ### Variables that are shown -/

def Entry.isShown (e : Entry) : Bool := !e.flags.hidden

namespace Store

variable {ω : Type} {s s' : Store ω}

/-- Whether both stores have the same variables but for hidden ones. -/
structure SameShown (s s' : Store ω) : Prop where
  builtins : ∀ name, (s'.builtins.find? name).filter (·.isShown) =
    (s.builtins.find? name).filter (·.isShown)
  user : ∀ name, (s'.user.find? name).filter (·.isShown) =
    (s.user.find? name).filter (·.isShown)

/-- Whether all hidden variables have their defaults for values. -/
def HidesDefaults (s : Store ω) : Prop := ∀ e ∈ s.all, e.2.isShown = false → e.2.isModified = false

theorem SameShown.filter_all (h : s.SameShown s') (p : String × Entry → Bool) :
    (s'.all.filter fun e => p e && e.2.isShown) = s.all.filter fun e => p e && e.2.isShown := by
  have hshown : (s'.all.filter fun e => e.2.isShown) = s.all.filter fun e => e.2.isShown := by
    simp only [all, List.filter_append]
    rw [NameMap.filter_entries_congr (p := Entry.isShown) h.builtins,
      NameMap.filter_entries_congr (p := Entry.isShown) h.user]
  rw [← List.filter_filter, hshown, List.filter_filter]

theorem SameShown.search_eq (h : s.SameShown s') (part : String) :
    s'.search part = s.search part := by
  have hfilter := h.filter_all fun e =>
    Text.occursIn part e.1 || Text.occursIn part e.2.description
  simpa only [search, Entry.isShown, Bool.and_comm] using hfilter

theorem HidesDefaults.modified_eq (hs : s.HidesDefaults) :
    s.modified = s.all.filter fun e => e.2.isModified && e.2.isShown := by
  refine List.filter_congr fun e he => ?_
  rcases hshown : e.2.isShown with _ | _
  · rw [hs e he hshown]
    rfl
  · rw [Bool.and_true]

theorem SameShown.modified_eq (h : s.SameShown s') (hs : s.HidesDefaults)
    (hs' : s'.HidesDefaults) : s'.modified = s.modified := by
  rw [hs.modified_eq, hs'.modified_eq, h.filter_all]

end Store

/-! ### Steps that print -/

namespace Workspace

variable {κ ε : Type} {w w' : Workspace κ ε}

def printLines (w : Workspace κ ε) (lines : List OutputLine) : Workspace κ ε :=
  lines.foldl (fun w line => w.print line.level line.message) w

theorem printLines_append (lines more : List OutputLine) (w : Workspace κ ε) :
    w.printLines (lines ++ more) = (w.printLines lines).printLines more :=
  List.foldl_append

theorem output_printLines (lines : List OutputLine) (w : Workspace κ ε) :
    (w.printLines lines).output = lines.foldl (pushBounded w.capacity) w.output := by
  unfold printLines
  induction lines generalizing w with
  | nil => rfl
  | cons line lines ih => exact ih _

/-- Whether the step does nothing but print, the same lines on both workspaces, and ends the same
way. -/
def PrintsAlike (f : Workspace κ ε → Workspace κ ε × Ending) (w w' : Workspace κ ε) : Prop :=
  ∃ lines ending, f w = (w.printLines lines, ending) ∧ f w' = (w'.printLines lines, ending)

theorem printAll_eq (messages : List String) (w : Workspace κ ε) :
    w.printAll messages = w.printLines (messages.map (⟨.info, ·⟩)) := by
  rw [printLines, List.foldl_map]
  rfl

theorem printCounted_eq (lines : List String) (what : String) (w : Workspace κ ε) :
    w.printCounted lines what = w.printLines
      (lines.map (⟨.info, ·⟩) ++ [⟨.info, toString lines.length ++ " " ++ what⟩]) := by
  rw [printCounted, printAll_eq, printLines, printLines, List.foldl_append]
  rfl

theorem printsAlike_of_printCounted {f : Workspace κ ε → Workspace κ ε × Ending}
    {lines : List String} {what : String} (hw : f w = (w.printCounted lines what, .passed))
    (hw' : f w' = (w'.printCounted lines what, .passed)) : PrintsAlike f w w' :=
  ⟨_, _, printCounted_eq lines what w ▸ hw, printCounted_eq lines what w' ▸ hw'⟩

theorem printsAlike_runListVariables (h : w.vars.SameShown w'.vars) (call : Call) :
    PrintsAlike (runListVariables call) w w' := by
  refine printsAlike_of_printCounted rfl ?_
  have hshown := h.filter_all fun e => NameMap.beginsWith (call.getD 0 "") e.1
  simp only [Entry.isShown] at hshown
  simp only [runListVariables, hshown]

theorem printsAlike_runFind (hcommands : w'.commands = w.commands) (h : w.vars.SameShown w'.vars)
    (call : Call) : PrintsAlike (runFind call) w w' := by
  unfold runFind withArg
  split
  · refine printsAlike_of_printCounted rfl ?_
    simp only [hcommands, h.search_eq]
  · exact ⟨[], _, rfl, rfl⟩

theorem printsAlike_runDifferences (h : w.vars.SameShown w'.vars) (hw : w.vars.HidesDefaults)
    (hw' : w'.vars.HidesDefaults) : PrintsAlike runDifferences w w' := by
  have hmodified := h.modified_eq hw hw'
  unfold PrintsAlike runDifferences
  rw [hmodified]
  rcases w.vars.modified with _ | ⟨e, rest⟩
  · exact ⟨[⟨.info, "No modified convars"⟩], .passed, rfl, rfl⟩
  · exact printsAlike_of_printCounted (f := fun w => (w.printCounted _ _, .passed)) rfl rfl

end Workspace

/-! ### Invocations of listings -/

namespace Console

variable {κ ε : Type} {host : Host κ (Workspace κ ε)} {run : Runner κ ε} {c c' : Console κ ε}
variable {call : Invocation}

/-- Whether the invocation does nothing but print, the same lines on both consoles, and has the same
result. An error that was pending may be gone. -/
def AnswersAlike (host : Host κ (Workspace κ ε)) (run : Runner κ ε) (call : Invocation)
    (c c' : Console κ ε) : Prop :=
  ∃ lines pending answer,
    c.invoke host run call = ({ c.mapWorkspace (·.printLines lines) with pending }, answer) ∧
    c'.invoke host run call = ({ c'.mapWorkspace (·.printLines lines) with pending }, answer)

/-- What is printed is the same where it is kept, and so is the result. -/
theorem AnswersAlike.output_eq (h : AnswersAlike host run call c c')
    (hcapacity : c'.capacity = c.capacity) (houtput : c'.output = c.output) :
    (c'.invoke host run call).1.output = (c.invoke host run call).1.output ∧
      (c'.invoke host run call).2 = (c.invoke host run call).2 := by
  obtain ⟨lines, pending, answer, hc, hc'⟩ := h
  have hlines : (c'.toWorkspace.printLines lines).output =
      (c.toWorkspace.printLines lines).output := by
    rw [Workspace.output_printLines, Workspace.output_printLines, hcapacity, houtput]
  rw [hc, hc']
  exact ⟨hlines, rfl⟩

/-- What becomes of a handler depends on how it ended and on what is pending. -/
theorem exists_close_eq (pending : Option (String × QueryError)) (name : String)
    (ending : Ending) : ∃ lines answer, ∀ c : Console κ ε, c.pending = pending →
      c.close name ending =
        ({ c.mapWorkspace (·.printLines lines) with pending := none }, answer) := by
  rcases pending with _ | ⟨source, e⟩
  · cases ending with
    | passed =>
      refine ⟨[], .ok false, ?_⟩
      rintro ⟨⟩ ⟨⟩
      rfl
    | refused e =>
      refine ⟨[⟨.error, (InvocationError.command name e).message⟩], .ok true, ?_⟩
      rintro ⟨⟩ ⟨⟩
      rfl
    | panicked p =>
      refine ⟨[⟨.error, (InvocationError.command name (.panicked p)).message⟩], .ok true, ?_⟩
      rintro ⟨⟩ ⟨⟩
      rfl
  · exact ⟨[], .error (e.within name source), fun c hc => close_of_pending hc name ending⟩

theorem invokeCommand_of_printLines {b : Builtin} {f : Workspace κ ε → Workspace κ ε × Ending}
    {args : List String} {lines : List OutputLine} {ending : Ending}
    (hargs : resolveAll c.vars.text? call.args = .ok args)
    (hb : b.program ⟨call.name, args, allConstant call.args⟩ = .act f)
    (hf : f c.toWorkspace = (c.printLines lines, ending)) :
    c.invokeCommand host run (.builtin b) call =
      (c.mapWorkspace (·.printLines lines)).close call.name ending := by
  rw [invokeCommand_of_act hargs hb, hf]
  rfl

theorem answersAlike_of_printsAlike {b : Builtin} (hname : call.name ≠ "")
    (htarget : c.target call.name = .command (.builtin b))
    (htarget' : c'.target call.name = .command (.builtin b))
    (hpending : c'.pending = c.pending)
    (hargs : resolveAll c'.vars.text? call.args = resolveAll c.vars.text? call.args)
    (hprints : ∀ args, ∃ f, b.program ⟨call.name, args, allConstant call.args⟩ = .act f ∧
      Workspace.PrintsAlike f c.toWorkspace c'.toWorkspace) :
    AnswersAlike host run call c c' := by
  rw [AnswersAlike, invoke_of_command hname htarget, invoke_of_command hname htarget']
  rcases hresolve : resolveAll c.vars.text? call.args with r | args
  · refine ⟨[], c.pending, .error (.undefined r), ?_, ?_⟩
    · rw [invokeCommand, hresolve]
      rfl
    · rw [invokeCommand, hargs, hresolve, ← hpending]
      rfl
  · obtain ⟨f, hf, lines, ending, hw, hw'⟩ := hprints args
    obtain ⟨more, answer, hclose⟩ := exists_close_eq (κ := κ) (ε := ε) c.pending call.name ending
    refine ⟨lines ++ more, none, answer, ?_, ?_⟩
    · rw [invokeCommand_of_printLines hresolve hf hw, hclose (c.mapWorkspace _) rfl]
      simp only [mapWorkspace, Workspace.printLines_append]
    · rw [invokeCommand_of_printLines (hargs.trans hresolve) hf hw',
        hclose (c'.mapWorkspace _) hpending]
      simp only [mapWorkspace, Workspace.printLines_append]

theorem target_eq_command {name : String} {handler : Handler κ} :
    c.target name = .command handler ↔
      ∃ command, c.commands.find? name = some command ∧ command.handler = handler := by
  unfold target
  rcases c.commands.find? name with _ | command
  · rcases c.aliases.find? name with _ | body
    · by_cases hname : c.vars.has name <;> simp [hname]
    · simp
  · simp

/-- **Listings do not show hidden variables.** On two consoles with the same commands and with the
same variables but for hidden ones, the list of variables and the search print the same lines and
have the same result, whatever their arguments are. The list of differences does so while all hidden
variables have their defaults for values. -/
theorem answersAlike_of_sameShown {b : Builtin} (hcommands : c'.commands = c.commands)
    (hvars : c.vars.SameShown c'.vars) (hpending : c'.pending = c.pending) (hname : call.name ≠ "")
    (htarget : c.target call.name = .command (.builtin b))
    (hargs : resolveAll c'.vars.text? call.args = resolveAll c.vars.text? call.args)
    (hb : b = .listVariables ∨ b = .find ∨
      b = .differences ∧ c.vars.HidesDefaults ∧ c'.vars.HidesDefaults) :
    AnswersAlike host run call c c' := by
  have htarget' : c'.target call.name = .command (.builtin b) := by
    rw [target_eq_command, hcommands]
    exact target_eq_command.1 htarget
  refine answersAlike_of_printsAlike hname htarget htarget' hpending hargs fun args => ?_
  rcases hb with rfl | rfl | ⟨rfl, hc, hc'⟩
  · exact ⟨_, rfl, Workspace.printsAlike_runListVariables hvars _⟩
  · exact ⟨_, rfl, Workspace.printsAlike_runFind hcommands hvars _⟩
  · exact ⟨_, rfl, Workspace.printsAlike_runDifferences hvars hc hc'⟩

/-! ### A hidden variable -/

def hiddenSeed (seed : Int32) : Entry where
  kind := .int32
  var := { Variable.ofDefault "sv_seed" 0 with value := seed, flags := { hidden := true } }
  user := false

def seededConsole (seed : Int32) : Console Empty Unit :=
  (Console.ofSettings {} ()).installCore.mapWorkspace fun w =>
    let shown := NameMap.empty.insert "cl_fov" ⟨.int32, .ofDefault "cl_fov" 90, false⟩
    { w with vars := { builtins := shown.insert "sv_seed" (hiddenSeed seed) } }

theorem withVars_seededConsole (seed seed' : Int32) :
    { seededConsole seed' with vars := (seededConsole seed).vars } = seededConsole seed := by
  simp only [seededConsole, mapWorkspace]

theorem sameShown_seededConsole (seed seed' : Int32) :
    (seededConsole seed).vars.SameShown (seededConsole seed').vars where
  builtins := by
    intro name
    change ((NameMap.insert _ _ (hiddenSeed seed')).find? name).filter _ =
      ((NameMap.insert _ _ (hiddenSeed seed)).find? name).filter _
    simp only [NameMap.find?_insert]
    split
    · rfl
    · rfl
  user := fun _ => rfl

/-- The invocation of a listing, with the letter `s` as its argument. -/
def listing (name : String) : Invocation := { name, args := [⟨[.literal "s" 0], 0⟩] }

theorem resolveAll_listing (text? : String → Option String) (name : String) :
    resolveAll text? (listing name).args = .ok ["s"] := rfl

/-- A search for a letter in the name of the hidden variable. -/
theorem answersAlike_of_sameShown_seededConsole :
    (seededConsole 0).vars.SameShown (seededConsole 7).vars ∧
      (seededConsole 0).target "find" = .command (.builtin .find) ∧
      AnswersAlike .idle (runner .idle) (listing "find") (seededConsole 0) (seededConsole 7) := by
  have hvars := sameShown_seededConsole 0 7
  have hrest := withVars_seededConsole 0 7
  have htarget : (seededConsole 0).target "find" = .command (.builtin .find) := by rfl
  have hargs := resolveAll_listing (seededConsole 0).vars.text? "find"
  exact ⟨hvars, htarget, answersAlike_of_sameShown (congrArg (·.commands) hrest) hvars
    (congrArg (·.pending) hrest) (by decide) htarget
    ((resolveAll_listing _ _).trans hargs.symm) (.inr (.inl rfl))⟩

/-- Whether all listings print the same on both consoles. -/
def ListAlike (host : Host κ (Workspace κ ε)) (c c' : Console κ ε) : Prop :=
  ∀ call b, call.name ≠ "" → c.target call.name = .command (.builtin b) →
    resolveAll c'.vars.text? call.args = resolveAll c.vars.text? call.args →
    b ∈ [.listVariables, .find, .differences] → AnswersAlike host (runner host) call c c'

/-- The list of differences shows a hidden variable with another value than its default. -/
theorem not_listAlike_seededConsole :
    { seededConsole 7 with vars := (seededConsole 0).vars } = seededConsole 0 ∧
      (seededConsole 0).vars.SameShown (seededConsole 7).vars ∧
      ¬ ListAlike .idle (seededConsole 0) (seededConsole 7) := by
  have hrest := withVars_seededConsole 0 7
  refine ⟨hrest, sameShown_seededConsole 0 7, fun h => ?_⟩
  have hargs := resolveAll_listing (seededConsole 0).vars.text? "differences"
  have halike := h (listing "differences") .differences (by decide) (by rfl)
    ((resolveAll_listing _ _).trans hargs.symm) (by simp)
  have hclaimed := (halike.output_eq (congrArg (·.capacity) hrest) (congrArg (·.output) hrest)).1
  have hactual : ((seededConsole 7).invoke .idle (runner .idle) (listing "differences")).1.output ≠
      ((seededConsole 0).invoke .idle (runner .idle) (listing "differences")).1.output := by
    decide +kernel
  exact hactual hclaimed

end Console

end DevConsole
