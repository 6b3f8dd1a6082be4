import DevConsole.Proofs.Console.Listings
import DevConsole.Proofs.Console.Reports
import DevConsole.Proofs.Query.References

/-!
Queries about aliases and bindings. Main statement: a query that invokes only the commands for
aliases and bindings leaves the variables, the commands and the files as they are, and does nothing
at all on a console that does not have these commands.
-/

namespace DevConsole

variable {κ ε : Type} {host : Host κ (Workspace κ ε)}

/-! ### Queries with few names -/

/-- A walk keeps what its visits keep, and what is kept by the invocations that come up in it. -/
theorem walk_keeps_of_all {σ ε : Type} {v : Visitor σ ε} {P : σ → Prop} {Q : Invocation → Prop}
    (hvisit : ∀ offset s, P s → P (v.visit offset s))
    (hinvoke : ∀ call s, Q call → P s → P (v.invoke call s).1) (failed anyFailed : Bool)
    (cs : List Chain) (hcs : ∀ c ∈ cs, c.All Q) (s : σ) (hs : P s) :
    P (walk v failed anyFailed cs s).1 := by
  induction failed, anyFailed, cs, s using walk.induct (v := v) with
  | case1 failed anyFailed cs s hstop =>
    rw [walk_of_none hstop]
    exact hs
  | case2 failed anyFailed cs s offset rest hstop ih =>
    rw [walk_of_group hstop]
    exact ih (all_of_nextStop? hstop hcs).1 (hvisit offset s hs)
  | case3 failed anyFailed cs s call rest hstop s' failed' hcall ih =>
    obtain ⟨hrest, hnamed⟩ := all_of_nextStop? hstop hcs
    have hs' := hinvoke call _ (hnamed call rest rfl) (hvisit call.offset s hs)
    rw [hcall] at hs'
    rw [walk_of_ok hstop hcall]
    exact ih hrest hs'
  | case4 failed anyFailed cs s call rest hstop s' e hcall =>
    have hs' := hinvoke call _ ((all_of_nextStop? hstop hcs).2 call rest rfl)
      (hvisit call.offset s hs)
    rw [hcall] at hs'
    rw [walk_of_error hstop hcall]
    exact hs'

/-- Whether the invocation is one of the command for aliases or of that for bindings, or of
nothing. -/
def Invocation.Edits (call : Invocation) : Prop :=
  call.name = "" ∨ call.name = "alias" ∨ call.name = "bind"

/-- Whether the source, if it is a query, invokes nothing else. -/
def EditingSource (source : String) : Prop :=
  ∀ q, parse source = .ok q → q.clauses.All Invocation.Edits

instance Chain.decidableAll (P : Invocation → Prop) [DecidablePred P] :
    (c : Chain) → Decidable (c.All P)
  | .nil => isTrue trivial
  | .command _ call rest =>
    have := decidableAll P rest
    inferInstanceAs (Decidable (P call ∧ rest.All P))
  | .group _ _ body rest =>
    have := decidableAll P body
    have := decidableAll P rest
    inferInstanceAs (Decidable (body.All P ∧ rest.All P))

instance : DecidablePred Invocation.Edits := fun call =>
  inferInstanceAs (Decidable (call.name = "" ∨ call.name = "alias" ∨ call.name = "bind"))

instance (source : String) : Decidable (EditingSource source) :=
  match h : parse source with
  | .ok q => decidable_of_iff (q.clauses.All Invocation.Edits) (by simp [EditingSource, h])
  | .error _ => isTrue (by simp [EditingSource, h])

namespace Console

variable {c : Console κ ε} {P : Workspace κ ε → Prop} {Q : Invocation → Prop}

/-- A query keeps what output and the end of a query keep, and what is kept by the invocations that
come up in it. -/
theorem keeps_execute (hprint : ∀ w level message, P w → P (w.print level message))
    (hkeep : ∀ w, P w → P w.keepChanges)
    (hinvoke : ∀ (c : Console κ ε) call, Q call → P c.toWorkspace →
      P (c.invoke host (runner host) call).1.toWorkspace)
    {source : String} (hcache : c.cache.Faithful)
    (hsource : ∀ q, DevConsole.parse source = .ok q → q.clauses.All Q) (hc : P c.toWorkspace) :
    P (c.execute host source).1.toWorkspace := by
  have htrim : ∀ c : Console κ ε, P c.toWorkspace → P c.trim.toWorkspace := by
    intro c hc
    unfold trim
    split
    · exact hkeep _ hc
    · exact hc
  have hsettle : ∀ (c : Console κ ε) e, P c.toWorkspace →
      P (c.settle false source e).toWorkspace := by
    intro c e hc
    unfold settle
    split
    · exact hc
    · exact hprint _ _ _ hc
  have hcount : ∀ c : Console κ ε, P c.toWorkspace → P c.countStep.toWorkspace := by
    intro c hc
    unfold countStep
    dsimp only
    split
    · exact hprint _ _ _ hc
    · exact hc
  have houtcome : P (c.outcome (runner host) source).1.toWorkspace := by
    unfold outcome
    rcases hparse : c.parse source with ⟨fault | q, c'⟩
    · exact (toWorkspace_of_parse hparse).symm ▸ hc
    · have hc' : P c'.toWorkspace := (toWorkspace_of_parse hparse).symm ▸ hc
      have hq : DevConsole.parse source = .ok q := by
        rw [← (hcache.get source).1]
        exact congrArg Prod.fst hparse
      dsimp only
      rcases Nat.lt_or_ge c'.depth c'.maxDepth with hlt | hle
      · rw [runner_of_lt hlt]
        refine walk_keeps_of_all (v := visitor host (runner host)) (Q := Q)
          (P := fun c : Console κ ε => P c.toWorkspace) (fun _ => hcount)
          (fun call c => hinvoke c call) false false [q.clauses] ?_ c'.enter hc'
        exact List.forall_mem_cons.2 ⟨hsource q hq, fun _ h => by cases h⟩
      · rw [runner_of_le hle]
        exact hc'
  unfold execute runSource
  split
  · exact hc
  · split
    · next hrun =>
      rw [hrun] at houtcome
      exact htrim _ houtcome
    · next hrun =>
      rw [hrun] at houtcome
      exact hsettle _ _ (htrim _ houtcome)

end Console

/-! ### What edits leave alone -/

/-- Whether the variables, the commands and the files are the same in both workspaces. The hook may
have been told of edits; the files are the same if it leaves files alone. -/
structure Workspace.Undisturbed (w w' : Workspace κ ε) : Prop where
  vars : w'.vars.takeChanges.2 = w.vars.takeChanges.2
  commands : w'.commands = w.commands
  files : (∀ name text v, (w.vars.tellHook name text v).files = v.files) →
    w'.world.files = w.world.files

namespace Workspace

variable {w w' w₀ : Workspace κ ε}

theorem Undisturbed.refl (w : Workspace κ ε) : w.Undisturbed w := ⟨rfl, rfl, fun _ => rfl⟩

theorem Undisturbed.tellHook_eq (h : w.Undisturbed w') : w'.vars.tellHook = w.vars.tellHook := by
  have hhook : w'.vars.hook = w.vars.hook := (congrArg Store.hook h.vars :)
  funext name text v
  simp only [Store.tellHook, hhook]

theorem Undisturbed.find?_eq (h : w.Undisturbed w') (name : String) :
    w'.vars.find? name = w.vars.find? name := (congrArg (Store.find? · name) h.vars :)

theorem Undisturbed.listeners_eq (h : w.Undisturbed w') : w'.vars.listeners = w.vars.listeners :=
  (congrArg Store.listeners h.vars :)

theorem Undisturbed.trans (h : w₀.Undisturbed w) (h' : w.Undisturbed w') : w₀.Undisturbed w' where
  vars := h'.vars.trans h.vars
  commands := h'.commands.trans h.commands
  files := by
    intro hhook
    rw [h'.files (h.tellHook_eq ▸ hhook), h.files hhook]

theorem undisturbed_print (level : Level) (message : String) :
    w.Undisturbed (w.print level message) := ⟨rfl, rfl, fun _ => rfl⟩

theorem undisturbed_printAll (messages : List String) : w.Undisturbed (w.printAll messages) := by
  unfold printAll
  induction messages generalizing w with
  | nil => exact .refl w
  | cons message messages ih => exact (undisturbed_print ..).trans ih

theorem undisturbed_keepChanges : w.Undisturbed w.keepChanges := ⟨rfl, rfl, fun _ => rfl⟩

theorem undisturbed_noteEdit (aliases : Aliases) (binds : Binds) (name text : String) :
    w.Undisturbed ({ w with aliases, binds }.noteEdit name text) :=
  ⟨rfl, rfl, fun hhook => hhook name text w.world⟩

end Workspace

namespace Console

variable {c : Console κ ε} {call : Invocation} {run : Runner κ ε}

theorem undisturbed_report (e : InvocationError) :
    c.toWorkspace.Undisturbed (c.report e).toWorkspace := Workspace.undisturbed_print ..

theorem undisturbed_readQuery {source : String} {f : Workspace κ ε → Workspace κ ε × Ending}
    (hf : c.toWorkspace.Undisturbed (f c.toWorkspace).1) :
    c.toWorkspace.Undisturbed (c.perform run (.readQuery source f)).1.toWorkspace := by
  rw [Program.readQuery, perform]
  rcases hparse : c.parse source with ⟨fault | q, c'⟩
  · rw [← toWorkspace_of_parse hparse]
    exact .refl _
  · rw [← toWorkspace_of_parse hparse] at hf ⊢
    exact hf

/-- The commands for aliases and bindings leave all else alone. -/
theorem undisturbed_perform {b : Builtin} (hb : b = .editAlias ∨ b = .editBind) (call : Call) :
    c.toWorkspace.Undisturbed (c.perform run (b.program call)).1.toWorkspace := by
  rcases hb with rfl | rfl
  · unfold Builtin.program
    dsimp only
    split
    · change c.toWorkspace.Undisturbed (Workspace.listAliases c.toWorkspace).1
      unfold Workspace.listAliases
      split
      · exact Workspace.undisturbed_print ..
      · exact Workspace.undisturbed_printAll _
    · next name _ =>
      change c.toWorkspace.Undisturbed (Workspace.showAlias name c.toWorkspace).1
      unfold Workspace.showAlias
      split
      · exact Workspace.undisturbed_print ..
      · exact .refl _
    · refine undisturbed_readQuery ?_
      unfold Workspace.defineAlias
      split
      · exact Workspace.undisturbed_noteEdit ..
      · exact .refl _
  · unfold Builtin.program
    dsimp only
    split
    · exact .refl _
    · next key _ =>
      change c.toWorkspace.Undisturbed (Workspace.showBind key c.toWorkspace).1
      unfold Workspace.showBind
      split
      · exact Workspace.undisturbed_print ..
      · exact .refl _
    · exact undisturbed_readQuery (Workspace.undisturbed_noteEdit ..)

theorem undisturbed_close (name : String) (ending : Ending) :
    c.toWorkspace.Undisturbed (c.close name ending).1.toWorkspace := by
  unfold close
  split
  · exact .refl _
  · exact .refl _
  · exact undisturbed_report _
  · exact undisturbed_report _

theorem undisturbed_invokeCommand {b : Builtin} (hb : b = .editAlias ∨ b = .editBind) :
    c.toWorkspace.Undisturbed (c.invokeCommand host run (.builtin b) call).1.toWorkspace := by
  unfold invokeCommand
  split
  · exact .refl _
  · exact (undisturbed_perform hb _).trans (undisturbed_close ..)

/-! ### Consoles that edit, or do not -/

/-- What a name stands for depends on the handler, the alias and the variable of that name. -/
theorem target_congr {c' : Console κ ε} {name : String}
    (hcommand : (c'.commands.find? name).map (·.handler) =
      (c.commands.find? name).map (·.handler))
    (halias : c'.aliases.find? name = c.aliases.find? name)
    (hvar : c'.vars.has name = c.vars.has name) : c'.target name = c.target name := by
  unfold target
  rw [halias, hvar]
  rcases hfind : c.commands.find? name with _ | command <;>
    rcases hfind' : c'.commands.find? name with _ | command' <;>
    simp_all

/-- Whether the names of the commands for aliases and bindings stand for these commands. -/
structure Editing (c : Console κ ε) : Prop where
  editAlias : c.target "alias" = .command (.builtin .editAlias)
  editBind : c.target "bind" = .command (.builtin .editBind)

/-- Whether the names of the commands for aliases and bindings stand for nothing. -/
structure Unequipped (c : Console κ ε) : Prop where
  noAlias : c.target "alias" = .nothing
  noBind : c.target "bind" = .nothing

theorem invoke_of_empty (host : Host κ (Workspace κ ε)) (run : Runner κ ε) (c : Console κ ε)
    (hname : call.name = "") :
    c.invoke host run call = (c, .ok false) ∨
      c.invoke host run call = (c.report .missingName, .ok true) := by
  unfold invoke
  rw [if_pos (by simp [hname])]
  split
  · exact .inl rfl
  · exact .inr rfl

theorem invoke_of_nothing {name : String} (hname : call.name = name) (hne : name ≠ "")
    (htarget : c.target name = .nothing) :
    c.invoke host run call = (c.report (.notFound name), .ok true) := by
  rw [invoke, if_neg (by simp [hname, hne]), hname, htarget]

theorem undisturbed_invoke_of_empty (hname : call.name = "") :
    c.toWorkspace.Undisturbed (c.invoke host run call).1.toWorkspace := by
  rcases invoke_of_empty host run c hname with heq | heq
  · rw [heq]
    exact .refl _
  · rw [heq]
    exact undisturbed_report _

theorem Editing.of_commands {c' : Console κ ε} (h : c.Editing)
    (hcommands : c'.commands = c.commands) : c'.Editing := by
  obtain ⟨halias, hbind⟩ := h
  rw [target_eq_command] at halias hbind
  exact ⟨target_eq_command.2 (hcommands ▸ halias), target_eq_command.2 (hcommands ▸ hbind)⟩

/-- **Queries about aliases and bindings leave all else alone.** -/
theorem Editing.execute (host : Host κ (Workspace κ ε)) (h : c.Editing)
    (hcache : c.cache.Faithful) {source : String} (hsource : EditingSource source) :
    c.toWorkspace.Undisturbed (c.execute host source).1.toWorkspace ∧
      (c.execute host source).1.Editing := by
  have hundisturbed : c.toWorkspace.Undisturbed (c.execute host source).1.toWorkspace := by
    refine keeps_execute (P := c.toWorkspace.Undisturbed) (fun w _ _ hw => hw.trans
      (Workspace.undisturbed_print ..)) (fun w hw => hw.trans Workspace.undisturbed_keepChanges)
      ?_ hcache hsource (.refl _)
    intro c' call hcall hc'
    obtain ⟨halias, hbind⟩ := h.of_commands hc'.commands
    rcases hcall with hname | hname | hname
    · exact hc'.trans (undisturbed_invoke_of_empty hname)
    · rw [invoke_of_command (by simp [hname]) (hname ▸ halias)]
      exact hc'.trans (undisturbed_invokeCommand (.inl rfl))
    · rw [invoke_of_command (by simp [hname]) (hname ▸ hbind)]
      exact hc'.trans (undisturbed_invokeCommand (.inr rfl))
  exact ⟨hundisturbed, h.of_commands hundisturbed.commands⟩

/-- Queries about aliases and bindings do nothing but print on a console that knows neither. -/
theorem Unequipped.execute (host : Host κ (Workspace κ ε)) (h : c.Unequipped)
    (hcache : c.cache.Faithful) {source : String} (hsource : EditingSource source) :
    c.toWorkspace.Undisturbed (c.execute host source).1.toWorkspace ∧
      (c.execute host source).1.aliases = c.aliases ∧ (c.execute host source).1.binds = c.binds ∧
      (c.execute host source).1.Unequipped := by
  have htarget : ∀ {c' : Console κ ε} {name}, c.toWorkspace.Undisturbed c'.toWorkspace →
      c'.aliases = c.aliases → c'.target name = c.target name := by
    intro c' name hsame haliases
    refine target_congr (by rw [hsame.commands]) (by rw [haliases]) ?_
    rw [Bool.eq_iff_iff, Store.has_iff_exists, Store.has_iff_exists, hsame.find?_eq]
  have hkept : c.toWorkspace.Undisturbed (c.execute host source).1.toWorkspace ∧
      (c.execute host source).1.aliases = c.aliases ∧
      (c.execute host source).1.binds = c.binds := by
    refine keeps_execute (P := fun w => c.toWorkspace.Undisturbed w ∧ w.aliases = c.aliases ∧
      w.binds = c.binds) (fun w _ _ hw => ⟨hw.1.trans (Workspace.undisturbed_print ..), hw.2⟩)
      (fun w hw => ⟨hw.1.trans Workspace.undisturbed_keepChanges, hw.2⟩)
      ?_ hcache hsource ⟨.refl _, rfl, rfl⟩
    rintro c' call hcall ⟨hsame, haliases, hbinds⟩
    have hreport : ∀ e, c.toWorkspace.Undisturbed (c'.report e).toWorkspace ∧
        (c'.report e).aliases = c.aliases ∧ (c'.report e).binds = c.binds :=
      fun e => ⟨hsame.trans (undisturbed_report e), haliases, hbinds⟩
    rcases hcall with hname | hname | hname
    · rcases invoke_of_empty host (runner host) c' hname with heq | heq
      · rw [heq]
        exact ⟨hsame, haliases, hbinds⟩
      · rw [heq]
        exact hreport _
    · rw [invoke_of_nothing hname (by decide) ((htarget hsame haliases).trans h.noAlias)]
      exact hreport _
    · rw [invoke_of_nothing hname (by decide) ((htarget hsame haliases).trans h.noBind)]
      exact hreport _
  obtain ⟨hsame, haliases, hbinds⟩ := hkept
  exact ⟨hsame, haliases, hbinds, (htarget hsame haliases).trans h.noAlias,
    (htarget hsame haliases).trans h.noBind⟩

end Console

end DevConsole
