import DevConsole.Proofs.Command.AliasNames
import DevConsole.Proofs.Command.Keys
import DevConsole.Proofs.Console.Edits
import DevConsole.Proofs.Variable.Registered

/-!
What a host and its users may do to a console that has no other commands than its own. Main
statement: whatever they do, the variables keep to what was registered, aliases have names that
aliases may have, and bindings are kept in both directions.
-/

namespace DevConsole

variable {κ ε : Type} {host : Host κ (Workspace κ ε)} {vars : NameMap Entry}

/-! ### Workspaces that hold what was registered -/

/-- Whether the workspace has no other commands than the console's own, holds the variables that
were registered, and its aliases and bindings are in order. -/
structure Workspace.Upholds (vars : NameMap Entry) (w : Workspace κ ε) : Prop where
  commands : w.OnlyBuiltins
  vars : w.vars.Upholds vars
  aliases : w.aliases.Valid
  binds : w.binds.Mirrored

namespace Workspace.Upholds

variable {may : String → Prop} {w w' : Workspace κ ε}

theorem noteEdit (h : w.Upholds vars) (name text : String) : (w.noteEdit name text).Upholds vars :=
  ⟨h.commands, h.vars, h.aliases, h.binds⟩

theorem noteEdits (h : w.Upholds vars) (names : List String) :
    (names.foldl (fun w name => w.noteEdit name "") w).Upholds vars := by
  induction names generalizing w with
  | nil => exact h
  | cons name names ih => exact ih (h.noteEdit name "")

theorem withVars (h : w.Upholds vars) {s : Store (World ε)} (hs : s.Upholds vars) :
    { w with vars := s }.Upholds vars :=
  ⟨h.commands, hs, h.aliases, h.binds⟩

theorem withAliases (h : w.Upholds vars) {aliases : Aliases} (haliases : aliases.Valid) :
    { w with aliases }.Upholds vars :=
  ⟨h.commands, h.vars, haliases, h.binds⟩

theorem withBinds (h : w.Upholds vars) {binds : Binds} (hbinds : binds.Mirrored) :
    { w with binds }.Upholds vars :=
  ⟨h.commands, h.vars, h.aliases, hbinds⟩

theorem assign (h : w.Upholds vars) (hvars : Registered vars) (a : Assignment) :
    { w with vars := (a.run w.vars w.world).1, world := (a.run w.vars w.world).2.1 }.Upholds
      vars :=
  ⟨h.commands, h.vars.assign hvars w.world a, h.aliases, h.binds⟩

theorem keepChanges (h : w.Upholds vars) : w.keepChanges.Upholds vars :=
  h.withVars (h.vars.of_builtins_eq rfl h.vars.user)

theorem edit (h : w.Upholds vars) (hvars : Registered vars) (hedit : Edit may w w') :
    w'.Upholds vars := by
  cases hedit with
  | print | save => exact ⟨h.commands, h.vars, h.aliases, h.binds⟩
  | keepChanges => exact h.keepChanges
  | assign name raw => exact h.assign hvars (.set name raw true)
  | reset name => exact h.assign hvars (.reset name true)
  | declare name value hrun => exact h.withVars (h.vars.declare hrun)
  | undeclare _ hrun => exact h.withVars (h.vars.remove hrun)
  | defineAlias hrun =>
    obtain ⟨hname, rfl⟩ := Aliases.set_eq_ok hrun
    exact (h.withAliases (h.aliases.insert hname)).noteEdit ..
  | removeAliases hrun =>
    obtain ⟨-, rfl⟩ := Aliases.removePaired_eq_ok hrun
    exact (h.withAliases (h.aliases.eraseAll _)).noteEdits _
  | bind key query => exact (h.withBinds (h.binds.bind key query)).noteEdit ..
  | @unbind key _ _ hrun =>
    have hbinds := h.binds.unbind key
    rw [hrun] at hbinds
    exact (h.withBinds hbinds).noteEdit ..
  | clearBinds => exact (h.withBinds .empty).noteEdit ..

theorem edits (h : w.Upholds vars) (hvars : Registered vars) (hedits : Edits may w w') :
    w'.Upholds vars := by
  induction hedits with
  | refl => exact h
  | tail _ hedit ih => exact ih.edit hvars hedit

end Workspace.Upholds

/-! ### Dealings -/

inductive Dealing
  /-- A source is run as a query, or as a line of a script. -/
  | execute (contained : Bool) (source : String)
  | evaluate (q : Query)
  | press (key : String)
  | release (key : String)
  | set (name raw : String)
  /-- The store of variables is dealt with directly, and so are aliases and bindings below. -/
  | assign (a : Assignment)
  | aliases (op : AliasesOp)
  | binds (op : BindsOp)

namespace Dealing

def run (host : Host κ (Workspace κ ε)) (c : Console κ ε) : Dealing → Console κ ε
  | execute contained source => (c.runSource (Console.runner host) contained source).1
  | evaluate q => (c.evaluate host q).1
  | press key => (c.press host key).1
  | release key => (c.release host key).1
  | set name raw => c.mapWorkspace fun w => (w.set name raw).1
  | assign a => c.mapWorkspace fun w =>
    { w with vars := (a.run w.vars w.world).1, world := (a.run w.vars w.world).2.1 }
  | aliases op => c.mapWorkspace fun w => { w with aliases := op.run w.aliases }
  | binds op => c.mapWorkspace fun w => { w with binds := op.run w.binds }

def runAll (host : Host κ (Workspace κ ε)) (ds : List Dealing) (c : Console κ ε) : Console κ ε :=
  ds.foldl (run host) c

variable {c : Console κ ε}

theorem upholds_perform (hvars : Registered vars) (h : c.toWorkspace.Upholds vars)
    {p : Program (Workspace κ ε)} (hp : p.Edits (fun _ => True) c.toWorkspace) :
    (c.perform (Console.runner host) p).1.toWorkspace.Upholds vars := by
  have hstart : Moment.Edits (fun _ => True) ⟨.handler p, [], c⟩ :=
    ⟨h.commands, hp, fun _ hmem => by cases hmem⟩
  have hleads : Leads host ⟨.handler p, [], c⟩ _ := Console.leads_handler p [] c
  obtain ⟨hedits, -⟩ := hleads.edits hstart fun _ _ _ _ _ => trivial
  exact h.edits hvars hedits

theorem upholds_runSource (hvars : Registered vars) (h : c.toWorkspace.Upholds vars)
    (contained : Bool) (source : String) :
    (c.runSource (Console.runner host) contained source).1.toWorkspace.Upholds vars :=
  upholds_perform hvars h (p := .execute contained source fun _ => .stop .passed)
    fun _ _ => trivial

theorem upholds_release (hvars : Registered vars) (h : c.toWorkspace.Upholds vars) (key : String) :
    (c.release host key).1.toWorkspace.Upholds vars := by
  unfold Console.release
  split
  · exact h
  · split
    · next hparse => rwa [Console.toWorkspace_of_parse hparse]
    · next hparse =>
      have h' := h
      rw [← Console.toWorkspace_of_parse hparse] at h'
      split
      · exact h'
      · split
        · exact upholds_runSource hvars h' ..
        · exact h'

theorem upholds_run (hvars : Registered vars) (h : c.toWorkspace.Upholds vars) (d : Dealing) :
    (d.run host c).toWorkspace.Upholds vars := by
  cases d with
  | execute contained source => exact upholds_runSource hvars h contained source
  | evaluate q =>
    exact upholds_perform hvars h (p := .evaluate q fun _ => .stop .passed) fun _ _ => trivial
  | press key =>
    simp only [run, Console.press]
    split
    · exact upholds_runSource hvars h ..
    · exact h
  | release key => exact upholds_release hvars h key
  | set name raw =>
    have hassign : (c.toWorkspace.assign name raw true).1.Upholds vars :=
      h.assign hvars (.set name raw true)
    simp only [run, Console.mapWorkspace, Workspace.set]
    split
    · next hrun => rwa [hrun] at hassign
    · next hrun =>
      rw [hrun] at hassign
      exact hassign.keepChanges
  | assign a => exact h.assign hvars a
  | aliases op => exact h.withAliases (AliasesOp.valid_run h.aliases op)
  | binds op => exact h.withBinds (BindsOp.mirrored_run h.binds op)

/-- **A console holds what was registered**, whatever is done to it. -/
theorem upholds_runAll (hvars : Registered vars) (h : c.toWorkspace.Upholds vars)
    (ds : List Dealing) : (runAll host ds c).toWorkspace.Upholds vars := by
  induction ds generalizing c with
  | nil => exact h
  | cons d ds ih => exact ih (upholds_run hvars h d)

end Dealing

end DevConsole
