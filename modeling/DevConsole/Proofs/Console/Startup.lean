import Mathlib.Data.List.Permutation
import DevConsole.Frame
import DevConsole.Proofs.Config.Loading
import DevConsole.Proofs.Console.EditingQueries

/-!
The start of an application. The console's own commands are installed before what was saved is
loaded, and the host may prepare the console at any time. Main statement: the host's variables get
the values that were saved for them if the host comes before these are loaded, and they keep their
defaults if it comes afterwards.
-/

namespace DevConsole

variable {κ ε : Type} {host : Host κ (Workspace κ ε)}

/-- A new command changes the handler of no other name. -/
theorem Commands.handler_insert_of_ne {η : Type} {cs : Commands η} {new : Command η}
    {name : String} (h : name ≠ new.name) :
    ((cs.insert new).2.find? name).map (·.handler) = (cs.find? name).map (·.handler) := by
  rw [find?_insert, if_neg h, find?_unlink, if_neg h]
  split
  · rw [Option.map_map]
    rfl
  · rfl

/-! ### Hosts -/

/-- What a host does to a console when the application starts. -/
inductive Preparation (κ : Type)
  | var {k : Kind} (v : Variable k)
  | command (new : Command (Handler κ))
  | pair (base : String) (press release : Command (Handler κ))
  | execute (source : String)

namespace Preparation

/-- The console after it; what is refused changes nothing. -/
def run (host : Host κ (Workspace κ ε)) (c : Console κ ε) : Preparation κ → Console κ ε
  | var v =>
    match c.vars.register v with
    | .ok (_, vars) => c.mapWorkspace fun w => { w with vars }
    | .error _ => c
  | command new =>
    match c.commands.register new with
    | .ok (_, commands) => c.mapWorkspace fun w => { w with commands }
    | .error _ => c
  | pair base press release =>
    match c.commands.registerPair base press release with
    | .ok commands => c.mapWorkspace fun w => { w with commands }
    | .error _ => c
  | execute source => (c.execute host source).1

def addTo (vars : NameMap Entry) : Preparation κ → NameMap Entry
  | @var _ k v =>
    if Text.isValidName v.name && !NameMap.beginsWith userStart v.name then
      vars.insert v.name ⟨k, v, false⟩
    else vars
  | _ => vars

def registered (acts : List (Preparation κ)) : NameMap Entry := acts.foldl addTo .empty

/-- Whether it takes none of the names of the commands for aliases and bindings, and runs no queries
but those about aliases and bindings. -/
def Plain : Preparation κ → Prop
  | var v => v.name ≠ "alias" ∧ v.name ≠ "bind"
  | command new => new.name ≠ "alias" ∧ new.name ≠ "bind"
  | pair .. => True
  | execute source => EditingSource source

def isQuery : Preparation κ → Bool
  | execute _ => true
  | _ => false

end Preparation

/-! ### Systems -/

/-- What runs when the application starts. -/
inductive StartSystem
  /-- The console's own commands are installed. -/
  | core
  /-- What was saved is loaded. -/
  | saving
  /-- The host prepares the console. -/
  | host
  deriving DecidableEq

namespace StartSystem

def run (host : Host κ (Workspace κ ε)) (path : String) (acts : List (Preparation κ))
    (c : Console κ ε) : StartSystem → Console κ ε
  | core => c.installCore
  | saving => c.restore path
  | .host => acts.foldl (Preparation.run host) c

/-- Whether all of them run in that order, and the console's own commands are there when what was
saved is loaded. -/
structure Permitted (order : List StartSystem) : Prop where
  once : order.Perm [core, saving, .host]
  installed : [core, saving].Sublist order

/-- The host runs at the beginning, between the other two or at the end. -/
theorem Permitted.cases {order : List StartSystem} (h : Permitted order) :
    order = [.host, core, saving] ∨ order = [core, .host, saving] ∨
      order = [core, saving, .host] := by
  have hall : ∀ order ∈ [core, saving, .host].permutations', [core, saving].Sublist order →
      order = [.host, core, saving] ∨ order = [core, .host, saving] ∨
        order = [core, saving, .host] := by decide
  exact hall order (List.mem_permutations'.2 h.once) h.installed

end StartSystem

namespace Console

/-- A console on which nothing has been done yet. -/
def inWorld (s : Settings) (world : World ε) : Console κ ε :=
  { ofSettings s world.host with world }

def startUp (host : Host κ (Workspace κ ε)) (path : String) (acts : List (Preparation κ))
    (order : List StartSystem) (c : Console κ ε) : Console κ ε :=
  order.foldl (StartSystem.run host path acts) c

/-! ### What a host does -/

variable {c c' : Console κ ε} {acts : List (Preparation κ)} {act : Preparation κ}

/-- Whether one of the two commands that edit aliases and bindings has this name. -/
def IsEditName (name : String) : Prop := name = "alias" ∨ name = "bind"

/-- A step of a host adds one variable, or changes the commands of other names or nothing, or runs a
query about aliases and bindings. -/
theorem preparation_cases (host : Host κ (Workspace κ ε)) (hact : act.Plain) (c : Console κ ε) :
    (∃ k, ∃ v : Variable k, (∀ name, IsEditName name → name ≠ v.name) ∧
      (∀ vars, act.addTo vars = vars.insert v.name ⟨k, v, false⟩) ∧
      act.run host c = c.mapWorkspace fun w => { w with
        vars := { w.vars with builtins := w.vars.builtins.insert v.name ⟨k, v, false⟩ } }) ∨
    (∃ commands : Commands (Handler κ), (∀ vars, act.addTo vars = vars) ∧
      (∀ name, IsEditName name → (commands.find? name).map (·.handler) =
        (c.commands.find? name).map (·.handler)) ∧
      act.run host c = c.mapWorkspace fun w => { w with commands }) ∨
    ∃ source, act = .execute source ∧ EditingSource source := by
  -- what is refused changes no command
  have hrefused : ∀ name, IsEditName name → (c.commands.find? name).map (·.handler) =
      (c.commands.find? name).map (·.handler) := fun _ _ => rfl
  cases act with
  | @var k v =>
    by_cases hname : (Text.isValidName v.name && !NameMap.beginsWith userStart v.name) = true
    · refine .inl ⟨k, v, ?_, fun vars => if_pos hname, ?_⟩
      · rintro name (rfl | rfl)
        · exact hact.1.symm
        · exact hact.2.symm
      · simp only [Bool.and_eq_true, Bool.not_eq_true'] at hname
        simp only [Preparation.run, Store.register, hname, Bool.not_true, Bool.false_eq_true,
          if_false]
        rfl
    · refine .inr (.inl ⟨c.commands, fun vars => if_neg hname, hrefused, ?_⟩)
      simp only [Bool.and_eq_true, Bool.not_eq_true', not_and, Bool.not_eq_false] at hname
      unfold Preparation.run Store.register
      by_cases hvalid : Text.isValidName v.name = true
      · simp only [hvalid, hname hvalid, Bool.not_true, Bool.false_eq_true, if_false, if_true]
        rfl
      · simp only [hvalid, Bool.not_false, if_true]
        rfl
  | command new =>
    refine .inr (.inl ?_)
    unfold Preparation.run Commands.register
    by_cases hvalid : Text.isValidName new.name = true
    · refine ⟨(c.commands.insert new).2, fun _ => rfl, ?_, by simp only [hvalid, if_true]⟩
      rintro name (rfl | rfl)
      · exact Commands.handler_insert_of_ne hact.1.symm
      · exact Commands.handler_insert_of_ne hact.2.symm
    · refine ⟨c.commands, fun _ => rfl, hrefused, ?_⟩
      simp only [hvalid, Bool.false_eq_true, if_false]
      rfl
  | pair base press release =>
    refine .inr (.inl ?_)
    rcases hregister : c.commands.registerPair base press release with e | commands
    · refine ⟨c.commands, fun _ => rfl, hrefused, ?_⟩
      simp only [Preparation.run, hregister]
      rfl
    · refine ⟨commands, fun _ => rfl, fun name hname => ?_, by
        simp only [Preparation.run, hregister]⟩
      obtain ⟨-, hpress, hrelease, rfl⟩ := Commands.registerPair_eq_ok hregister
      have hvalid : Text.isValidName name = true := by
        rcases hname with rfl | rfl <;> decide
      rw [Commands.handler_insert_of_ne, Commands.handler_insert_of_ne]
      · rintro rfl
        rw [hpress, isValidName_press] at hvalid
        cases hvalid
      · rintro rfl
        rw [hrelease, isValidName_release] at hvalid
        cases hvalid
  | execute source => exact .inr (.inr ⟨source, rfl, hact⟩)

theorem Editing.congr (h : c.Editing)
    (hsame : ∀ name, IsEditName name → c'.target name = c.target name) : c'.Editing :=
  ⟨(hsame _ (.inl rfl)).trans h.editAlias, (hsame _ (.inr rfl)).trans h.editBind⟩

theorem Unequipped.congr (h : c.Unequipped)
    (hsame : ∀ name, IsEditName name → c'.target name = c.target name) : c'.Unequipped :=
  ⟨(hsame _ (.inl rfl)).trans h.noAlias, (hsame _ (.inr rfl)).trans h.noBind⟩

/-- A host leaves the names of the commands for aliases and bindings to the console. -/
theorem target_run (hact : act.Plain) (hcache : c.cache.Faithful)
    (hnames : c.Editing ∨ c.Unequipped) {name : String} (hname : IsEditName name) :
    (act.run host c).target name = c.target name := by
  rcases preparation_cases host hact c with
    ⟨k, v, hother, -, hrun⟩ | ⟨commands, -, hsame, hrun⟩ | ⟨source, rfl, hsource⟩
  · rw [hrun]
    refine target_congr rfl rfl ?_
    simp [mapWorkspace, Store.has, NameMap.contains_insert, hother name hname]
  · rw [hrun]
    exact target_congr (hsame name hname) rfl rfl
  · rcases hnames with h | h
    · have h' := (h.execute host hcache hsource).2
      rcases hname with rfl | rfl
      · exact h'.editAlias.trans h.editAlias.symm
      · exact h'.editBind.trans h.editBind.symm
    · have h' := (h.execute host hcache hsource).2.2.2
      rcases hname with rfl | rfl
      · exact h'.noAlias.trans h.noAlias.symm
      · exact h'.noBind.trans h.noBind.symm

/-! ### What a host leaves behind -/

/-- Whether the console has just these variables, in a world with these files, and no listener of it
panics. -/
structure Stocked (vars : NameMap Entry) (files : Files) (c : Console κ ε) : Prop where
  found : ∀ name, c.vars.find? name = vars.find? name
  calm : c.vars.Calm
  files : c.world.files = files

/-- Whether, besides, the console is sound and has the commands for aliases and bindings or nothing
of their names, and its hook leaves files alone. -/
structure Preparable (vars : NameMap Entry) (files : Files) (c : Console κ ε) : Prop
    extends c.Stocked vars files where
  hook : ∀ name text v, (c.vars.tellHook name text v).files = v.files
  sound : ∃ raised, c.Sound raised
  names : c.Editing ∨ c.Unequipped

variable {vars : NameMap Entry} {files : Files}

/-- Commands matter only for the names of those for aliases and bindings. -/
theorem Preparable.withCommands (h : c.Preparable vars files) {commands : Commands (Handler κ)}
    (hnames : (c.mapWorkspace fun w => { w with commands }).Editing ∨
      (c.mapWorkspace fun w => { w with commands }).Unequipped) :
    (c.mapWorkspace fun w => { w with commands }).Preparable vars files where
  found := h.found
  calm := h.calm
  files := h.files
  hook := h.hook
  sound := by
    obtain ⟨raised, hsound⟩ := h.sound
    exact ⟨raised, hsound.of_eq rfl rfl⟩
  names := hnames

theorem Preparable.withVariable (h : c.Preparable vars files) (name : String) (e : Entry)
    (hnames : (c.mapWorkspace fun w => { w with
        vars := { w.vars with builtins := w.vars.builtins.insert name e } }).Editing ∨
      (c.mapWorkspace fun w => { w with
        vars := { w.vars with builtins := w.vars.builtins.insert name e } }).Unequipped) :
    (c.mapWorkspace fun w => { w with
      vars := { w.vars with builtins := w.vars.builtins.insert name e } }).Preparable
        (vars.insert name e) files where
  found := by
    intro other
    have hfound := h.found other
    rw [Store.find?] at hfound
    simp only [mapWorkspace, Store.find?, NameMap.find?_insert]
    split
    · rfl
    · exact hfound
  calm := h.calm
  files := h.files
  hook := h.hook
  sound := by
    obtain ⟨raised, hsound⟩ := h.sound
    exact ⟨raised, hsound.of_eq rfl rfl⟩
  names := hnames

theorem Preparable.execute (h : c.Preparable vars files) {source : String}
    (hsource : EditingSource source)
    (hnames : (c.execute host source).1.Editing ∨ (c.execute host source).1.Unequipped) :
    (c.execute host source).1.Preparable vars files := by
  obtain ⟨raised, hsound⟩ := h.sound
  have hsame : c.toWorkspace.Undisturbed (c.execute host source).1.toWorkspace := by
    rcases h.names with hnames | hnames
    · exact (hnames.execute host hsound.cache hsource).1
    · exact (hnames.execute host hsound.cache hsource).1
  exact {
    found := fun name => (hsame.find?_eq name).trans (h.found name)
    calm := by
      rw [Store.Calm, hsame.listeners_eq]
      exact h.calm
    files := (hsame.files h.hook).trans h.files
    hook := by
      rw [hsame.tellHook_eq]
      exact h.hook
    sound := ⟨_, hsound.runSource false source⟩
    names := hnames }

/-- What a host does to a console leaves it ready for more. -/
theorem Preparable.run (h : c.Preparable vars files) (hact : act.Plain) :
    (act.run host c).Preparable (act.addTo vars) files := by
  obtain ⟨raised, hsound⟩ := h.sound
  have hnames : (act.run host c).Editing ∨ (act.run host c).Unequipped := by
    rcases h.names with hnames | hnames
    · exact .inl (hnames.congr fun name => target_run hact hsound.cache (.inl hnames))
    · exact .inr (hnames.congr fun name => target_run hact hsound.cache (.inr hnames))
  rcases preparation_cases host hact c with
    ⟨k, v, -, hadd, hrun⟩ | ⟨commands, hadd, -, hrun⟩ | ⟨source, rfl, hsource⟩
  · rw [hrun] at hnames ⊢
    rw [hadd]
    exact h.withVariable _ _ hnames
  · rw [hrun] at hnames ⊢
    rw [hadd]
    exact h.withCommands hnames
  · exact h.execute hsource hnames

/-- **A host leaves behind the variables that it registers.** -/
theorem Preparable.runAll (host : Host κ (Workspace κ ε)) (h : c.Preparable vars files)
    (hacts : ∀ act ∈ acts, act.Plain) :
    (acts.foldl (Preparation.run host) c).Preparable (acts.foldl Preparation.addTo vars) files := by
  induction acts generalizing c vars with
  | nil => exact h
  | cons act acts ih =>
    obtain ⟨hact, hacts⟩ := List.forall_mem_cons.1 hacts
    exact ih (h.run hact) hacts

/-- Aliases and bindings are edited by queries only, and only on a console that has the commands for
it. -/
theorem Preparable.edits_runAll (host : Host κ (Workspace κ ε)) (h : c.Preparable vars files)
    (hacts : ∀ act ∈ acts, act.Plain) (hidle : (∀ act ∈ acts, act.isQuery = false) ∨ c.Unequipped) :
    (acts.foldl (Preparation.run host) c).aliases = c.aliases ∧
      (acts.foldl (Preparation.run host) c).binds = c.binds := by
  induction acts generalizing c vars with
  | nil => exact ⟨rfl, rfl⟩
  | cons act acts ih =>
    obtain ⟨hact, hacts⟩ := List.forall_mem_cons.1 hacts
    obtain ⟨raised, hsound⟩ := h.sound
    have hidle' : (∀ act ∈ acts, act.isQuery = false) ∨ (act.run host c).Unequipped := by
      rcases hidle with hquiet | hnames
      · exact .inl fun act' hact' => hquiet act' (List.mem_cons_of_mem act hact')
      · exact .inr (hnames.congr fun name => target_run hact hsound.cache (.inr hnames))
    have hstep : (act.run host c).aliases = c.aliases ∧ (act.run host c).binds = c.binds := by
      rcases preparation_cases host hact c with
        ⟨k, v, -, -, hrun⟩ | ⟨commands, -, -, hrun⟩ | ⟨source, rfl, hsource⟩
      · rw [hrun]
        exact ⟨rfl, rfl⟩
      · rw [hrun]
        exact ⟨rfl, rfl⟩
      · rcases hidle with hquiet | hnames
        · cases hquiet _ List.mem_cons_self
        · obtain ⟨-, haliases, hbinds, -⟩ := hnames.execute host hsound.cache hsource
          exact ⟨haliases, hbinds⟩
    obtain ⟨haliases, hbinds⟩ := ih (h.run hact) hacts hidle'
    exact ⟨haliases.trans hstep.1, hbinds.trans hstep.2⟩

/-! ### Consoles that start -/

/-- Of the console's own commands that are installed under one name the last one counts. -/
theorem handler_registerBuiltins (commands : List (String × Builtin × String))
    (w : Workspace κ ε) (name : String) :
    ((w.registerBuiltins commands).commands.find? name).map (·.handler) =
      ((commands.reverse.find? (·.1 = name)).map fun new => .builtin new.2.1).or
        ((w.commands.find? name).map (·.handler)) := by
  induction commands generalizing w with
  | nil => rfl
  | cons new commands ih =>
    let added : Command (Handler κ) :=
      { name := new.1, handler := .builtin new.2.1, description := new.2.2 }
    have hstep := ih { w with commands := (w.commands.insert added).2 }
    refine hstep.trans ?_
    rw [List.reverse_cons, List.find?_append, Option.map_or, Option.or_assoc]
    congr 1
    by_cases hname : new.1 = name
    · rw [Commands.find?_insert, if_pos hname.symm]
      simp [hname, added]
    · rw [Commands.handler_insert_of_ne fun h => hname h.symm]
      simp [hname]

theorem editing_installCore : c.installCore.Editing := by
  have htarget : ∀ {name b}, (coreCommands.reverse.find? (·.1 = name)).map (fun new => new.2.1) =
      some b → c.installCore.target name = .command (.builtin b) := by
    intro name b hfind
    obtain ⟨new, hnew, rfl⟩ := Option.map_eq_some_iff.1 hfind
    have hhandler := handler_registerBuiltins coreCommands c.toWorkspace name
    rw [hnew] at hhandler
    exact target_eq_command.2 (Option.map_eq_some_iff.1 hhandler)
  exact ⟨htarget (by decide), htarget (by decide)⟩

theorem Editing.installSaving (h : c.Editing) (path : String) : (c.installSaving path).Editing := by
  have htarget : ∀ {name}, ((fileCommands path).reverse.find? (·.1 = name)) = none →
      (c.installSaving path).target name = c.target name := by
    intro name hfind
    have hhandler := handler_registerBuiltins (fileCommands path) c.toWorkspace name
    rw [hfind] at hhandler
    exact target_congr hhandler rfl rfl
  exact ⟨(htarget rfl).trans h.editAlias, (htarget rfl).trans h.editBind⟩

variable (s : Settings) (world : World ε) (path : String)

theorem preparable_inWorld :
    (inWorld s world : Console κ ε).Preparable .empty world.files where
  found := fun _ => rfl
  calm := by rintro _ _ ⟨⟩
  files := rfl
  hook := fun _ _ _ => rfl
  sound := ⟨fun _ => False, (sound_ofSettings s world.host).of_eq rfl rfl⟩
  names := .inr ⟨rfl, rfl⟩

theorem Preparable.registerBuiltins (h : c.Preparable vars files)
    {commands : List (String × Builtin × String)}
    (hnames : (c.mapWorkspace (·.registerBuiltins commands)).Editing) :
    (c.mapWorkspace (·.registerBuiltins commands)).Preparable vars files :=
  h.withCommands (.inl hnames)

theorem Preparable.installCore (h : c.Preparable vars files) :
    c.installCore.Preparable vars files :=
  h.registerBuiltins editing_installCore

/-- What was saved is loaded once the console sees to saving. -/
theorem Stocked.loads (h : c.Stocked vars files) :
    Workspace.Loads (.inFile files path) (c.installSaving path).toWorkspace
      (c.restore path).toWorkspace := by
  rw [← h.files]
  exact Workspace.loads_load (w := (c.installSaving path).toWorkspace) h.calm path

/-- A console is ready for its host after what was saved has been loaded. -/
theorem Stocked.restore (h : c.Stocked .empty files) (hnames : c.Editing)
    (hsound : ∃ raised, c.Sound raised) :
    (c.restore path).Preparable .empty (c.restore path).world.files := by
  have hloads := h.loads path
  exact {
    found := by
      intro name
      have hnone : (c.installSaving path).vars.find? name = none := h.found name
      rw [hloads.vars, hnone]
      rfl
    calm := by
      rw [Store.Calm, hloads.listeners]
      exact h.calm
    files := rfl
    hook := by
      have hhook : (c.restore path).vars.hook = some World.markDirty := hloads.hook
      intro name text v
      rw [Store.tellHook, hhook]
      rfl
    sound := by
      obtain ⟨raised, hsound⟩ := hsound
      exact ⟨raised, hsound.of_eq rfl rfl⟩
    names := .inl ((hnames.installSaving path).of_commands hloads.commands) }

/-- What the console has once it has loaded what was saved. -/
theorem Stocked.find?_restore (h : c.Stocked vars files) (name : String) :
    (c.restore path).vars.find? name =
      (vars.find? name).map ((Snapshot.inFile files path).give name) := by
  have hfound : (c.installSaving path).vars.find? name = vars.find? name := h.found name
  rw [(h.loads path).vars, hfound]

theorem Stocked.edits_restore (h : c.Stocked vars files) :
    (c.restore path).aliases = (Snapshot.inFile files path).aliasesOver c.aliases ∧
      (c.restore path).binds = (Snapshot.inFile files path).bindsOver c.binds :=
  ⟨(h.loads path).aliases, (h.loads path).binds⟩

/-- The console's own commands bring no aliases and no bindings. -/
theorem edits_registerBuiltins (commands : List (String × Builtin × String)) :
    (c.mapWorkspace (·.registerBuiltins commands)).aliases = c.aliases ∧
      (c.mapWorkspace (·.registerBuiltins commands)).binds = c.binds := ⟨rfl, rfl⟩

theorem edits_installCore : c.installCore.aliases = c.aliases ∧ c.installCore.binds = c.binds :=
  edits_registerBuiltins coreCommands

/-- **When the host comes matters.** A host registers variables and commands, and it runs queries
about aliases and bindings. If it comes before what was saved is loaded, then all of its variables
get what the file has for them, and the aliases and bindings of the file are there. If it comes
afterwards, then its variables are as it has registered them. If it runs no queries, or comes before
the console's own commands, then the aliases and the bindings are just those of the file. -/
theorem startUp_of_permitted (host : Host κ (Workspace κ ε)) (hacts : ∀ act ∈ acts, act.Plain)
    {order : List StartSystem} (horder : StartSystem.Permitted order) :
    ([.host, .saving].Sublist order →
      (∀ name, ((inWorld s world).startUp host path acts order).vars.find? name =
        ((Preparation.registered acts).find? name).map
          ((Snapshot.inFile world.files path).give name)) ∧
      ((inWorld s world).startUp host path acts order).HasEdits (.inFile world.files path)) ∧
    ([.saving, .host].Sublist order →
      ∀ name, ((inWorld s world).startUp host path acts order).vars.find? name =
        (Preparation.registered acts).find? name) ∧
    ((∀ act ∈ acts, act.isQuery = false) ∨ [.host, .core].Sublist order →
      ((inWorld s world).startUp host path acts order).aliases =
        (Snapshot.inFile world.files path).aliasesOver {} ∧
      ((inWorld s world).startUp host path acts order).binds =
        (Snapshot.inFile world.files path).bindsOver {}) := by
  have hbegin : (inWorld s world : Console κ ε).Preparable .empty world.files :=
    preparable_inWorld s world
  have hbare : (inWorld s world : Console κ ε).Unequipped := ⟨rfl, rfl⟩
  have hnone : (inWorld s world : Console κ ε).aliases = {} ∧
      (inWorld s world : Console κ ε).binds = {} := ⟨rfl, rfl⟩
  have hcore := hbegin.installCore
  rcases horder.cases with rfl | rfl | rfl
  · have hhost := (hbegin.runAll host hacts).installCore
    refine ⟨fun _ => ⟨hhost.find?_restore path, (hhost.loads path).hasEdits⟩,
      fun hlate => absurd hlate (by decide), fun _ => ?_⟩
    obtain ⟨haliases, hbinds⟩ := hbegin.edits_runAll host hacts (.inr hbare)
    have hedits := hhost.edits_restore path
    rwa [edits_installCore.1, edits_installCore.2, haliases, hbinds, hnone.1, hnone.2] at hedits
  · have hhost := hcore.runAll host hacts
    refine ⟨fun _ => ⟨hhost.find?_restore path, (hhost.loads path).hasEdits⟩,
      fun hlate => absurd hlate (by decide), fun hidle => ?_⟩
    have hquiet := hidle.resolve_right (by decide)
    obtain ⟨haliases, hbinds⟩ := hcore.edits_runAll host hacts (.inl hquiet)
    have hedits := hhost.edits_restore path
    rwa [haliases, hbinds, edits_installCore.1, edits_installCore.2, hnone.1, hnone.2] at hedits
  · have hsaved := hcore.restore path editing_installCore hcore.sound
    have hhost := hsaved.runAll host hacts
    refine ⟨fun hearly => absurd hearly (by decide), fun _ => hhost.found, fun hidle => ?_⟩
    have hquiet := hidle.resolve_right (by decide)
    obtain ⟨haliases, hbinds⟩ := hsaved.edits_runAll host hacts (.inl hquiet)
    have hedits := hcore.edits_restore path
    rw [edits_installCore.1, edits_installCore.2, hnone.1, hnone.2] at hedits
    exact ⟨haliases.trans hedits.1, hbinds.trans hedits.2⟩

end Console

/-! ### A variable that is saved -/

/-- A host whose handlers do nothing. -/
def restingHost : Host Unit (Workspace Unit Unit) := ⟨fun _ _ => .stop .passed⟩

/-- It registers a variable that is saved and a command, and binds a key to a pair of aliases. -/
def quickStart : List (Preparation Unit) :=
  [.var { Variable.ofDefault (k := .int32) "cl_fov" 90 with flags := { archive := true } },
    .command { name := "noclip", handler := .host () },
    .execute "alias +fly \"noclip\"; alias -fly \"noclip\"; bind f +fly"]

def savedWorld : World Unit where
  files := ⟨.ofList [("console.ron", .file "(convars: \x7b\"cl_fov\": \"110\"\x7d)")]⟩
  host := ()

theorem plain_quickStart : ∀ act ∈ quickStart, act.Plain := by
  have hsource : EditingSource "alias +fly \"noclip\"; alias -fly \"noclip\"; bind f +fly" := by
    decide +kernel
  simp [quickStart, Preparation.Plain, hsource, Variable.ofDefault]

namespace Console

/-- The saved value is there if the host comes between the other systems, but not if it comes at the
end; if it comes at the beginning, it defines no alias. -/
theorem startUp_of_permitted_quickStart :
    (((inWorld {} savedWorld).startUp restingHost "console.ron" quickStart
      [.core, .host, .saving]).vars.find? "cl_fov").map Entry.text = some "110" ∧
    (((inWorld {} savedWorld).startUp restingHost "console.ron" quickStart
      [.core, .saving, .host]).vars.find? "cl_fov").map Entry.text = some "90" ∧
    ((inWorld {} savedWorld).startUp restingHost "console.ron" quickStart
      [.host, .core, .saving]).aliases.find? "+fly" = none := by
  have hbetween : StartSystem.Permitted [.core, .host, .saving] := ⟨by decide, by decide⟩
  have hafter : StartSystem.Permitted [.core, .saving, .host] := ⟨by decide, by decide⟩
  have hbefore : StartSystem.Permitted [.host, .core, .saving] := ⟨by decide, by decide⟩
  obtain ⟨hearly, -, -⟩ := startUp_of_permitted {} savedWorld "console.ron" restingHost
    plain_quickStart hbetween
  obtain ⟨-, hlate, -⟩ := startUp_of_permitted {} savedWorld "console.ron" restingHost
    plain_quickStart hafter
  obtain ⟨-, -, hidle⟩ := startUp_of_permitted {} savedWorld "console.ron" restingHost
    plain_quickStart hbefore
  rw [(hearly (by decide)).1, hlate (by decide), (hidle (.inr (by decide))).1]
  exact ⟨by decide +kernel, by decide +kernel, by decide +kernel⟩

/-- Whether the console has the same variables, aliases and bindings after the start, in whatever
order the systems may run. -/
def StartsAlike (host : Host κ (Workspace κ ε)) (path : String) (acts : List (Preparation κ))
    (c : Console κ ε) : Prop :=
  ∀ order order', StartSystem.Permitted order → StartSystem.Permitted order' →
    (∀ name, (c.startUp host path acts order).vars.find? name =
      (c.startUp host path acts order').vars.find? name) ∧
    (c.startUp host path acts order).aliases = (c.startUp host path acts order').aliases ∧
    (c.startUp host path acts order).binds = (c.startUp host path acts order').binds

/-- A host that comes after what was saved has been loaded does not find it. -/
theorem not_startsAlike_quickStart :
    ¬ StartsAlike restingHost "console.ron" quickStart (inWorld {} savedWorld) := by
  intro h
  obtain ⟨hvars, -, -⟩ := h [.core, .host, .saving] [.core, .saving, .host]
    ⟨by decide, by decide⟩ ⟨by decide, by decide⟩
  have hearly : (((inWorld {} savedWorld).startUp restingHost "console.ron" quickStart
      [.core, .host, .saving]).vars.find? "cl_fov").map Entry.text = some "110" := by
    decide +kernel
  rw [hvars] at hearly
  have hlate : (((inWorld {} savedWorld).startUp restingHost "console.ron" quickStart
      [.core, .saving, .host]).vars.find? "cl_fov").map Entry.text = some "90" := by
    decide +kernel
  exact absurd (hearly.symm.trans hlate) (by decide)

end Console

end DevConsole
