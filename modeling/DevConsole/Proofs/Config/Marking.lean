import DevConsole.Frame
import DevConsole.Proofs.Command.AliasNames
import DevConsole.Proofs.Console.Locked

/-!
Edits that are to be saved. Main statement: if queries have changed what would be saved, the hook
has been told of something, on a console that has no other commands than its own; unless a user's
variable that was saved is gone, of which the hook is not told.
-/

namespace DevConsole

open Relation

variable {κ ε : Type}

/-! ### Hooks that mark the world -/

/-- Whether there is a hook that makes `P` hold of the world, and nothing else that an assignment
calls makes it fail or panics. Files do not matter to `P`. -/
structure Store.Marks (P : World ε → Prop) (s : Store (World ε)) : Prop where
  hook : ∃ hook, s.hook = some hook ∧ ∀ name text v, P (hook name text v)
  listeners : ∀ name told, s.listeners.find? name = some told → ∀ listener ∈ told,
    ∀ new old e v, P v → P (listener new old e v).1
  files : ∀ files v, P v → P { v with files }
  calm : s.Calm

namespace Store

variable {P : World ε → Prop} {s s' : Store (World ε)} {v : World ε} {name : String}

namespace Marks

theorem mono (h : s.Marks P) (hhook : s'.hook = s.hook)
    (hlisteners : ∀ name told, s'.listeners.find? name = some told →
      s.listeners.find? name = some told) : s'.Marks P where
  hook := by rw [hhook]; exact h.hook
  listeners := fun name told htold => h.listeners name told (hlisteners name told htold)
  files := h.files
  calm := fun name told htold => h.calm name told (hlisteners name told htold)

/-- The hook marks the world, whatever it is told. -/
theorem tellHook (h : s.Marks P) (name text : String) (v : World ε) :
    P (s.tellHook name text v) := by
  obtain ⟨hook, hhook, hmarks⟩ := h.hook
  rw [Store.tellHook, hhook]
  exact hmarks name text v

theorem told_of_archive (h : s.Marks P) {after : Entry} (harchive : after.flags.archive = true)
    (name : String) (before : Entry) (v : World ε) : P (s.told name before after true v) := by
  obtain ⟨hook, hhook, hmarks⟩ := h.hook
  simp only [told, hhook, harchive, Bool.and_self, if_true]
  exact hmarks ..

theorem told_of_marked (h : s.Marks P) (hv : P v) (name : String) (before after : Entry) :
    P (s.told name before after true v) := by
  have hlisteners : ∀ listener ∈ (s.listeners.find? name).getD [], ∀ new old e v, P v →
      P (listener new old e v).1 := by
    rcases hfind : s.listeners.find? name with _ | told
    · simp
    · exact h.listeners name told hfind
  have hfolded : P (((s.listeners.find? name).getD []).foldl
      (fun w listener => (listener after.text before.text after w).1) v) :=
    List.foldlRecOn _ _ hv fun v hv listener hmem => hlisteners listener hmem _ _ _ v hv
  obtain ⟨hook, hhook, hmarks⟩ := h.hook
  simp only [told, hhook]
  split
  · exact hmarks ..
  · exact hfolded

end Marks

/-- Whether a user's variable of that name is saved. -/
def SavesUser (s : Store (World ε)) (name : String) : Prop :=
  ∃ e, s.user.find? name = some e ∧ e.flags.archive = true

/-- Whether the same variables are saved with the same values. -/
def SavesSame (s s' : Store (World ε)) : Prop :=
  ∀ name, (s'.user.find? name).filter (·.flags.archive) =
      (s.user.find? name).filter (·.flags.archive) ∧
    (s'.builtins.find? name).filter (·.flags.archive) =
      (s.builtins.find? name).filter (·.flags.archive)

end Store

/-- Two maps have the same entries of some sort if they differ in one entry that is not of it. -/
theorem NameMap.filter_find?_eq {α : Type} {m m' : NameMap α} {p : α → Bool} (name : String)
    (hothers : ∀ other, other ≠ name → m'.find? other = m.find? other)
    (h : ∀ a, m.find? name = some a → p a = false)
    (h' : ∀ a, m'.find? name = some a → p a = false) (other : String) :
    (m'.find? other).filter p = (m.find? other).filter p := by
  by_cases heq : other = name
  · subst heq
    rw [Option.filter_eq_none_iff.2 fun a ha => by simp [h' a ha],
      Option.filter_eq_none_iff.2 fun a ha => by simp [h a ha]]
  · rw [hothers other heq]

namespace Store

variable {s s' : Store (World ε)} {name : String}

theorem SavesSame.savesUser (h : s.SavesSame s') {other : String} (hsaves : s'.SavesUser other) :
    s.SavesUser other := by
  obtain ⟨e, hfind, harchive⟩ := hsaves
  have hfilter := (h other).1
  rw [Option.filter_eq_some_iff.2 ⟨hfind, harchive⟩] at hfilter
  exact ⟨e, Option.filter_eq_some_iff.1 hfilter.symm⟩

theorem savesUser_of_replace {e : Entry} (hfind : s.find? name = some e) {value : e.kind.Value}
    {other : String} (hsaves : (s.replace name (e.withValue value)).SavesUser other) :
    s.SavesUser other := by
  obtain ⟨e', hfind', harchive⟩ := hsaves
  unfold replace at hfind'
  split at hfind'
  · exact ⟨e', hfind', harchive⟩
  · next hname =>
    rw [find?_of_user (Bool.not_eq_true _ ▸ hname)] at hfind
    have hall := NameMap.forall_modify (m := s.user) (f := fun _ => e.withValue value)
      (P := fun key e' => e'.flags.archive = true → s.SavesUser key)
      (fun key e' hkey h => ⟨e', hkey, h⟩) (fun _ _ h => ⟨e, hfind, h⟩)
    exact hall other e' hfind' harchive

theorem savesUser_of_commit {v : World ε} {old : String} {after : Entry} {through : Bool}
    {other : String} (hsaves : (s.commit v name old after through).1.SavesUser other) :
    (s.replace name after).SavesUser other := by
  obtain ⟨changes, hcommit⟩ := exists_commit_fst s v name old after through
  rw [hcommit] at hsaves
  exact hsaves

theorem savesUser_of_remove (hrun : s.remove name = .ok s') {other : String}
    (hsaves : s'.SavesUser other) : s.SavesUser other := by
  obtain ⟨-, rfl⟩ := remove_eq_ok hrun
  obtain ⟨e, hfind, harchive⟩ := hsaves
  exact ⟨e, NameMap.forall_erase (fun _ _ h => h) name other e hfind, harchive⟩

/-- What is removed is saved no more. -/
theorem not_savesUser_of_remove (hrun : s.remove name = .ok s') : ¬ s'.SavesUser name := by
  obtain ⟨-, rfl⟩ := remove_eq_ok hrun
  rintro ⟨e, hfind, -⟩
  rw [NameMap.find?_erase, if_pos rfl] at hfind
  cases hfind

/-- Another value of a variable that is not saved does not matter to what is saved. -/
theorem savesSame_replace {e : Entry} (hfind : s.find? name = some e)
    (harchive : e.flags.archive = false) (value : e.kind.Value) :
    s.SavesSame (s.replace name (e.withValue value)) := by
  have hmodify : ∀ m : NameMap Entry, m.find? name = some e → ∀ other,
      ((m.modify name fun _ => e.withValue value).find? other).filter (·.flags.archive) =
        (m.find? other).filter (·.flags.archive) := by
    intro m hm
    refine NameMap.filter_find?_eq name ?_ ?_ ?_
    · intro other hother
      rw [NameMap.find?_modify, if_neg hother]
    · intro e' he'
      rwa [← Option.some.inj (hm.symm.trans he')]
    · intro e' he'
      rw [NameMap.find?_modify, if_pos rfl, hm] at he'
      rwa [← Option.some.inj he']
  intro other
  unfold replace
  split
  · next hname => exact ⟨rfl, hmodify _ ((find?_of_builtin hname).symm.trans hfind) other⟩
  · next hname =>
    exact ⟨hmodify _ ((find?_of_user (Bool.not_eq_true _ ▸ hname)).symm.trans hfind) other, rfl⟩

/-- What users declare does not matter to what is saved. -/
theorem savesSame_declare {k : Kind} {value : k.Value}
    (hrun : s.declare (.ofDefault name value) = .ok s') : s.SavesSame s' := by
  obtain ⟨-, -, -, hnew, rfl⟩ := declare_eq_ok hrun
  have hnone : s.user.find? name = none :=
    (NameMap.contains_eq_false_iff _).1 (Bool.or_eq_false_iff.1 hnew).2
  refine fun other => ⟨NameMap.filter_find?_eq name ?_ ?_ ?_ other, rfl⟩
  · intro other hother
    exact (NameMap.find?_insert ..).trans (if_neg hother)
  · intro e he
    cases hnone.symm.trans he
  · intro e he
    obtain rfl := Option.some.inj (((NameMap.find?_insert ..).trans (if_pos rfl)).symm.trans he)
    rfl

/-- Neither does what is not saved and is removed. -/
theorem savesSame_remove (hrun : s.remove name = .ok s')
    (hnot : ¬ s.SavesUser name) : s.SavesSame s' := by
  obtain ⟨-, rfl⟩ := remove_eq_ok hrun
  refine fun other => ⟨NameMap.filter_find?_eq name ?_ ?_ ?_ other, rfl⟩
  · intro other hother
    rw [NameMap.find?_erase, if_neg hother]
  · intro e he
    exact Bool.eq_false_iff.2 fun harchive => hnot ⟨e, he, harchive⟩
  · intro e he
    rw [NameMap.find?_erase, if_pos rfl] at he
    cases he

end Store

/-! ### What marks the world -/

namespace Workspace

variable {P : World ε → Prop} {w w' w'' : Workspace κ ε}

/-- Whether what happens between `w` and `w'` marks the world if it changes what would be saved, and
takes no mark away. -/
structure MarkedSince (P : World ε → Prop) (w w' : Workspace κ ε) : Prop where
  marked : w'.snapshot ≠ w.snapshot → P w'.world
  kept : P w.world → P w'.world

namespace MarkedSince

theorem refl (w : Workspace κ ε) : MarkedSince P w w := ⟨fun h => absurd rfl h, id⟩

theorem trans (h : MarkedSince P w w') (h' : MarkedSince P w' w'') : MarkedSince P w w'' where
  marked := by
    intro hne
    by_cases heq : w''.snapshot = w'.snapshot
    · exact h'.kept (h.marked (heq ▸ hne))
    · exact h'.marked heq
  kept := h'.kept ∘ h.kept

theorem of_marked (h : P w'.world) : MarkedSince P w w' := ⟨fun _ => h, fun _ => h⟩

theorem of_snapshot_eq (hsnapshot : w'.snapshot = w.snapshot) (hworld : P w.world → P w'.world) :
    MarkedSince P w w' :=
  ⟨fun hne => absurd hsnapshot hne, hworld⟩

end MarkedSince

theorem snapshot_eq_of_savesSame (hvars : w.vars.SavesSame w'.vars)
    (haliases : w'.aliases = w.aliases) (hbinds : w'.binds = w.binds) :
    w'.snapshot = w.snapshot := by
  have hvalues : w'.snapshot.values = w.snapshot.values := by
    refine NameMap.eq_of_find?_eq fun name => ?_
    rw [find?_values, find?_values, (hvars name).1, (hvars name).2]
  simp only [Snapshot.mk.injEq, snapshot, haliases, hbinds, and_true]
  exact hvalues

namespace MarkedSince

/-- The hook that is told of an edit marks the world. -/
theorem noteEdit (hmarks : w'.vars.Marks P) (key text : String) :
    MarkedSince P w (w'.noteEdit key text) :=
  .of_marked (hmarks.tellHook key text _)

theorem noteEdits (hmarks : w'.vars.Marks P) {keys : List String} (hkeys : keys ≠ []) :
    MarkedSince P w (keys.foldl (fun w key => w.noteEdit key "") w') := by
  induction keys generalizing w' with
  | nil => exact absurd rfl hkeys
  | cons key keys ih =>
    rcases keys with _ | ⟨key', keys⟩
    · exact noteEdit hmarks key ""
    · have hnoted : (w'.noteEdit key "").vars.Marks P := hmarks
      exact ih hnoted (List.cons_ne_nil _ _)

theorem assign (hmarks : w.vars.Marks P) {a : Assignment} (hthrough : a.through = true) :
    MarkedSince P w
      { w with vars := (a.run w.vars w.world).1, world := (a.run w.vars w.world).2.1 } := by
  rcases a.run_cases w.vars w.world with
    ⟨reason, -, hrun⟩ | ⟨e, value, hasks, ⟨-, hrun⟩ | ⟨-, hrun⟩⟩
  · rw [hrun]
    exact .refl w
  · rw [hrun]
    exact .refl w
  · rw [hrun, Store.commit_of_calm hmarks.calm, hthrough]
    by_cases harchive : (e.withValue value).flags.archive = true
    · exact .of_marked (hmarks.told_of_archive harchive ..)
    · have hsame := Store.savesSame_replace hasks.found (Bool.not_eq_true _ ▸ harchive) value
      exact .of_snapshot_eq (snapshot_eq_of_savesSame hsame rfl rfl) fun hv =>
        hmarks.told_of_marked hv ..

/-- Every edit that changes what would be saved marks the world, unless it removes a user's variable
that is saved. -/
theorem edit (hmarks : w.vars.Marks P) {may : String → Prop} (hedit : Edit may w w')
    (hkept : ∀ name, w.vars.SavesUser name → w'.vars.SavesUser name) : MarkedSince P w w' := by
  cases hedit with
  | print | keepChanges => exact .of_snapshot_eq rfl id
  | assign name raw => exact assign (a := .set name raw true) hmarks rfl
  | reset name => exact assign (a := .reset name true) hmarks rfl
  | declare _ _ hrun =>
    exact .of_snapshot_eq (snapshot_eq_of_savesSame (Store.savesSame_declare hrun) rfl rfl) id
  | undeclare _ hrun =>
    have hnot : ¬ w.vars.SavesUser _ := fun h => Store.not_savesUser_of_remove hrun (hkept _ h)
    exact .of_snapshot_eq (snapshot_eq_of_savesSame (Store.savesSame_remove hrun hnot) rfl rfl) id
  | defineAlias | bind | unbind | clearBinds =>
    refine noteEdit ?_ _ _
    exact hmarks
  | removeAliases hrun =>
    obtain ⟨hremoved, -⟩ := Aliases.removePaired_eq_ok hrun
    refine noteEdits ?_ hremoved
    exact hmarks
  | save path => exact .of_snapshot_eq rfl (hmarks.files _ _)

end MarkedSince

theorem vars_noteEdits (keys : List String) :
    (keys.foldl (fun w key => w.noteEdit key "") w).vars = w.vars := by
  induction keys generalizing w with
  | nil => rfl
  | cons key keys ih => exact ih

/-- The hook and those who are told stay, whatever is edited. -/
theorem Edit.marks {may : String → Prop} (hedit : Edit may w w') (h : w.vars.Marks P) :
    w'.vars.Marks P := by
  have hassign : ∀ a : Assignment, (a.run w.vars w.world).1.Marks P := by
    intro a
    rcases a.run_cases w.vars w.world with
      ⟨reason, -, hrun⟩ | ⟨e, value, hasks, ⟨-, hrun⟩ | ⟨-, hrun⟩⟩
    · rwa [hrun]
    · rwa [hrun]
    · rw [hrun, Store.commit_of_calm h.calm]
      refine h.mono (Store.hook_replace _) fun _ _ htold => ?_
      rwa [← Store.listeners_replace (e.withValue value)]
  cases hedit with
  | keepChanges => exact h.mono rfl fun _ _ htold => htold
  | assign name raw => exact hassign (.set name raw true)
  | reset name => exact hassign (.reset name true)
  | declare _ _ hrun =>
    obtain ⟨-, -, -, -, rfl⟩ := Store.declare_eq_ok hrun
    exact h.mono rfl fun _ _ htold => htold
  | @undeclare _ name _ hrun =>
    obtain ⟨-, rfl⟩ := Store.remove_eq_ok hrun
    have htold := NameMap.forall_erase (m := w.vars.listeners) (fun _ _ htold => htold) name
    exact h.mono rfl htold
  | removeAliases =>
    rw [vars_noteEdits]
    exact h
  | print | defineAlias | bind | unbind | clearBinds | save => exact h

/-- No edit adds a user's variable that is saved. -/
theorem Edit.savesUser {may : String → Prop} (hedit : Edit may w w') {name : String}
    (h : w'.vars.SavesUser name) : w.vars.SavesUser name := by
  have hassign : ∀ a : Assignment, (a.run w.vars w.world).1.SavesUser name →
      w.vars.SavesUser name := by
    intro a h
    rcases a.run_cases w.vars w.world with
      ⟨reason, -, hrun⟩ | ⟨e, value, hasks, ⟨-, hrun⟩ | ⟨-, hrun⟩⟩
    · rwa [hrun] at h
    · rwa [hrun] at h
    · rw [hrun] at h
      exact Store.savesUser_of_replace hasks.found (Store.savesUser_of_commit h)
  cases hedit with
  | assign key raw => exact hassign (.set key raw true) h
  | reset key => exact hassign (.reset key true) h
  | declare _ _ hrun => exact (Store.savesSame_declare hrun).savesUser h
  | undeclare _ hrun => exact Store.savesUser_of_remove hrun h
  | removeAliases => rwa [vars_noteEdits] at h
  | print | keepChanges | defineAlias | bind | unbind | clearBinds | save => exact h

theorem Edits.savesUser {may : String → Prop} (hedits : Edits may w w') {name : String}
    (h : w'.vars.SavesUser name) : w.vars.SavesUser name := by
  induction hedits with
  | refl => exact h
  | tail _ hedit ih => exact ih (hedit.savesUser h)

/-- Edits that change what would be saved mark the world, unless they remove a user's variable that
was saved. -/
theorem Edits.markedSince {may : String → Prop} (hedits : Edits may w w')
    (hmarks : w.vars.Marks P)
    (hkept : ∀ name, w.vars.SavesUser name → w'.vars.SavesUser name) : MarkedSince P w w' := by
  induction hedits using ReflTransGen.head_induction_on with
  | refl => exact .refl _
  | head hedit hedits ih =>
    -- what is still saved in the end has been saved all the time
    have hfirst := MarkedSince.edit hmarks hedit fun name hname =>
      Edits.savesUser hedits (hkept name hname)
    exact hfirst.trans (ih (hedit.marks hmarks) fun name hname =>
      hkept name (hedit.savesUser hname))

end Workspace

/-! ### Runs -/

namespace Console

variable {host : Host κ (Workspace κ ε)} {c : Console κ ε} {P : World ε → Prop}

/-- **What is to be saved is told to the hook.** If queries have changed what would be saved, what
the hook brings about holds of the world, on a console that has no other commands than its own; and
unless a user's variable that was saved is gone. -/
theorem marked_of_snapshot_ne (hc : c.OnlyBuiltins) (hmarks : c.vars.Marks P)
    (sources : List String)
    (hkept : ∀ name, c.vars.SavesUser name → (c.executeAll host sources).vars.SavesUser name)
    (hne : (c.executeAll host sources).snapshot ≠ c.snapshot) :
    P (c.executeAll host sources).world := by
  have hstart : (Moment.startAll sources c).Edits fun _ => True := Moment.edits_startAll hc sources
  have hleads : Leads host (.startAll sources c) _ := leads_executeAll sources c
  obtain ⟨hedits, -⟩ := hleads.edits hstart fun _ _ _ _ _ => trivial
  exact (Workspace.Edits.markedSince hedits hmarks hkept).marked hne

end Console

/-! ### A registered variable and a declared one -/

def archivedAt (name : String) (value : Int32) : Variable .int32 :=
  { Variable.ofDefault name value with flags := { archive := true } }

/-- A console that sees to saving, on which the host has registered one variable that is saved and
declared another one. -/
def trackedConsole : Console Empty Unit :=
  ((Console.ofSettings {} ()).mapWorkspace fun w =>
    { w with
      vars := {
        builtins := NameMap.empty.insert "cl_fov" ⟨.int32, archivedAt "cl_fov" 90, false⟩
        user := NameMap.empty.insert "uv_volume" ⟨.int32, archivedAt "uv_volume" 70, true⟩ }
    }).installCore.installSaving "console.ron"

namespace Console

theorem onlyBuiltins_trackedConsole : trackedConsole.OnlyBuiltins := by
  refine Workspace.onlyBuiltins_registerBuiltins ?_ (fileCommands "console.ron")
  refine Workspace.onlyBuiltins_registerBuiltins ?_ coreCommands
  rintro _ _ ⟨⟩

theorem marks_trackedConsole : trackedConsole.vars.Marks fun v => v.dirty = true where
  hook := ⟨World.markDirty, rfl, fun _ _ _ => rfl⟩
  listeners := by rintro _ _ ⟨⟩
  files := fun _ _ => id
  calm := by rintro _ _ ⟨⟩

/-- A new value of the registered variable is to be saved, and the world is marked. -/
theorem marked_of_snapshot_ne_trackedConsole :
    (trackedConsole.executeAll .idle ["cl_fov 100"]).snapshot ≠ trackedConsole.snapshot ∧
      (trackedConsole.executeAll .idle ["cl_fov 100"]).world.dirty = true := by
  have hkept : ∀ name, trackedConsole.vars.SavesUser name →
      (trackedConsole.executeAll .idle ["cl_fov 100"]).vars.SavesUser name := by
    rintro name ⟨e, hfind, -⟩
    change (NameMap.empty.insert "uv_volume" _).find? name = some e at hfind
    rw [NameMap.find?_insert] at hfind
    split at hfind
    · next hname =>
      subst hname
      have hfound : (((trackedConsole.executeAll .idle ["cl_fov 100"]).vars.user.find?
          "uv_volume").filter (·.flags.archive)).isSome = true := by
        decide +kernel
      obtain ⟨e', he'⟩ := Option.isSome_iff_exists.1 hfound
      exact ⟨e', Option.filter_eq_some_iff.1 he'⟩
    · cases hfind
  have hne : (trackedConsole.executeAll .idle ["cl_fov 100"]).snapshot ≠
      trackedConsole.snapshot := by
    intro heq
    have hvalues := congrArg (fun s => s.values.find? "cl_fov") heq
    revert hvalues
    decide +kernel
  exact ⟨hne, marked_of_snapshot_ne onlyBuiltins_trackedConsole marks_trackedConsole
    ["cl_fov 100"] hkept hne⟩

/-- Whether whatever changes what would be saved marks the world. -/
def MarksEdits (host : Host κ (Workspace κ ε)) (c : Console κ ε) : Prop :=
  ∀ sources, (c.executeAll host sources).snapshot ≠ c.snapshot →
    (c.executeAll host sources).world.dirty = true

/-- A variable that is saved and that the host has declared can be undeclared without a mark. -/
theorem not_marksEdits_trackedConsole : ¬ trackedConsole.MarksEdits .idle := by
  intro h
  have hmarked := h ["undeclare uv_volume"] fun heq => by
    have hvalues := congrArg (fun s => s.values.find? "uv_volume") heq
    revert hvalues
    decide +kernel
  revert hmarked
  decide +kernel

end Console

end DevConsole
