import DevConsole.Proofs.Command.AliasNames
import DevConsole.Proofs.Console.Locked
import DevConsole.Proofs.Console.Reports

/-!
What queries cannot reach. Main statement: on a console that has no other commands than its own, no
run changes the commands, the settings, or anything about the variables that the host has registered
but their values; the variables that it adds have names that are reserved for users, and the aliases
that it adds have names that aliases may have.
-/

namespace DevConsole

open Relation

/-! ### Stores -/

namespace Store

variable {ω : Type} {s s' s'' : Store ω} {name : String} {e : Entry}

/-- Whether what happens between `s` and `s'` leaves the built-in variables as they are but for
their values, with those who are told of their changes, and adds none but users' variables. -/
structure Kept (s s' : Store ω) : Prop where
  known : ∀ name e, s.builtins.find? name = some e →
    ∃ value, s'.builtins.find? name = some (e.withValue value)
  unknown : ∀ name, s.builtins.find? name = none → s'.builtins.find? name = none
  listeners : ∀ name, s.builtins.contains name = true →
    s'.listeners.find? name = s.listeners.find? name
  hook : s'.hook = s.hook
  added : ∀ name e, s'.user.find? name = some e →
    e.FitsUser name ∨ ∃ e₀ value, s.user.find? name = some e₀ ∧ e = e₀.withValue value

namespace Kept

theorem of_eq (hbuiltins : s'.builtins = s.builtins) (huser : s'.user = s.user)
    (hlisteners : s'.listeners = s.listeners) (hhook : s'.hook = s.hook) : Kept s s' where
  known := fun _ e hfind => ⟨e.var.value, hbuiltins ▸ hfind⟩
  unknown := fun _ hfind => hbuiltins ▸ hfind
  listeners := fun _ _ => by rw [hlisteners]
  hook := hhook
  added := fun _ e hfind => .inr ⟨e, e.var.value, huser ▸ hfind, rfl⟩

theorem refl (s : Store ω) : Kept s s := of_eq rfl rfl rfl rfl

/-- No built-in variable is added or removed. -/
theorem contains_builtins (h : Kept s s') (name : String) :
    s'.builtins.contains name = s.builtins.contains name := by
  rcases hfind : s.builtins.find? name with _ | e
  · rw [NameMap.contains, NameMap.contains, hfind, h.unknown name hfind]
  · obtain ⟨value, hvalue⟩ := h.known name e hfind
    rw [NameMap.contains, NameMap.contains, hfind, hvalue]
    rfl

theorem trans (h : Kept s s') (h' : Kept s' s'') : Kept s s'' where
  known := by
    intro name e hfind
    obtain ⟨former, hformer⟩ := h.known name e hfind
    obtain ⟨value, hvalue⟩ := h'.known name _ hformer
    exact ⟨value, hvalue⟩
  unknown := fun name hfind => h'.unknown name (h.unknown name hfind)
  listeners := by
    intro name hname
    rw [h'.listeners name (h.contains_builtins name ▸ hname), h.listeners name hname]
  hook := h'.hook.trans h.hook
  added := by
    intro name e hfind
    rcases h'.added name e hfind with hfits | ⟨e', value, hfind', rfl⟩
    · exact .inl hfits
    · rcases h.added name e' hfind' with hfits | ⟨e₀, former, hfind₀, rfl⟩
      · exact .inl (hfits.withValue value)
      · exact .inr ⟨e₀, value, hfind₀, rfl⟩

/-! ### What keeps a store so -/

theorem replace (hfind : s.find? name = some e) (value : e.kind.Value) :
    Kept s (s.replace name (e.withValue value)) := by
  have hsame := refl s
  unfold Store.replace
  split
  · next hname =>
    rw [find?_of_builtin hname] at hfind
    refine { hsame with known := ?_, unknown := ?_ }
    · intro other e' hother
      dsimp only
      rw [NameMap.find?_modify]
      split
      · next heq =>
        subst heq
        obtain rfl := Option.some.inj (hfind.symm.trans hother)
        exact ⟨value, by rw [hfind]; rfl⟩
      · exact hsame.known other e' hother
    · intro other hother
      dsimp only
      rw [NameMap.find?_modify, hother]
      simp
  · next hname =>
    rw [find?_of_user (Bool.not_eq_true _ ▸ hname)] at hfind
    refine { hsame with added := ?_ }
    exact NameMap.forall_modify hsame.added fun _ _ => .inr ⟨e, value, hfind, rfl⟩

theorem commit (hfind : s.find? name = some e) (value : e.kind.Value) (w : ω) (old : String)
    (through : Bool) : Kept s (s.commit w name old (e.withValue value) through).1 := by
  obtain ⟨changes, hcommit⟩ := exists_commit_fst s w name old (e.withValue value) through
  rw [hcommit]
  exact (replace hfind value).trans (of_eq rfl rfl rfl rfl)

/-- An assignment keeps all but a value, also when a listener panics. -/
theorem assign (w : ω) (a : Assignment) : Kept s (a.run s w).1 := by
  rcases a.run_cases s w with ⟨reason, -, hrun⟩ | ⟨e, value, hasks, ⟨-, hrun⟩ | ⟨-, hrun⟩⟩
  · rw [hrun]
    exact refl s
  · rw [hrun]
    exact refl s
  · rw [hrun]
    exact commit hasks.found value w e.text a.through

theorem declare {k : Kind} {v : Variable k} (hrun : s.declare v = .ok s') : Kept s s' := by
  obtain ⟨hvalid, hstart, hlength, -, rfl⟩ := declare_eq_ok hrun
  have hnew : Entry.FitsUser v.name ⟨k, v, true⟩ :=
    ⟨hvalid, hstart, length_lt_of_beginsWith hstart hlength, rfl, rfl⟩
  exact { refl s with added := NameMap.forall_insert (refl s).added (.inl hnew) }

/-- What is removed is not a built-in variable, so those keep their listeners. -/
theorem remove (hrun : s.remove name = .ok s') : Kept s s' := by
  obtain ⟨huser, rfl⟩ := remove_eq_ok hrun
  refine { refl s with
    listeners := ?_, added := NameMap.forall_erase (refl s).added name }
  intro other hother
  have hne : other ≠ name := by
    rintro rfl
    cases hother.symm.trans huser
  rw [NameMap.find?_erase, if_neg hne]

end Kept

end Store

variable {κ ε : Type}

/-! ### Workspaces -/

namespace Workspace

variable {may : String → Prop} {w w' w'' : Workspace κ ε}

/-- Whether what happens between `w` and `w'` leaves alone what queries cannot reach. -/
structure Kept (w w' : Workspace κ ε) : Prop where
  commands : w'.commands = w.commands
  capacity : w'.capacity = w.capacity
  vars : w.vars.Kept w'.vars
  /-- An alias that is added has a name that an alias may have. -/
  aliases : ∀ name, w'.aliases.contains name = true →
    Text.isValidPairedName name = true ∨ w.aliases.contains name = true

namespace Kept

theorem of_vars (h : w.vars.Kept w'.vars) (hcommands : w'.commands = w.commands)
    (hcapacity : w'.capacity = w.capacity) (haliases : w'.aliases = w.aliases) : Kept w w' where
  commands := hcommands
  capacity := hcapacity
  vars := h
  aliases := fun _ hname => .inr (haliases ▸ hname)

theorem of_aliases {aliases : Aliases} (haliases : ∀ name, aliases.contains name = true →
      Text.isValidPairedName name = true ∨ w.aliases.contains name = true) :
    Kept w { w with aliases } where
  commands := rfl
  capacity := rfl
  vars := .refl w.vars
  aliases := haliases

theorem refl (w : Workspace κ ε) : Kept w w := of_vars (.refl w.vars) rfl rfl rfl

theorem trans (h : Kept w w') (h' : Kept w' w'') : Kept w w'' where
  commands := h'.commands.trans h.commands
  capacity := h'.capacity.trans h.capacity
  vars := h.vars.trans h'.vars
  aliases := fun name hname => (h'.aliases name hname).elim .inl (h.aliases name)

theorem noteEdit (h : Kept w w') (key text : String) : Kept w (w'.noteEdit key text) :=
  ⟨h.commands, h.capacity, h.vars, h.aliases⟩

theorem noteEdits (h : Kept w w') (keys : List String) :
    Kept w (keys.foldl (fun w key => w.noteEdit key "") w') := by
  induction keys generalizing w' with
  | nil => exact h
  | cons key keys ih => exact ih (h.noteEdit key "")

/-- The names of aliases stay such that aliases may have them. -/
theorem aliases_valid (h : Kept w w') (hw : w.aliases.Valid) : w'.aliases.Valid := by
  intro name body hfind
  rcases h.aliases name (Option.isSome_of_mem hfind) with hvalid | hformer
  · exact hvalid
  · obtain ⟨former, hformer⟩ := (NameMap.contains_iff_exists _).1 hformer
    exact hw name former hformer

/-- A variable that is added has a name that is reserved for users. -/
theorem begins_of_added (h : Kept w w') {name : String} (hnew : w.vars.has name = false)
    (hhas : w'.vars.has name = true) : NameMap.beginsWith userStart name = true := by
  obtain ⟨hbuiltin, huser⟩ := Bool.or_eq_false_iff.1 hnew
  rw [← h.vars.contains_builtins] at hbuiltin
  rw [Store.has, hbuiltin, Bool.false_or] at hhas
  obtain ⟨e, hfind⟩ := (NameMap.contains_iff_exists _).1 hhas
  rcases h.vars.added name e hfind with hfits | ⟨e₀, value, hformer, -⟩
  · exact hfits.start
  · cases hformer.symm.trans ((NameMap.contains_eq_false_iff _).1 huser)

/-- **No edit reaches further.** -/
theorem of_edit (h : Edit may w w') : Kept w w' := by
  cases h with
  | print | save | bind | unbind | clearBinds => exact of_vars (.refl w.vars) rfl rfl rfl
  | keepChanges => exact of_vars (.of_eq rfl rfl rfl rfl) rfl rfl rfl
  | assign name raw => exact of_vars (.assign w.world (.set name raw true)) rfl rfl rfl
  | reset name => exact of_vars (.assign w.world (.reset name true)) rfl rfl rfl
  | declare name value hrun => exact of_vars (.declare hrun) rfl rfl rfl
  | undeclare _ hrun => exact of_vars (.remove hrun) rfl rfl rfl
  | @defineAlias name body _ _ hrun =>
    obtain ⟨hvalid, rfl⟩ := Aliases.set_eq_ok hrun
    refine noteEdit (of_aliases ?_) name body
    intro other hother
    rw [Aliases.contains, NameMap.contains_insert, Bool.or_eq_true, decide_eq_true_eq] at hother
    rcases hother with rfl | hother
    · exact .inl hvalid
    · exact .inr hother
  | removeAliases hrun =>
    obtain ⟨-, rfl⟩ := Aliases.removePaired_eq_ok hrun
    refine noteEdits (of_aliases fun name hname => .inr ?_) _
    obtain ⟨body, hfind⟩ := (NameMap.contains_iff_exists _).1 hname
    exact NameMap.forall_eraseAll (fun _ _ => Option.isSome_of_mem) _ name body hfind

theorem of_edits (h : Edits may w w') : Kept w w' := by
  induction h with
  | refl => exact refl w
  | tail _ hedit ih => exact ih.trans (of_edit hedit)

end Kept

end Workspace

/-! ### Settings -/

namespace Console

variable {c c' : Console κ ε}

def settings (c : Console κ ε) : Settings where
  maxDepth := c.maxDepth
  iterationWarning := c.iterationWarning
  cacheCapacity := c.cache.capacity
  bufferCapacity := c.capacity

@[simp] theorem settings_print (level : Level) (message : String) :
    (c.print level message).settings = c.settings := rfl

@[simp] theorem settings_report (e : InvocationError) : (c.report e).settings = c.settings := rfl

@[simp] theorem settings_enter : c.enter.settings = c.settings := rfl

@[simp] theorem settings_leave : c.leave.settings = c.settings := rfl

theorem capacity_get (cache : QueryCache) (source : String) :
    (cache.get source).2.capacity = cache.capacity := by
  unfold QueryCache.get QueryCache.add
  split
  · rfl
  · split
    · split <;> rfl
    · rfl

@[simp] theorem settings_parse (source : String) : (c.parse source).2.settings = c.settings := by
  simp [settings, parse, capacity_get]

theorem settings_of_parse {source : String} {answer : Except SyntaxError Query}
    (h : c.parse source = (answer, c')) : c'.settings = c.settings := by
  rw [← settings_parse (c := c) source, h]

@[simp] theorem settings_trim : c.trim.settings = c.settings := by
  unfold trim
  split <;> rfl

@[simp] theorem settings_countStep : c.countStep.settings = c.settings := by
  unfold countStep
  dsimp only
  split <;> rfl

@[simp] theorem settings_warnArguments (call : Invocation) :
    (c.warnArguments call).settings = c.settings := by
  unfold warnArguments
  split <;> rfl

@[simp] theorem settings_settle (contained : Bool) (source : String) (e : QueryError) :
    (c.settle contained source e).settings = c.settings := by
  unfold settle
  split <;> rfl

@[simp] theorem settings_close (name : String) (ending : Ending) :
    (c.close name ending).1.settings = c.settings := by
  unfold close
  split <;> rfl

end Console

/-! ### Runs -/

variable {host : Host κ (Workspace κ ε)} {may : String → Prop} {m m' : Moment κ ε}

/-- A step keeps the settings if it does not reach further than edits do. -/
theorem Step.settings (h : Step host m m') (hm : m.activity.Edits may m.console.toWorkspace) :
    m'.console.settings = m.console.settings := by
  cases h with
  | malformedBody _ _ hparse | expand _ _ hparse =>
    rw [Console.settings_of_parse hparse, Console.settings_warnArguments]
  | malformedSource _ hparse | execute _ hparse => exact Console.settings_of_parse hparse
  | put =>
    have hcapacity := (Workspace.Kept.of_edits hm.1).capacity
    simp [Console.settings, hcapacity]
  | _ => simp

/-- What a run on a console without other commands keeps. -/
theorem Leads.keeps (h : Leads host m m') (hm : m.Edits fun _ => True) :
    m.console.toWorkspace.Kept m'.console.toWorkspace ∧
      m'.console.settings = m.console.settings := by
  refine ⟨.of_edits (h.edits hm fun _ _ _ _ _ => trivial).1, ?_⟩
  induction h with
  | refl => rfl
  | tail hleads hstep ih =>
    obtain ⟨-, hlast⟩ := Leads.edits hleads hm fun _ _ _ _ _ => trivial
    exact (hstep.settings hlast.activity).trans ih

namespace Console

variable {c : Console κ ε}

/-- **Queries do not reach the commands, the settings and what the host has registered**, on a
console that has no other commands than its own: whatever is executed, in any moment and in the end
these are what they were, but for the values of variables. Whatever is added has a name that is kept
for it. -/
theorem kept_of_executeAll (host : Host κ (Workspace κ ε)) (hc : c.OnlyBuiltins)
    (sources : List String) :
    (∀ m, Leads host (.startAll sources c) m →
      c.toWorkspace.Kept m.console.toWorkspace ∧ m.console.settings = c.settings) ∧
    c.toWorkspace.Kept (c.executeAll host sources).toWorkspace ∧
    (c.executeAll host sources).settings = c.settings ∧
    (c.aliases.Valid → (c.executeAll host sources).aliases.Valid) ∧
    ∀ name, c.vars.has name = false → (c.executeAll host sources).vars.has name = true →
      NameMap.beginsWith userStart name = true := by
  have hall : ∀ m, Leads host (.startAll sources c) m →
      c.toWorkspace.Kept m.console.toWorkspace ∧ m.console.settings = c.settings :=
    fun m hleads => hleads.keeps (Moment.edits_startAll hc sources)
  obtain ⟨hkept, hsettings⟩ := hall _ (leads_executeAll sources c)
  exact ⟨hall, hkept, hsettings, hkept.aliases_valid, fun _ => hkept.begins_of_added⟩

end Console

/-! ### A listener that panics -/

/-- A console on which the host has registered one variable, with a listener that panics, and which
has a script. -/
def alarmedConsole : Console Empty Unit :=
  (Console.ofSettings {} ()).mapWorkspace fun w =>
    { w with
      vars := {
        builtins := NameMap.empty.insert "cl_fov" ⟨.int32, .ofDefault "cl_fov" 90, false⟩
        listeners := NameMap.empty.insert "cl_fov" [fun _ _ _ w => (w, some (.text "alarm"))] }
      world := { w.world with
        files := ⟨.ofList [("auto.cfg", .file "declare uv_n int 3\n(wide\nwide; wide")]⟩ }
    }.registerBuiltins (coreCommands ++ [("exec", Builtin.runScript, "Run a file of queries")])

namespace Console

theorem onlyBuiltins_alarmedConsole : alarmedConsole.OnlyBuiltins := by
  refine Workspace.onlyBuiltins_registerBuiltins ?_ _
  intro name command hfind
  cases hfind

/-- The console after a script with a line that fails and with an alias whose assignment makes the
listener panic. -/
def alarmedRun : Console Empty Unit :=
  alarmedConsole.executeAll .idle ["alias wide cl_fov 110", "exec auto.cfg"]

/-- The value is assigned and a variable is added, and nothing else is reached. -/
theorem kept_of_executeAll_alarmedConsole :
    alarmedConsole.OnlyBuiltins ∧ alarmedConsole.toWorkspace.Kept alarmedRun.toWorkspace ∧
      alarmedRun.settings = {} ∧ alarmedRun.vars.text? "cl_fov" = some "110" ∧
      alarmedRun.vars.text? "uv_n" = some "3" := by
  obtain ⟨-, hkept, hsettings, -, -⟩ := kept_of_executeAll .idle
    onlyBuiltins_alarmedConsole ["alias wide cl_fov 110", "exec auto.cfg"]
  exact ⟨onlyBuiltins_alarmedConsole, hkept, hsettings, by decide +kernel, by decide +kernel⟩

end Console

end DevConsole
