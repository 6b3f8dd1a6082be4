import DevConsole.Proofs.Console.Edits
import DevConsole.Proofs.Variable.History
import DevConsole.Proofs.Variable.Upkeep

/-!
Locked variables. Main statement: on a console that has no other commands than its own, no run
touches a locked variable, except that a user's one may be undeclared, for which the lock is not
asked.
-/

namespace DevConsole

open Relation

variable {κ ε : Type}

/-! ### What is told of changes -/

/-- `Calls s name v v'` says that the world `v` becomes `v'` by one call of the hook or of a listener
of a variable other than `name`, or because files are written. -/
inductive Store.Calls (s : Store (World ε)) (name : String) : World ε → World ε → Prop
  | listener {v : World ε} {other : String} {told : List (Listener (World ε))}
      {listener : Listener (World ε)} (new old : String) (e : Entry) :
    other ≠ name → s.listeners.find? other = some told → listener ∈ told →
    Calls s name v (listener new old e v).1
  | hook {v : World ε} {hook : SaveHook (World ε)} (key text : String) :
    s.hook = some hook → Calls s name v (hook key text v)
  | files {v : World ε} (files : Files) : Calls s name v { v with files }

namespace Store

variable {s s' : Store (World ε)} {name : String}

theorem Calls.mono {v v' : World ε} (h : Calls s' name v v')
    (hlisteners : ∀ other told, s'.listeners.find? other = some told →
      s.listeners.find? other = some told)
    (hhook : s'.hook = s.hook) : Calls s name v v' := by
  cases h with
  | listener new old e hother hfind hmem =>
    exact .listener new old e hother (hlisteners _ _ hfind) hmem
  | hook key text h => exact .hook key text (hhook ▸ h)
  | files files => exact .files files

theorem calls_tellListeners {other : String} (hother : other ≠ name) (new old : String) (e : Entry)
    {told : List (Listener (World ε))}
    (htold : ∀ listener ∈ told, ∃ all, s.listeners.find? other = some all ∧ listener ∈ all)
    (v : World ε) : ReflTransGen (Calls s name) v (tellListeners new old e told v).1 := by
  induction told generalizing v with
  | nil => exact .refl
  | cons listener rest ih =>
    obtain ⟨all, hfind, hmem⟩ := htold listener List.mem_cons_self
    have hcall : Calls s name v (listener new old e v).1 :=
      .listener new old e hother hfind hmem
    unfold tellListeners
    split
    · next v' h =>
      rw [h] at hcall
      exact .head hcall (ih (fun l hl => htold l (List.mem_cons_of_mem _ hl)) v')
    · next v' p h =>
      rw [h] at hcall
      exact .single hcall

theorem calls_tellHook (key text : String) (v : World ε) :
    ReflTransGen (Calls s name) v (s.tellHook key text v) := by
  unfold tellHook
  split
  · next hook h => exact .single (.hook key text h)
  · exact .refl

end Store

/-! ### Variables that are not touched -/

/-- Whether what happens between `w` and `w'` does not touch the variable of that name: it is still
the one that it was, it has the same listeners, none of which is called, and there are no changes of
it but those that were kept before. -/
structure Workspace.Untouched (name : String) (w w' : Workspace κ ε) : Prop where
  found : w'.vars.find? name = w.vars.find? name
  builtin : w'.vars.builtins.contains name = w.vars.builtins.contains name
  listeners : w'.vars.listeners.find? name = w.vars.listeners.find? name
  changes : changesOf name w'.vars.changes <:+ changesOf name w.vars.changes
  /-- Nobody is told of anything who was not told before. -/
  told : ∀ other told, w'.vars.listeners.find? other = some told →
    w.vars.listeners.find? other = some told
  hook : w'.vars.hook = w.vars.hook
  world : ReflTransGen (w.vars.Calls name) w.world w'.world

namespace Workspace

variable {may : String → Prop} {name : String} {w w' w'' : Workspace κ ε} {e : Entry}

namespace Untouched

theorem of_vars_eq (hvars : w'.vars = w.vars)
    (hworld : ReflTransGen (w.vars.Calls name) w.world w'.world) : Untouched name w w' where
  found := by rw [hvars]
  builtin := by rw [hvars]
  listeners := by rw [hvars]
  changes := by simp only [hvars, List.suffix_rfl]
  told := by rw [hvars]; exact fun _ _ h => h
  hook := by rw [hvars]
  world := hworld

theorem refl (w : Workspace κ ε) : Untouched name w w := of_vars_eq rfl .refl

theorem trans (h : Untouched name w w') (h' : Untouched name w' w'') : Untouched name w w'' where
  found := h'.found.trans h.found
  builtin := h'.builtin.trans h.builtin
  listeners := h'.listeners.trans h.listeners
  changes := h'.changes.trans h.changes
  told := fun other told hfind => h.told other told (h'.told other told hfind)
  hook := h'.hook.trans h.hook
  world := h.world.trans
    (ReflTransGen.mono (fun _ _ hcall => hcall.mono h.told h.hook) _ _ h'.world)

/-! ### What does not touch a locked variable -/

theorem noteEdit (h : Untouched name w w') (key text : String) :
    Untouched name w (w'.noteEdit key text) :=
  h.trans (of_vars_eq rfl (Store.calls_tellHook key text w'.world))

theorem noteEdits (h : Untouched name w w') (keys : List String) :
    Untouched name w (keys.foldl (fun w key => w.noteEdit key "") w') := by
  induction keys generalizing w' with
  | nil => exact h
  | cons key keys ih => exact ih (h.noteEdit key "")

theorem keepChanges : Untouched name w w.keepChanges where
  found := rfl
  builtin := rfl
  listeners := rfl
  changes := (List.drop_suffix _ _).filter _
  told := fun _ _ h => h
  hook := rfl
  world := .refl

theorem commit {other : String} (hother : other ≠ name) (old : String) (changed : Entry)
    (through : Bool) :
    Untouched name w { w with
      vars := (w.vars.commit w.world other old changed through).1
      world := (w.vars.commit w.world other old changed through).2.1 } := by
  have hreplace : ∀ v, ReflTransGen (w.vars.Calls name) w.world v →
      Untouched name w { w with vars := w.vars.replace other changed, world := v } := by
    intro v hcalls
    exact {
      found := by rw [Store.find?_replace, if_neg hother.symm]
      builtin := Store.contains_builtins_replace ..
      listeners := by rw [Store.listeners_replace]
      changes := by simp only [Store.changes_replace, List.suffix_rfl]
      told := by rw [Store.listeners_replace]; exact fun _ _ h => h
      hook := Store.hook_replace _
      world := hcalls }
  have htold : ∀ listener ∈ (w.vars.listeners.find? other).getD [],
      ∃ all, w.vars.listeners.find? other = some all ∧ listener ∈ all := by
    rcases w.vars.listeners.find? other with _ | all
    · simp
    · exact fun _ h => ⟨all, rfl, h⟩
  have hcalls := Store.calls_tellListeners hother changed.text old changed htold w.world
  unfold Store.commit
  dsimp only
  rw [Store.listeners_replace]
  -- after a panic of a listener the value stays, but the hook is not told and nothing is kept
  split
  · next v p h =>
    rw [h] at hcalls
    exact hreplace v hcalls
  · next v h =>
    rw [h] at hcalls
    have hhook : ReflTransGen (w.vars.Calls name) w.world
        (if through && changed.flags.archive then
          (w.vars.replace other changed).tellHook other changed.text v else v) := by
      split
      · rw [Store.tellHook, Store.hook_replace]
        exact hcalls.trans (Store.calls_tellHook other changed.text v)
      · exact hcalls
    have h' := hreplace _ hhook
    refine ⟨h'.found, h'.builtin, rfl, ?_, fun _ _ h => h, h'.hook, hhook⟩
    rw [Store.changes_replace, changesOf_append]
    simp [changesOf, hother]

theorem assign (hfind : w.vars.find? name = some e) (hlock : e.flags.isLocked = true)
    (a : Assignment) :
    Untouched name w { w with vars := (a.run w.vars w.world).1,
                              world := (a.run w.vars w.world).2.1 } := by
  rcases a.run_cases w.vars w.world with
    ⟨reason, -, hrun⟩ | ⟨e', value, hasks, ⟨-, hrun⟩ | ⟨-, hrun⟩⟩
  · rw [hrun]
    exact refl w
  · rw [hrun]
    exact refl w
  · rw [hrun]
    refine commit ?_ _ _ _
    rintro rfl
    obtain rfl : e = e' := Option.some.inj (hfind.symm.trans hasks.found)
    rw [Flags.isLocked, hasks.unlocked] at hlock
    cases hlock

theorem declare (hfind : w.vars.find? name = some e) {k : Kind} {v : Variable k}
    {vars : Store (World ε)} (hrun : w.vars.declare v = .ok vars) :
    Untouched name w { w with vars } := by
  obtain ⟨-, -, -, hnew, rfl⟩ := Store.declare_eq_ok hrun
  have hname : name ≠ v.name := by
    rintro rfl
    rw [Store.has_iff_exists.2 ⟨e, hfind⟩] at hnew
    cases hnew
  refine ⟨?_, rfl, rfl, List.suffix_rfl, fun _ _ h => h, rfl, .refl⟩
  simp [Store.find?, NameMap.find?_insert, hname]

theorem undeclare {other : String} {vars : Store (World ε)} (hrun : w.vars.remove other = .ok vars)
    (hother : w.vars.builtins.contains name = true ∨ other ≠ name) :
    Untouched name w { w with vars } := by
  obtain ⟨huser, rfl⟩ := Store.remove_eq_ok hrun
  have hname : name ≠ other := by
    rintro rfl
    rcases hother with hbuiltin | hne
    · rw [hbuiltin] at huser
      cases huser
    · exact hne rfl
  have htold := NameMap.forall_erase (m := w.vars.listeners) (fun _ _ h => h) other
  refine ⟨?_, rfl, ?_, List.suffix_rfl, htold, rfl, .refl⟩
  · simp [Store.find?, NameMap.find?_erase, hname]
  · rw [NameMap.find?_erase, if_neg hname]

/-- No edit touches a locked variable, unless it removes a user's one. -/
theorem of_edit (h : Edit may w w') (hfind : w.vars.find? name = some e)
    (hlock : e.flags.isLocked = true)
    (hmay : w.vars.builtins.contains name = true ∨ ¬ may name) : Untouched name w w' := by
  cases h with
  | print => exact of_vars_eq rfl .refl
  | keepChanges => exact keepChanges
  | assign key raw => exact assign hfind hlock (.set key raw true)
  | reset key => exact assign hfind hlock (.reset key true)
  | declare key value hrun => exact declare hfind hrun
  | undeclare hother hrun =>
    refine undeclare hrun (hmay.imp_right fun hnot => ?_)
    rintro rfl
    exact hnot hother
  | removeAliases =>
    refine noteEdits ?_ _
    exact of_vars_eq rfl .refl
  | defineAlias | bind | unbind | clearBinds =>
    refine noteEdit ?_ _ _
    exact of_vars_eq rfl .refl
  | save path => exact of_vars_eq rfl (.single (.files _))

theorem of_edits (h : Edits may w w') (hfind : w.vars.find? name = some e)
    (hlock : e.flags.isLocked = true)
    (hmay : w.vars.builtins.contains name = true ∨ ¬ may name) : Untouched name w w' := by
  induction h with
  | refl => exact refl w
  | tail _ hedit ih =>
    exact ih.trans (of_edit hedit (ih.found.trans hfind) hlock (ih.builtin ▸ hmay))

end Untouched

end Workspace

/-! ### Runs -/

variable {host : Host κ (Workspace κ ε)}

/-- Whether the variable of that name is not undeclared in the part of a run from `m` to `m'`. -/
def Spares (host : Host κ (Workspace κ ε)) (name : String) (m m' : Moment κ ε) : Prop :=
  ∀ m'', Leads host m m'' → Leads host m'' m' → ¬ m''.Undeclares name

namespace Console

variable {c : Console κ ε} {name : String} {e : Entry}

/-- **A locked variable is out of reach of queries**, on a console that has no other commands than
its own: whatever is executed, in no moment has it been touched. The lock does not keep a user's
variable from being undeclared, so of such a one this is said until then. -/
theorem untouched_of_locked (hc : c.OnlyBuiltins) (hfind : c.vars.find? name = some e)
    (hlock : e.flags.isLocked = true) (sources : List String) :
    (∀ m, Leads host (.startAll sources c) m →
      c.vars.builtins.contains name = true ∨ Spares host name (.startAll sources c) m →
      c.toWorkspace.Untouched name m.console.toWorkspace) ∧
    (c.vars.builtins.contains name = true ∨ Spares host name (.startAll sources c)
        ⟨.handler (.stop .passed), [], c.executeAll host sources⟩ →
      c.toWorkspace.Untouched name (c.executeAll host sources).toWorkspace) := by
  have hall : ∀ m, Leads host (.startAll sources c) m →
      c.vars.builtins.contains name = true ∨ Spares host name (.startAll sources c) m →
      c.toWorkspace.Untouched name m.console.toWorkspace := by
    intro m hleads hkept
    have hmay : ∀ m', Leads host (.startAll sources c) m' → Leads host m' m →
        ∀ other, m'.Undeclares other →
          c.vars.builtins.contains name = true ∨ other ≠ name := by
      intro m' h h' other hother
      refine hkept.imp_right fun hspares => ?_
      rintro rfl
      exact hspares m' h h' hother
    obtain ⟨hedits, -⟩ := hleads.edits (Moment.edits_startAll hc sources) hmay
    exact .of_edits hedits hfind hlock (by simp)
  exact ⟨hall, hall _ (leads_executeAll sources c)⟩

end Console

/-! ### A registered variable and a declared one -/

def fixedAt (name : String) (value : Int32) : Variable .int32 :=
  { Variable.ofDefault name value with flags := { readOnly := true } }

def Host.idle {γ : Type} : Host Empty γ := ⟨fun k => k.elim⟩

/-- A console on which the host has registered one fixed variable and declared another one. -/
def fixedConsole : Console Empty Unit :=
  (Console.ofSettings {} ()).mapWorkspace fun w =>
    { w with
      vars := {
        builtins := NameMap.empty.insert "sv_version" ⟨.int32, fixedAt "sv_version" 7, false⟩
        user := NameMap.empty.insert "uv_limit" ⟨.int32, fixedAt "uv_limit" 5, true⟩ }
    }.registerBuiltins coreCommands

example : (do
    let (_, s) ← ({} : Store (World Unit)).register (fixedAt "sv_version" 7)
    s.declare (fixedAt "uv_limit" 5)) = .ok fixedConsole.vars := by
  rfl

namespace Console

theorem onlyBuiltins_fixedConsole : fixedConsole.OnlyBuiltins := by
  refine Workspace.onlyBuiltins_registerBuiltins ?_ coreCommands
  intro name command hfind
  cases hfind

/-- A registered variable stays as it is, whatever is done to it. -/
theorem untouched_of_locked_fixedConsole :
    fixedConsole.toWorkspace.Untouched "sv_version"
      (fixedConsole.executeAll .idle ["undeclare sv_version", "sv_version 8"]).toWorkspace := by
  have hfind : fixedConsole.vars.find? "sv_version" =
      some ⟨.int32, fixedAt "sv_version" 7, false⟩ := by rfl
  exact (untouched_of_locked onlyBuiltins_fixedConsole hfind rfl _).2 (.inl (by rfl))

/-- Whether no queries take a locked variable away or change it. -/
def KeepsLocked (host : Host κ (Workspace κ ε)) (c : Console κ ε) : Prop :=
  ∀ name e sources, c.vars.find? name = some e → e.flags.isLocked = true →
    (c.executeAll host sources).vars.find? name = some e

/-- A locked variable that the host has declared can be undeclared, and then it can be declared
again with another value. -/
theorem not_keepsLocked_fixedConsole : ¬ fixedConsole.KeepsLocked .idle ∧
    (fixedConsole.executeAll .idle ["undeclare uv_limit", "declare uv_limit int 99"]).vars.text?
      "uv_limit" = some "99" := by
  constructor
  · intro h
    have hfind : fixedConsole.vars.find? "uv_limit" =
        some ⟨.int32, fixedAt "uv_limit" 5, true⟩ := by rfl
    have hclaimed := Store.has_iff_exists.2 ⟨_, h _ _ ["undeclare uv_limit"] hfind rfl⟩
    have hactual : (fixedConsole.executeAll .idle ["undeclare uv_limit"]).vars.has "uv_limit" =
        false := by
      decide +kernel
    rw [hactual] at hclaimed
    cases hclaimed
  · decide +kernel

end Console

end DevConsole
