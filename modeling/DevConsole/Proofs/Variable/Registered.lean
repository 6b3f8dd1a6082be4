import DevConsole.Proofs.Variable.Bounds
import DevConsole.Proofs.Variable.Upkeep

/-!
What becomes of the variables that a host has registered. Main statement: whatever is assigned,
declared or removed, they stay as they are but for their values; a locked one keeps its value too,
one that is saved keeps within its bounds, and no other variable is saved.
-/

namespace DevConsole

variable {ω : Type} {s s' : Store ω} {vars : NameMap Entry} {e : Entry}

/-! ### Variables that can be saved -/

/-- Whether the values of a variable are restored from their texts. -/
structure Entry.Portable (e : Entry) : Prop where
  exact : e.kind.isExact = true
  cast : e.var.cast = e.kind.cast
  default : e.var.Admits e.var.default

/-- Whether a host registers the variables, and those of them that are saved are restored from their
texts. -/
structure Registered (vars : NameMap Entry) : Prop where
  built : ∀ name e, vars.find? name = some e → e.var.Built
  portable : ∀ name e, vars.find? name = some e → e.flags.archive = true → e.Portable

theorem Registered.empty : Registered .empty where
  built := by simp
  portable := by simp

/-- A host may register one more variable. -/
theorem Registered.register (h : Registered s.builtins) {k : Kind} {v : Variable k} (hv : v.Built)
    (hportable : v.flags.archive = true → Entry.Portable ⟨k, v, false⟩) {fresh : Bool}
    (hrun : s.register v = .ok (fresh, s')) : Registered s'.builtins := by
  obtain ⟨-, -, rfl⟩ := Store.register_eq_ok hrun
  exact ⟨NameMap.forall_insert h.built hv, NameMap.forall_insert h.portable hportable⟩

/-- Whether a variable may come to the value: a locked one only has the value that it had when it
was registered, and one that is saved keeps within its bounds. -/
structure Entry.Reaches (e : Entry) (value : e.kind.Value) : Prop where
  locked : e.flags.isLocked = true → value = e.var.value
  within : e.flags.archive = true → e.var.Admits value

theorem Entry.Portable.withValue (h : e.Portable) (value : e.kind.Value) :
    (e.withValue value).Portable :=
  ⟨h.exact, h.cast, h.default⟩

/-- What a variable that is saved is assigned lies within its bounds. -/
theorem Entry.Portable.admits_of_value? (h : e.Portable) {a : Assignment} {value : e.kind.Value}
    (hvalue : a.value? e = .ok value) : e.var.Admits value := by
  cases a with
  | set name raw through =>
    simp only [Assignment.value?] at hvalue
    rcases hcast : e.var.cast raw with reason | cast
    · rw [hcast] at hvalue
      cases hvalue
    · rw [hcast] at hvalue
      cases hvalue
      exact Kind.within_clamp h.exact h.default cast
  | reset name through =>
    cases hvalue
    exact h.default

/-! ### Stores that hold what was registered -/

namespace Store

/-- Whether the built-in variables of the store are `vars`, but for values that they may have come
to, and no user's variable is saved. -/
structure Upholds (vars : NameMap Entry) (s : Store ω) : Prop where
  known : ∀ name e, vars.find? name = some e →
    ∃ value, s.builtins.find? name = some (e.withValue value) ∧ e.Reaches value
  unknown : ∀ name, vars.find? name = none → s.builtins.find? name = none
  user : ∀ name e, s.user.find? name = some e → e.flags.archive = false

namespace Upholds

theorem of_builtins_eq (h : s.Upholds vars) (hbuiltins : s'.builtins = s.builtins)
    (huser : ∀ name e, s'.user.find? name = some e → e.flags.archive = false) :
    s'.Upholds vars where
  known := by rw [hbuiltins]; exact h.known
  unknown := by rw [hbuiltins]; exact h.unknown
  user := huser

theorem of_registered (hvars : Registered vars) (hbuiltins : s.builtins = vars)
    (huser : ∀ name e, s.user.find? name = some e → e.flags.archive = false) : s.Upholds vars where
  known := by
    intro name e hfind
    refine ⟨e.var.value, hbuiltins ▸ hfind, fun _ => rfl, fun harchive => ?_⟩
    have hportable := hvars.portable name e hfind harchive
    exact (hvars.built name e hfind).admits hportable.exact hportable.default
  unknown := by
    intro name hfind
    rw [hbuiltins, hfind]
  user := huser

/-- A built-in variable is one of those that were registered. -/
theorem exists_registered (h : s.Upholds vars) {name : String}
    (hfind : s.builtins.find? name = some e) :
    ∃ e₀ value, vars.find? name = some e₀ ∧ e = e₀.withValue value ∧ e₀.Reaches value := by
  rcases hvars : vars.find? name with _ | e₀
  · cases hfind.symm.trans (h.unknown name hvars)
  · obtain ⟨value, hvalue, hreaches⟩ := h.known name e₀ hvars
    exact ⟨e₀, value, rfl, Option.some.inj (hfind.symm.trans hvalue), hreaches⟩

theorem find?_of_registered (h : s.Upholds vars) {name : String}
    (hfind : vars.find? name = some e) :
    ∃ value, s.find? name = some (e.withValue value) ∧ e.Reaches value := by
  obtain ⟨value, hvalue, hreaches⟩ := h.known name e hfind
  exact ⟨value, by rw [find?, hvalue, Option.some_or], hreaches⟩

/-- A variable that is saved is one of those that were registered. -/
theorem exists_saved (h : s.Upholds vars) {name : String} (hfind : s.find? name = some e)
    (harchive : e.flags.archive = true) :
    ∃ e₀ value, vars.find? name = some e₀ ∧ e = e₀.withValue value ∧ e₀.Reaches value := by
  rcases Option.or_eq_some_iff.1 hfind with hbuiltin | ⟨-, huser⟩
  · exact h.exists_registered hbuiltin
  · cases harchive.symm.trans (h.user name e huser)

/-! ### What keeps to what was registered -/

theorem replace (h : s.Upholds vars) {name : String} (hfind : s.find? name = some e)
    (hlock : e.flags.isLocked = false) {value : e.kind.Value}
    (hwithin : e.flags.archive = true → e.var.Admits value) :
    (s.replace name (e.withValue value)).Upholds vars := by
  unfold Store.replace
  split
  · next hname =>
    rw [find?_of_builtin hname] at hfind
    obtain ⟨e₀, former, hvars, rfl, -⟩ := h.exists_registered hfind
    refine ⟨?_, ?_, h.user⟩
    · intro other e₁ hother
      dsimp only
      rw [NameMap.find?_modify]
      split
      · next heq =>
        subst heq
        obtain rfl := Option.some.inj (hvars.symm.trans hother)
        refine ⟨value, by rw [hfind]; rfl, fun hlocked => ?_, hwithin⟩
        cases hlocked.symm.trans hlock
      · exact h.known other e₁ hother
    · intro other hother
      dsimp only
      rw [NameMap.find?_modify, h.unknown other hother]
      simp
  · next hname =>
    rw [find?_of_user (Bool.not_eq_true _ ▸ hname)] at hfind
    exact h.of_builtins_eq rfl (NameMap.forall_modify h.user fun _ _ => h.user name e hfind)

theorem commit {w : ω} {name old : String} {after : Entry} {through : Bool}
    (h : (s.replace name after).Upholds vars) :
    (s.commit w name old after through).1.Upholds vars := by
  obtain ⟨changes, hcommit⟩ := exists_commit_fst s w name old after through
  rw [hcommit]
  exact h.of_builtins_eq rfl h.user

/-- Whatever is assigned to a variable, it keeps to what was registered. -/
theorem assign (h : s.Upholds vars) (hvars : Registered vars) (w : ω) (a : Assignment) :
    (a.run s w).1.Upholds vars := by
  rcases a.run_cases s w with ⟨reason, -, hrun⟩ | ⟨e, value, hasks, ⟨-, hrun⟩ | ⟨-, hrun⟩⟩
  · rwa [hrun]
  · rwa [hrun]
  · rw [hrun]
    refine commit (h.replace hasks.found (by simp [Flags.isLocked, hasks.unlocked]) ?_)
    intro harchive
    obtain ⟨e₀, former, hfind, rfl, -⟩ := h.exists_saved hasks.found harchive
    have hportable := hvars.portable a.name e₀ hfind harchive
    exact (hportable.withValue former).admits_of_value? hasks.asked

/-- What users declare is not saved. -/
theorem declare (h : s.Upholds vars) {name : String} {k : Kind} {value : k.Value}
    (hrun : s.declare (.ofDefault name value) = .ok s') : s'.Upholds vars := by
  obtain ⟨-, -, -, -, rfl⟩ := declare_eq_ok hrun
  exact h.of_builtins_eq rfl (NameMap.forall_insert h.user rfl)

theorem remove (h : s.Upholds vars) {name : String} (hrun : s.remove name = .ok s') :
    s'.Upholds vars := by
  obtain ⟨-, rfl⟩ := remove_eq_ok hrun
  exact h.of_builtins_eq rfl (NameMap.forall_erase h.user name)

end Upholds

end Store

end DevConsole
