import DevConsole.Proofs.Answers
import DevConsole.Proofs.Variable.Assigning

/-!
The upkeep of a store. Main statement: after any operations, each variable is kept under its own
name in the set that its name asks for, only variables have listeners, and an operation that is
refused leaves everything as it is.
-/

namespace DevConsole

variable {ω : Type} {s s' : Store ω} {w : ω} {name : String}

/-! ### Stores in order -/

/-- Whether the entry may be kept under `key` as a built-in variable. -/
structure Entry.FitsBuiltins (key : String) (e : Entry) : Prop where
  valid : Text.isValidName key = true
  start : NameMap.beginsWith userStart key = false
  name : e.name = key
  user : e.user = false

/-- Whether the entry may be kept under `key` as a user's variable. -/
structure Entry.FitsUser (key : String) (e : Entry) : Prop where
  valid : Text.isValidName key = true
  start : NameMap.beginsWith userStart key = true
  longer : userStart.length < key.length
  name : e.name = key
  user : e.user = true

/-- Whether each variable is where it belongs, and whatever has listeners is a variable. -/
structure Store.WellFormed (s : Store ω) : Prop where
  builtins : ∀ key e, s.builtins.find? key = some e → e.FitsBuiltins key
  user : ∀ key e, s.user.find? key = some e → e.FitsUser key
  listeners : ∀ name, s.listeners.contains name = true → s.has name = true

theorem Entry.FitsBuiltins.withValue {key : String} {e : Entry} (h : e.FitsBuiltins key)
    (value : e.kind.Value) : (e.withValue value).FitsBuiltins key :=
  ⟨h.valid, h.start, h.name, h.user⟩

theorem Entry.FitsUser.withValue {key : String} {e : Entry} (h : e.FitsUser key)
    (value : e.kind.Value) : (e.withValue value).FitsUser key :=
  ⟨h.valid, h.start, h.longer, h.name, h.user⟩

namespace Store

theorem find?_of_builtin (h : s.builtins.contains name = true) :
    s.find? name = s.builtins.find? name := by
  rw [find?, Option.or_of_isSome h]

theorem find?_of_user (h : s.builtins.contains name = false) :
    s.find? name = s.user.find? name := by
  rw [find?, (s.builtins.contains_eq_false_iff).1 h, Option.none_or]

/-! ### What the operations do when they are not refused -/

theorem register_eq_ok {k : Kind} {v : Variable k} {fresh : Bool}
    (h : s.register v = .ok (fresh, s')) : Text.isValidName v.name = true ∧
      NameMap.beginsWith userStart v.name = false ∧
      s' = { s with builtins := s.builtins.insert v.name ⟨k, v, false⟩ } := by
  unfold register at h
  split at h
  · cases h
  · next hvalid =>
    split at h
    · cases h
    · next hstart =>
      cases h
      exact ⟨by simpa using hvalid, by simpa using hstart, rfl⟩

theorem declare_eq_ok {k : Kind} {v : Variable k} (h : s.declare v = .ok s') :
    Text.isValidName v.name = true ∧ NameMap.beginsWith userStart v.name = true ∧
      v.name.length ≠ userStart.length ∧ s.has v.name = false ∧
      s' = { s with user := s.user.insert v.name ⟨k, v, true⟩ } := by
  unfold declare at h
  split at h
  · cases h
  · next hvalid =>
    split at h
    · cases h
    · next hstart =>
      simp only [Bool.or_eq_true, Bool.not_eq_true', decide_eq_true_eq, not_or,
        Bool.not_eq_false] at hstart
      split at h
      · cases h
      · next hnew =>
        cases h
        exact ⟨by simpa using hvalid, hstart.1, hstart.2, by simpa using hnew, rfl⟩

theorem remove_eq_ok (h : s.remove name = .ok s') : s.builtins.contains name = false ∧
    s' = { s with user := s.user.erase name, listeners := s.listeners.erase name } := by
  unfold remove at h
  split at h
  · cases h
  · next hbuiltin =>
    split at h
    · cases h
    · cases h
      exact ⟨by simpa using hbuiltin, rfl⟩

theorem listen_eq_ok {listener : Listener ω} (h : s.listen name listener = .ok s') :
    s.has name = true ∧ s' = { s with
      listeners := s.listeners.insert name ((s.listeners.find? name).getD [] ++ [listener]) } := by
  unfold listen at h
  split at h
  · cases h
  · next hname =>
    cases h
    exact ⟨by simpa using hname, rfl⟩

theorem find?_of_declare {k : Kind} {v : Variable k} (h : s.declare v = .ok s') :
    s'.find? v.name = some ⟨k, v, true⟩ := by
  obtain ⟨-, -, -, hnew, rfl⟩ := declare_eq_ok h
  have hbuiltin : s.builtins.find? v.name = none :=
    (NameMap.contains_eq_false_iff _).1 (Bool.or_eq_false_iff.1 hnew).1
  simp [find?, hbuiltin, NameMap.find?_insert]

theorem find?_of_remove (h : s.remove name = .ok s') :
    s'.find? name = none ∧ s'.listeners.find? name = none := by
  obtain ⟨huser, rfl⟩ := remove_eq_ok h
  have hbuiltin : s.builtins.find? name = none := (NameMap.contains_eq_false_iff _).1 huser
  simp [find?, hbuiltin, NameMap.find?_erase]

theorem length_lt_of_beginsWith {start : String} (h : NameMap.beginsWith start name = true)
    (hne : name.length ≠ start.length) : start.length < name.length := by
  have hle := (List.isPrefixOf_iff_prefix.1 h).length_le
  simp only [String.length_toList] at hle
  omega

namespace WellFormed

theorem empty : ({} : Store ω).WellFormed where
  builtins := by simp
  user := by simp
  listeners := by simp [NameMap.contains]

/-- No name is in both sets. -/
theorem user_eq_none (h : s.WellFormed) {e : Entry} (hfind : s.builtins.find? name = some e) :
    s.user.find? name = none := by
  rcases hother : s.user.find? name with _ | e'
  · rfl
  · have hstart := (h.builtins name e hfind).start
    rw [(h.user name e' hother).start] at hstart
    cases hstart

/-- It does not matter in which of the sets a name is looked up first. -/
theorem or_comm (h : s.WellFormed) (name : String) :
    (s.user.find? name).or (s.builtins.find? name) = s.find? name := by
  rcases hfind : s.builtins.find? name with _ | e
  · simp [find?, hfind]
  · simp [find?, hfind, h.user_eq_none hfind]

theorem listeners_eq_none (h : s.WellFormed) (hname : s.has name = false) :
    s.listeners.find? name = none := by
  rw [← NameMap.contains_eq_false_iff, Bool.eq_false_iff]
  intro htold
  rw [h.listeners name htold] at hname
  cases hname

/-! ### What keeps a store in order -/

theorem register (h : s.WellFormed) {k : Kind} {v : Variable k} {fresh : Bool}
    (hrun : s.register v = .ok (fresh, s')) : s'.WellFormed := by
  obtain ⟨hvalid, hstart, rfl⟩ := register_eq_ok hrun
  have hnew : Entry.FitsBuiltins v.name ⟨k, v, false⟩ := ⟨hvalid, hstart, rfl, rfl⟩
  refine ⟨NameMap.forall_insert h.builtins hnew, h.user, ?_⟩
  intro other htold
  have hother : s.has other = true := h.listeners other htold
  simp only [has, Bool.or_eq_true] at hother ⊢
  rw [NameMap.contains_insert, Bool.or_eq_true, or_assoc]
  exact .inr hother

theorem declare (h : s.WellFormed) {k : Kind} {v : Variable k} (hrun : s.declare v = .ok s') :
    s'.WellFormed := by
  obtain ⟨hvalid, hstart, hlength, -, rfl⟩ := declare_eq_ok hrun
  have hnew : Entry.FitsUser v.name ⟨k, v, true⟩ :=
    ⟨hvalid, hstart, length_lt_of_beginsWith hstart hlength, rfl, rfl⟩
  refine ⟨h.builtins, NameMap.forall_insert h.user hnew, ?_⟩
  intro other htold
  have hother : s.has other = true := h.listeners other htold
  simp only [has, Bool.or_eq_true] at hother ⊢
  rw [NameMap.contains_insert, Bool.or_eq_true]
  rcases hother with hother | hother
  · exact .inl hother
  · exact .inr (.inr hother)

/-- A variable that is declared has no listeners left of any former one. -/
theorem listeners_of_declare (h : s.WellFormed) {k : Kind} {v : Variable k}
    (hrun : s.declare v = .ok s') : s'.listeners.find? v.name = none := by
  obtain ⟨-, -, -, hnew, rfl⟩ := declare_eq_ok hrun
  exact h.listeners_eq_none hnew

theorem remove (h : s.WellFormed) (hrun : s.remove name = .ok s') : s'.WellFormed := by
  obtain ⟨-, rfl⟩ := remove_eq_ok hrun
  refine ⟨h.builtins, NameMap.forall_erase h.user name, ?_⟩
  intro other htold
  dsimp only at htold
  rw [NameMap.contains_erase, Bool.and_eq_true] at htold
  have hother : s.has other = true := h.listeners other htold.2
  simp only [has, NameMap.contains_erase, htold.1, Bool.true_and] at hother ⊢
  exact hother

theorem listen (h : s.WellFormed) {listener : Listener ω}
    (hrun : s.listen name listener = .ok s') : s'.WellFormed := by
  obtain ⟨hname, rfl⟩ := listen_eq_ok hrun
  refine ⟨h.builtins, h.user, ?_⟩
  intro other htold
  dsimp only at htold
  rw [NameMap.contains_insert, Bool.or_eq_true, decide_eq_true_eq] at htold
  have hother : s.has other = true := by
    rcases htold with rfl | htold
    · exact hname
    · exact h.listeners other htold
  exact hother

/-- A variable may be given another value. -/
theorem replace (h : s.WellFormed) {e : Entry} (hfind : s.find? name = some e)
    (value : e.kind.Value) : (s.replace name (e.withValue value)).WellFormed := by
  unfold Store.replace
  split
  · next hname =>
    rw [find?_of_builtin hname] at hfind
    have hnew : (e.withValue value).FitsBuiltins name := (h.builtins name e hfind).withValue value
    refine ⟨NameMap.forall_modify h.builtins fun _ _ => hnew, h.user, ?_⟩
    simpa [has] using h.listeners
  · next hname =>
    rw [find?_of_user (Bool.not_eq_true _ ▸ hname)] at hfind
    have hnew : (e.withValue value).FitsUser name := (h.user name e hfind).withValue value
    refine ⟨h.builtins, NameMap.forall_modify h.user fun _ _ => hnew, ?_⟩
    simpa [has] using h.listeners

theorem commit (h : s.WellFormed) {e : Entry} (hfind : s.find? name = some e)
    (value : e.kind.Value) (w : ω) (old : String) (through : Bool) :
    (s.commit w name old (e.withValue value) through).1.WellFormed := by
  have hreplace := h.replace hfind value
  obtain ⟨changes, hcommit⟩ := exists_commit_fst s w name old (e.withValue value) through
  rw [hcommit]
  exact ⟨hreplace.builtins, hreplace.user, hreplace.listeners⟩

theorem assign (h : s.WellFormed) (w : ω) (a : Assignment) : (a.run s w).1.WellFormed := by
  rcases a.run_cases s w with ⟨reason, -, hrun⟩ | ⟨e, value, hasks, ⟨-, hrun⟩ | ⟨-, hrun⟩⟩
  · rwa [hrun]
  · rwa [hrun]
  · rw [hrun]
    exact h.commit hasks.found value w e.text a.through

end WellFormed

end Store

/-! ### Operations -/

inductive StoreOp (ω : Type)
  | register {k : Kind} (v : Variable k)
  | declare {k : Kind} (v : Variable k)
  | remove (name : String)
  | assign (a : Assignment)
  | listen (name : String) (listener : Listener ω)
  | withHook (hook : SaveHook ω)
  | keepChanges (count : Nat)
  | takeChanges

namespace StoreOp

/-- What has become of the store, beside the world that was there. -/
def beside (w : ω) (r : Store ω × Except StoreError Unit) : Store ω × ω × Except AssignError Unit :=
  (r.1, w, r.2.mapError .refused)

def run (s : Store ω) (w : ω) : StoreOp ω → Store ω × ω × Except AssignError Unit
  | register v => beside w (takeOrKeep s Prod.snd (s.register v))
  | declare v => beside w (takeOrKeep s id (s.declare v))
  | remove name => beside w (takeOrKeep s id (s.remove name))
  | assign a => ((a.run s w).1, (a.run s w).2.1, (a.run s w).2.2.map fun _ => ())
  | listen name listener => beside w (takeOrKeep s id (s.listen name listener))
  | withHook hook => (s.withHook hook, w, .ok ())
  | keepChanges count => (s.keepChanges count, w, .ok ())
  | takeChanges => (s.takeChanges.2, w, .ok ())

def runAll : List (StoreOp ω) → Store ω → ω → Store ω × ω
  | [], s, w => (s, w)
  | op :: ops, s, w => runAll ops (op.run s w).1 (op.run s w).2.1

theorem wellFormed_run (h : s.WellFormed) (w : ω) (op : StoreOp ω) :
    (op.run s w).1.WellFormed := by
  cases op with
  | register v => exact takeOrKeep_holds h fun _ hrun => h.register hrun
  | declare v => exact takeOrKeep_holds h fun _ hrun => h.declare hrun
  | remove name => exact takeOrKeep_holds h fun _ hrun => h.remove hrun
  | assign a => exact h.assign w a
  | listen name listener => exact takeOrKeep_holds h fun _ hrun => h.listen hrun
  | withHook | keepChanges | takeChanges => exact ⟨h.builtins, h.user, h.listeners⟩

theorem wellFormed_runAll (h : s.WellFormed) (w : ω) (ops : List (StoreOp ω)) :
    (runAll ops s w).1.WellFormed := by
  induction ops generalizing s w with
  | nil => exact h
  | cons op ops ih => exact ih (wellFormed_run h w op) _

theorem beside_of_refused {α : Type} {new : α → Store ω} {answer : Except StoreError α}
    {e : StoreError} (h : (beside w (takeOrKeep s new answer)).2.2 = .error (.refused e)) :
    beside w (takeOrKeep s new answer) = (s, w, .error (.refused e)) := by
  cases answer with
  | error e' =>
    cases h
    rfl
  | ok x => cases h

theorem run_eq_of_refused {op : StoreOp ω} {e : StoreError}
    (h : (op.run s w).2.2 = .error (.refused e)) : op.run s w = (s, w, .error (.refused e)) := by
  cases op with
  | register | declare | remove | listen => exact beside_of_refused h
  | withHook | keepChanges | takeChanges => cases h
  | assign a =>
    simp only [run] at h ⊢
    rcases a.run_cases s w with ⟨reason, -, hrun⟩ | ⟨e', value, -, ⟨-, hrun⟩ | ⟨-, hrun⟩⟩
    · rw [hrun] at h ⊢
      cases h
      rfl
    · rw [hrun] at h
      cases h
    · rw [hrun] at h
      unfold Store.commit at h
      dsimp only at h
      split at h <;> cases h

/-- Whether a store is in order, and what is done to it next is done in full or not at all. -/
structure InOrder (s : Store ω) (w : ω) : Prop where
  wellFormed : s.WellFormed
  disjoint : ∀ name, s.builtins.contains name = true → s.user.contains name = false
  /-- It does not matter in which set a name is looked up first. -/
  lookup : ∀ name, (s.user.find? name).or (s.builtins.find? name) = s.find? name
  removed : ∀ name s', s.remove name = .ok s' →
    s'.find? name = none ∧ s'.listeners.find? name = none
  /-- A variable that is declared has no listeners left of any former one. -/
  declared : ∀ (k : Kind) (v : Variable k) (s' : Store ω), s.declare v = .ok s' →
    s'.find? v.name = some ⟨k, v, true⟩ ∧ s'.listeners.find? v.name = none
  refused : ∀ (op : StoreOp ω) (e : StoreError), (op.run s w).2.2 = .error (.refused e) →
    op.run s w = (s, w, .error (.refused e))

/-- **The store is kept in order** by any operations, also by ones that fail: each variable is where
it belongs, and whatever has listeners is a variable. -/
theorem inOrder_runAll (ops : List (StoreOp ω)) (w : ω) :
    InOrder (runAll ops {} w).1 (runAll ops {} w).2 := by
  have h : (runAll ops {} w).1.WellFormed := wellFormed_runAll .empty w ops
  exact {
    wellFormed := h
    disjoint := by
      intro name hname
      obtain ⟨e, hfind⟩ := (NameMap.contains_iff_exists _).1 hname
      exact (NameMap.contains_eq_false_iff _).2 (h.user_eq_none hfind)
    lookup := h.or_comm
    removed := fun _ _ => Store.find?_of_remove
    declared := fun _ _ _ hrun => ⟨Store.find?_of_declare hrun, h.listeners_of_declare hrun⟩
    refused := fun _ _ => run_eq_of_refused }

end StoreOp

end DevConsole
