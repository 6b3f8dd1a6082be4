import DevConsole.Proofs.Variable.Texts
import DevConsole.Variable.Store

/-!
Assignments to variables. Main statement: an assignment is refused, or leaves everything as it is,
or gives one variable another value, of which those are told who are to be told.
-/

namespace DevConsole

/-! ### Entries -/

namespace Entry

def withValue (e : Entry) (value : e.kind.Value) : Entry :=
  { e with var := { e.var with value } }

variable {e : Entry}

@[simp] theorem name_withValue (value : e.kind.Value) : (e.withValue value).name = e.name := rfl

@[simp] theorem flags_withValue (value : e.kind.Value) : (e.withValue value).flags = e.flags := rfl

@[simp] theorem user_withValue (value : e.kind.Value) : (e.withValue value).user = e.user := rfl

@[simp] theorem kind_withValue (value : e.kind.Value) : (e.withValue value).kind = e.kind := rfl

theorem text_withValue_ne (h : e.kind.isExact) {value : e.kind.Value} (hne : value ≠ e.var.value) :
    e.text ≠ (e.withValue value).text :=
  fun htext => hne (Kind.format_injective h htext).symm

theorem assign_eq (e : Entry) (raw : String) : e.assign raw = match e.var.cast raw with
    | .error reason => .error reason
    | .ok value =>
      .ok (if e.kind.same (e.var.store value).value e.var.value then none
        else some (e.withValue (e.var.store value).value)) := by
  obtain ⟨k, v, user⟩ := e
  simp only [assign, Variable.assign]
  rcases v.cast raw with reason | value
  · rfl
  · by_cases hsame : k.same (v.store value).value v.value = true
    · simp [bind, Except.bind, pure, Except.pure, hsame]
    · simp only [bind, Except.bind, pure, Except.pure, hsame, Bool.false_eq_true, if_false,
        Option.map_some]
      rfl

theorem reset_eq (e : Entry) : e.reset =
    if e.kind.same e.var.value e.var.default then none else some (e.withValue e.var.default) := by
  unfold reset Variable.reset
  split <;> rfl

end Entry

namespace Store

variable {ω : Type} {s : Store ω} {name : String}

/-! ### Another variable in place of one -/

theorem find?_replace (e : Entry) (other : String) : (s.replace name e).find? other =
    if other = name then (s.find? other).map fun _ => e else s.find? other := by
  unfold replace
  by_cases hname : s.builtins.contains name = true
  · rw [if_pos hname]
    obtain ⟨former, hformer⟩ := s.builtins.contains_iff_exists.1 hname
    by_cases h : other = name
    · subst h
      simp [find?, NameMap.find?_modify, hformer]
    · simp [find?, NameMap.find?_modify, h]
  · rw [if_neg hname]
    have hnone : s.builtins.find? name = none := by
      rwa [Bool.not_eq_true, NameMap.contains_eq_false_iff] at hname
    by_cases h : other = name
    · subst h
      simp [find?, NameMap.find?_modify, hnone]
    · simp [find?, NameMap.find?_modify, h]

@[simp] theorem names_builtins_replace (e : Entry) :
    (s.replace name e).builtins.names = s.builtins.names := by
  unfold replace
  split <;> simp

@[simp] theorem names_user_replace (e : Entry) :
    (s.replace name e).user.names = s.user.names := by
  unfold replace
  split <;> simp

@[simp] theorem contains_builtins_replace (e : Entry) (other : String) :
    (s.replace name e).builtins.contains other = s.builtins.contains other := by
  unfold replace
  split <;> simp

@[simp] theorem listeners_replace (e : Entry) : (s.replace name e).listeners = s.listeners := by
  unfold replace
  split <;> rfl

@[simp] theorem hook_replace (e : Entry) : (s.replace name e).hook = s.hook := by
  unfold replace
  split <;> rfl

@[simp] theorem changes_replace (e : Entry) : (s.replace name e).changes = s.changes := by
  unfold replace
  split <;> rfl

/-- A variable has become another one even if a listener panics; only the changes that are kept may
be other ones, too. -/
theorem exists_commit_fst (s : Store ω) (w : ω) (name old : String) (e : Entry) (through : Bool) :
    ∃ changes, (s.commit w name old e through).1 = { s.replace name e with changes } := by
  unfold commit
  dsimp only
  split
  · exact ⟨_, rfl⟩
  · exact ⟨_, rfl⟩

theorem has_iff_exists : s.has name = true ↔ ∃ e, s.find? name = some e := by
  simp only [has, find?, NameMap.contains, ← Option.isSome_iff_exists, Option.isSome_or]

end Store

/-! ### Assignments -/

/-- An assignment: of a text, or of the default. -/
inductive Assignment
  | set (name raw : String) (through : Bool)
  | reset (name : String) (through : Bool)
  deriving DecidableEq, Repr

namespace Assignment

def name : Assignment → String
  | set name .. => name
  | reset name _ => name

def through : Assignment → Bool
  | set _ _ through => through
  | reset _ through => through

variable {ω : Type}

def run (s : Store ω) (w : ω) : Assignment → Store ω × ω × Except AssignError Assigned
  | set name raw through => s.set w name raw through
  | reset name through => s.reset w name through

/-- The value that the assignment asks for. -/
def value? (a : Assignment) (e : Entry) : Except CastError e.kind.Value :=
  match a with
  | set _ raw _ => (e.var.cast raw).map fun value => (e.var.store value).value
  | reset .. => .ok e.var.default

/-- Whether the assignment asks for a value of a variable that may be assigned. -/
structure Asks (a : Assignment) (s : Store ω) (e : Entry) (value : e.kind.Value) : Prop where
  found : s.find? a.name = some e
  unlocked : e.flags.lock? = none
  asked : a.value? e = .ok value

variable {a : Assignment} {s : Store ω} {e : Entry}

theorem run_of_none (h : s.find? a.name = none) (w : ω) :
    a.run s w = (s, w, .error (.refused (.notFound a.name))) := by
  cases a with
  | set | reset =>
    simp only [name] at h
    simp only [run, Store.set, Store.reset, h, name]

theorem run_of_lock (h : s.find? a.name = some e) {lock : Lock} (hlock : e.flags.lock? = some lock)
    (w : ω) : a.run s w = (s, w, .error (.refused (.locked e.name lock))) := by
  cases a with
  | set | reset =>
    simp only [name] at h
    simp only [run, Store.set, Store.reset, h, hlock]

theorem run_of_error (h : s.find? a.name = some e) (hlock : e.flags.lock? = none)
    {reason : CastError} (hvalue : a.value? e = .error reason) (w : ω) :
    a.run s w = (s, w, .error (.refused (.invalidValue a.name reason))) := by
  cases a with
  | set other raw through =>
    simp only [name] at h
    rcases hcast : e.var.cast raw with reason' | value
    · simp only [value?, hcast] at hvalue
      cases hvalue
      simp only [run, Store.set, h, hlock, Entry.assign_eq, hcast, name]
    · simp only [value?, hcast] at hvalue
      cases hvalue
  | reset => cases hvalue

/-- An assignment of a value to a variable that may be assigned. -/
theorem Asks.run_eq {value : e.kind.Value} (h : a.Asks s e value) (w : ω) :
    (e.kind.isExact → value = e.var.value) ∧ a.run s w = (s, w, .ok .unchanged) ∨
    (e.kind.isExact → value ≠ e.var.value) ∧
      a.run s w = s.commit w a.name e.text (e.withValue value) a.through := by
  obtain ⟨hfind, hlock, hvalue⟩ := h
  cases a with
  | set other raw through =>
    simp only [name] at hfind
    rcases hcast : e.var.cast raw with reason | cast
    · simp only [value?, hcast] at hvalue
      cases hvalue
    · simp only [value?, hcast] at hvalue
      obtain rfl := Except.ok.inj hvalue
      by_cases hsame : e.kind.same (e.var.store cast).value e.var.value = true
      · refine .inl ⟨fun hk => (Kind.same_iff_eq hk).1 hsame, ?_⟩
        simp only [run, Store.set, hfind, hlock, Entry.assign_eq, hcast, hsame, if_true]
      · refine .inr ⟨fun hk heq => hsame ((Kind.same_iff_eq hk).2 heq), ?_⟩
        simp only [run, Store.set, hfind, hlock, Entry.assign_eq, hcast, hsame, Bool.false_eq_true,
          if_false]
        rfl
  | reset other through =>
    simp only [name] at hfind
    obtain rfl := Except.ok.inj hvalue
    by_cases hsame : e.kind.same e.var.value e.var.default = true
    · refine .inl ⟨fun hk => ((Kind.same_iff_eq hk).1 hsame).symm, ?_⟩
      simp only [run, Store.reset, hfind, hlock, Entry.reset_eq, hsame, if_true]
    · refine .inr ⟨fun hk heq => hsame ((Kind.same_iff_eq hk).2 heq.symm), ?_⟩
      simp only [run, Store.reset, hfind, hlock, Entry.reset_eq, hsame, Bool.false_eq_true,
        if_false]
      rfl

/-- **What an assignment can do.** It is refused, because it asks for nothing that may be assigned,
or the variable has the value that is asked for, or it is given that value. -/
theorem run_cases (a : Assignment) (s : Store ω) (w : ω) :
    (∃ reason, (∀ e value, ¬ a.Asks s e value) ∧
      a.run s w = (s, w, .error (.refused reason))) ∨
    ∃ e value, a.Asks s e value ∧
      ((e.kind.isExact → value = e.var.value) ∧ a.run s w = (s, w, .ok .unchanged) ∨
        (e.kind.isExact → value ≠ e.var.value) ∧
          a.run s w = s.commit w a.name e.text (e.withValue value) a.through) := by
  rcases hfind : s.find? a.name with _ | e
  · refine .inl ⟨.notFound a.name, ?_, run_of_none hfind w⟩
    intro e value hasks
    cases hfind.symm.trans hasks.found
  · rcases hlock : e.flags.lock? with _ | lock
    · rcases hvalue : a.value? e with reason | value
      · refine .inl ⟨.invalidValue a.name reason, ?_, run_of_error hfind hlock hvalue w⟩
        intro e' value hasks
        obtain rfl := Option.some.inj (hfind.symm.trans hasks.found)
        cases hvalue.symm.trans hasks.asked
      · have hasks : a.Asks s e value := ⟨hfind, hlock, hvalue⟩
        exact .inr ⟨e, value, hasks, hasks.run_eq w⟩
    · refine .inl ⟨.locked e.name lock, ?_, run_of_lock hfind hlock w⟩
      intro e' value hasks
      obtain rfl := Option.some.inj (hfind.symm.trans hasks.found)
      cases hlock.symm.trans hasks.unlocked

end Assignment

end DevConsole
