import Mathlib.Data.List.Induction
import DevConsole.Builtin
import DevConsole.Proofs.Variable.Bounds

/-!
Values between bounds. Main statement: once both bounds of a whole number are in place, its value
lies between them, whoever assigns to it and by whatever rule texts are taken for values. Only the
default may lie outside, which bounds do not act on: from a reset on, until something else is
assigned.
-/

namespace DevConsole

/-! ### The order of whole numbers -/

namespace Kind

variable {k : Kind} {low high value : k.Value}

/-- The order of whole numbers; other values are in no order. -/
def AtMost : (k : Kind) → k.Value → k.Value → Prop
  | int32, a, b => a ≤ b
  | int64, a, b => a ≤ b
  | _, _, _ => False

instance decidableAtMost : (k : Kind) → (a b : k.Value) → Decidable (k.AtMost a b)
  | int32, a, b => Int32.decLe a b
  | int64, a, b => Int64.decLe a b
  | bool, _, _ | float32, _, _ | float64, _, _ | text, _, _ => .isFalse id

def Between (k : Kind) (low high value : k.Value) : Prop := k.AtMost low value ∧ k.AtMost value high

theorem isExact_of_atMost (h : k.AtMost low high) : k.isExact = true := by
  cases k with
  | int32 | int64 => rfl
  | _ => cases h

/-- Bounds leave just those values as they are that lie between them. -/
theorem within_iff_between (h : k.AtMost low high) :
    k.Within (some low) (some high) value ↔ k.Between low high value := by
  have hwithin : k.Within (some low) (some high) value ↔
      k.raise value low = value ∧ k.lower value high = value :=
    ⟨fun hw => ⟨hw.least low rfl, hw.greatest high rfl⟩, fun ⟨hleast, hgreatest⟩ =>
      ⟨by rintro _ ⟨⟩; exact hleast, by rintro _ ⟨⟩; exact hgreatest⟩⟩
  rw [hwithin]
  cases k with
  | int32 => simp only [raise, lower, max_int32, min_int32, Between, AtMost] at *; grind
  | int64 => simp only [raise, lower, max_int64, min_int64, Between, AtMost] at *; grind
  | _ => cases h

/-- Values are taken between bounds that are in order. -/
theorem between_clamp (h : k.AtMost low high) (value : k.Value) :
    k.Between low high (k.clamp (some low) (some high) value) := by
  have hlow : k.Between low high low := by
    cases k with
    | int32 => exact ⟨Int32.le_refl low, h⟩
    | int64 => exact ⟨Int64.le_refl low, h⟩
    | _ => cases h
  rw [← within_iff_between h] at hlow ⊢
  exact within_clamp (isExact_of_atMost h) hlow value

end Kind

/-! ### What is done to the value of a variable -/

/-- What is done to the value of a variable: a text is assigned, or it is reset. -/
inductive ValueOp
  | set (raw : String)
  | reset
  deriving DecidableEq, Repr

namespace Variable

variable {k : Kind} {v : Variable k} {low high : k.Value}

/-- The variable after an operation, the same one if a text is refused. -/
def after (v : Variable k) : ValueOp → Variable k
  | .set raw =>
    match v.assign raw with
    | .ok (some changed) => changed
    | _ => v
  | .reset => v.reset.getD v

def afterAll (v : Variable k) (ops : List ValueOp) : Variable k := ops.foldl after v

theorem afterAll_append (ops more : List ValueOp) :
    v.afterAll (ops ++ more) = (v.afterAll ops).afterAll more :=
  List.foldl_append

theorem after_set_of_error {raw : String} {reason : CastError} (h : v.cast raw = .error reason) :
    v.after (.set raw) = v := by
  simp [after, assign, h, bind, Except.bind]

theorem eq_withValue {value : k.Value} (h : value = v.value) : v = { v with value } := by
  subst h
  rfl

theorem after_set_of_ok (hk : k.isExact) {raw : String} {value : k.Value}
    (h : v.cast raw = .ok value) : v.after (.set raw) = v.store value := by
  by_cases hsame : k.same (v.store value).value v.value = true
  · have heq : (v.store value).value = v.value := (Kind.same_iff_eq hk).1 hsame
    simp only [after, assign, h, bind, Except.bind, pure, Except.pure, hsame, if_true]
    exact eq_withValue heq
  · simp [after, assign, h, bind, Except.bind, pure, Except.pure, hsame]

theorem after_reset (hk : k.isExact) : v.after .reset = { v with value := v.default } := by
  by_cases hsame : k.same v.value v.default = true
  · have heq : v.value = v.default := (Kind.same_iff_eq hk).1 hsame
    simp only [after, reset, hsame, if_true, Option.getD_none]
    exact eq_withValue heq.symm
  · simp [after, reset, hsame]

theorem exists_after_eq (hk : k.isExact) (v : Variable k) (op : ValueOp) :
    ∃ value, v.after op = { v with value } := by
  cases op with
  | set raw =>
    rcases hcast : v.cast raw with reason | value
    · exact ⟨v.value, after_set_of_error hcast⟩
    · exact ⟨_, after_set_of_ok hk hcast⟩
  | reset => exact ⟨v.default, after_reset hk⟩

theorem exists_afterAll_eq (hk : k.isExact) (v : Variable k) (ops : List ValueOp) :
    ∃ value, v.afterAll ops = { v with value } := by
  induction ops using List.reverseRecOn with
  | nil => exact ⟨v.value, rfl⟩
  | append_singleton ops op ih =>
    obtain ⟨value, hvalue⟩ := ih
    obtain ⟨value', hvalue'⟩ := exists_after_eq hk (v.afterAll ops) op
    refine ⟨value', ?_⟩
    rw [afterAll_append]
    show (v.afterAll ops).after op = _
    rw [hvalue', hvalue]

/-- Whether both bounds are in place: one of them was there when the other one was set. The rest of
the variable, its rule for texts included, may be another one since. -/
inductive BoundedBy (low high : k.Value) : Variable k → Prop
  | withGreatest {v : Variable k} : v.least = some low → BoundedBy low high (v.withGreatest high)
  | withLeast {v : Variable k} : v.greatest = some high → BoundedBy low high (v.withLeast low)
  | describe {v : Variable k} (description : String) (flags : Flags) :
    BoundedBy low high v → BoundedBy low high { v with description, flags }
  | withCast {v : Variable k} (cast : String → Except CastError k.Value) :
    BoundedBy low high v → BoundedBy low high { v with cast }

theorem BoundedBy.bounds (h : v.BoundedBy low high) :
    v.least = some low ∧ v.greatest = some high ∧
      ∃ value, v.value = k.clamp (some low) (some high) value := by
  induction h with
  | @withGreatest v hleast => exact ⟨hleast, rfl, v.value, by rw [← hleast]; rfl⟩
  | @withLeast v hgreatest => exact ⟨rfl, hgreatest, v.value, by rw [← hgreatest]; rfl⟩
  | describe _ _ _ ih => exact ih
  | withCast _ _ ih => exact ih

/-- Whether the variable has its default because of a reset behind which every text was refused. -/
def LastReset (v : Variable k) (ops : List ValueOp) : Prop :=
  (v.afterAll ops).value = v.default ∧ ∃ earlier later, ops = earlier ++ .reset :: later ∧
    ∀ raw, .set raw ∈ later → ∃ reason, v.cast raw = .error reason

/-- The value of a variable with both bounds, after any operations. -/
theorem BoundedBy.between_or_lastReset (hv : v.BoundedBy low high) (h : k.AtMost low high)
    (ops : List ValueOp) :
    k.Between low high (v.afterAll ops).value ∨ v.LastReset ops := by
  have hk := Kind.isExact_of_atMost h
  obtain ⟨hleast, hgreatest, value, hvalue⟩ := hv.bounds
  -- the last operation decides, unless it is refused
  induction ops using List.reverseRecOn with
  | nil =>
    left
    show k.Between low high v.value
    rw [hvalue]
    exact Kind.between_clamp h value
  | append_singleton ops op ih =>
    obtain ⟨former, hformer⟩ := exists_afterAll_eq hk v ops
    have hlast : v.afterAll (ops ++ [op]) = (v.afterAll ops).after op := afterAll_append ops [op]
    cases op with
    | set raw =>
      rcases hcast : v.cast raw with reason | value
      · have hrefused : (v.afterAll ops).after (.set raw) = v.afterAll ops :=
          after_set_of_error (by rw [hformer]; exact hcast)
        rw [LastReset, hlast, hrefused]
        refine ih.imp_right ?_
        rintro ⟨hdefault, earlier, later, rfl, hlater⟩
        refine ⟨hdefault, earlier, later ++ [.set raw], by simp, fun other hother => ?_⟩
        rcases List.mem_append.1 hother with hmem | hmem
        · exact hlater other hmem
        · obtain rfl : other = raw := by simpa using hmem
          exact ⟨reason, hcast⟩
      · left
        have hstored : (v.afterAll ops).after (.set raw) = (v.afterAll ops).store value :=
          after_set_of_ok hk (by rw [hformer]; exact hcast)
        rw [hlast, hstored, hformer]
        show k.Between low high (k.clamp v.least v.greatest value)
        rw [hleast, hgreatest]
        exact Kind.between_clamp h value
    | reset =>
      right
      refine ⟨?_, ops, [], rfl, by simp⟩
      rw [hlast, after_reset hk, hformer]

end Variable

/-! ### Assignments in a store -/

namespace Assignment

def op : Assignment → ValueOp
  | set _ raw _ => .set raw
  | reset .. => .reset

variable {ω : Type} {s : Store ω} {k : Kind} {v : Variable k} {user : Bool}

/-- A value that is asked for is the one that the operation gives. -/
theorem after_op {a : Assignment} (hk : k.isExact) {value : k.Value}
    (h : a.value? ⟨k, v, user⟩ = .ok value) : v.after a.op = { v with value } := by
  cases a with
  | set name raw through =>
    simp only [value?] at h
    rcases hcast : v.cast raw with reason | cast
    · rw [hcast] at h
      cases h
    · rw [hcast] at h
      cases h
      exact Variable.after_set_of_ok hk hcast
  | reset name through =>
    cases h
    exact Variable.after_reset hk

theorem find?_run (hk : k.isExact) {name : String} (hfind : s.find? name = some ⟨k, v, user⟩)
    (a : Assignment) (w : ω) :
    (a.run s w).1.find? name = some ⟨k, v, user⟩ ∨
      a.name = name ∧ (a.run s w).1.find? name = some ⟨k, v.after a.op, user⟩ := by
  rcases a.run_cases s w with ⟨reason, -, hrun⟩ | ⟨e, value, hasks, ⟨-, hrun⟩ | ⟨-, hrun⟩⟩
  · rw [hrun]
    exact .inl hfind
  · rw [hrun]
    exact .inl hfind
  · obtain ⟨changes, hcommit⟩ :=
      s.exists_commit_fst w a.name e.text (e.withValue value) a.through
    have hlookup : (a.run s w).1.find? name = (s.replace a.name (e.withValue value)).find? name := by
      rw [hrun, hcommit]
      rfl
    rw [hlookup, Store.find?_replace]
    by_cases hname : name = a.name
    · subst hname
      obtain rfl := Option.some.inj (hfind.symm.trans hasks.found)
      rw [if_pos rfl, hfind, after_op hk hasks.asked]
      exact .inr ⟨rfl, rfl⟩
    · rw [if_neg hname]
      exact .inl hfind

end Assignment

/-! ### Whoever assigns -/

/-- How a variable comes to another value: the host assigns to it or resets it, or one of the
console's own commands does. -/
inductive Use
  | host (a : Assignment)
  | assign (call : Call)
  | toggle (call : Call)
  | reset (call : Call)

namespace Use

variable {κ ε : Type} {w w' : Workspace κ ε}

def run (w : Workspace κ ε) : Use → Workspace κ ε
  | host a =>
    let (vars, world, _) := a.run w.vars w.world
    { w with vars, world }
  | assign call => (Workspace.runAssign call w).1
  | toggle call => (Workspace.runToggle call w).1
  | reset call => (Workspace.runReset call w).1

def runAll (uses : List Use) (w : Workspace κ ε) : Workspace κ ε := uses.foldl run w

/-- Whether the use resets the variable of that name, as far as this may be reset. -/
def Resets (u : Use) (name : String) : Prop :=
  match u with
  | host a => ∃ through, a = .reset name through
  | reset call => call.get? 0 = some name
  | _ => False

/-- Whether the variables of `w'` are those of `w` or come from them by one assignment, which `may`
be a reset of its variable. -/
def Assigns (may : String → Prop) (w w' : Workspace κ ε) : Prop :=
  w'.vars = w.vars ∨ ∃ a : Assignment, w'.vars = (a.run w.vars w.world).1 ∧
    (a.op = .reset → may a.name)

variable {may : String → Prop}

theorem Assigns.print (h : Assigns may w w') (level : Level) (message : String) :
    Assigns may w (w'.print level message) := h

theorem assigns_withArg {call : Call} {index : Nat} {arguments : String}
    {f : String → Workspace κ ε → Workspace κ ε × Ending}
    (h : ∀ value, call.get? index = some value → Assigns may w (f value w).1) :
    Assigns may w (Workspace.withArg call index arguments f w).1 := by
  unfold Workspace.withArg Call.require
  rcases hvalue : call.get? index with _ | value
  · exact .inl rfl
  · exact h value hvalue

theorem assigns_of_assign {name raw : String} {answer : Except AssignError Assigned}
    (h : w.assign name raw true = (w', answer)) : Assigns may w w' := by
  obtain ⟨rfl, -⟩ := Prod.mk.inj h
  exact .inr ⟨.set name raw true, rfl, fun hop => by cases hop⟩

theorem assigns_of_reset {name : String} {answer : Except AssignError Assigned}
    (h : w.reset name true = (w', answer)) (hmay : may name) : Assigns may w w' := by
  obtain ⟨rfl, -⟩ := Prod.mk.inj h
  exact .inr ⟨.reset name true, rfl, fun _ => hmay⟩

theorem assigns_run (u : Use) (w : Workspace κ ε) : Assigns u.Resets w (u.run w) := by
  cases u with
  | host a =>
    refine .inr ⟨a, rfl, fun hop => ?_⟩
    cases a with
    | set => cases hop
    | reset name through => exact ⟨through, rfl⟩
  | assign call =>
    refine assigns_withArg fun name _ => ?_
    split
    · exact .inl rfl
    · split
      · next h => exact assigns_of_assign h
      · next h => exact (assigns_of_assign h).print ..
      · next h => exact assigns_of_assign h
  | toggle call =>
    refine assigns_withArg fun name _ => ?_
    dsimp only
    split
    · exact .inl rfl
    · split
      · exact .inl rfl
      · split
        · next h => exact (assigns_of_assign h).print ..
        · next h => exact assigns_of_assign h
  | reset call =>
    refine assigns_withArg fun name hname => ?_
    split
    · next h => exact (assigns_of_reset h hname).print ..
    · next h => exact assigns_of_reset h hname

variable {k : Kind} {v : Variable k} {user : Bool} {name : String}

theorem find?_run (hk : k.isExact) (hfind : w.vars.find? name = some ⟨k, v, user⟩) (u : Use) :
    ∃ ops, (u.run w).vars.find? name = some ⟨k, v.afterAll ops, user⟩ ∧
      (.reset ∈ ops → u.Resets name) := by
  rcases assigns_run u w with hvars | ⟨a, hvars, hresets⟩
  · exact ⟨[], hvars ▸ hfind, by simp⟩
  · rw [hvars]
    rcases Assignment.find?_run hk hfind a w.world with hsame | ⟨rfl, hafter⟩
    · exact ⟨[], hsame, by simp⟩
    · refine ⟨[a.op], hafter, fun hmem => hresets ?_⟩
      simpa using Eq.symm (List.mem_singleton.1 hmem)

/-- Whoever assigns to a variable, operations on it are carried out one after the other. -/
theorem find?_runAll (hk : k.isExact) (hfind : w.vars.find? name = some ⟨k, v, user⟩)
    (uses : List Use) :
    ∃ ops, (runAll uses w).vars.find? name = some ⟨k, v.afterAll ops, user⟩ ∧
      (.reset ∈ ops → ∃ u ∈ uses, u.Resets name) := by
  induction uses generalizing w v with
  | nil => exact ⟨[], hfind, by simp⟩
  | cons u uses ih =>
    obtain ⟨ops, hops, hresets⟩ := find?_run hk hfind u
    obtain ⟨more, hmore, hresets'⟩ := ih hops
    refine ⟨ops ++ more, ?_, fun hmem => ?_⟩
    · rw [Variable.afterAll_append]
      exact hmore
    · rcases List.mem_append.1 hmem with h | h
      · exact ⟨u, List.mem_cons_self, hresets h⟩
      · obtain ⟨u', hu', hname⟩ := hresets' h
        exact ⟨u', List.mem_cons_of_mem _ hu', hname⟩

/-- **Values stay between bounds.** Let both bounds of a whole number be in place, the lower one not
above the upper one. Whatever texts are assigned to it and whenever it is reset, its value lies
between the bounds, or it is the default because of a reset behind which every text was refused. The
same holds while it is in a store: there the host and the commands carry out operations of these
two kinds on it and no other ones, and a reset only if they are told to reset this variable. -/
theorem between_or_reset {low high : k.Value} (hv : v.BoundedBy low high)
    (h : k.AtMost low high) (direct : List ValueOp) :
    (k.Between low high (v.afterAll direct).value ∨ v.LastReset direct) ∧
    ∀ (w : Workspace κ ε) (name : String) (user : Bool),
      w.vars.find? name = some ⟨k, v.afterAll direct, user⟩ → ∀ uses : List Use, ∃ more,
        (runAll uses w).vars.find? name = some ⟨k, v.afterAll (direct ++ more), user⟩ ∧
        (.reset ∈ more → ∃ u ∈ uses, u.Resets name) ∧
        (k.Between low high (v.afterAll (direct ++ more)).value ∨
          v.LastReset (direct ++ more)) := by
  refine ⟨hv.between_or_lastReset h direct, fun w name user hfind uses => ?_⟩
  obtain ⟨more, hmore, hresets⟩ := find?_runAll (Kind.isExact_of_atMost h) hfind uses
  rw [← Variable.afterAll_append] at hmore
  exact ⟨more, hmore, hresets, hv.between_or_lastReset h _⟩

/-- A variable whose default lies above its upper bound. -/
def wideDefault : Variable .int32 :=
  ((Variable.ofDefault "cl_fov" (200 : Int32)).withLeast (0 : Int32)).withGreatest (100 : Int32)

def wideWorkspace : Workspace Empty Unit where
  vars := { builtins := .ofList [("cl_fov", ⟨.int32, wideDefault, false⟩)] }
  world := { host := () }

/-- Commands that do not reset the variable leave it between its bounds. -/
theorem between_or_reset_wideWorkspace : ∃ v : Variable .int32,
    (runAll [.assign ⟨"assign", ["cl_fov", "500"], true⟩,
      .toggle ⟨"toggle", ["cl_fov", "-7", "40"], true⟩] wideWorkspace).vars.find? "cl_fov" =
        some ⟨.int32, v, false⟩ ∧
      Kind.Between .int32 (0 : Int32) (100 : Int32) v.value := by
  have hbounds : wideDefault.BoundedBy (0 : Int32) (100 : Int32) := .withGreatest rfl
  have horder : Kind.AtMost .int32 (0 : Int32) (100 : Int32) := by decide
  obtain ⟨more, hfind, hresets, hvalue⟩ := (between_or_reset hbounds horder []).2 wideWorkspace
    "cl_fov" false rfl [.assign ⟨"assign", ["cl_fov", "500"], true⟩,
      .toggle ⟨"toggle", ["cl_fov", "-7", "40"], true⟩]
  refine ⟨_, hfind, hvalue.resolve_right ?_⟩
  rintro ⟨-, earlier, later, hmore, -⟩
  obtain ⟨u, hu, hname⟩ := hresets (by
    rw [← List.nil_append more, hmore]
    simp)
  simp only [List.mem_cons, List.not_mem_nil, or_false] at hu
  rcases hu with rfl | rfl <;> exact hname

/-- Whether the value of the variable lies between the two whatever is done to it. -/
def StaysBetween {k : Kind} (low high : k.Value) (v : Variable k) : Prop :=
  ∀ ops, k.Between low high (v.afterAll ops).value

/-- A default above the upper bound comes back unbounded when the variable is reset. -/
theorem not_staysBetween_wideDefault : wideDefault.BoundedBy (0 : Int32) (100 : Int32) ∧
    Kind.AtMost .int32 (0 : Int32) (100 : Int32) ∧
    ¬ StaysBetween (0 : Int32) (100 : Int32) wideDefault := by
  refine ⟨.withGreatest rfl, by decide, fun h => ?_⟩
  have hvalue : (wideDefault.afterAll [.reset]).value = (200 : Int32) := by decide
  have hhigh := (h [.reset]).2
  rw [hvalue] at hhigh
  revert hhigh
  decide

end Use

end DevConsole
