import DevConsole.Proofs.Variable.Assigning

/-!
Bounds. A value lies within bounds if they do not act on it. Main statement: if some value lies
within the bounds of a variable, then every value that is assigned to it is taken into them, and so
is the one that the host has built it with.
-/

namespace DevConsole

namespace Kind

variable {k : Kind} {least greatest : Option k.Value}

/-- Whether a value lies within bounds: neither of them acts on it. -/
structure Within (k : Kind) (least greatest : Option k.Value) (value : k.Value) : Prop where
  least : ∀ bound, least = some bound → k.raise value bound = value
  greatest : ∀ bound, greatest = some bound → k.lower value bound = value

/-! ### Whole numbers -/

theorem max_int32 (a b : Int32) : max a b = if a ≤ b then b else a := rfl

theorem min_int32 (a b : Int32) : min a b = if a ≤ b then a else b := rfl

theorem max_int64 (a b : Int64) : max a b = if a ≤ b then b else a := rfl

theorem min_int64 (a b : Int64) : min a b = if a ≤ b then a else b := rfl

/-! ### Bounds that act on a value -/

theorem raise_raise (hk : k.isExact) (value bound : k.Value) :
    k.raise (k.raise value bound) bound = k.raise value bound := by
  cases k with
  | float32 | float64 => cases hk
  | bool | text => rfl
  | int32 => simp only [raise, max_int32]; grind
  | int64 => simp only [raise, max_int64]; grind

theorem lower_lower (hk : k.isExact) (value bound : k.Value) :
    k.lower (k.lower value bound) bound = k.lower value bound := by
  cases k with
  | float32 | float64 => cases hk
  | bool | text => rfl
  | int32 => simp only [lower, min_int32]; grind
  | int64 => simp only [lower, min_int64]; grind

/-- The upper bound leaves a value above the lower one if there is a value between them. -/
theorem raise_lower_raise (hk : k.isExact) {low high between : k.Value}
    (hlow : k.raise between low = between) (hhigh : k.lower between high = between)
    (value : k.Value) :
    k.raise (k.lower (k.raise value low) high) low = k.lower (k.raise value low) high := by
  cases k with
  | float32 | float64 => cases hk
  | bool | text => rfl
  | int32 => simp only [raise, lower, max_int32, min_int32] at *; grind
  | int64 => simp only [raise, lower, max_int64, min_int64] at *; grind

theorem clamp_eq_self {value : k.Value} (h : k.Within least greatest value) :
    k.clamp least greatest value = value := by
  have hraised : least.elim value (k.raise value) = value := by
    cases hleast : least with
    | none => rfl
    | some low => exact h.least low hleast
  unfold clamp
  dsimp only
  rw [hraised]
  cases hgreatest : greatest with
  | none => rfl
  | some high => exact h.greatest high hgreatest

/-- **Values are taken into bounds** that some value lies within. -/
theorem within_clamp (hk : k.isExact) {between : k.Value}
    (h : k.Within least greatest between) (value : k.Value) :
    k.Within least greatest (k.clamp least greatest value) := by
  constructor
  · rintro low rfl
    cases hgreatest : greatest with
    | none => exact raise_raise hk value low
    | some high => exact raise_lower_raise hk (h.least low rfl) (h.greatest high hgreatest) value
  · rintro high rfl
    exact lower_lower hk _ high

end Kind

/-! ### Variables -/

namespace Variable

variable {k : Kind} {v v' : Variable k}

def Admits (v : Variable k) (value : k.Value) : Prop := k.Within v.least v.greatest value

/-- Whether the variable comes about by what a host may do to one before it registers it. -/
inductive Built : Variable k → Prop
  | ofDefault (name : String) (default : k.Value) : Built (ofDefault name default)
  | withLeast {v : Variable k} (bound : k.Value) : Built v → Built (v.withLeast bound)
  | withGreatest {v : Variable k} (bound : k.Value) : Built v → Built (v.withGreatest bound)
  | describe {v : Variable k} (description : String) (flags : Flags) :
    Built v → Built { v with description, flags }
  | withCast {v : Variable k} (cast : String → Except CastError k.Value) :
    Built v → Built { v with cast }
  | assign {v v' : Variable k} (raw : String) : Built v → v.assign raw = .ok (some v') → Built v'
  | reset {v v' : Variable k} : Built v → v.reset = some v' → Built v'

theorem assign_eq_some {raw : String} (h : v.assign raw = .ok (some v')) :
    ∃ value, v' = v.store value := by
  unfold assign at h
  rcases hcast : v.cast raw with reason | value
  · simp [hcast, bind, Except.bind] at h
  · simp only [hcast, bind, Except.bind, pure, Except.pure, Except.ok.injEq] at h
    split at h
    · cases h
    · cases h
      exact ⟨value, rfl⟩

theorem reset_eq_some (h : v.reset = some v') : v' = { v with value := v.default } := by
  unfold reset at h
  split at h
  · cases h
  · cases h
    rfl

/-- The variable holds its default, or a value that its bounds have acted on. -/
theorem Built.value_eq (h : v.Built) :
    v.value = v.default ∨ ∃ value, v.value = k.clamp v.least v.greatest value := by
  induction h with
  | ofDefault => exact .inl rfl
  | withLeast | withGreatest => exact .inr ⟨_, rfl⟩
  | describe _ _ _ ih => exact ih
  | withCast _ _ ih => exact ih
  | assign raw _ hassign _ =>
    obtain ⟨value, rfl⟩ := assign_eq_some hassign
    exact .inr ⟨value, rfl⟩
  | reset _ hreset _ =>
    rw [reset_eq_some hreset]
    exact .inl rfl

/-- A host registers no value outside of bounds that the default lies within. -/
theorem Built.admits (h : v.Built) (hk : k.isExact) (hdefault : v.Admits v.default) :
    v.Admits v.value := by
  rcases h.value_eq with heq | ⟨value, heq⟩
  · rw [heq]
    exact hdefault
  · rw [heq]
    exact Kind.within_clamp hk hdefault value

end Variable

end DevConsole
