import DevConsole.Variable.Kind

/-!
The texts of values. Main statement: truth values, whole numbers and texts are read back from their
texts, so no two of them have the same one.
-/

namespace DevConsole

/-! ### Whole numbers -/

namespace Number

variable {cs : List Char}

theorem takeSign_of_isDigit (h : ∀ c ∈ cs, c.isDigit) : takeSign cs = (false, cs) := by
  unfold takeSign
  split
  · exact absurd (h '+' List.mem_cons_self) (by decide)
  · exact absurd (h '-' List.mem_cons_self) (by decide)
  · rfl

theorem isDigit_of_mem_toDigits {n : Nat} {c : Char} (h : c ∈ Nat.toDigits 10 n) : c.isDigit :=
  Nat.isDigit_of_mem_toDigits (by decide) (by decide) h

theorem readNat?_toDigits (n : Nat) : readNat? (Nat.toDigits 10 n) = some n := by
  have hall : (Nat.toDigits 10 n).all Char.isDigit :=
    List.all_eq_true.2 fun c => isDigit_of_mem_toDigits
  rw [readNat?, hall]
  simp [Nat.toDigits_ne_nil, Nat.ofDigitChars_toDigits]

/-- The text of a whole number: its digits, behind a sign if it is negative. -/
theorem toList_toString (n : Int) : (toString n).toList =
    if 0 ≤ n then Nat.toDigits 10 n.toNat else '-' :: Nat.toDigits 10 (-n).toNat := by
  rw [Int.toString_eq_repr, Int.repr_eq_if]
  split <;> simp [Nat.repr_eq_ofList_toDigits]

theorem readInt?_toString (n : Int) : readInt? (toString n) = some n := by
  rw [readInt?, toList_toString]
  by_cases hn : 0 ≤ n
  · rw [if_pos hn, takeSign_of_isDigit fun c => isDigit_of_mem_toDigits]
    simp only [readNat?_toDigits, Option.bind_eq_bind, Option.bind_some, Option.pure_def,
      Option.map_some, Bool.false_eq_true, if_false, Option.some.injEq]
    omega
  · rw [if_neg hn, takeSign]
    simp only [readNat?_toDigits, Option.bind_eq_bind, Option.bind_some, Option.pure_def,
      Option.map_some, if_true, Option.some.injEq]
    omega

theorem readInt32?_toString (n : Int32) : readInt32? (toString n.toInt) = some n := by
  simp only [readInt32?, readInt?_toString]
  rw [if_pos ⟨Int32.minValue_le_toInt n, Int32.toInt_le n⟩, Int32.ofInt_toInt]

theorem readInt64?_toString (n : Int64) : readInt64? (toString n.toInt) = some n := by
  simp only [readInt64?, readInt?_toString]
  rw [if_pos ⟨Int64.minValue_le_toInt n, Int64.toInt_le n⟩, Int64.ofInt_toInt]

end Number

/-! ### Blanks -/

namespace Text

theorem trim_eq_self {text : String} (h : ∀ c ∈ text.toList, isBlank c = false) :
    trim text = text := by
  have hdrop : ∀ cs : List Char, (∀ c ∈ cs, isBlank c = false) → cs.dropWhile isBlank = cs := by
    intro cs hcs
    cases cs with
    | nil => rfl
    | cons c cs => rw [List.dropWhile_cons_of_neg (by simp [hcs c])]
  rw [trim, hdrop _ h, hdrop _ (by simpa using h)]
  simp

theorem isBlank_of_isDigit {c : Char} (h : c.isDigit) : isBlank c = false := by
  simp only [Char.isDigit, ge_iff_le, UInt32.le_iff_toNat_le, Bool.and_eq_true,
    decide_eq_true_eq] at h
  change 48 ≤ c.toNat ∧ c.toNat ≤ 57 at h
  simp only [isBlank, Bool.or_eq_false_iff, Bool.and_eq_false_iff, decide_eq_false_iff_not,
    beq_eq_false_iff_ne, ne_eq]
  omega

theorem trim_toString (n : Int) : trim (toString n) = toString n := by
  have hdigit : ∀ {m c}, c ∈ Nat.toDigits 10 m → isBlank c = false := fun hc =>
    isBlank_of_isDigit (Number.isDigit_of_mem_toDigits hc)
  refine trim_eq_self fun c hc => ?_
  rw [Number.toList_toString] at hc
  split at hc
  · exact hdigit hc
  · rcases List.mem_cons.1 hc with rfl | hc
    · decide
    · exact hdigit hc

end Text

/-! ### Values -/

namespace Kind

/-- Whether values of the kind are equal to themselves only, and are read back from their texts.
Numbers that are not whole are no such values: there are two zeros. -/
def isExact : Kind → Bool
  | float32 | float64 => false
  | _ => true

variable {k : Kind} {a b : k.Value}

theorem same_iff_eq (h : k.isExact) : k.same a b = true ↔ a = b := by
  cases k with
  | float32 | float64 => cases h
  | _ => exact beq_iff_eq

/-- **A value is read back from its text.** -/
theorem cast_format (h : k.isExact) (value : k.Value) : k.cast (k.format value) = .ok value := by
  cases k with
  | float32 | float64 => cases h
  | bool => cases value <;> rfl
  | int32 =>
    simp only [cast, format]
    rw [Text.trim_toString, Number.readInt32?_toString]
    rfl
  | int64 =>
    simp only [cast, format]
    rw [Text.trim_toString, Number.readInt64?_toString]
    rfl
  | text => rfl

theorem format_injective (h : k.isExact) (hab : k.format a = k.format b) : a = b := by
  have hcast := cast_format h a
  rw [hab, cast_format h b] at hcast
  exact (Except.ok.inj hcast).symm

end Kind

end DevConsole
