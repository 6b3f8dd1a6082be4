import Mathlib.Tactic.SplitIfs
import DevConsole.NameMap

/-!
The order of texts and that of their bytes. Main statements: texts compare character by character
just as their bytes do in UTF-8, and a text begins with another one just if its bytes do.
-/

namespace DevConsole

namespace Text

/-- The bytes of a text in UTF-8. -/
def bytes (s : String) : List UInt8 := s.toUTF8.data.toList

theorem bytes_eq (s : String) : bytes s = s.toList.flatMap String.utf8EncodeChar := by
  rw [bytes, String.toUTF8_eq_toByteArray, ← String.utf8Encode_toList, List.utf8Encode,
    List.toList_data_toByteArray]

/-! ### The bytes of a character -/

theorem ofNat_cons_lt {m n : Nat} (hm : m < 256) (hn : n < 256) {s t : List UInt8} :
    UInt8.ofNat m :: s < UInt8.ofNat n :: t ↔ m < n ∨ m = n ∧ s < t := by
  rw [List.cons_lt_cons_iff, UInt8.lt_iff_toNat_lt, ← UInt8.toNat_inj, UInt8.toNat_ofNat_of_lt' hm,
    UInt8.toNat_ofNat_of_lt' hn]

/-- A lesser character has lesser bytes, whatever follows them. -/
theorem utf8EncodeChar_append_lt {c d : Char} (h : c < d) (s t : List UInt8) :
    String.utf8EncodeChar c ++ s < String.utf8EncodeChar d ++ t := by
  have hlt : c.val.toNat < d.val.toNat := h
  have hd : d.val.toNat < 0x110000 := d.valid.elim (Nat.lt_trans · (by decide)) (·.2)
  -- The bytes behind the first one are the digits of the character to base 64.
  have hdigits : ∀ k < 0x110000, k / 64 / 64 = k / 4096 ∧ k / 4096 / 64 = k / 262144 ∧
      k / 262144 % 8 = k / 262144 := fun k hk =>
    ⟨Nat.div_div_eq_div_mul k 64 64, Nat.div_div_eq_div_mul k 4096 64,
      Nat.mod_eq_of_lt (Nat.div_lt_of_lt_mul (Nat.lt_trans hk (by decide)))⟩
  unfold String.utf8EncodeChar
  dsimp only
  generalize c.val.toNat = m at hlt
  generalize d.val.toNat = n at hlt hd
  have hm := hdigits m (Nat.lt_trans hlt hd)
  have hn := hdigits n hd
  -- Of two characters the lesser one has no more bytes. If it has fewer, its first byte is less.
  split_ifs
  all_goals first
    | omega
    | simp (disch := omega) only [List.cons_append, List.nil_append, ofNat_cons_lt]
      omega

/-! ### The bytes of a text -/

theorem flatMap_utf8EncodeChar_lt {a b : List Char} (h : a < b) :
    a.flatMap String.utf8EncodeChar < b.flatMap String.utf8EncodeChar := by
  induction a generalizing b with
  | nil =>
    obtain _ | ⟨d, b⟩ := b
    · exact absurd h (List.lt_irrefl _)
    · obtain ⟨x, xs, hx⟩ := List.exists_cons_of_ne_nil (String.utf8EncodeChar_ne_nil (c := d))
      simp [hx]
  | cons c a ih =>
    obtain _ | ⟨d, b⟩ := b
    · exact absurd h (List.not_lt_nil _)
    · rw [List.flatMap_cons, List.flatMap_cons]
      rcases List.cons_lt_cons_iff.1 h with hcd | ⟨rfl, hab⟩
      · exact utf8EncodeChar_append_lt hcd _ _
      · exact List.append_left_lt (ih hab)

theorem bytes_lt_of_lt {a b : String} (h : a < b) : bytes a < bytes b := by
  rw [bytes_eq, bytes_eq]
  exact flatMap_utf8EncodeChar_lt h

/-- **Texts compare as their bytes do.** -/
theorem bytes_lt_bytes {a b : String} : bytes a < bytes b ↔ a < b := by
  refine ⟨fun h => Decidable.byContradiction fun hge => ?_, bytes_lt_of_lt⟩
  rcases Decidable.em (b < a) with hgt | hle
  · exact List.lt_asymm h (bytes_lt_of_lt hgt)
  · obtain rfl : a = b := String.le_antisymm (String.not_lt.1 hle) (String.not_lt.1 hge)
    exact List.lt_irrefl _ h

/-- **A text begins with another one just if its bytes do.** The bytes of a character are not the
beginning of those of other ones. -/
theorem bytes_prefix_bytes {start s : String} :
    bytes start <+: bytes s ↔ start.toList <+: s.toList := by
  rw [bytes_eq, bytes_eq]
  constructor
  · rintro ⟨rest, h⟩
    refine List.isPrefix_of_utf8Encode_append_eq_utf8Encode rest.toByteArray ?_
    rw [List.utf8Encode, List.utf8Encode, ← List.toByteArray_append, h]
  · rintro ⟨rest, h⟩
    rw [← h, List.flatMap_append]
    exact List.prefix_append ..

end Text

end DevConsole
