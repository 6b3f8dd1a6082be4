import DevConsole.Command.Registry
import DevConsole.Proofs.Text.ByteOrder

/-!
Commands by the start of their names. The scan for them begins at the start itself and ends before
the first name without it. Main statement: it finds all commands whose names begin so and no others,
since in the order of names these lie together.
-/

namespace DevConsole

/-! ### The names with one start lie together -/

/-- What lies between a list and one that begins with it does so as well. -/
theorem isPrefix_of_between {α : Type} [LT α] {start a b : List α} (hle : ¬ a < start)
    (hlt : a < b) (hb : start <+: b) : start <+: a := by
  induction start generalizing a b with
  | nil => exact List.nil_prefix
  | cons c start ih =>
    obtain ⟨rest, rfl⟩ := hb
    obtain _ | ⟨d, a⟩ := a
    · exact absurd (List.nil_lt_cons c start) hle
    · rw [List.cons_lt_cons_iff, not_or, not_and] at hle
      rcases List.cons_lt_cons_iff.1 hlt with hless | ⟨rfl, hrest⟩
      · exact absurd hless hle.1
      · exact List.cons_prefix_cons.2 ⟨rfl, ih (hle.2 rfl) hrest (List.prefix_append ..)⟩

namespace NameMap

variable {α : Type} {start name later : String}

theorem beginsWith_iff : beginsWith start name = true ↔ start.toList <+: name.toList :=
  List.isPrefixOf_iff_prefix

theorem not_lt_of_beginsWith (h : beginsWith start name = true) : ¬ name < start :=
  (beginsWith_iff.1 h).le

theorem beginsWith_of_between (hle : ¬ name < start) (hlt : name < later)
    (h : beginsWith start later = true) : beginsWith start name = true :=
  beginsWith_iff.2 (isPrefix_of_between hle hlt (beginsWith_iff.1 h))

end NameMap

/-! ### Runs in ordered lists -/

section Runs

variable {α : Type} {p : α → Bool} {l : List α}

/-- If nothing that has the property stands behind what lacks it, the run in front is all that has
it. -/
theorem takeWhile_eq_filter (h : l.Pairwise fun a b => p b = true → p a = true) :
    l.takeWhile p = l.filter p := by
  induction l with
  | nil => rfl
  | cons a l ih =>
    obtain ⟨hfirst, hrest⟩ := List.pairwise_cons.1 h
    by_cases ha : p a = true
    · rw [List.takeWhile_cons_of_pos ha, List.filter_cons_of_pos ha, ih hrest]
    · rw [List.takeWhile_cons_of_neg ha, List.filter_cons_of_neg ha, eq_comm,
        List.filter_eq_nil_iff]
      exact fun b hb hpb => ha (hfirst b hb hpb)

theorem dropWhile_eq_filter (h : l.Pairwise fun a b => p b = true → p a = true) :
    l.dropWhile p = l.filter fun a => !p a := by
  induction l with
  | nil => rfl
  | cons a l ih =>
    obtain ⟨hfirst, hrest⟩ := List.pairwise_cons.1 h
    by_cases ha : p a = true
    · rw [List.dropWhile_cons_of_pos ha, List.filter_cons_of_neg (by simpa using ha), ih hrest]
    · rw [List.dropWhile_cons_of_neg ha, eq_comm, List.filter_eq_self]
      intro b hb
      rcases List.mem_cons.1 hb with rfl | hb
      · simpa using ha
      · simpa using fun hpb => ha (hfirst b hb hpb)

end Runs

/-! ### The scan -/

namespace NameMap

variable {α : Type} (m : NameMap α) (start : String)

/-- The names from `start` on. -/
theorem dropWhile_entries : (m.entries.dropWhile fun e => decide (e.1 < start)) =
    m.entries.filter fun e => !decide (e.1 < start) := by
  refine dropWhile_eq_filter (m.sorted.imp fun hlt hbefore => ?_)
  exact decide_eq_true (String.lt_trans hlt (of_decide_eq_true hbefore))

theorem withStart_eq : m.withStart start = m.entries.filter fun e => beginsWith start e.1 := by
  have hrun : (m.entries.filter fun e => !decide (e.1 < start)).Pairwise
      fun a b => beginsWith start b.1 = true → beginsWith start a.1 = true := by
    refine List.pairwise_filter.2 (m.sorted.imp fun hlt hle _ => ?_)
    exact beginsWith_of_between (by simpa using hle) hlt
  rw [withStart, dropWhile_entries, takeWhile_eq_filter hrun, List.filter_filter]
  refine List.filter_congr fun e _ => ?_
  rcases hbegins : beginsWith start e.1 with _ | _
  · rfl
  · simp [not_lt_of_beginsWith hbegins]

/-- A map that is ordered and scanned by the bytes of its names finds the same. -/
theorem withStart_eq_scan_bytes : m.withStart start =
    (m.entries.dropWhile fun e => decide (Text.bytes e.1 < Text.bytes start)).takeWhile
      fun e => (Text.bytes start).isPrefixOf (Text.bytes e.1) := by
  have hbegins : ∀ name, (Text.bytes start).isPrefixOf (Text.bytes name) = beginsWith start name :=
    fun name => by
      rw [Bool.eq_iff_iff, List.isPrefixOf_iff_prefix, Text.bytes_prefix_bytes, beginsWith_iff]
  simp only [Text.bytes_lt_bytes, hbegins]
  rfl

/-- The entries stand in the order of the bytes of their names. -/
theorem pairwise_bytes :
    m.entries.Pairwise fun a b => Text.bytes a.1 < Text.bytes b.1 :=
  m.sorted.imp Text.bytes_lt_of_lt

end NameMap

/-- **Commands by the start of their names.** The scan finds just the commands whose names begin
with `start`, in the order of the whole list, each once. The list has each name once, in the order
of the bytes of the names. -/
theorem Commands.withStart_eq_filter {η : Type} (cs : Commands η) (start : String) :
    cs.withStart start = cs.byName.entries.filter (fun e => NameMap.beginsWith start e.1) ∧
      ((cs.withStart start).map (·.1)).Nodup ∧
      cs.byName.entries.Pairwise fun a b => Text.bytes a.1 < Text.bytes b.1 := by
  have hscan : cs.withStart start =
      cs.byName.entries.filter fun e => NameMap.beginsWith start e.1 := cs.byName.withStart_eq start
  refine ⟨hscan, ?_, cs.byName.pairwise_bytes⟩
  rw [hscan, List.Nodup, List.pairwise_map]
  refine (cs.byName.sorted.filter _).imp ?_
  rintro a b hlt heq
  exact String.lt_irrefl _ (heq ▸ hlt)

end DevConsole
