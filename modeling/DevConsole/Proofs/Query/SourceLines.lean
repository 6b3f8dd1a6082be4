import Mathlib.Tactic.Common
import DevConsole.Query.SyntaxError

/-!
The line that a place is shown in. A line feed belongs to the line that it ends, so each place in a
text lies in one line and no other. Main statement: what is shown is this line, and below it, under
the character at the place, the first caret.
-/

namespace DevConsole

/-! ### Lines and where they begin -/

/-- The lines of a text: what its line feeds split it into. -/
def linesOf (cs : List Char) : List (List Char) := cs.splitOn '\n'

/-- Where line number `k` begins. Behind each line before it there is a line feed. -/
def lineStart : List (List Char) → Nat → Nat
  | line :: lines, k + 1 => line.length + 1 + lineStart lines k
  | _, _ => 0

/-- `InLine cs offset k line` says that the place `offset` lies in `line`, which is line number `k`
of the text. The last place in a line is the one just behind its characters. -/
structure InLine (cs : List Char) (offset k : Nat) (line : List Char) : Prop where
  line_eq : (linesOf cs)[k]? = some line
  start_le : lineStart (linesOf cs) k ≤ offset
  le_end : offset ≤ lineStart (linesOf cs) k + line.length

theorem linesOf_last {line : List Char} (h : '\n' ∉ line) : linesOf line = [line] :=
  List.splitOn_eq_singleton h

theorem linesOf_cons {line : List Char} (h : '\n' ∉ line) (cs : List Char) :
    linesOf (line ++ '\n' :: cs) = line :: linesOf cs :=
  List.splitOn_append_cons_self_of_not_mem h cs

@[simp] theorem lineStart_zero (lines : List (List Char)) : lineStart lines 0 = 0 := by
  cases lines <;> rfl

theorem lineStart_cons (line : List Char) (lines : List (List Char)) (k : Nat) :
    lineStart (line :: lines) (k + 1) = line.length + 1 + lineStart lines k := rfl

/-- A line ends before the next one begins. -/
theorem lineStart_lt {lines : List (List Char)} {k k' : Nat} {line : List Char}
    (hline : lines[k]? = some line) (hlt : k < k') (hk' : k' < lines.length) :
    lineStart lines k + line.length < lineStart lines k' := by
  induction lines generalizing k k' with
  | nil => cases hline
  | cons first lines ih =>
    obtain ⟨k', rfl⟩ := Nat.exists_eq_add_one_of_ne_zero (Nat.ne_zero_of_lt hlt)
    cases k with
    | zero =>
      cases hline
      rw [lineStart_cons, lineStart_zero]
      omega
    | succ k =>
      rw [lineStart_cons, lineStart_cons]
      have := ih hline (Nat.lt_of_succ_lt_succ hlt) (by simpa using hk')
      omega

/-- **A place lies in one line only.** -/
theorem InLine.unique {cs : List Char} {offset k k' : Nat} {line line' : List Char}
    (h : InLine cs offset k line) (h' : InLine cs offset k' line') : k' = k ∧ line' = line := by
  have hlength := (List.getElem?_eq_some_iff.1 h.line_eq).1
  have hlength' := (List.getElem?_eq_some_iff.1 h'.line_eq).1
  have heq : k' = k := by
    rcases Nat.lt_trichotomy k k' with hlt | heq | hlt
    · have := lineStart_lt h.line_eq hlt hlength'
      have := h.le_end
      have := h'.start_le
      omega
    · exact heq.symm
    · have := lineStart_lt h'.line_eq hlt hlength
      have := h.start_le
      have := h'.le_end
      omega
  subst heq
  exact ⟨rfl, Option.some.inj (h'.line_eq.symm.trans h.line_eq)⟩

theorem exists_around_line {cs : List Char} {k : Nat} {line : List Char}
    (h : (linesOf cs)[k]? = some line) : ∃ before after, cs = before ++ line ++ after ∧
      before.length = lineStart (linesOf cs) k ∧ ∀ c ∈ after.head?, c = '\n' := by
  have hsplit : cs = ['\n'].intercalate (linesOf cs) := (List.intercalate_splitOn '\n').symm
  generalize linesOf cs = lines at h hsplit
  subst hsplit
  induction lines generalizing k with
  | nil => cases h
  | cons first lines ih =>
    cases lines with
    | nil =>
      obtain ⟨rfl, rfl⟩ : k = 0 ∧ first = line := by
        cases k <;> simp_all
      exact ⟨[], [], by simp, rfl, by simp⟩
    | cons second lines =>
      rw [List.intercalate_cons_cons]
      cases k with
      | zero =>
        cases h
        exact ⟨[], '\n' :: ['\n'].intercalate (second :: lines), by simp, rfl, by simp⟩
      | succ k =>
        obtain ⟨before, after, hcs, hlength, hafter⟩ := ih h
        refine ⟨first ++ '\n' :: before, after, by simp [hcs], ?_, hafter⟩
        rw [lineStart_cons, ← hlength]
        simp
        omega

/-! ### The line around a place -/

/-- The line that holds the place, from where the search has got to: behind the part `line`, read
backwards, of the line that begins at `start`. -/
theorem exists_lineAround {line : List Char} (hline : '\n' ∉ line) (start : Nat) {d : Nat}
    {cs : List Char} (hd : d ≤ line.length + cs.length) : ∃ k shown,
      lineAround (start + d) start line cs =
        (start + lineStart (linesOf (line.reverse ++ cs)) k, shown) ∧
      InLine (line.reverse ++ cs) d k shown ∧ '\n' ∉ shown := by
  have hreverse : '\n' ∉ line.reverse := by simpa using hline
  induction cs generalizing line start d with
  | nil =>
    refine ⟨0, line.reverse, by simp [lineAround], ⟨?_, by simp, ?_⟩, hreverse⟩
    · rw [List.append_nil, linesOf_last hreverse]
      rfl
    · simpa using hd
  | cons c rest ih =>
    rw [List.length_cons] at hd
    by_cases hc : c = '\n'
    · subst hc
      have hlines := linesOf_cons hreverse rest
      by_cases hin : d ≤ line.length
      · refine ⟨0, line.reverse, ?_, ⟨?_, by simp, ?_⟩, hreverse⟩
        · simp [lineAround, hin]
        · rw [hlines]
          rfl
        · simpa using hin
      · -- the place lies behind this line
        obtain ⟨d, rfl⟩ : ∃ d', d = line.length + 1 + d' := ⟨d - (line.length + 1), by omega⟩
        have hnil : '\n' ∉ ([] : List Char) := by simp
        have hle : d ≤ ([] : List Char).length + rest.length := by
          rw [List.length_nil]
          omega
        obtain ⟨k, shown, hshown, hplace, hnone⟩ := ih hnil (start + line.length + 1) hle hnil
        refine ⟨k + 1, shown, ?_, ⟨?_, ?_, ?_⟩, hnone⟩
        · rw [hlines, lineStart_cons, lineAround, if_neg (by omega)]
          simpa [Nat.add_assoc] using hshown
        · rw [hlines]
          exact hplace.line_eq
        · rw [hlines, lineStart_cons]
          have := hplace.start_le
          simp only [List.reverse_nil, List.nil_append, List.length_reverse] at this ⊢
          omega
        · rw [hlines, lineStart_cons]
          have := hplace.le_end
          simp only [List.reverse_nil, List.nil_append, List.length_reverse] at this ⊢
          omega
    · have hstep : lineAround (start + d) start line (c :: rest) =
          lineAround (start + d) start (c :: line) rest := by
        rw [lineAround]
        exact fun h => absurd h hc
      have hline' : '\n' ∉ c :: line := by simp [hline, Ne.symm hc]
      have := ih hline' start (d := d) (by rw [List.length_cons]; omega)
        (by simpa [and_comm] using hline')
      simpa [hstep] using this

/-! ### What is shown -/

/-- What stands below the line that is shown: blanks up to the place, and carets from there on. -/
def caretLine (column length : Nat) : List Char :=
  List.replicate column ' ' ++ List.replicate (max length 1) '^'

theorem length_caretLine (column length : Nat) :
    (caretLine column length).length = column + max length 1 := by
  simp [caretLine]

theorem linesOf_caretLine (column length : Nat) :
    linesOf (caretLine column length) = [caretLine column length] :=
  linesOf_last (by simp [caretLine, List.mem_replicate])

/-- A place is shown by two lines: the one that it lies in, and the carets. -/
theorem exists_renderSpan {source : String} {offset : Nat} (h : offset ≤ source.toList.length)
    (length : Nat) : ∃ k line, InLine source.toList offset k line ∧ '\n' ∉ line ∧
      linesOf (renderSpan source offset length).toList =
        [line, caretLine (offset - lineStart (linesOf source.toList) k) length] := by
  have hnil : '\n' ∉ ([] : List Char) := by simp
  have hle : offset ≤ ([] : List Char).length + source.toList.length := by simpa using h
  obtain ⟨k, line, haround, hplace, hnone⟩ := exists_lineAround hnil 0 hle
  simp only [Nat.zero_add, List.reverse_nil, List.nil_append] at haround hplace
  refine ⟨k, line, hplace, hnone, ?_⟩
  rw [renderSpan, haround, String.toList_ofList, List.append_assoc, List.cons_append,
    linesOf_cons hnone, ← caretLine, linesOf_caretLine]

/-- The characters of a line from a place in it on, and what stands behind the line. -/
theorem InLine.exists_drop {cs : List Char} {offset k : Nat} {line : List Char}
    (h : InLine cs offset k line) : ∃ after,
      cs.drop offset = line.drop (offset - lineStart (linesOf cs) k) ++ after ∧
      ∀ c ∈ after.head?, c = '\n' := by
  obtain ⟨before, after, hcs, hlength, hafter⟩ := exists_around_line h.line_eq
  refine ⟨after, ?_, hafter⟩
  have hcolumn : offset - lineStart (linesOf cs) k ≤ line.length := by
    have := h.le_end
    omega
  have hoffset : offset = before.length + (offset - lineStart (linesOf cs) k) := by
    have := h.start_le
    omega
  generalize offset - lineStart (linesOf cs) k = column at hcolumn hoffset
  subst hcs hoffset
  rw [List.append_assoc, ← List.drop_drop, List.drop_left, List.drop_append_of_le_length hcolumn]

/-- **A place is shown in its line.** The line that is shown is the only one that the place lies in.
Below it there are just as many blanks as the line has characters before the place, and then a
caret: it stands under the character at the place or, if that is a line feed or the end of the text,
behind the line. -/
theorem renderSpan_shows_place {source : String} {offset : Nat}
    (h : offset ≤ source.toList.length) (length : Nat) : ∃ k shown,
      InLine source.toList offset k shown ∧
      (∀ k' line', InLine source.toList offset k' line' → k' = k ∧ line' = shown) ∧
      linesOf (renderSpan source offset length).toList =
        [shown, caretLine (offset - lineStart (linesOf source.toList) k) length] ∧
      shown[offset - lineStart (linesOf source.toList) k]? =
        source.toList[offset]?.filter (· != '\n') := by
  obtain ⟨k, shown, hplace, hnone, hlines⟩ := exists_renderSpan h length
  refine ⟨k, shown, hplace, fun k' line' h' => hplace.unique h', hlines, ?_⟩
  obtain ⟨after, hdrop, hafter⟩ := hplace.exists_drop
  have hchar : source.toList[offset]? = _ := (List.head?_drop ..).symm.trans (congrArg _ hdrop)
  rw [hchar, ← List.head?_drop, List.head?_append]
  rcases hrest : (shown.drop (offset - lineStart (linesOf source.toList) k)).head? with _ | c
  · rcases hhead : after.head? with _ | c
    · rfl
    · simp [hafter c hhead, Option.filter_some]
  · have hc : c ≠ '\n' := by
      rintro rfl
      exact hnone (List.mem_of_mem_drop (List.mem_of_mem_head? hrest))
    simp [Option.filter_some, hc]

/-- The place of a line feed, in the empty line that it ends. -/
theorem renderSpan_shows_place_emptyLine : 7 ≤ "echo a\n\necho )".toList.length ∧
    InLine "echo a\n\necho )".toList 7 1 [] ∧
    linesOf (renderSpan "echo a\n\necho )" 7 2).toList = [[], ['^', '^']] := by
  have hle : 7 ≤ "echo a\n\necho )".toList.length := by decide
  have hplace : InLine "echo a\n\necho )".toList 7 1 [] := ⟨by decide, by decide, by decide⟩
  obtain ⟨k, line, -, hunique, hlines, -⟩ := renderSpan_shows_place hle 2
  obtain ⟨rfl, rfl⟩ := hunique 1 [] hplace
  exact ⟨hle, hplace, hlines⟩

/-! ### Carets that fit -/

/-- Whether what is shown is a line and carets below it, each of them under a character. -/
def CaretsFit (shown : String) : Prop :=
  ∃ line carets, linesOf shown.toList = [line, carets] ∧
    ∀ i : Nat, carets[i]? = some '^' → i < line.length

theorem carets_lt_iff {column length n : Nat} :
    (∀ i : Nat, (caretLine column length)[i]? = some '^' → i < n) ↔ column + max length 1 ≤ n := by
  constructor
  · intro h
    -- the last one
    have hlast : (caretLine column length)[column + (max length 1 - 1)]? = some '^' := by
      rw [caretLine, List.getElem?_append_right (by simp), List.getElem?_replicate,
        List.length_replicate, if_pos (by omega)]
    have := h _ hlast
    omega
  · intro h i hi
    have := (List.getElem?_eq_some_iff.1 hi).1
    rw [length_caretLine] at this
    omega

/-- **Carets fit just if what they are to show lies in one line.** -/
theorem caretsFit_renderSpan_iff {source : String} {offset length : Nat} (hlength : 1 ≤ length)
    (h : offset + length ≤ source.toList.length) :
    CaretsFit (renderSpan source offset length) ↔
      '\n' ∉ (source.toList.drop offset).take length := by
  have hoffset : offset ≤ source.toList.length := by omega
  obtain ⟨k, line, hplace, hnone, hlines⟩ := exists_renderSpan hoffset length
  obtain ⟨after, hdrop, hafter⟩ := hplace.exists_drop
  have hle : offset - lineStart (linesOf source.toList) k ≤ line.length := by
    have := hplace.le_end
    omega
  have htotal := congrArg List.length hdrop
  generalize offset - lineStart (linesOf source.toList) k = column at hlines hdrop hle htotal
  have hcarets : (∀ i : Nat, (caretLine column length)[i]? = some '^' → i < line.length) ↔
      column + length ≤ line.length := by rw [carets_lt_iff, Nat.max_eq_left hlength]
  have hfit : CaretsFit (renderSpan source offset length) ↔ column + length ≤ line.length := by
    rw [← hcarets, CaretsFit, hlines]
    constructor
    · rintro ⟨line', carets, heq, hunder⟩
      cases heq
      exact hunder
    · exact fun hunder => ⟨line, _, rfl, hunder⟩
  rw [hfit, hdrop]
  simp only [List.length_drop, List.length_append] at htotal
  constructor
  · intro hin hmem
    rw [List.take_append_of_le_length (by rw [List.length_drop]; omega)] at hmem
    exact hnone (List.mem_of_mem_drop (List.mem_of_mem_take hmem))
  · intro hmem
    by_contra hout
    -- then the line feed behind the line is among the characters to be shown
    cases after with
    | nil =>
      rw [List.length_nil] at htotal
      omega
    | cons c after =>
      obtain rfl := hafter c rfl
      refine hmem (List.mem_take_iff_getElem.2 ⟨(line.drop column).length, ?_, ?_⟩)
      · simp
        omega
      · simp

end DevConsole
