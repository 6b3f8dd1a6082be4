import DevConsole.Proofs.Query.Places
import DevConsole.Proofs.Query.SourceLines

/-!
What the carets below a line show of a fault. A fault is about some characters of the source, which
the scanner has read when it finds the fault. Main statement: the carets are under characters of the
line that is shown just if there is no line feed among these, and there is one only in strings that
do not end, in empty groups, and where a line feed itself stands in a reference.
-/

namespace DevConsole

open Grammar

variable {cs : List Char}

/-! ### The characters that a fault is about -/

def SyntaxError.span (e : SyntaxError) (source : String) : List Char :=
  (source.toList.drop e.offset).take e.length

/-- Whether a line feed can be among the characters that a fault of this kind is about. -/
def SyntaxFault.holdsLineFeed : SyntaxFault → Bool
  | .unterminatedString | .emptyGroup => true
  | .invalidReferenceChar c => c == '\n'
  | _ => false

/-- Whether the error is about some characters of the text, and about a line feed only if its kind
is one that allows for it. -/
structure SyntaxError.PointsInto (cs : List Char) (e : SyntaxError) : Prop where
  length_pos : 1 ≤ e.length
  end_le : e.offset + e.length ≤ cs.length
  lineFeed : '\n' ∈ (cs.drop e.offset).take e.length → e.fault.holdsLineFeed

namespace SyntaxError.PointsInto

theorem of_stands {fault : SyntaxFault} {offset length : Nat} {text : List Char} (hne : text ≠ [])
    (hstands : text <+: cs.drop offset) (hlength : length = text.length)
    (hfault : '\n' ∈ text → fault.holdsLineFeed) : PointsInto cs ⟨fault, offset, length⟩ where
  length_pos := by
    rw [hlength]
    exact List.length_pos_iff.2 hne
  end_le := by
    have hle := hstands.length_le
    have hpos := List.length_pos_iff.2 hne
    rw [List.length_drop] at hle
    dsimp only
    omega
  lineFeed := by
    rw [hlength, ← List.prefix_iff_eq_take.1 hstands]
    exact hfault

theorem of_getElem? {fault : SyntaxFault} {n : Nat} {c : Char} (hc : cs[n]? = some c)
    (hfault : c = '\n' → fault.holdsLineFeed) : PointsInto cs ⟨fault, n, 1⟩ :=
  have hstands : [c] <+: cs.drop n := singleton_prefix_drop_iff.2 hc
  of_stands (by simp) hstands rfl fun h => hfault (List.mem_singleton.1 h).symm

theorem of_lt {fault : SyntaxFault} {start stop : Nat} (hlt : start < stop) (hle : stop ≤ cs.length)
    (hfault : fault.holdsLineFeed) : PointsInto cs ⟨fault, start, stop - start⟩ where
  length_pos := Nat.sub_pos_of_lt hlt
  end_le := by
    dsimp only
    omega
  lineFeed := fun _ => hfault

end SyntaxError.PointsInto

/-! ### What has been read -/

section Reading

variable {w : Word} {n : Nat}

theorem Word.ReadTo.pending {inside : Inside} (h : w.ReadTo cs inside n) :
    ∃ place, inside.pending <+: cs.drop place ∧ place + inside.pending.length = n ∧
      inside.PlacedIn cs place := by
  obtain ⟨text, -, hstands, hn, hplaced⟩ := h
  refine ⟨_, (append_prefix_drop_iff.1 hstands).2, ?_, hplaced⟩
  rw [← hn, List.length_append, Nat.add_assoc]

/-- What has been read of a reference: its brace and some of its name. -/
theorem Word.ReadTo.reference {start : Nat} {name : String} {quote : Option Nat}
    (h : w.ReadTo cs (.reference start name quote) n) :
    '{' :: name.toList <+: cs.drop start ∧ n = start + ('{' :: name.toList).length ∧
      '\n' ∉ '{' :: name.toList ∧ ∀ q ∈ quote, q < n := by
  obtain ⟨place, hstands, hn, rfl, hname, hquote⟩ := h.pending
  refine ⟨hstands, hn.symm, ?_, fun q hq => ?_⟩
  · intro hmem
    rcases List.mem_cons.1 hmem with hbrace | hmem
    · cases hbrace
    · exact absurd (hname _ hmem) (by decide)
  · exact Nat.lt_of_lt_of_le (hquote q hq).2 (hn ▸ Nat.le_add_right ..)

theorem Word.ReadTo.quote_lt {start : Nat} (h : w.ReadTo cs (.quoted start) n) : start < n := by
  obtain ⟨place, -, hn, -, hlt⟩ := h.pending
  exact Nat.lt_of_lt_of_le hlt (hn ▸ Nat.le_add_right ..)

end Reading

/-! ### Faults at a character -/

namespace Scanner

variable {s : Scanner} {c : Char} {e : SyntaxError}

theorem pointsInto_referenceChar {call : Invocation} {w : Word} {start : Nat} {name : String}
    {quote : Option Nat} (hw : w.ReadTo cs (.reference start name quote) s.position)
    (hc : cs[s.position]? = some c) (h : s.referenceChar call w start name quote c = .error e) :
    e.PointsInto cs := by
  obtain ⟨hstands, hposition, hline, -⟩ := hw.reference
  unfold referenceChar at h
  split at h
  · next heq =>
    obtain rfl := beq_iff_eq.1 heq
    split at h
    · next hempty =>
      -- the braces are all there is
      cases h
      obtain rfl : name = "" := by simpa using hempty
      have hbraces : ['{', '}'] <+: cs.drop start :=
        append_prefix_drop_iff.2 ⟨hstands, singleton_prefix_drop_iff.2 (hposition ▸ hc)⟩
      refine .of_stands (by simp) hbraces ?_ (by decide)
      rw [hposition, Nat.add_sub_cancel_left]
      rfl
    · cases h
  · split at h
    · next heq =>
      cases h
      refine .of_getElem? hc fun hn => ?_
      rw [hn] at heq
      cases heq
    · split at h
      · cases h
      · split at h
        · cases h
          refine .of_stands (by simp) hstands ?_ fun hn => absurd hn hline
          rw [hposition, Nat.add_sub_cancel_left]
        · cases h
          exact .of_getElem? hc fun hn => beq_iff_eq.2 hn

/-- What can be wrong with a character outside comments, quotes and references: the character
itself, which is no line feed, or the empty group that it closes. -/
theorem eq_of_outerChar (h : s.outerChar c = .error e) :
    (c ≠ '\n' ∧ ∃ fault, e = ⟨fault, s.position, 1⟩) ∨
      ∃ g ∈ s.groups, e = ⟨.emptyGroup, g.offset, s.position - g.offset + 1⟩ := by
  have hrefuse : ∀ {fault : SyntaxFault}, s.refuse fault = .error e →
      ∃ fault, e = ⟨fault, s.position, 1⟩ := fun {fault} hs => by
    cases hs
    exact ⟨fault, rfl⟩
  rcases class_cases c with rfl | hblank | ⟨l, hl⟩ | rfl | rfl | rfl | rfl | rfl | hplain
  · cases h
  · rw [outerChar_blank hblank, blank_eq] at h
    cases h
  · rw [outerChar_link hl, join] at h
    have hne : c ≠ '\n' := by rcases link_cases hl with rfl | rfl | rfl <;> decide
    split at h
    · exact .inl ⟨hne, hrefuse h⟩
    · cases h
  · rw [outerChar_open, openGroup] at h
    split at h
    · cases h
    · exact .inl ⟨by decide, hrefuse h⟩
  · rw [outerChar_close, closeGroup] at h
    split at h
    · exact .inl ⟨by decide, hrefuse h⟩
    · next g gs hgs =>
      split at h
      · split at h
        · cases h
          exact .inr ⟨g, hgs ▸ List.mem_cons_self, rfl⟩
        · exact .inl ⟨by decide, hrefuse h⟩
      · cases h
  · rw [outerChar_quote, openQuote] at h
    split at h
    · exact .inl ⟨by decide, hrefuse h⟩
    all_goals cases h
  · rw [outerChar_brace, openReference] at h
    split at h
    · exact .inl ⟨by decide, hrefuse h⟩
    · exact .inl ⟨by decide, hrefuse h⟩
    · exact .inl ⟨by decide, hrefuse h⟩
    all_goals cases h
  · exact .inl ⟨by decide, hrefuse h⟩
  · rw [outerChar_plain hplain, plainChar] at h
    have hne : c ≠ '\n' := by
      rintro rfl
      cases hplain
    split at h
    · exact .inl ⟨hne, hrefuse h⟩
    all_goals cases h

/-- **A fault that is found at a character** is about that character and perhaps some before it. -/
theorem PlacedIn.pointsInto_step (hs : s.PlacedIn cs) (hc : cs[s.position]? = some c)
    (h : s.step c = .error e) : e.PointsInto cs := by
  have hle : s.position + 1 ≤ cs.length := (List.getElem?_eq_some_iff.1 hc).1
  have hskip : ¬(s.comment && c != '\n') = true := by
    intro hskip
    rw [Scanner.step, if_pos hskip] at h
    cases h
  by_cases ho : s.Outside
  · have hcomment : s.comment = false ∨ c = '\n' := by
      cases hs : s.comment <;> simp_all
    rw [step_outside ho hcomment] at h
    rcases eq_of_outerChar h with ⟨hne, fault, rfl⟩ | ⟨g, hg, rfl⟩
    · exact .of_getElem? hc fun hn => absurd hn hne
    · have hlt := (hs.groups g hg).2.1
      rw [← Nat.sub_add_comm (Nat.le_of_lt hlt)]
      exact .of_lt (Nat.lt_succ_of_lt hlt) hle rfl
  · have hcomment := hs.comment_eq_false ho
    rw [Scanner.step, if_neg hskip] at h
    cases hp : s.phase with
    | word call w inside =>
      simp only [hp] at h
      cases inside with
      | bare => exact absurd (by simp [Outside, hp]) ho
      | quoted start =>
        have h : s.quotedChar call w start c = .error e := h
        unfold quotedChar at h
        repeat' split at h
        all_goals cases h
      | escaped start backslash => cases h
      | reference start name quote =>
        exact pointsInto_referenceChar (hs.word hcomment hp).2.2 hc h
    | _ => exact absurd (by simp [Outside, hp]) ho

/-! ### Faults at the end -/

/-- **A fault that is found at the end** is about what has not ended. -/
theorem PlacedIn.pointsInto_finish (hs : s.PlacedIn cs) (hposition : s.position = cs.length)
    (h : s.finish = .error e) : e.PointsInto cs := by
  have hle := Nat.le_of_eq hposition
  by_cases ho : s.Outside
  · cases hgs : s.groups with
    | nil =>
      rw [finish_of_outside ho hgs] at h
      cases h
    | cons g gs =>
      rw [finish_of_group ho hgs] at h
      cases h
      exact .of_getElem? (hs.groups g (hgs ▸ List.mem_cons_self)).1 (by decide)
  · have hcomment := hs.comment_eq_false ho
    cases hp : s.phase with
    | word call w inside =>
      obtain ⟨-, -, hw⟩ := hs.word hcomment hp
      simp only [finish, hp] at h
      cases inside with
      | bare => exact absurd (by simp [Outside, hp]) ho
      | quoted start =>
        cases h
        exact .of_lt hw.quote_lt hle rfl
      | escaped start backslash =>
        cases h
        obtain ⟨place, hstands, -, -, rfl⟩ := hw.pending
        exact .of_stands (by simp) hstands rfl (by simp)
      | reference start name quote =>
        obtain ⟨hstands, hend, hline, hquote⟩ := hw.reference
        cases quote with
        | none =>
          cases h
          refine .of_stands (by simp) hstands ?_ fun hn => absurd hn hline
          rw [hend, Nat.add_sub_cancel_left]
        | some q =>
          cases h
          exact .of_lt (hquote q rfl) hle rfl
    | _ => exact absurd (by simp [Outside, hp]) ho

/-! ### Whole sources -/

theorem PlacedIn.pointsInto_run {ds : List Char} (hs : s.PlacedIn cs)
    (hds : ds <+: cs.drop s.position) (h : s.run ds = .error e) : e.PointsInto cs := by
  induction ds generalizing s with
  | nil => cases h
  | cons d ds ih =>
    obtain ⟨hd, hds⟩ := cons_prefix_drop_iff.1 hds
    rw [run_cons] at h
    rcases hstep : s.step d with fault | s₁
    · rw [hstep] at h
      cases h
      exact hs.pointsInto_step hd hstep
    · rw [hstep] at h
      exact ih (hs.step hd hstep) (position_of_step hstep ▸ hds) h

end Scanner

/-- Every fault is about some characters of the source. -/
theorem pointsInto_of_parse {source : String} {e : SyntaxError} (h : parse source = .error e) :
    e.PointsInto source.toList := by
  change (Scanner.run {} source.toList).bind Scanner.finish = .error e at h
  have hempty := Scanner.placedIn_empty source.toList
  rcases hrun : Scanner.run {} source.toList with fault | s
  · rw [hrun] at h
    cases h
    exact hempty.pointsInto_run (by simp) hrun
  · rw [hrun] at h
    obtain ⟨hs, hposition⟩ := hempty.run (by simp) hrun
    exact hs.pointsInto_finish (by rw [hposition, Nat.zero_add]) h

/-- **Carets fit unless a fault is about a line feed.** The carets that show a fault are all under
characters of the line just if the fault is not about a line feed. It can only be about one as a
string that does not end, as an empty group, or as a line feed in a reference. -/
theorem caretsFit_iff_of_parse {source : String} {e : SyntaxError} (h : parse source = .error e) :
    (CaretsFit (e.render source) ↔ '\n' ∉ e.span source) ∧
      ('\n' ∈ e.span source → e.fault.holdsLineFeed) :=
  have he := pointsInto_of_parse h
  ⟨caretsFit_renderSpan_iff he.length_pos he.end_le, he.lineFeed⟩

/-- A reference that does not end, in the second line. -/
theorem caretsFit_of_unterminatedReference :
    parse "echo a;\n(b x\x7by" = .error ⟨.unterminatedReference, 12, 2⟩ ∧
      CaretsFit (SyntaxError.render ⟨.unterminatedReference, 12, 2⟩ "echo a;\n(b x\x7by") := by
  have hparse : parse "echo a;\n(b x\x7by" = .error ⟨.unterminatedReference, 12, 2⟩ := by rfl
  exact ⟨hparse, (caretsFit_iff_of_parse hparse).1.2 (by decide)⟩

/-- A string that goes on in the next line has as many carets as characters, all below its first
line. -/
theorem not_caretsFit_of_unterminatedString :
    parse "\"abc\ndef" = .error ⟨.unterminatedString, 0, 8⟩ ∧
      linesOf (SyntaxError.render ⟨.unterminatedString, 0, 8⟩ "\"abc\ndef").toList =
        ["\"abc".toList, "^^^^^^^^".toList] ∧
      ¬CaretsFit (SyntaxError.render ⟨.unterminatedString, 0, 8⟩ "\"abc\ndef") := by
  refine ⟨by rfl, by decide, ?_⟩
  rw [SyntaxError.render, caretsFit_renderSpan_iff (by decide) (by decide)]
  decide

end DevConsole
