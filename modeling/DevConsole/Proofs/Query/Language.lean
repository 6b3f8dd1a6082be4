import DevConsole.Proofs.Query.Lexing
import DevConsole.Proofs.Query.Moves

/-!
The language of the parser. What the scanner accepts can be split into tokens, so a text is a query
for the parser exactly if it is one for the grammar, and the two give it the same clauses up to
offsets.
-/

namespace DevConsole

open Grammar

/-! ### What can be left of a text -/

namespace Grammar

/-- What can be left behind some pieces of a word: more pieces of it, and tokens. -/
def Continues (cs : List Char) : Prop :=
  ∃ (pieces : List Piece) (rest : List Char) (ts : List Token),
    cs = pieces.flatMap Piece.chars ++ rest ∧ (∀ p ∈ pieces, p.Valid) ∧ EndsWord rest ∧
      Lexes rest ts

def ContinuesQuoted (cs : List Char) : Prop :=
  ∃ (items : List Item) (rest : List Char),
    cs = items.flatMap Item.chars ++ '"' :: rest ∧ (∀ i ∈ items, i.Valid) ∧ Continues rest

/-- What can be left inside a reference with the name `name` so far. -/
def ContinuesReference (name : List Char) (quoted : Bool) (cs : List Char) : Prop :=
  ∃ more rest, cs = more ++ '}' :: rest ∧ name ++ more ≠ [] ∧ (∀ c ∈ more, Text.isNameChar c) ∧
    if quoted then ContinuesQuoted rest else Continues rest

def ContinuesComment (cs : List Char) : Prop :=
  ∃ skipped rest ts, cs = skipped ++ rest ∧ (∀ c ∈ skipped, c ≠ '\n') ∧
    (∀ c ∈ rest.head?, c = '\n') ∧ Lexes rest ts

theorem isPlainName_iff {name : List Char} :
    Text.isPlainName name ↔ name ≠ [] ∧ ∀ c ∈ name, Text.isNameChar c := by
  simp [Text.isPlainName]

theorem Continues.lexes {cs : List Char} (h : Continues cs) : ∃ ts, Lexes cs ts := by
  obtain ⟨pieces, rest, ts, rfl, hv, hend, hl⟩ := h
  by_cases hne : pieces = []
  · subst hne
    exact ⟨ts, hl⟩
  · exact ⟨.word pieces :: ts, .word hne hv hend hl⟩

theorem Lexes.continues {cs : List Char} {ts : List Token} (h : Lexes cs ts) (hend : EndsWord cs) :
    Continues cs :=
  ⟨[], cs, ts, rfl, by simp, hend, h⟩

theorem Continues.piece {p : Piece} {cs : List Char} (hp : p.Valid) (h : Continues cs) :
    Continues (p.chars ++ cs) := by
  obtain ⟨pieces, rest, ts, rfl, hv, hend, hl⟩ := h
  refine ⟨p :: pieces, rest, ts, by simp, ?_, hend, hl⟩
  intro d hd
  rcases List.mem_cons.1 hd with rfl | hd
  · exact hp
  · exact hv d hd

theorem ContinuesQuoted.item {i : Item} {cs : List Char} (hi : i.Valid) (h : ContinuesQuoted cs) :
    ContinuesQuoted (i.chars ++ cs) := by
  obtain ⟨items, rest, rfl, hv, hc⟩ := h
  refine ⟨i :: items, rest, by simp, ?_, hc⟩
  intro j hj
  rcases List.mem_cons.1 hj with rfl | hj
  · exact hi
  · exact hv j hj

theorem ContinuesQuoted.quote {cs : List Char} (h : ContinuesQuoted cs) : Continues ('"' :: cs) := by
  obtain ⟨items, rest, rfl, hv, hc⟩ := h
  simpa [Piece.chars] using hc.piece (p := .quoted items) hv

theorem ContinuesReference.brace {cs : List Char} (h : ContinuesReference [] false cs) :
    Continues ('{' :: cs) := by
  obtain ⟨name, rest, rfl, hne, hv, hc⟩ := h
  have hp : Piece.Valid (.reference name) := isPlainName_iff.2 ⟨hne, hv⟩
  simpa [Piece.chars, referenceChars] using Continues.piece hp hc

theorem ContinuesReference.quotedBrace {cs : List Char} (h : ContinuesReference [] true cs) :
    ContinuesQuoted ('{' :: cs) := by
  obtain ⟨name, rest, rfl, hne, hv, hc⟩ := h
  have hi : Item.Valid (.reference name) := isPlainName_iff.2 ⟨hne, hv⟩
  simpa [Item.chars, referenceChars] using ContinuesQuoted.item hi hc

theorem ContinuesReference.nameChar {name cs : List Char} {quoted : Bool} {c : Char}
    (hc : Text.isNameChar c) (h : ContinuesReference (name ++ [c]) quoted cs) :
    ContinuesReference name quoted (c :: cs) := by
  obtain ⟨more, rest, rfl, -, hv, hrest⟩ := h
  refine ⟨c :: more, rest, rfl, by simp, ?_, hrest⟩
  intro d hd
  rcases List.mem_cons.1 hd with rfl | hd
  · exact hc
  · exact hv d hd

/-- What begins with a character that begins no piece is tokens. -/
theorem continues_of_not_beginsPiece {c : Char} {cs : List Char} {ts : List Token}
    (hc : beginsPiece c = false) (h : Lexes (c :: cs) ts) : Continues (c :: cs) := by
  refine h.continues ?_
  intro d hd
  obtain rfl : c = d := by simpa using hd
  exact hc

end Grammar

namespace Scanner

/-! ### What the scanner accepts -/

/-- What can be left of a text in the given place of an argument. -/
def Legible (s : Scanner) (cs : List Char) : Prop :=
  match s.comment, s.phase with
  | true, _ => ContinuesComment cs
  | false, .word _ _ (.quoted _) => ContinuesQuoted cs
  | false, .word _ _ (.escaped ..) => ∃ c rest, cs = c :: rest ∧ ContinuesQuoted rest
  | false, .word _ _ (.reference _ name quote) => ContinuesReference name.toList quote.isSome cs
  | false, _ => Continues cs

theorem scanned_cons_eq_some {s : Scanner} {c : Char} {cs : List Char} {d : Chain}
    (h : s.scanned (c :: cs) = some d) : ∃ s', s.step c = .ok s' ∧ s'.scanned cs = some d := by
  cases hs : s.step c with
  | error e => simp [scanned_cons_error hs] at h
  | ok s' => exact ⟨s', rfl, by rw [← scanned_cons_ok hs, h]⟩

theorem legible_outerChar {s s' : Scanner} {c : Char} {cs : List Char} (ho : s.Outside)
    (hs : s.outerChar c = .ok s') (h : s'.Legible cs) : Continues (c :: cs) := by
  obtain ⟨p, gs, cl, l, phase, comment⟩ := s
  rcases class_cases c with rfl | hc | ⟨link, hc⟩ | rfl | rfl | rfl | rfl | rfl | hc
  · cases hs
    obtain ⟨skipped, rest, ts, rfl, hskip, hrest, hl⟩ := h
    exact continues_of_not_beginsPiece rfl (.comment hskip hrest hl)
  · have hcs : Continues cs := by
      rw [outerChar_blank hc] at hs
      cases phase <;> cases hs <;> exact h
    obtain ⟨ts, hl⟩ := hcs.lexes
    exact continues_of_not_beginsPiece
      ((beginsPiece_eq_false_iff c).2 (.inr (.inl hc))) (.blank hc hl)
  · have hcs : Continues cs := by
      rw [outerChar_link hc] at hs
      obtain ⟨-, rfl⟩ := join_eq_ok hs
      exact h
    obtain ⟨ts, hl⟩ := hcs.lexes
    exact continues_of_not_beginsPiece
      ((beginsPiece_eq_false_iff c).2 (.inr (.inr (.inl ⟨link, hc⟩)))) (.link hc hl)
  · have hcs : Continues cs := by
      rw [outerChar_open] at hs
      obtain ⟨-, rfl⟩ := openGroup_eq_ok hs
      exact h
    obtain ⟨ts, hl⟩ := hcs.lexes
    exact continues_of_not_beginsPiece rfl (.openParen hl)
  · have hcs : Continues cs := by
      rw [outerChar_close] at hs
      obtain ⟨g, gs, -, -, rfl⟩ := closeGroup_eq_ok hs
      exact h
    obtain ⟨ts, hl⟩ := hcs.lexes
    exact continues_of_not_beginsPiece rfl (.closeParen hl)
  · rw [outerChar_quote] at hs
    have hcs : ContinuesQuoted cs := by
      cases phase <;> cases hs <;> exact h
    exact hcs.quote
  · rw [outerChar_brace] at hs
    have hcs : ContinuesReference [] false cs := by
      cases phase <;> cases hs <;> simpa [Legible] using h
    exact hcs.brace
  · cases hs
  · rw [outerChar_plain hc] at hs
    have hcs : Continues cs := by
      cases phase <;> cases hs <;> exact h
    exact hcs.piece (p := .plain c) hc

theorem legible_referenceChar {s s' : Scanner} {call : Invocation} {w : Word} {start : Nat}
    {name : String} {quote : Option Nat} {c : Char} {cs : List Char}
    (hs : s.referenceChar call w start name quote c = .ok s') (h : s'.Legible cs) :
    ContinuesReference name.toList quote.isSome (c :: cs) := by
  by_cases hclose : c = '}'
  · subst hclose
    by_cases hn : name = ""
    · simp [referenceChar, hn] at hs
    · refine ⟨[], cs, rfl, by simpa [String.toList_eq_nil_iff] using hn, by simp, ?_⟩
      cases quote <;> simp only [referenceChar, beq_self_eq_true, if_true, hn, String.isEmpty_iff,
        if_false] at hs <;> cases hs <;> exact h
  by_cases hopen : c = '{'
  · simp [referenceChar, hopen, refuse] at hs
  by_cases hc : Text.isNameChar c
  · simp only [referenceChar, hclose, hopen, hc, beq_iff_eq, if_false, if_true] at hs
    cases hs
    refine ContinuesReference.nameChar hc ?_
    simpa [Legible] using h
  · simp only [referenceChar, hclose, hopen, hc, beq_iff_eq, if_false, Bool.false_eq_true] at hs
    split at hs <;> cases hs

theorem legible_quotedChar {s s' : Scanner} {call : Invocation} {w : Word} {start : Nat} {c : Char}
    {cs : List Char} (hs : s.quotedChar call w start c = .ok s') (h : s'.Legible cs) :
    ContinuesQuoted (c :: cs) := by
  unfold quotedChar at hs
  split at hs
  · next hc =>
    obtain rfl := beq_iff_eq.1 hc
    cases hs
    obtain ⟨d, rest, rfl, hrest⟩ := h
    exact hrest.item (i := .escaped d) trivial
  · next hslash =>
    split at hs
    · next hc =>
      obtain rfl := beq_iff_eq.1 hc
      cases hs
      exact ⟨[], cs, rfl, by simp, h⟩
    · next hquote =>
      split at hs
      · next hc =>
        obtain rfl := beq_iff_eq.1 hc
        cases hs
        exact ContinuesReference.quotedBrace (by simpa [Legible] using h)
      · next hbrace =>
        cases hs
        refine ContinuesQuoted.item (i := .plain c) ⟨?_, ?_, ?_⟩ h
        · simpa using hquote
        · simpa using hslash
        · simpa using hbrace

/-- **What the scanner accepts can be split into tokens.** -/
theorem legible_of_scanned {s : Scanner} {cs : List Char} {d : Chain}
    (hc : s.comment = true → s.Outside) (h : s.scanned cs = some d) : s.Legible cs := by
  induction cs generalizing s with
  | nil =>
    obtain ⟨p, gs, cl, l, phase, comment⟩ := s
    cases comment with
    | true => exact ⟨[], [], [], rfl, by simp, by simp, .nil⟩
    | false =>
      have hnil : Continues [] := ⟨[], [], [], rfl, by simp, by simp [EndsWord], .nil⟩
      cases phase with
      | word call w inside =>
        cases inside with
        | bare => exact hnil
        | quoted start => cases h
        | escaped start backslash => cases h
        | reference start name quote => cases quote <;> cases h
      | _ => exact hnil
  | cons c cs ih =>
    obtain ⟨s', hs, h'⟩ := scanned_cons_eq_some h
    have ih := ih (outside_of_step hc hs) h'
    obtain ⟨p, gs, cl, l, phase, comment⟩ := s
    cases comment with
    | true =>
      have ho := hc rfl
      by_cases hn : c = '\n'
      · subst hn
        rw [step_outside ho (.inr rfl)] at hs
        obtain ⟨ts, hl⟩ := (legible_outerChar ho hs ih).lexes
        exact ⟨[], _, ts, rfl, by simp, by simp, hl⟩
      · rw [step_comment rfl hn] at hs
        cases hs
        obtain ⟨skipped, rest, ts, rfl, hskip, hrest, hl⟩ := ih
        refine ⟨c :: skipped, rest, ts, rfl, ?_, hrest, hl⟩
        intro d hd
        rcases List.mem_cons.1 hd with rfl | hd
        · exact hn
        · exact hskip d hd
    | false =>
      have outer : Outside ⟨p, gs, cl, l, phase, false⟩ → Continues (c :: cs) := fun ho =>
        legible_outerChar ho (step_outside ho (.inl rfl) ▸ hs) ih
      cases phase with
      | word call w inside =>
        cases inside with
        | bare => exact outer trivial
        | quoted start => exact legible_quotedChar hs ih
        | escaped start backslash =>
          cases hs
          exact ⟨c, cs, rfl, ih⟩
        | reference start name quote => exact legible_referenceChar hs ih
      | _ => exact outer trivial

end Scanner

/-! ### Queries -/

/-- What a text is parsed as, up to offsets, is what the scanner reads from its start. -/
theorem parse_eq_ok_iff {source : String} {c : Chain} :
    (∃ q, parse source = .ok q ∧ q.clauses.unplaced = c) ↔
      Scanner.scanned {} source.toList = some c := by
  rw [Scanner.scanned]
  change (∃ q, (Scanner.run {} source.toList).bind Scanner.finish = .ok q ∧ _) ↔ _
  cases (Scanner.run {} source.toList).bind Scanner.finish with
  | error e => simp [Except.toOption]
  | ok q => simp [Except.toOption]

/-- A text is parsed as `c`, up to offsets, exactly if the grammar derives `c` from it. -/
theorem scanned_eq_some_iff {cs : List Char} {c : Chain} :
    Scanner.scanned {} cs = some c ↔ Derives cs c := by
  have hready : Scanner.Ready {} cs := ⟨trivial, rfl, by simp, fun h => h.elim⟩
  constructor
  · intro h
    have hlegible : Continues cs := Scanner.legible_of_scanned (by simp) h
    obtain ⟨ts, hl⟩ := hlegible.lexes
    refine ⟨ts, hl, ?_⟩
    rw [Scanner.scanned_of_lexes hl hready] at h
    exact read_eq_some_iff.1 h
  · rintro ⟨ts, hl, hq⟩
    rw [Scanner.scanned_of_lexes hl hready]
    exact read_eq_some_iff.2 hq

theorem derives_of_parse {source : String} {q : Query} (h : parse source = .ok q) :
    Derives source.toList q.clauses.unplaced :=
  scanned_eq_some_iff.1 (parse_eq_ok_iff.1 ⟨q, h, rfl⟩)

theorem exists_parse_of_derives {source : String} {c : Chain} (h : Derives source.toList c) :
    ∃ q, parse source = .ok q ∧ q.clauses.unplaced = c :=
  parse_eq_ok_iff.2 (scanned_eq_some_iff.2 h)

/-- **The parser and the grammar agree.** A source is parsed without a fault exactly if the grammar
derives clauses from its text, and the query then has these clauses, up to offsets, and no other
ones. -/
theorem parse_iff_derives (source : String) (c : Chain) :
    (∃ q, parse source = .ok q ∧ q.clauses.unplaced = c) ↔ Derives source.toList c := by
  constructor
  · rintro ⟨q, hq, rfl⟩
    exact derives_of_parse hq
  · exact exists_parse_of_derives

end DevConsole
