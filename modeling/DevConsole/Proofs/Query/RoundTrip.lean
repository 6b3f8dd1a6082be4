import DevConsole.Proofs.Query.Scopes

/-!
Canonical texts are read back. The canonical text of a parsed query is parsed to the same query, up
to offsets, so that printing it again changes nothing: the text spells a list of tokens, one quoted
word for each argument, and the grammar derives the clauses of the query from these tokens.
-/

namespace DevConsole

open Grammar

/-! ### Arguments that the grammar makes -/

namespace Grammar

def IsArgument (a : Argument) : Prop := ∃ pieces, (∀ p ∈ pieces, p.Valid) ∧ a = argumentOf pieces

/-- Whether the invocation is one that the grammar makes. -/
structure IsInvocation (call : Invocation) : Prop where
  offset : call.offset = 0
  name : ∀ c ∈ call.name.toList, isPlain c
  args : ∀ a ∈ call.args, IsArgument a
  ne_noop : call.name ≠ "" ∨ call.args ≠ []

/-- Whether the words among the tokens are made of pieces that read back as themselves. -/
def ValidWords (ts : List Token) : Prop :=
  ∀ pieces, Token.word pieces ∈ ts → ∀ p ∈ pieces, p.Valid

theorem Lexes.validWords {cs : List Char} {ts : List Token} (h : Lexes cs ts) : ValidWords ts := by
  induction h with
  | nil => simp [ValidWords]
  | blank _ _ ih => exact ih
  | comment _ _ _ ih => exact ih
  | link _ _ ih => simpa [ValidWords] using ih
  | openParen _ ih => simpa [ValidWords] using ih
  | closeParen _ ih => simpa [ValidWords] using ih
  | word hne hv _ _ ih =>
    intro pieces hp
    rcases List.mem_cons.1 hp with he | hp
    · cases he
      exact hv
    · exact ih pieces hp

theorem ValidWords.mono {ts us : List Token} (h : ValidWords ts) (hs : us ⊆ ts) : ValidWords us :=
  fun pieces hp => h pieces (hs hp)

/-- The words of a command that read back as themselves make an invocation that does. -/
theorem IsCommand.isInvocation {ts : List Token} {call : Invocation} (h : IsCommand ts call)
    (hv : ValidWords ts) : IsInvocation call := by
  obtain ⟨name, tail, words, hne, -⟩ := h
  have hfirst : ∀ p ∈ name.map Piece.plain ++ tail, p.Valid := hv _ (by simp)
  refine ⟨rfl, fun c hc => ?_, fun a ha => ?_, ?_⟩
  · have hmem : c ∈ name := by simpa using hc
    exact hfirst (.plain c) (List.mem_append_left _ (List.mem_map_of_mem hmem))
  · obtain ⟨pieces, hp, rfl⟩ := List.mem_map.1 ha
    refine ⟨pieces, fun p hm => ?_, rfl⟩
    by_cases htail : tail = []
    · rw [argumentWords, if_pos htail] at hp
      exact hv pieces (List.mem_cons_of_mem _ (List.mem_map_of_mem hp)) p hm
    · rw [argumentWords, if_neg htail] at hp
      rcases List.mem_cons.1 hp with rfl | hp
      · exact hfirst p (List.mem_append_right _ hm)
      · exact hv pieces (List.mem_cons_of_mem _ (List.mem_map_of_mem hp)) p hm
  · by_cases hname : name = []
    · have htail : tail ≠ [] := by simpa [hname] using hne
      right
      simp [argumentWords, htail]
    · left
      simpa [← String.toList_inj] using hname

end Grammar

/-! ### Arguments in canonical form -/

def Part.atoms : Part → List Atom
  | .literal text _ => text.toList.map .char
  | .reference name _ => [.reference name.toList]

/-- The part as its canonical text spells it, inside quotes. -/
def Part.items : Part → List Item
  | .literal text _ => text.toList.map fun c => if needsBackslash c then .escaped c else .plain c
  | .reference name _ => [.reference name.toList]

/-- The argument as its canonical text spells it. -/
def Argument.piece (a : Argument) : Piece := .quoted (a.parts.flatMap Part.items)

theorem Part.map_atom_items (p : Part) : p.items.map Item.atom = p.atoms := by
  cases p with
  | literal text offset =>
    have hatom : ∀ c : Char, Item.atom (if needsBackslash c then .escaped c else .plain c) =
        Atom.char c := by
      intro c
      split <;> rfl
    simp [Part.items, Part.atoms, hatom]
  | reference name offset => rfl

theorem Part.chars_items (p : Part) : p.items.flatMap Item.chars = p.text.toList := by
  cases p with
  | literal text offset =>
    have hchars : ∀ c : Char, Item.chars (if needsBackslash c then .escaped c else .plain c) =
        if needsBackslash c then ['\\', c] else [c] := by
      intro c
      split <;> rfl
    simp [Part.items, Part.text, escapeLiteral, escapeChars, List.flatMap_map, hchars]
  | reference name offset =>
    simp [Part.items, Part.text, Item.chars, referenceChars]

/-- The canonical text of an argument is one quoted piece. -/
theorem Argument.chars_piece (a : Argument) : a.piece.chars = a.text.toList := by
  have hparts : (a.parts.flatMap Part.items).flatMap Item.chars =
      (String.join (a.parts.map Part.text)).toList := by
    simp [List.flatMap_assoc, List.flatMap_map, Part.chars_items]
  rw [Argument.piece, Piece.chars, hparts]
  simp [Argument.text]

/-- Only one part grows when an atom is added, so the parts keep the atoms in order. -/
theorem flatMap_atoms_addAtom (ps : List Part) (a : Atom) :
    (addAtom ps a).flatMap Part.atoms = ps.flatMap Part.atoms ++ [a] := by
  cases a with
  | reference name => simp [addAtom, Part.atoms]
  | char c =>
    rcases List.eq_nil_or_concat ps with rfl | ⟨init, last, rfl⟩
    · simp [addAtom, Part.atoms]
    · cases last <;> simp [addAtom, Part.atoms]

theorem flatMap_atoms_partsOf (as : List Atom) : (partsOf as).flatMap Part.atoms = as := by
  have hfold : ∀ ps, (as.foldl addAtom ps).flatMap Part.atoms = ps.flatMap Part.atoms ++ as := by
    induction as with
    | nil => simp
    | cons a as ih =>
      intro ps
      rw [List.foldl_cons, ih, flatMap_atoms_addAtom, List.append_assoc, List.singleton_append]
  simpa [partsOf] using hfold []

theorem flatMap_atoms_argumentOf (pieces : List Piece) :
    (argumentOf pieces).parts.flatMap Part.atoms = pieces.flatMap Piece.atoms := by
  have hparts := flatMap_atoms_partsOf (pieces.flatMap Piece.atoms)
  by_cases hnil : partsOf (pieces.flatMap Piece.atoms) = []
  · rw [hnil] at hparts
    rw [argumentOf, if_pos hnil, ← hparts]
    rfl
  · simpa [argumentOf, hnil] using hparts

/-- An argument that the grammar makes is made of its canonical text. -/
theorem Grammar.IsArgument.argumentOf_piece {a : Argument} (h : IsArgument a) :
    argumentOf [a.piece] = a := by
  have hpiece : [a.piece].flatMap Piece.atoms = a.parts.flatMap Part.atoms := by
    simp [Argument.piece, Piece.atoms, List.map_flatMap, Part.map_atom_items]
  obtain ⟨pieces, -, rfl⟩ := h
  rw [flatMap_atoms_argumentOf] at hpiece
  rw [argumentOf, hpiece]
  rfl

theorem Part.valid_items {p : Part} (h : ∀ name, .reference name ∈ p.atoms → Text.isPlainName name)
    {i : Item} (hi : i ∈ p.items) : i.Valid := by
  cases p with
  | literal text offset =>
    obtain ⟨c, -, rfl⟩ := List.mem_map.1 hi
    by_cases hc : needsBackslash c
    · simp [hc, Item.Valid]
    · simp only [needsBackslash, Bool.or_eq_true, beq_iff_eq, not_or] at hc
      simp [needsBackslash, Item.Valid, hc]
  | reference name offset =>
    cases List.mem_singleton.1 hi
    exact h _ (by simp [Part.atoms])

theorem Grammar.Piece.Valid.plainName {p : Piece} (h : p.Valid) {name : List Char}
    (hname : .reference name ∈ p.atoms) : Text.isPlainName name := by
  cases p with
  | plain c => simp [Piece.atoms] at hname
  | quoted items =>
    obtain ⟨i, hi, he⟩ := List.mem_map.1 hname
    have hvalid := h i hi
    cases i <;> cases he
    exact hvalid
  | reference name' =>
    cases List.mem_singleton.1 hname
    exact h

/-- The canonical text of an argument that the grammar makes reads back as itself. -/
theorem Grammar.IsArgument.valid_piece {a : Argument} (h : IsArgument a) : a.piece.Valid := by
  obtain ⟨pieces, hv, rfl⟩ := h
  intro i hi
  obtain ⟨p, hp, hi⟩ := List.mem_flatMap.1 hi
  refine Part.valid_items (fun name hname => ?_) hi
  have hatom : .reference name ∈ pieces.flatMap Piece.atoms := by
    rw [← flatMap_atoms_argumentOf]
    exact List.mem_flatMap.2 ⟨p, hp, hname⟩
  obtain ⟨piece, hpiece, hatom⟩ := List.mem_flatMap.1 hatom
  exact (hv piece hpiece).plainName hatom

/-! ### The tokens of canonical texts -/

/-- The tokens that the canonical text of the invocation spells. -/
def Invocation.tokens (call : Invocation) : List Token :=
  (if call.name = "" then [] else [.word (call.name.toList.map .plain)]) ++
    call.args.map fun a => .word [a.piece]

/-- The tokens that the canonical text of the chain spells; `joined` tells whether its first clause
follows another one. -/
def Chain.tokens (joined : Bool) : Chain → List Token
  | .nil => []
  | .command link call rest =>
    (if joined then [.link link] else []) ++ call.tokens ++ rest.tokens true
  | .group link _ body rest =>
    (if joined then [.link link] else []) ++
      (.openParen :: body.tokens false ++ .closeParen :: rest.tokens true)

theorem Chain.text_true {c : Chain} {link : Link} (h : c.firstLink? = some link) :
    c.text true = link.text ++ c.text false := by
  cases c <;> cases h <;> simp [Chain.text, String.append_assoc]

theorem Chain.tokens_true {c : Chain} {link : Link} (h : c.firstLink? = some link) :
    c.tokens true = .link link :: c.tokens false := by
  cases c <;> cases h <;> simp [Chain.tokens]

namespace Grammar

theorem IsClause.text_append {ts : List Token} {link : Link} {c : Chain} (h : IsClause ts link c)
    (d : Chain) : (c ++ d).text false = c.text false ++ d.text true := by
  cases h <;> simp [Chain.text]

theorem IsClause.tokens_append {ts : List Token} {link : Link} {c : Chain}
    (h : IsClause ts link c) (d : Chain) :
    (c ++ d).tokens false = c.tokens false ++ d.tokens true := by
  cases h <;> simp [Chain.tokens]

/-! ### The phrase level -/

theorem IsInvocation.isCommand {call : Invocation} (h : IsInvocation call) :
    IsCommand call.tokens call := by
  obtain ⟨hoffset, -, hargs, hne⟩ := h
  have hwords : ∀ as : List Argument, (∀ a ∈ as, IsArgument a) →
      (as.map fun a : Argument => [a.piece]).map argumentOf = as := by
    intro as has
    rw [List.map_map]
    exact (List.map_congr_left fun a ha => (has a ha).argumentOf_piece).trans (List.map_id' as)
  obtain ⟨name, offset, args⟩ := call
  subst hoffset
  by_cases hname : name = ""
  · -- The clause begins with a quote, and its first word is its first argument.
    subst hname
    obtain ⟨a, as, rfl⟩ : ∃ a as, args = a :: as := by
      cases args with
      | nil => simp at hne
      | cons a as => exact ⟨a, as, rfl⟩
    have hcommand := IsCommand.mk [] [a.piece] (as.map fun a => [a.piece]) (by simp)
      (by simp [BeginsQuoted, Argument.piece])
    have hmade : (argumentWords [a.piece] (as.map fun a => [a.piece])).map argumentOf = a :: as :=
      hwords (a :: as) hargs
    rw [hmade] at hcommand
    simpa [Invocation.tokens, Function.comp_def] using hcommand
  · have hcommand := IsCommand.mk name.toList [] (args.map fun a => [a.piece])
      (by simpa using hname) (by simp [BeginsQuoted])
    have hmade : (argumentWords [] (args.map fun a => [a.piece])).map argumentOf = args :=
      hwords args hargs
    rw [hmade] at hcommand
    simpa [Invocation.tokens, hname, Function.comp_def] using hcommand

mutual

theorem IsClause.canonical {ts : List Token} {link : Link} {c : Chain} :
    IsClause ts link c → ValidWords ts → IsClause (c.tokens false) link c
  | .command h, hv => by
    simpa [Chain.tokens] using IsClause.command (h.isInvocation hv).isCommand
  | .group h, hv => by
    have hbody := h.canonical (hv.mono fun t ht => by simp [ht])
    simpa [Chain.tokens] using IsClause.group hbody

theorem IsChain.canonical {ts : List Token} {link : Link} {c : Chain} :
    IsChain ts link c → ValidWords ts → IsChain (c.tokens false) link c
  | .single h, hv => .single (h.canonical hv)
  | .joined h h', hv => by
    have hclause := h.canonical (hv.mono fun t ht => by simp [ht])
    have hrest := h'.canonical (hv.mono fun t ht => by simp [ht])
    rw [h.tokens_append, Chain.tokens_true h'.firstLink?]
    exact .joined hclause hrest

end

/-! ### The lexical level -/

theorem endsWord_cons {c : Char} (h : beginsPiece c = false) (cs : List Char) :
    EndsWord (c :: cs) := by
  intro d hd
  cases Option.mem_some.1 hd
  exact h

theorem endsWord_link (link : Link) (cs : List Char) : EndsWord (link.text.toList ++ cs) := by
  cases link <;> exact endsWord_cons (by decide) _

theorem lexes_link (link : Link) {cs : List Char} {ts : List Token} (h : Lexes cs ts) :
    Lexes (link.text.toList ++ cs) (.link link :: ts) := by
  have hblank : Text.isBlank ' ' := by decide
  have hlink : Lexes (link.symbol :: ' ' :: cs) (.link link :: ts) :=
    .link (by cases link <;> rfl) (.blank hblank h)
  cases link with
  | always => exact hlink
  | ifPassed => exact .blank hblank hlink
  | ifFailed => exact .blank hblank hlink

/-- Words with a blank in front of each are read one after the other. -/
theorem lexes_words {words : List (List Piece)}
    (hwords : ∀ pieces ∈ words, pieces ≠ [] ∧ ∀ p ∈ pieces, p.Valid) {rest : List Char}
    {ts : List Token} (hend : EndsWord rest) (h : Lexes rest ts) :
    EndsWord (words.flatMap (fun pieces => ' ' :: pieces.flatMap Piece.chars) ++ rest) ∧
      Lexes (words.flatMap (fun pieces => ' ' :: pieces.flatMap Piece.chars) ++ rest)
        (words.map .word ++ ts) := by
  induction words with
  | nil => exact ⟨by simpa using hend, by simpa using h⟩
  | cons pieces words ih =>
    obtain ⟨hends, hlexes⟩ := ih fun other hother => hwords other (List.mem_cons_of_mem _ hother)
    obtain ⟨hne, hvalid⟩ := hwords pieces List.mem_cons_self
    have hword := Lexes.word hne hvalid hends hlexes
    constructor
    · exact endsWord_cons (c := ' ') (by decide) _
    · simpa using Lexes.blank (c := ' ') (by decide) hword

theorem lexes_args {args : List Argument} (hargs : ∀ a ∈ args, IsArgument a) {rest : List Char}
    {ts : List Token} (hend : EndsWord rest) (h : Lexes rest ts) :
    EndsWord ((String.join (args.map fun a => " " ++ a.text)).toList ++ rest) ∧
      Lexes ((String.join (args.map fun a => " " ++ a.text)).toList ++ rest)
        (args.map (fun a => .word [a.piece]) ++ ts) := by
  have hwords : ∀ pieces ∈ args.map fun a : Argument => [a.piece],
      pieces ≠ [] ∧ ∀ p ∈ pieces, p.Valid := by
    intro pieces hpieces
    obtain ⟨a, ha, rfl⟩ := List.mem_map.1 hpieces
    simpa using (hargs a ha).valid_piece
  simpa [List.flatMap_map, Argument.chars_piece, Function.comp_def] using lexes_words hwords hend h

theorem IsInvocation.lexes {call : Invocation} (hcall : IsInvocation call) {rest : List Char}
    {ts : List Token} (hend : EndsWord rest) (h : Lexes rest ts) :
    Lexes (call.text.toList ++ rest) (call.tokens ++ ts) := by
  obtain ⟨hends, hargs⟩ := lexes_args hcall.args hend h
  by_cases hname : call.name = ""
  · simpa [Invocation.text, Invocation.tokens, hname] using hargs
  · have hne : call.name.toList.map Piece.plain ≠ [] := by simpa using hname
    have hvalid : ∀ p ∈ call.name.toList.map Piece.plain, p.Valid := by
      intro p hp
      obtain ⟨c, hc, rfl⟩ := List.mem_map.1 hp
      exact hcall.name c hc
    have hchars : (call.name.toList.map Piece.plain).flatMap Piece.chars = call.name.toList := by
      simp [List.flatMap_map, Piece.chars]
    have hword := Lexes.word hne hvalid hends hargs
    rw [hchars] at hword
    simpa [Invocation.text, Invocation.tokens, hname] using hword

mutual

theorem IsClause.lexes {ts : List Token} {link : Link} {c : Chain} :
    IsClause ts link c → ValidWords ts → ∀ {rest : List Char} {us : List Token}, EndsWord rest →
      Lexes rest us → Lexes ((c.text false).toList ++ rest) (c.tokens false ++ us)
  | .command h, hv, rest, us, hend, hl => by
    simpa [Chain.text, Chain.tokens] using (h.isInvocation hv).lexes hend hl
  | .group h, hv, rest, us, hend, hl => by
    have hclose : EndsWord (')' :: rest) := endsWord_cons (by decide) _
    have hbody := h.lexes (hv.mono fun t ht => by simp [ht]) hclose hl.closeParen
    simpa [Chain.text, Chain.tokens] using hbody.openParen

theorem IsChain.lexes {ts : List Token} {link : Link} {c : Chain} :
    IsChain ts link c → ValidWords ts → ∀ {rest : List Char} {us : List Token}, EndsWord rest →
      Lexes rest us → Lexes ((c.text false).toList ++ rest) (c.tokens false ++ us)
  | .single h, hv, rest, us, hend, hl => h.lexes hv hend hl
  | @IsChain.joined _ _ _ next _ _ h h', hv, rest, us, hend, hl => by
    have hrest := h'.lexes (hv.mono fun t ht => by simp [ht]) hend hl
    have hclause := h.lexes (hv.mono fun t ht => by simp [ht]) (endsWord_link next _)
      (lexes_link next hrest)
    rw [h.text_append, h.tokens_append, Chain.text_true h'.firstLink?,
      Chain.tokens_true h'.firstLink?]
    simpa using hclause

end

/-- The canonical text of what is derived from some text derives the same clauses. -/
theorem Derives.text {cs : List Char} {c : Chain} (h : Derives cs c) :
    Derives (c.text false).toList c := by
  obtain ⟨ts, hl, hq⟩ := h
  have hchain : ∀ {us : List Token}, us ⊆ ts → IsChain us .always c →
      Derives (c.text false).toList c := by
    intro us hs h
    have hv := hl.validWords.mono hs
    refine ⟨c.tokens false, ?_, .chain (h.canonical hv)⟩
    simpa using h.lexes hv (by simp [EndsWord]) .nil
  cases hq with
  | empty => exact ⟨[], .nil, .empty⟩
  | chain h => exact hchain (List.Subset.refl _) h
  | trailing _ h => exact hchain (List.subset_append_left _ _) h

end Grammar

/-! ### Queries -/

/-- **Canonical texts are read back.** The canonical text of a parsed query is parsed to a query
with the same clauses, up to offsets. The two have the same table with the same first row, and the
same canonical text. -/
theorem parse_text {source : String} {q : Query} (h : parse source = .ok q) :
    ∃ q', parse q.text = .ok q' ∧ q'.clauses.unplaced = q.clauses.unplaced ∧
      q'.rows.map Row.unplaced = q.rows.map Row.unplaced ∧ q'.rootId? = q.rootId? ∧
      q'.text = q.text := by
  have hderives := (derives_of_parse h).text
  rw [Chain.text_unplaced] at hderives
  obtain ⟨q', hparse, hsame⟩ : ∃ q', parse q.text = .ok q' ∧ q'.clauses.unplaced = _ :=
    exists_parse_of_derives hderives
  exact ⟨q', hparse, hsame, Query.rows_congr hsame, Query.rootId?_congr hsame,
    Query.text_congr hsame⟩

/-- A clause that begins with quotes, references in a row, groups, and a link at the end. -/
theorem parse_text_of_nested :
    ∃ q, parse "\"\" x\x7bn\x7d\x7bm\x7d | (+é \x7d\"\\\x7b#\" & ((q))) # b\n;" = .ok q ∧
      q.text = " \"\" \"x\x7bn\x7d\x7bm\x7d\" | (+é \"\x7d\\\x7b#\" & ((q)))" ∧
      ∃ q', parse q.text = .ok q' ∧ q'.clauses.unplaced = q.clauses.unplaced ∧
        q'.rows.map Row.unplaced = q.rows.map Row.unplaced ∧ q'.rootId? = q.rootId? ∧
        q'.text = q.text := by
  have hparse : parse "\"\" x\x7bn\x7d\x7bm\x7d | (+é \x7d\"\\\x7b#\" & ((q))) # b\n;" = .ok
      ⟨.command .always ⟨"", 0, [⟨[.literal "" 0], 0⟩,
        ⟨[.literal "x" 3, .reference "n" 4, .reference "m" 7], 3⟩]⟩ <|
      .group .ifFailed 13 (.command .always ⟨"+é", 14, [⟨[.literal "\x7d\x7b#" 17], 17⟩]⟩ <|
        .group .ifPassed 26 (.group .always 27 (.command .always ⟨"q", 28, []⟩ .nil) .nil) .nil)
      .nil⟩ := by rfl
  exact ⟨_, hparse, by rfl, parse_text hparse⟩

end DevConsole
