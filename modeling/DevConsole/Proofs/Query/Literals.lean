import DevConsole.Proofs.Query.RoundTrip
import DevConsole.Query.Resolve

/-!
Commands written from texts. A text that is to be an argument is written as it is, if all its
characters are plain, or in quotes. Main statement: a name with such words behind it is read as one
command, whose arguments are the texts again, whatever the variables are.
-/

namespace DevConsole

open Grammar

/-! ### Literal arguments -/

/-- Characters alone make one literal. -/
theorem partsOf_chars {cs : List Char} (hne : cs ≠ []) :
    partsOf (cs.map .char) = [.literal (String.ofList cs) 0] := by
  have hgrow : ∀ (cs : List Char) (text : String),
      (cs.map Atom.char).foldl addAtom [.literal text 0] =
        [.literal (text ++ String.ofList cs) 0] := by
    intro cs
    induction cs with
    | nil => simp
    | cons c cs ih =>
      intro text
      rw [List.map_cons, List.foldl_cons]
      have hadd : addAtom [.literal text 0] (.char c) = [.literal (text.push c) 0] := rfl
      rw [hadd, ih]
      simp [← String.toList_inj]
  cases cs with
  | nil => exact absurd rfl hne
  | cons c cs =>
    have hfirst : addAtom [] (.char c) = [.literal (String.singleton c) 0] := rfl
    rw [partsOf, List.map_cons, List.foldl_cons, hfirst, hgrow]
    simp

def literalArgument (text : String) : Argument := ⟨[.literal text 0], 0⟩

theorem isArgument_literal (text : String) : IsArgument (literalArgument text) := by
  refine ⟨[.quoted (text.toList.map .escaped)], by simp [Piece.Valid, Item.Valid], ?_⟩
  have hatoms : [Piece.quoted (text.toList.map Item.escaped)].flatMap Piece.atoms =
      text.toList.map .char := by
    simp [Piece.atoms, Item.atom]
  rw [argumentOf, hatoms]
  by_cases hne : text.toList = []
  · have htext : text = "" := by simpa using hne
    subst htext
    rfl
  · rw [partsOf_chars hne]
    simp [literalArgument]

theorem text_literalArgument (text : String) : (literalArgument text).text = quote text := by
  simp [Argument.text, literalArgument, Part.text, quote, String.join]

theorem unplaced_eq_literal_iff {a : Argument} {text : String} :
    a.unplaced = literalArgument text ↔ ∃ offset, a.parts = [.literal text offset] := by
  obtain ⟨parts, offset⟩ := a
  simp only [Argument.unplaced, literalArgument, Argument.mk.injEq, and_true]
  constructor
  · intro h
    obtain ⟨p, rest, rfl, hp, hrest⟩ := List.map_eq_cons_iff.1 h
    obtain rfl := List.map_eq_nil_iff.1 hrest
    cases p with
    | literal text' offset' =>
      cases hp
      exact ⟨offset', rfl⟩
    | reference => cases hp
  · rintro ⟨offset', rfl⟩
    rfl

/-! ### Words that spell texts -/

namespace Grammar

theorem flatMap_atoms_plain (cs : List Char) :
    (cs.map Piece.plain).flatMap Piece.atoms = cs.map .char := by
  induction cs with
  | nil => rfl
  | cons c cs ih => rw [List.map_cons, List.flatMap_cons, ih]; rfl

theorem flatMap_chars_plain (cs : List Char) : (cs.map Piece.plain).flatMap Piece.chars = cs := by
  induction cs with
  | nil => rfl
  | cons c cs ih => rw [List.map_cons, List.flatMap_cons, ih]; rfl

theorem argumentOf_plain {text : String} (hne : text ≠ "") :
    argumentOf (text.toList.map .plain) = literalArgument text := by
  have hnil : text.toList ≠ [] := by simpa using hne
  rw [argumentOf, flatMap_atoms_plain, partsOf_chars hnil]
  simp [literalArgument]

theorem valid_plain {cs : List Char} (hcs : ∀ c ∈ cs, isPlain c) :
    ∀ p ∈ cs.map Piece.plain, p.Valid := by
  intro p hp
  obtain ⟨c, hc, rfl⟩ := List.mem_map.1 hp
  exact hcs c hc

/-- `Spells word text` says that an argument may be written as `word` if its value is to be
`text`. -/
inductive Spells : String → String → Prop
  | bare {text : String} : text ≠ "" → (∀ c ∈ text.toList, isPlain c) → Spells text text
  | quoted (text : String) : Spells (quote text) text

/-- The pieces of a word that spells a text. -/
theorem Spells.exists_pieces {word text : String} (h : Spells word text) : ∃ pieces,
    (pieces ≠ [] ∧ ∀ p ∈ pieces, p.Valid) ∧ pieces.flatMap Piece.chars = word.toList ∧
      argumentOf pieces = literalArgument text := by
  cases h with
  | bare hne hplain =>
    exact ⟨word.toList.map .plain, ⟨by simpa using hne, valid_plain hplain⟩,
      flatMap_chars_plain _, argumentOf_plain hne⟩
  | quoted =>
    have harg := isArgument_literal text
    refine ⟨[(literalArgument text).piece], ⟨by simp, ?_⟩, ?_, harg.argumentOf_piece⟩
    · simpa using harg.valid_piece
    · simp [Argument.chars_piece, text_literalArgument]

/-- The words that spell texts, blanks between them, are one word each. -/
theorem exists_words_of_spells {words texts : List String} (h : List.Forall₂ Spells words texts) :
    ∃ pieces : List (List Piece),
      (∀ ps ∈ pieces, ps ≠ [] ∧ ∀ p ∈ ps, p.Valid) ∧
      pieces.flatMap (fun ps => ' ' :: ps.flatMap Piece.chars) =
        (String.join (words.map (" " ++ ·))).toList ∧
      pieces.map argumentOf = texts.map literalArgument := by
  induction h with
  | nil => exact ⟨[], by simp, by simp, rfl⟩
  | cons hspells _ ih =>
    obtain ⟨ps, hvalid, hchars, harg⟩ := hspells.exists_pieces
    obtain ⟨pieces, hvalids, hall, hargs⟩ := ih
    refine ⟨ps :: pieces, List.forall_mem_cons.2 ⟨hvalid, hvalids⟩, ?_, ?_⟩
    · simp [hchars, hall]
    · rw [List.map_cons, List.map_cons, harg, hargs]

/-- The grammar reads a plain name with words behind it as a command. -/
theorem derives_command {name : String} (hne : name ≠ "") (hname : ∀ c ∈ name.toList, isPlain c)
    {words texts : List String} (h : List.Forall₂ Spells words texts) :
    Derives (name ++ String.join (words.map (" " ++ ·))).toList
      (.command .always ⟨name, 0, texts.map literalArgument⟩ .nil) := by
  obtain ⟨pieces, hvalid, hchars, hargs⟩ := exists_words_of_spells h
  have hnil : EndsWord [] := by simp [EndsWord]
  obtain ⟨hends, hlexes⟩ := lexes_words hvalid hnil .nil
  have hword := Lexes.word (by simpa using hne) (valid_plain hname) hends hlexes
  rw [flatMap_chars_plain, List.append_nil, hchars, ← String.toList_append] at hword
  have hcommand := IsCommand.mk name.toList [] pieces (by simpa using hne) (by simp [BeginsQuoted])
  rw [argumentWords, if_pos rfl, hargs, String.ofList_toList] at hcommand
  exact ⟨_, by simpa using hword, .chain (.single (.command hcommand))⟩

end Grammar

/-! ### What they are read as -/

/-- Whether the invocation passes just these values to the name, whatever the variables are. -/
structure Invocation.Passes (call : Invocation) (name : String) (values : List String) : Prop where
  name_eq : call.name = name
  size : call.args.length = values.length
  constant : ∀ a ∈ call.args, a.isConstant = true
  resolve : ∀ text?, resolveAll text? call.args = .ok values

theorem resolveAll_of_unplaced {args : List Argument} {texts : List String}
    (h : args.map Argument.unplaced = texts.map literalArgument) (text? : String → Option String) :
    resolveAll text? args = .ok texts := by
  induction texts generalizing args with
  | nil =>
    obtain rfl := List.map_eq_nil_iff.1 h
    rfl
  | cons text texts ih =>
    obtain ⟨a, args, rfl, ha, hargs⟩ := List.map_eq_cons_iff.1 h
    obtain ⟨offset, hparts⟩ := unplaced_eq_literal_iff.1 ha
    have hfirst : a.resolve text? = .ok text := by
      simp [Argument.resolve, hparts, resolveParts, bind, Except.bind, pure, Except.pure]
    have hrest := ih hargs
    rw [resolveAll] at hrest ⊢
    rw [List.mapM_cons, hfirst, hrest]
    rfl

theorem Invocation.passes_of_unplaced {call : Invocation} {name : String} {texts : List String}
    (h : call.unplaced = ⟨name, 0, texts.map literalArgument⟩) : call.Passes name texts := by
  obtain ⟨callName, offset, args⟩ := call
  simp only [Invocation.unplaced, Invocation.mk.injEq, true_and] at h
  obtain ⟨rfl, hargs⟩ := h
  refine ⟨rfl, by simpa using congrArg List.length hargs, fun a ha => ?_,
    resolveAll_of_unplaced hargs⟩
  have hmem : a.unplaced ∈ texts.map literalArgument := hargs ▸ List.mem_map_of_mem ha
  obtain ⟨text, -, htext⟩ := List.mem_map.1 hmem
  obtain ⟨offset', hparts⟩ := unplaced_eq_literal_iff.1 htext.symm
  simp [Argument.isConstant, hparts, Part.isReference]

/-- **A command written from texts is read back.** -/
theorem exists_parse_of_spells {name : String} (hne : name ≠ "")
    (hname : ∀ c ∈ name.toList, isPlain c) {words texts : List String}
    (h : List.Forall₂ Spells words texts) :
    ∃ call : Invocation, call.Passes name texts ∧
      parse (name ++ String.join (words.map (" " ++ ·))) = .ok ⟨.command .always call .nil⟩ := by
  obtain ⟨⟨clauses⟩, hq, hclauses⟩ := exists_parse_of_derives (derives_command hne hname h)
  cases clauses with
  | nil | group => cases hclauses
  | command link call rest =>
    simp only [Chain.unplaced, Chain.command.injEq] at hclauses
    obtain ⟨rfl, hcall, hrest⟩ := hclauses
    obtain rfl : rest = .nil := by
      cases rest with
      | nil => rfl
      | command | group => cases hrest
    exact ⟨call, Invocation.passes_of_unplaced hcall, hq⟩

end DevConsole
