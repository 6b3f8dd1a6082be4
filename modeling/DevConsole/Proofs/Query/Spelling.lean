import Mathlib.Data.List.Basic
import DevConsole.Proofs.Query.Language

/-!
How an argument is spelled. A text, read from its first character on, spells the parts of an
argument, each with the place where it begins. Main statement: in a text that stands somewhere in a
source, each part that it spells stands at its own offset.
-/

namespace DevConsole

open Grammar

/-! ### Texts at a place -/

/-- One text behind another stands where the first one ends. -/
theorem append_prefix_drop_iff {s t cs : List Char} {n : Nat} :
    s ++ t <+: cs.drop n ↔ s <+: cs.drop n ∧ t <+: cs.drop (n + s.length) := by
  constructor
  · rintro ⟨rest, hrest⟩
    refine ⟨⟨t ++ rest, by rw [← hrest, List.append_assoc]⟩, rest, ?_⟩
    rw [← List.drop_drop, ← hrest, List.append_assoc, List.drop_left]
  · rintro ⟨⟨rest, hrest⟩, hstands⟩
    rw [← List.drop_drop, ← hrest, List.drop_left] at hstands
    rw [← hrest]
    exact (List.prefix_append_right_inj s).2 hstands

theorem singleton_prefix_drop_iff {c : Char} {cs : List Char} {n : Nat} :
    [c] <+: cs.drop n ↔ cs[n]? = some c := by
  rw [← List.head?_drop]
  cases cs.drop n <;> simp [eq_comm]

theorem cons_prefix_drop_iff {c : Char} {t cs : List Char} {n : Nat} :
    c :: t <+: cs.drop n ↔ cs[n]? = some c ∧ t <+: cs.drop (n + 1) := by
  rw [← singleton_prefix_drop_iff]
  exact append_prefix_drop_iff (s := [c])

/-! ### Parts with their places -/

/-- The parts with one more character, at that place: it joins the literal right before it. -/
def addChar (ps : List Part) (c : Char) (place : Nat) : List Part :=
  match ps.getLast? with
  | some (.literal text offset) => ps.dropLast ++ [.literal (text.push c) offset]
  | _ => ps ++ [.literal (String.singleton c) place]

theorem Word.offset_push (w : Word) (c : Char) (place : Nat) :
    (w.push c place).offset = w.offset := by
  unfold push
  split <;> rfl

theorem Word.offset_refer (w : Word) (name : String) (offset : Nat) :
    (w.refer name offset).offset = w.offset := rfl

theorem Word.reverse_push (w : Word) (c : Char) (place : Nat) :
    (w.push c place).parts.reverse = addChar w.parts.reverse c place := by
  obtain ⟨offset, parts⟩ := w
  rcases parts with _ | ⟨⟨text, o⟩ | ⟨name, o⟩, ps⟩ <;> simp [push, addChar]

/-- What all parts have they have with one more character, if it is so of the character alone and
behind a literal. -/
theorem forall_mem_addChar {P : Part → Prop} {ps : List Part} {c : Char} {place : Nat}
    (h : ∀ p ∈ ps, P p) (halone : P (.literal (String.singleton c) place))
    (hjoin : ∀ text offset, P (.literal text offset) → P (.literal (text.push c) offset)) :
    ∀ p ∈ addChar ps c place, P p := by
  unfold addChar
  split
  · next text offset hlast =>
    intro p hp
    rcases List.mem_append.1 hp with hp | hp
    · exact h p (List.dropLast_subset ps hp)
    · rw [List.mem_singleton.1 hp]
      exact hjoin text offset (h _ (List.mem_of_getLast? hlast))
  · intro p hp
    rcases List.mem_append.1 hp with hp | hp
    · exact h p hp
    · rw [List.mem_singleton.1 hp]
      exact halone

/-- `Spelling start quoted text ps` says that `text`, from the place `start` on, spells the parts
`ps` of an argument, and ends inside quotes or outside. -/
inductive Spelling (start : Nat) : Bool → List Char → List Part → Prop
  | nil : Spelling start false [] []
  | plain {text : List Char} {ps : List Part} {c : Char} :
    Spelling start false text ps → isPlain c →
    Spelling start false (text ++ [c]) (addChar ps c (start + text.length))
  | openQuote {text : List Char} {ps : List Part} :
    Spelling start false text ps → Spelling start true (text ++ ['"']) ps
  | closeQuote {text : List Char} {ps : List Part} :
    Spelling start true text ps → Spelling start false (text ++ ['"']) ps
  | quoted {text : List Char} {ps : List Part} {c : Char} :
    Spelling start true text ps → c ≠ '"' → c ≠ '\\' → c ≠ '{' →
    Spelling start true (text ++ [c]) (addChar ps c (start + text.length))
  /-- A backslash has no place in the value; the character behind it has. -/
  | escaped {text : List Char} {ps : List Part} (c : Char) :
    Spelling start true text ps →
    Spelling start true (text ++ ['\\', c]) (addChar ps c (start + text.length + 1))
  | reference {quoted : Bool} {text : List Char} {ps : List Part} {name : List Char} :
    Spelling start quoted text ps → Text.isPlainName name →
    Spelling start quoted (text ++ referenceChars name)
      (ps ++ [.reference (String.ofList name) (start + text.length)])

/-- Whether the part stands in the text: the first character of a literal, if it has one, at its
offset, and a reference, braces and all, from its offset on. -/
def Part.PlacedIn (cs : List Char) : Part → Prop
  | .literal text offset => ∀ c ∈ text.toList.head?, cs[offset]? = some c
  | .reference name offset => referenceChars name.toList <+: cs.drop offset

/-- Whether the part stands in the text and is not the empty literal. -/
def Part.Spelled (cs : List Char) (p : Part) : Prop :=
  p.PlacedIn cs ∧ ∀ offset, p ≠ .literal "" offset

theorem Part.spelled_singleton {cs : List Char} {c : Char} {place : Nat}
    (h : cs[place]? = some c) : Part.Spelled cs (.literal (String.singleton c) place) := by
  refine ⟨fun d hd => ?_, fun offset heq => ?_⟩
  · obtain rfl : c = d := by simpa using hd
    exact h
  · simpa using congrArg String.toList (Part.literal.inj heq).1

theorem Part.Spelled.push {cs : List Char} {text : String} {offset : Nat}
    (h : Part.Spelled cs (.literal text offset)) (c : Char) :
    Part.Spelled cs (.literal (text.push c) offset) := by
  obtain ⟨hplaced, hne⟩ := h
  have hhead : (text.push c).toList.head? = text.toList.head? := by
    have hnil : text.toList ≠ [] := by
      intro hnil
      rw [String.toList_eq_nil_iff.1 hnil] at hne
      exact hne offset rfl
    rw [String.toList_push, List.head?_append_of_ne_nil _ hnil]
  refine ⟨fun d hd => hplaced d (hhead ▸ hd), fun offset' heq => ?_⟩
  simpa using congrArg String.toList (Part.literal.inj heq).1

/-- **Each part stands at its offset.** -/
theorem Spelling.spelled {start : Nat} {quoted : Bool} {text cs : List Char} {ps : List Part}
    (h : Spelling start quoted text ps) (hstands : text <+: cs.drop start) :
    ∀ p ∈ ps, p.Spelled cs := by
  induction h with
  | nil => simp
  | @plain text ps c _ _ ih | @quoted text ps c _ _ _ _ ih =>
    obtain ⟨hbefore, hchar⟩ := append_prefix_drop_iff.1 hstands
    exact forall_mem_addChar (ih hbefore)
      (Part.spelled_singleton (singleton_prefix_drop_iff.1 hchar)) fun _ _ hp => hp.push c
  | openQuote _ ih | closeQuote _ ih => exact ih (append_prefix_drop_iff.1 hstands).1
  | escaped c _ ih =>
    obtain ⟨hbefore, hchars⟩ := append_prefix_drop_iff.1 hstands
    have hchar := singleton_prefix_drop_iff.1 (cons_prefix_drop_iff.1 hchars).2
    exact forall_mem_addChar (ih hbefore) (Part.spelled_singleton hchar) fun _ _ hp => hp.push c
  | @reference quoted text ps name _ _ ih =>
    obtain ⟨hbefore, hreference⟩ := append_prefix_drop_iff.1 hstands
    intro p hp
    rcases List.mem_append.1 hp with hp | hp
    · exact ih hbefore p hp
    · rw [List.mem_singleton.1 hp]
      refine ⟨?_, by simp⟩
      rw [Part.PlacedIn, String.toList_ofList]
      exact hreference

/-! ### Arguments with their places -/

/-- Whether the argument has been read from the text: its parts are spelled from its offset on, by
as many characters as belong to one word. Nothing but quotes spells the empty literal. -/
structure Argument.PlacedIn (cs : List Char) (a : Argument) : Prop where
  spelled : ∃ text ps, text ≠ [] ∧ text <+: cs.drop a.offset ∧
    EndsWord (cs.drop (a.offset + text.length)) ∧ Spelling a.offset false text ps ∧
    a.parts = if ps = [] then [.literal "" a.offset] else ps
  parts : ∀ p ∈ a.parts, p.PlacedIn cs

theorem Word.argument_parts (w : Word) : w.argument.parts =
    if w.parts.reverse = [] then [.literal "" w.offset] else w.parts.reverse := by
  simp [argument]

/-- A word that has been read to its end makes an argument. -/
theorem Word.placedIn_argument {cs text : List Char} {w : Word} (hne : text ≠ [])
    (hstands : text <+: cs.drop w.offset) (hend : EndsWord (cs.drop (w.offset + text.length)))
    (h : Spelling w.offset false text w.parts.reverse) : w.argument.PlacedIn cs := by
  refine ⟨⟨text, _, hne, hstands, hend, h, w.argument_parts⟩, ?_⟩
  rw [w.argument_parts]
  split
  · simp [Part.PlacedIn]
  · exact fun p hp => (h.spelled hstands p hp).1

/-! ### The argument at hand -/

section Reading

variable {cs : List Char}

namespace Inside

/-- What has been read and stands for nothing yet. -/
@[simp] def pending : Inside → List Char
  | bare | quoted _ => []
  | escaped .. => ['\\']
  | reference _ name _ => '{' :: name.toList

@[simp] def isQuoted : Inside → Bool
  | bare => false
  | quoted _ | escaped .. => true
  | reference _ _ quote => quote.isSome

/-- Whether the offsets are right if what is pending begins at that place. -/
def PlacedIn (cs : List Char) (place : Nat) : Inside → Prop
  | bare => True
  | quoted start => cs[start]? = some '"' ∧ start < place
  | escaped start backslash => (cs[start]? = some '"' ∧ start < place) ∧ backslash = place
  | reference start name quote =>
    start = place ∧ (∀ c ∈ name.toList, Text.isNameChar c) ∧
      ∀ q ∈ quote, cs[q]? = some '"' ∧ q < place

end Inside

/-- Whether the word has been read from the text before that place: what spells its parts, and then
what is pending. -/
def Word.ReadTo (cs : List Char) (w : Word) (inside : Inside) (n : Nat) : Prop :=
  ∃ text, Spelling w.offset inside.isQuoted text w.parts.reverse ∧
    text ++ inside.pending <+: cs.drop w.offset ∧
    w.offset + (text ++ inside.pending).length = n ∧ inside.PlacedIn cs (w.offset + text.length)

namespace Word.ReadTo

variable {w : Word} {n : Nat} {c : Char}

theorem nil (cs : List Char) (n : Nat) : Word.ReadTo cs ⟨n, []⟩ .bare n :=
  ⟨[], .nil, by simp, by simp, trivial⟩

/-- One more character, by what becomes of the text that has been read. -/
theorem next {w' : Word} {inside inside' : Inside} (h : w.ReadTo cs inside n)
    (hc : cs[n]? = some c) (hoffset : w'.offset = w.offset)
    (hnext : ∀ text, Spelling w.offset inside.isQuoted text w.parts.reverse →
      w.offset + (text ++ inside.pending).length = n →
      inside.PlacedIn cs (w.offset + text.length) →
      ∃ text', text' ++ inside'.pending = text ++ inside.pending ++ [c] ∧
        Spelling w.offset inside'.isQuoted text' w'.parts.reverse ∧
        inside'.PlacedIn cs (w.offset + text'.length)) : w'.ReadTo cs inside' (n + 1) := by
  obtain ⟨text, hspelling, hstands, hn, hplaced⟩ := h
  obtain ⟨text', htext, hspelling', hplaced'⟩ := hnext text hspelling hn hplaced
  subst hn
  rw [← hoffset] at hspelling' hplaced' hstands hc
  refine ⟨text', hspelling', ?_, ?_, hplaced'⟩
  · rw [htext]
    exact append_prefix_drop_iff.2 ⟨hstands, singleton_prefix_drop_iff.2 hc⟩
  · rw [htext, List.length_append, hoffset]
    rfl

theorem push_plain (h : w.ReadTo cs .bare n) (hc : cs[n]? = some c) (hplain : isPlain c) :
    (w.push c n).ReadTo cs .bare (n + 1) := by
  refine h.next hc (w.offset_push c n) fun text hspelling hn _ => ?_
  obtain rfl : w.offset + text.length = n := by simpa using hn
  refine ⟨text ++ [c], by simp, ?_, trivial⟩
  rw [w.reverse_push]
  exact hspelling.plain hplain

theorem openQuote (h : w.ReadTo cs .bare n) (hc : cs[n]? = some '"') :
    w.ReadTo cs (.quoted n) (n + 1) := by
  refine h.next hc rfl fun text hspelling hn _ => ?_
  obtain rfl : w.offset + text.length = n := by simpa using hn
  refine ⟨text ++ ['"'], by simp, hspelling.openQuote, hc, ?_⟩
  rw [List.length_append, List.length_singleton]
  omega

theorem openReference (h : w.ReadTo cs .bare n) (hc : cs[n]? = some '{') :
    w.ReadTo cs (.reference n "" none) (n + 1) := by
  refine h.next hc rfl fun text hspelling hn _ => ?_
  obtain rfl : w.offset + text.length = n := by simpa using hn
  exact ⟨text, by simp, hspelling, rfl, by simp, by simp⟩

theorem closeQuote {start : Nat} (h : w.ReadTo cs (.quoted start) n) (hc : cs[n]? = some '"') :
    w.ReadTo cs .bare (n + 1) :=
  h.next hc rfl fun text hspelling _ _ =>
    ⟨text ++ ['"'], by simp, hspelling.closeQuote, trivial⟩

theorem backslash {start : Nat} (h : w.ReadTo cs (.quoted start) n) (hc : cs[n]? = some '\\') :
    w.ReadTo cs (.escaped start n) (n + 1) := by
  refine h.next hc rfl fun text hspelling hn hplaced => ?_
  obtain rfl : w.offset + text.length = n := by simpa using hn
  exact ⟨text, by simp, hspelling, hplaced, rfl⟩

theorem openQuotedReference {start : Nat} (h : w.ReadTo cs (.quoted start) n)
    (hc : cs[n]? = some '{') : w.ReadTo cs (.reference n "" (some start)) (n + 1) := by
  refine h.next hc rfl fun text hspelling hn hplaced => ?_
  obtain rfl : w.offset + text.length = n := by simpa using hn
  refine ⟨text, by simp, hspelling, rfl, by simp, ?_⟩
  rintro q ⟨⟩
  exact hplaced

theorem push_quoted {start : Nat} (h : w.ReadTo cs (.quoted start) n) (hc : cs[n]? = some c)
    (hquote : c ≠ '"') (hbackslash : c ≠ '\\') (hbrace : c ≠ '{') :
    (w.push c n).ReadTo cs (.quoted start) (n + 1) := by
  refine h.next hc (w.offset_push c n) fun text hspelling hn hplaced => ?_
  obtain rfl : w.offset + text.length = n := by simpa using hn
  refine ⟨text ++ [c], by simp, ?_, hplaced.1, ?_⟩
  · rw [w.reverse_push]
    exact hspelling.quoted hquote hbackslash hbrace
  · have := hplaced.2
    rw [List.length_append]
    omega

theorem push_escaped {start backslash : Nat} (h : w.ReadTo cs (.escaped start backslash) n)
    (hc : cs[n]? = some c) : (w.push c n).ReadTo cs (.quoted start) (n + 1) := by
  refine h.next hc (w.offset_push c n) fun text hspelling hn hplaced => ?_
  obtain rfl : w.offset + text.length + 1 = n := by simpa [Nat.add_assoc] using hn
  refine ⟨text ++ ['\\', c], by simp, ?_, hplaced.1.1, ?_⟩
  · rw [w.reverse_push]
    exact hspelling.escaped c
  · have := hplaced.1.2
    rw [List.length_append]
    omega

theorem nameChar {start : Nat} {name : String} {quote : Option Nat}
    (h : w.ReadTo cs (.reference start name quote) n) (hc : cs[n]? = some c)
    (hname : Text.isNameChar c) : w.ReadTo cs (.reference start (name.push c) quote) (n + 1) := by
  refine h.next hc rfl fun text hspelling _ hplaced => ?_
  obtain ⟨hstart, hchars, hquote⟩ := hplaced
  refine ⟨text, by simp, hspelling, hstart, ?_, hquote⟩
  intro d hd
  rcases (by simpa using hd : d ∈ name.toList ∨ d = c) with hd | rfl
  · exact hchars d hd
  · exact hname

theorem closeReference {start : Nat} {name : String} {quote : Option Nat}
    (h : w.ReadTo cs (.reference start name quote) n) (hc : cs[n]? = some '}') (hne : name ≠ "") :
    (w.refer name start).ReadTo cs (match quote with | some q => .quoted q | none => .bare)
      (n + 1) := by
  refine h.next hc (w.offset_refer name start) fun text hspelling _ hplaced => ?_
  obtain ⟨rfl, hchars, hquote⟩ := hplaced
  have hplain : Text.isPlainName name.toList := isPlainName_iff.2 ⟨by simpa using hne, hchars⟩
  have hparts := hspelling.reference hplain
  rw [String.ofList_toList] at hparts
  refine ⟨text ++ referenceChars name.toList, ?_, ?_, ?_⟩
  · cases quote <;> simp [referenceChars]
  · rw [refer, List.reverse_cons]
    cases quote <;> exact hparts
  · cases quote with
    | none => trivial
    | some q =>
      refine ⟨(hquote q rfl).1, ?_⟩
      have := (hquote q rfl).2
      rw [List.length_append]
      omega

end Word.ReadTo

end Reading

end DevConsole
