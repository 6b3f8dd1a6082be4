import DevConsole.Proofs.Query.Offsets
import DevConsole.Proofs.Query.Spelling

/-!
The places of clauses and arguments. The scanner notes an offset when it reads the first character
of a clause, of an argument or of a part, and hands it on when it has read the last one. Main
statement: in a query that has been read, every offset is the place in the source of what it belongs
to.
-/

namespace DevConsole

open Grammar

variable {cs : List Char}

/-! ### Where words begin and end -/

/-- Whether a word can begin at that place: no word reaches up to it. -/
def BeginsWord (cs : List Char) (n : Nat) : Prop := ∀ m, n = m + 1 → EndsWord (cs.drop m)

theorem beginsWord_zero (cs : List Char) : BeginsWord cs 0 := by
  rintro m ⟨⟩

theorem beginsWord_succ {n : Nat} (h : EndsWord (cs.drop n)) : BeginsWord cs (n + 1) := by
  rintro m ⟨⟩
  exact h

theorem endsWord_drop {n : Nat} {c : Char} (hc : cs[n]? = some c) (h : beginsPiece c = false) :
    EndsWord (cs.drop n) := by
  intro d hd
  rw [List.head?_drop, hc] at hd
  cases hd
  exact h

theorem endsWord_drop_length (cs : List Char) : EndsWord (cs.drop cs.length) := by
  simp [EndsWord]

theorem isPlain_eq_false_of_endsWord {n : Nat} (h : EndsWord (cs.drop n)) :
    ∀ c ∈ cs[n]?, isPlain c = false := by
  intro c hc
  have := h c (by rwa [List.head?_drop])
  simp only [beginsPiece, Bool.or_eq_false_iff] at this
  exact this.1.1

/-! ### Clauses with their places -/

def Invocation.nameEnd (call : Invocation) : Nat := call.offset + call.name.toList.length

/-- Whether an argument can begin at that place: as a word of its own, or at the quote that ends the
name. -/
def Invocation.TakesAt (cs : List Char) (call : Invocation) (n : Nat) : Prop :=
  BeginsWord cs n ∨ n = call.nameEnd ∧ cs[n]? = some '"'

/-- Whether the invocation has been read from the text. -/
structure Invocation.PlacedIn (cs : List Char) (call : Invocation) : Prop where
  begins : BeginsWord cs call.offset
  /-- A name is spelled by all the plain characters from its offset on. -/
  named : call.name ≠ "" → call.name.toList <+: cs.drop call.offset ∧
    (∀ c ∈ call.name.toList, isPlain c) ∧ ∀ c ∈ cs[call.nameEnd]?, isPlain c = false
  nameless : call.name = "" → call.args ≠ [] → cs[call.offset]? = some '"'
  args : ∀ a ∈ call.args, a.PlacedIn cs ∧ call.TakesAt cs a.offset ∧ call.nameEnd ≤ a.offset
  ordered : (call.args.map Argument.offset).Pairwise (· < ·)

/-- Whether all clauses have been read from the text: each invocation, and each group from its
parenthesis on. -/
def Chain.PlacedIn (cs : List Char) : Chain → Prop
  | .nil => True
  | .command _ call rest => call.PlacedIn cs ∧ rest.PlacedIn cs
  | .group _ offset body rest => cs[offset]? = some '(' ∧ body.PlacedIn cs ∧ rest.PlacedIn cs

theorem Chain.placedIn_append {c d : Chain} :
    (c ++ d).PlacedIn cs ↔ c.PlacedIn cs ∧ d.PlacedIn cs := by
  induction c with
  | nil => simp [PlacedIn]
  | command link call rest ih => simp [PlacedIn, ih, and_assoc]
  | group link offset body rest _ ih => simp [PlacedIn, ih, and_assoc]

/-! ### The invocation at hand -/

/-- Whether the invocation has been read from the text before that place. Arguments may still
come. -/
structure Invocation.ReadTo (cs : List Char) (call : Invocation) (n : Nat) : Prop where
  placedIn : call.PlacedIn cs
  quote : call.name = "" → cs[call.offset]? = some '"'
  nameEnd_le : call.nameEnd ≤ n
  offset_lt : ∀ a ∈ call.args, a.offset < n

theorem Invocation.ReadTo.mono {call : Invocation} {m n : Nat} (h : call.ReadTo cs m)
    (hmn : m ≤ n) : call.ReadTo cs n :=
  ⟨h.placedIn, h.quote, Nat.le_trans h.nameEnd_le hmn,
    fun a ha => Nat.lt_of_lt_of_le (h.offset_lt a ha) hmn⟩

/-- A name that ends at the place of the next character. -/
theorem Invocation.readTo_name {offset n : Nat} {name : String} (hbegins : BeginsWord cs offset)
    (hne : name ≠ "") (hplain : ∀ c ∈ name.toList, isPlain c)
    (hstands : name.toList <+: cs.drop offset)
    (hend : ∀ c ∈ cs[offset + name.toList.length]?, isPlain c = false)
    (hle : offset + name.toList.length ≤ n) : Invocation.ReadTo cs ⟨name, offset, []⟩ n where
  placedIn :=
    { begins := hbegins
      named := fun _ => ⟨hstands, hplain, hend⟩
      nameless := fun _ hargs => absurd rfl hargs
      args := by simp
      ordered := .nil }
  quote := fun h => absurd h hne
  nameEnd_le := hle
  offset_lt := by simp

theorem Invocation.readTo_quote {n : Nat} (hbegins : BeginsWord cs n) (hquote : cs[n]? = some '"') :
    Invocation.ReadTo cs ⟨"", n, []⟩ n where
  placedIn :=
    { begins := hbegins
      named := fun h => absurd rfl h
      nameless := fun _ _ => hquote
      args := by simp
      ordered := .nil }
  quote := fun _ => hquote
  nameEnd_le := Nat.le_refl n
  offset_lt := by simp

theorem Invocation.ReadTo.snoc {call : Invocation} {a : Argument} {n : Nat}
    (h : call.ReadTo cs a.offset) (ha : a.PlacedIn cs) (htakes : call.TakesAt cs a.offset)
    (hn : a.offset < n) : Invocation.ReadTo cs { call with args := call.args ++ [a] } n where
  placedIn :=
    { begins := h.placedIn.begins
      named := h.placedIn.named
      nameless := fun hname _ => h.quote hname
      args := by
        intro b hb
        rcases List.mem_append.1 hb with hb | hb
        · exact h.placedIn.args b hb
        · rw [List.mem_singleton.1 hb]
          exact ⟨ha, htakes, h.nameEnd_le⟩
      ordered := by
        rw [List.map_append]
        refine List.pairwise_append.2 ⟨h.placedIn.ordered, by simp, ?_⟩
        simpa using h.offset_lt }
  quote := h.quote
  nameEnd_le := Nat.le_trans h.nameEnd_le (Nat.le_of_lt hn)
  offset_lt := by
    intro b hb
    rcases List.mem_append.1 hb with hb | hb
    · exact Nat.lt_trans (h.offset_lt b hb) hn
    · rw [List.mem_singleton.1 hb]
      exact hn

/-! ### The scanner -/

/-- Whether what has been read of a clause ends at `stop`: right before the next character or, in a
comment, where the comment begins. -/
structure StopsAt (cs : List Char) (position : Nat) (comment : Bool) (stop : Nat) : Prop where
  le : stop ≤ position
  reading : comment = false → stop = position
  skipping : comment = true → EndsWord (cs.drop stop)

/-- Whether the clause at hand has been read from the text before that place. -/
def Phase.PlacedIn (cs : List Char) (position : Nat) (comment : Bool) : Phase → Prop
  | .start => comment = false → BeginsWord cs position
  | .closed => True
  | .name offset text =>
    (BeginsWord cs offset ∧ text ≠ "" ∧ (∀ c ∈ text.toList, isPlain c) ∧
      text.toList <+: cs.drop offset) ∧ StopsAt cs position comment (offset + text.toList.length)
  | .between call => call.ReadTo cs position ∧ (comment = false → BeginsWord cs position)
  | .word call w inside =>
    (call.ReadTo cs w.offset ∧ call.TakesAt cs w.offset) ∧
      ∃ stop, w.offset < stop ∧ w.ReadTo cs inside stop ∧ StopsAt cs position comment stop

/-- Whether all that the scanner holds has been read from the text before its position. -/
structure Scanner.PlacedIn (cs : List Char) (s : Scanner) : Prop where
  clauses : s.clauses.PlacedIn cs
  groups : ∀ g ∈ s.groups, cs[g.offset]? = some '(' ∧ g.offset < s.position ∧ g.before.PlacedIn cs
  phase : s.phase.PlacedIn cs s.position s.comment
  comment : s.comment = true → s.Outside

theorem StopsAt.endsWord {position stop : Nat} {comment : Bool}
    (h : StopsAt cs position comment stop)
    (hend : comment = false → EndsWord (cs.drop position)) : EndsWord (cs.drop stop) := by
  cases comment with
  | true => exact h.skipping rfl
  | false =>
    rw [h.reading rfl]
    exact hend rfl

theorem stopsAt_self (cs : List Char) (n : Nat) : StopsAt cs n false n :=
  ⟨Nat.le_refl n, fun _ => rfl, by simp⟩

namespace Scanner

variable {s s' : Scanner} {c : Char}

theorem PlacedIn.comment_eq_false (h : s.PlacedIn cs) (ho : ¬s.Outside) : s.comment = false := by
  cases hs : s.comment with
  | false => rfl
  | true => exact absurd (h.comment hs) ho

theorem Outside.inside_eq (ho : s.Outside) {call : Invocation} {w : Word} {inside : Inside}
    (hphase : s.phase = .word call w inside) : inside = .bare := by
  rw [Outside, hphase] at ho
  cases inside with
  | bare => rfl
  | _ => cases ho

/-- The clause at hand, once no word goes on. -/
theorem PlacedIn.call? (h : s.PlacedIn cs) (ho : s.Outside)
    (hend : s.comment = false → EndsWord (cs.drop s.position)) {call : Invocation}
    (hcall : s.call? = some call) : call.ReadTo cs s.position := by
  have hphase := h.phase
  unfold Scanner.call? at hcall
  split at hcall
  · next offset name hname =>
    cases hcall
    rw [hname] at hphase
    obtain ⟨⟨hbegins, hne, hplain, hstands⟩, hstop⟩ := hphase
    exact Invocation.readTo_name hbegins hne hplain hstands
      (isPlain_eq_false_of_endsWord (hstop.endsWord hend)) hstop.le
  · next call' hbetween =>
    cases hcall
    rw [hbetween] at hphase
    exact hphase.1
  · next call' w inside hword =>
    cases hcall
    rw [hword] at hphase
    obtain rfl := ho.inside_eq hword
    obtain ⟨⟨hcall, htakes⟩, stop, hlt, ⟨text, hspelling, hstands, hstop, -⟩, hstops⟩ := hphase
    simp only [Inside.pending, List.append_nil] at hstands hstop
    have hne : text ≠ [] := by
      rintro rfl
      exact absurd hstop (Nat.ne_of_lt hlt)
    have hw : w.argument.PlacedIn cs :=
      w.placedIn_argument hne hstands (hstop ▸ hstops.endsWord hend) hspelling
    exact hcall.snoc hw htakes (Nat.lt_of_lt_of_le hlt hstops.le)
  · cases hcall
  · cases hcall

theorem PlacedIn.settled (h : s.PlacedIn cs) (ho : s.Outside)
    (hend : s.comment = false → EndsWord (cs.drop s.position)) : s.settled.PlacedIn cs := by
  unfold Scanner.settled
  split
  · exact h.clauses
  · next call hcall =>
    exact Chain.placedIn_append.2 ⟨h.clauses, (h.call? ho hend hcall).placedIn, trivial⟩

/-! ### Steps within a clause -/

theorem placedIn_of_next {phase : Phase} (hs : s.next phase = .ok s')
    (h : phase.PlacedIn cs (s.position + 1) false) :
    s'.phase.PlacedIn cs s'.position s'.comment := by
  cases hs
  exact h

/-- The first character of an argument. -/
theorem placedIn_firstChar {call : Invocation} {w : Word} {inside : Inside}
    (hcall : call.ReadTo cs s.position) (htakes : call.TakesAt cs s.position)
    (hoffset : w.offset = s.position) (hw : w.ReadTo cs inside (s.position + 1))
    (hs : s.next (.word call w inside) = .ok s') :
    s'.phase.PlacedIn cs s'.position s'.comment := by
  rw [← hoffset] at hcall htakes
  exact placedIn_of_next hs
    ⟨⟨hcall, htakes⟩, _, hoffset ▸ Nat.lt_succ_self _, hw, stopsAt_self cs _⟩

/-- What has been read of an argument, outside comments. -/
theorem PlacedIn.word (h : s.PlacedIn cs) (hcomment : s.comment = false) {call : Invocation}
    {w : Word} {inside : Inside} (hphase : s.phase = .word call w inside) :
    (call.ReadTo cs w.offset ∧ call.TakesAt cs w.offset) ∧ w.offset < s.position ∧
      w.ReadTo cs inside s.position := by
  have hword := h.phase
  rw [hphase] at hword
  obtain ⟨hcall, stop, hlt, hw, hstops⟩ := hword
  rw [hstops.reading hcomment] at hlt hw
  exact ⟨hcall, hlt, hw⟩

/-- One more character of an argument, by what it adds to what has been read. -/
theorem PlacedIn.nextChar (h : s.PlacedIn cs) (hcomment : s.comment = false) {call : Invocation}
    {w w' : Word} {inside inside' : Inside} (hphase : s.phase = .word call w inside)
    (hoffset : w'.offset = w.offset)
    (hnext : w.ReadTo cs inside s.position → w'.ReadTo cs inside' (s.position + 1))
    (hs : s.next (.word call w' inside') = .ok s') :
    s'.phase.PlacedIn cs s'.position s'.comment := by
  obtain ⟨hcall, hlt, hw⟩ := h.word hcomment hphase
  rw [← hoffset] at hcall hlt
  exact placedIn_of_next hs
    ⟨hcall, _, Nat.lt_succ_of_lt hlt, hnext hw, stopsAt_self cs _⟩

theorem PlacedIn.phase_quotedChar (h : s.PlacedIn cs) (hcomment : s.comment = false)
    (hc : cs[s.position]? = some c) {call : Invocation} {w : Word} {start : Nat}
    (hphase : s.phase = .word call w (.quoted start)) (hs : s.quotedChar call w start c = .ok s') :
    s'.phase.PlacedIn cs s'.position s'.comment := by
  unfold quotedChar at hs
  split at hs
  · next heq =>
    obtain rfl := beq_iff_eq.1 heq
    exact h.nextChar hcomment hphase rfl (fun hw => hw.backslash hc) hs
  · next hbackslash =>
    split at hs
    · next heq =>
      obtain rfl := beq_iff_eq.1 heq
      exact h.nextChar hcomment hphase rfl (fun hw => hw.closeQuote hc) hs
    · next hquote =>
      split at hs
      · next heq =>
        obtain rfl := beq_iff_eq.1 heq
        exact h.nextChar hcomment hphase rfl (fun hw => hw.openQuotedReference hc) hs
      · next hbrace =>
        refine h.nextChar hcomment hphase (w.offset_push c _) (fun hw => ?_) hs
        exact hw.push_quoted hc (by simpa using hquote) (by simpa using hbackslash)
          (by simpa using hbrace)

theorem PlacedIn.phase_referenceChar (h : s.PlacedIn cs) (hcomment : s.comment = false)
    (hc : cs[s.position]? = some c) {call : Invocation} {w : Word} {start : Nat} {name : String}
    {quote : Option Nat} (hphase : s.phase = .word call w (.reference start name quote))
    (hs : s.referenceChar call w start name quote c = .ok s') :
    s'.phase.PlacedIn cs s'.position s'.comment := by
  unfold referenceChar at hs
  split at hs
  · next heq =>
    obtain rfl := beq_iff_eq.1 heq
    split at hs
    · cases hs
    · next hne =>
      have hne : name ≠ "" := by simpa using hne
      cases quote <;> exact h.nextChar hcomment hphase (w.offset_refer name start)
        (fun hw => hw.closeReference hc hne) hs
  · split at hs
    · cases hs
    · split at hs
      · next hname =>
        exact h.nextChar hcomment hphase rfl (fun hw => hw.nameChar hc hname) hs
      · split at hs <;> cases hs

/-! ### Steps outside quotes and references -/

theorem PlacedIn.phase_openQuote (h : s.PlacedIn cs) (ho : s.Outside) (hcomment : s.comment = false)
    (hc : cs[s.position]? = some '"') (hs : s.openQuote = .ok s') :
    s'.phase.PlacedIn cs s'.position s'.comment := by
  have hphase := h.phase
  rw [hcomment] at hphase
  have hw := (Word.ReadTo.nil cs s.position).openQuote hc
  unfold openQuote at hs
  split at hs
  · cases hs
  · next hstart =>
    rw [hstart] at hphase
    have hbegins := hphase rfl
    exact placedIn_firstChar (Invocation.readTo_quote hbegins hc) (.inl hbegins) rfl hw hs
  · next offset name hname =>
    rw [hname] at hphase
    obtain ⟨⟨hbegins, hne, hplain, hstands⟩, hstop⟩ := hphase
    have hstop := hstop.reading rfl
    have hend : ∀ d ∈ cs[offset + name.toList.length]?, isPlain d = false := by
      rw [hstop, hc]
      rintro d ⟨⟩
      rfl
    have hcall := Invocation.readTo_name hbegins hne hplain hstands hend (Nat.le_of_eq hstop)
    exact placedIn_firstChar hcall (.inr ⟨hstop.symm, hc⟩) rfl hw hs
  · next call hbetween =>
    rw [hbetween] at hphase
    exact placedIn_firstChar hphase.1 (.inl (hphase.2 rfl)) rfl hw hs
  · next call w inside hword =>
    obtain rfl := ho.inside_eq hword
    exact h.nextChar hcomment hword rfl (fun hread => hread.openQuote hc) hs

theorem PlacedIn.phase_openReference (h : s.PlacedIn cs) (ho : s.Outside)
    (hcomment : s.comment = false) (hc : cs[s.position]? = some '{')
    (hs : s.openReference = .ok s') : s'.phase.PlacedIn cs s'.position s'.comment := by
  have hphase := h.phase
  rw [hcomment] at hphase
  unfold openReference at hs
  split at hs
  · cases hs
  · cases hs
  · cases hs
  · next call hbetween =>
    rw [hbetween] at hphase
    have hw := (Word.ReadTo.nil cs s.position).openReference hc
    exact placedIn_firstChar hphase.1 (.inl (hphase.2 rfl)) rfl hw hs
  · next call w inside hword =>
    obtain rfl := ho.inside_eq hword
    exact h.nextChar hcomment hword rfl (fun hread => hread.openReference hc) hs

theorem PlacedIn.phase_plainChar (h : s.PlacedIn cs) (ho : s.Outside) (hcomment : s.comment = false)
    (hc : cs[s.position]? = some c) (hplain : isPlain c) (hs : s.plainChar c = .ok s') :
    s'.phase.PlacedIn cs s'.position s'.comment := by
  have hphase := h.phase
  rw [hcomment] at hphase
  unfold plainChar at hs
  split at hs
  · cases hs
  · next hstart =>
    rw [hstart] at hphase
    refine placedIn_of_next hs ⟨⟨hphase rfl, by simp, by simpa using hplain, ?_⟩, ?_⟩
    · simpa using singleton_prefix_drop_iff.2 hc
    · simpa using stopsAt_self cs (s.position + 1)
  · next offset name hname =>
    rw [hname] at hphase
    obtain ⟨⟨hbegins, hne, hname, hstands⟩, hstop⟩ := hphase
    have hstop := hstop.reading rfl
    rw [← hstop] at hc
    refine placedIn_of_next hs ⟨⟨hbegins, by simp, ?_, ?_⟩, ?_⟩
    · intro d hd
      rcases (by simpa using hd : d ∈ name.toList ∨ d = c) with hd | rfl
      · exact hname d hd
      · exact hplain
    · rw [String.toList_push]
      exact append_prefix_drop_iff.2 ⟨hstands, singleton_prefix_drop_iff.2 hc⟩
    · rw [String.toList_push, List.length_append, List.length_singleton, ← Nat.add_assoc, hstop]
      exact stopsAt_self cs _
  · next call hbetween =>
    rw [hbetween] at hphase
    have hw := (Word.ReadTo.nil cs s.position).push_plain hc hplain
    exact placedIn_firstChar hphase.1 (.inl (hphase.2 rfl)) rfl hw hs
  · next call w inside hword =>
    obtain rfl := ho.inside_eq hword
    exact h.nextChar hcomment hword (w.offset_push c _) (fun hread => hread.push_plain hc hplain) hs

theorem blank_eq (s : Scanner) :
    s.blank = s.next (match s.call? with | some call => .between call | none => s.phase) := by
  obtain ⟨p, gs, cl, l, phase, comment⟩ := s
  cases phase <;> rfl

/-- A blank, also the one that ends a comment. -/
theorem PlacedIn.phase_blank (h : s.PlacedIn cs) (ho : s.Outside)
    (hend : EndsWord (cs.drop s.position)) (hs : s.blank = .ok s') :
    s'.phase.PlacedIn cs s'.position s'.comment := by
  have hbegins := beginsWord_succ hend
  rw [blank_eq] at hs
  refine placedIn_of_next hs ?_
  cases hcall : s.call? with
  | some call => exact ⟨(h.call? ho (fun _ => hend) hcall).mono (Nat.le_succ _), fun _ => hbegins⟩
  | none =>
    rcases call?_eq_none_iff.1 hcall with hphase | hphase
    · dsimp only
      rw [hphase]
      exact fun _ => hbegins
    · dsimp only
      rw [hphase]
      trivial

/-- A comment is skipped to the end of its line. -/
theorem PlacedIn.phase_skip (h : s.PlacedIn cs)
    (hend : s.comment = false → EndsWord (cs.drop s.position)) :
    s.phase.PlacedIn cs (s.position + 1) true := by
  have hphase := h.phase
  have hskip : ∀ stop, StopsAt cs s.position s.comment stop →
      StopsAt cs (s.position + 1) true stop := fun stop hstop =>
    ⟨Nat.le_succ_of_le hstop.le, by simp, fun _ => hstop.endsWord hend⟩
  cases hp : s.phase with
  | start => exact fun hcomment => absurd hcomment (by simp)
  | closed => trivial
  | name offset name =>
    rw [hp] at hphase
    exact ⟨hphase.1, hskip _ hphase.2⟩
  | between call =>
    rw [hp] at hphase
    exact ⟨hphase.1.mono (Nat.le_succ _), fun hcomment => absurd hcomment (by simp)⟩
  | word call w inside =>
    rw [hp] at hphase
    obtain ⟨hcall, stop, hlt, hw, hstop⟩ := hphase
    exact ⟨hcall, stop, hlt, hw, hskip stop hstop⟩

theorem PlacedIn.phase_outerChar (h : s.PlacedIn cs) (ho : s.Outside)
    (hcomment : s.comment = false ∨ c = '\n') (hc : cs[s.position]? = some c)
    (hs : s.outerChar c = .ok s') : s'.phase.PlacedIn cs s'.position s'.comment := by
  have hread : c ≠ '\n' → s.comment = false := fun hne => hcomment.resolve_right hne
  rcases class_cases c with rfl | hblank | ⟨l, hl⟩ | rfl | rfl | rfl | rfl | rfl | hplain
  · cases hs
    exact h.phase_skip fun _ => endsWord_drop hc rfl
  · rw [outerChar_blank hblank] at hs
    have hbegins : beginsPiece c = false := (beginsPiece_eq_false_iff c).2 (.inr (.inl hblank))
    exact h.phase_blank ho (endsWord_drop hc hbegins) hs
  · rw [outerChar_link hl] at hs
    have hbegins : beginsPiece c = false :=
      (beginsPiece_eq_false_iff c).2 (.inr (.inr (.inl ⟨l, hl⟩)))
    rw [(join_eq_ok hs).2]
    exact fun _ => beginsWord_succ (endsWord_drop hc hbegins)
  · rw [outerChar_open] at hs
    rw [(openGroup_eq_ok hs).2]
    exact fun _ => beginsWord_succ (endsWord_drop hc rfl)
  · rw [outerChar_close] at hs
    obtain ⟨g, gs, -, -, rfl⟩ := closeGroup_eq_ok hs
    trivial
  · rw [outerChar_quote] at hs
    exact h.phase_openQuote ho (hread (by decide)) hc hs
  · rw [outerChar_brace] at hs
    exact h.phase_openReference ho (hread (by decide)) hc hs
  · cases hs
  · rw [outerChar_plain hplain] at hs
    have hne : c ≠ '\n' := by
      rintro rfl
      cases hplain
    exact h.phase_plainChar ho (hread hne) hc hplain hs

theorem PlacedIn.phase_step (h : s.PlacedIn cs) (hc : cs[s.position]? = some c)
    (hs : s.step c = .ok s') : s'.phase.PlacedIn cs s'.position s'.comment := by
  by_cases hskip : (s.comment && c != '\n') = true
  · obtain ⟨hcomment, hn⟩ : s.comment = true ∧ c ≠ '\n' := by simpa using hskip
    rw [step_comment hcomment hn] at hs
    cases hs
    rw [hcomment]
    exact h.phase_skip (by simp [hcomment])
  by_cases ho : s.Outside
  · have hcomment : s.comment = false ∨ c = '\n' := by
      cases hs : s.comment <;> simp_all
    rw [step_outside ho hcomment] at hs
    exact h.phase_outerChar ho hcomment hc hs
  · have hcomment := h.comment_eq_false ho
    rw [step, if_neg hskip] at hs
    cases hp : s.phase with
    | word call w inside =>
      simp only [hp] at hs
      cases inside with
      | bare => exact absurd (by simp [Outside, hp]) ho
      | quoted start => exact h.phase_quotedChar hcomment hc hp hs
      | escaped start backslash =>
        exact h.nextChar hcomment hp (w.offset_push c _) (fun hw => hw.push_escaped hc) hs
      | reference start name quote => exact h.phase_referenceChar hcomment hc hp hs
    | _ => exact absurd (by simp [Outside, hp]) ho

/-! ### Runs -/

theorem beginsPiece_of_move {c : Char} (h : Move.ofChar c ≠ .stay) : beginsPiece c = false := by
  rw [beginsPiece_eq_false_iff]
  unfold Move.ofChar at h
  split at h
  · next l hl => exact .inr (.inr (.inl ⟨l, hl⟩))
  · split at h
    · next hopen => simp_all
    · split at h
      · next hclose => simp_all
      · exact absurd rfl h

theorem eq_open_of_move {c : Char} (h : Move.ofChar c = .enter) : c = '(' := by
  unfold Move.ofChar at h
  split at h
  · cases h
  · split at h
    · next hopen => exact beq_iff_eq.1 hopen
    · split at h <;> cases h

/-- Clauses begin and end outside comments, quotes and references only. -/
theorem outside_of_move (h : s.move c ≠ .stay) : s.Outside ∧ s.move c = .ofChar c := by
  by_cases ho : s.Outside
  · refine ⟨ho, move_of_outside ho ?_⟩
    by_contra hskip
    rw [move, if_pos (by simpa using hskip)] at h
    exact h rfl
  · exact absurd (move_of_inside ho c) h

/-- **What the scanner holds stands where its offsets say**, after one more character too. -/
theorem PlacedIn.step (h : s.PlacedIn cs) (hc : cs[s.position]? = some c) (hs : s.step c = .ok s') :
    s'.PlacedIn cs := by
  have hphase := h.phase_step hc hs
  have hcomment := outside_of_step h.comment hs
  have hposition := position_of_step hs
  have hgroups : ∀ g ∈ s.groups,
      cs[g.offset]? = some '(' ∧ g.offset < s'.position ∧ g.before.PlacedIn cs := fun g hg => by
    obtain ⟨hopen, hlt, hbefore⟩ := h.groups g hg
    exact ⟨hopen, hposition ▸ Nat.lt_succ_of_lt hlt, hbefore⟩
  have hsettled : s.move c ≠ .stay → s.settled.PlacedIn cs := fun hmove => by
    obtain ⟨ho, hchar⟩ := outside_of_move hmove
    exact h.settled ho fun _ => endsWord_drop hc (beginsPiece_of_move (hchar ▸ hmove))
  have hopen : s.move c = .enter → cs[s.position]? = some '(' := fun hmove => by
    have hne : s.move c ≠ .stay := by simp [hmove]
    rw [hc, eq_open_of_move ((outside_of_move hne).2.symm.trans hmove)]
  have hmoves := moves_of_step hs
  generalize s.move c = move at hmoves hsettled hopen
  cases hmoves with
  | stay hw => exact ⟨hw.clauses ▸ h.clauses, hw.groups ▸ hgroups, hphase, hcomment⟩
  | join link _ => exact ⟨hsettled (by simp), hgroups, hphase, hcomment⟩
  | enter _ =>
    refine ⟨trivial, ?_, hphase, hcomment⟩
    intro g hg
    rcases List.mem_cons.1 hg with rfl | hg
    · exact ⟨hopen rfl, Nat.lt_succ_self _, h.clauses⟩
    · exact hgroups g hg
  | leave hg _ =>
    obtain ⟨hopen, -, hbefore⟩ := h.groups _ (hg ▸ List.mem_cons_self)
    refine ⟨?_, fun g' hg' => hgroups g' (hg ▸ List.mem_cons_of_mem _ hg'), hphase, hcomment⟩
    exact Chain.placedIn_append.2 ⟨hbefore, hopen, hsettled (by simp), trivial⟩

theorem placedIn_empty (cs : List Char) : Scanner.PlacedIn cs {} where
  clauses := trivial
  groups := by simp
  phase := fun _ => beginsWord_zero cs
  comment := by simp

/-- The invariant along a run, and how far the run has come. -/
theorem PlacedIn.run {ds : List Char} (h : s.PlacedIn cs) (hds : ds <+: cs.drop s.position)
    (hs : s.run ds = .ok s') : s'.PlacedIn cs ∧ s'.position = s.position + ds.length := by
  induction ds generalizing s with
  | nil =>
    cases hs
    exact ⟨h, rfl⟩
  | cons d ds ih =>
    obtain ⟨hd, hds⟩ := cons_prefix_drop_iff.1 hds
    rw [run_cons] at hs
    rcases hstep : s.step d with fault | s₁
    · rw [hstep] at hs
      cases hs
    · rw [hstep] at hs
      have hposition := position_of_step hstep
      obtain ⟨hplaced, hend⟩ := ih (h.step hd hstep) (hposition ▸ hds) hs
      refine ⟨hplaced, ?_⟩
      rw [hend, hposition, List.length_cons]
      omega

/-- A source is at its end outside quotes and references, or it is no query. -/
theorem outside_of_finish {q : Query} (h : s.finish = .ok q) : s.Outside := by
  obtain ⟨p, gs, cl, l, phase, comment⟩ := s
  cases phase with
  | word call w inside =>
    cases inside with
    | bare => trivial
    | reference start name quote => cases quote <;> cases h
    | _ => cases h
  | _ => trivial

end Scanner

/-- Every clause and argument of a query that has been read stands where its offset says. -/
theorem placedIn_of_parse {source : String} {q : Query} (h : parse source = .ok q) :
    q.clauses.PlacedIn source.toList := by
  change (Scanner.run {} source.toList).bind Scanner.finish = .ok q at h
  rcases hrun : Scanner.run {} source.toList with fault | s
  · rw [hrun] at h
    cases h
  rw [hrun] at h
  obtain ⟨hs, hposition⟩ := (Scanner.placedIn_empty source.toList).run (by simp) hrun
  have hend : EndsWord (source.toList.drop s.position) := by
    rw [hposition, Nat.zero_add]
    exact endsWord_drop_length _
  have hsettled := hs.settled (Scanner.outside_of_finish h) fun _ => hend
  obtain ⟨-, rfl⟩ := Scanner.finish_eq_ok h
  dsimp only
  split
  · -- nothing is invoked
    refine ⟨⟨beginsWord_zero _, fun h => absurd rfl h, fun _ h => absurd rfl h, ?_, .nil⟩, trivial⟩
    simp
  · exact hsettled

/-- **Offsets are places.** In a query that has been read each name is spelled by the characters
from its offset on, a clause without a name begins at its quote and a group at its parenthesis; each
argument is spelled from its offset on, and each of its parts begins at its own. Clauses that begin
later have greater offsets. -/
theorem parse_offsets_are_places {source : String} {q : Query} (h : parse source = .ok q) :
    q.clauses.PlacedIn source.toList ∧ q.clauses.offsets.Pairwise (· < ·) :=
  ⟨placedIn_of_parse h, pairwise_offsets_of_parse h⟩

/-- An argument right behind a name, references inside and outside quotes, a comment that ends an
argument, and a clause without a name in a group. -/
theorem parse_offsets_are_places_nested :
    ∃ q, parse "say\"a\\\"\x7bx\x7d\" b\x7by\x7d#c\n& (\"\"; é)" = .ok q ∧
      q.clauses.offsets = [0, 21, 22, 26] ∧
      q.clauses.PlacedIn "say\"a\\\"\x7bx\x7d\" b\x7by\x7d#c\n& (\"\"; é)".toList ∧
      q.clauses.offsets.Pairwise (· < ·) := by
  have hparse : parse "say\"a\\\"\x7bx\x7d\" b\x7by\x7d#c\n& (\"\"; é)" = .ok
      ⟨.command .always ⟨"say", 0, [⟨[.literal "a\"" 4, .reference "x" 7], 3⟩,
        ⟨[.literal "b" 12, .reference "y" 13], 12⟩]⟩ <|
      .group .ifPassed 21 (.command .always ⟨"", 22, [⟨[.literal "" 22], 22⟩]⟩ <|
        .command .always ⟨"é", 26, []⟩ .nil) .nil⟩ := by rfl
  exact ⟨_, hparse, rfl, parse_offsets_are_places hparse⟩

end DevConsole
