import DevConsole.Proofs.Query.Reading
import DevConsole.Proofs.Query.Words

/-!
The scanner against its tokens. The state of the scanner between two tokens stands for a reading;
each token takes the scanner to a state that stands for the next reading, and the end of the source
to the clauses that the reading ends with.
-/

namespace DevConsole

open Grammar

/-! ### The reading that a state stands for -/

def Phase.spot : Phase → Spot
  | .start => .start
  | .name _ text => .call ⟨text, 0, []⟩
  | .between call => .call call.unplaced
  | .word call w _ => .call ({ call with args := call.args ++ [w.argument] } : Invocation).unplaced
  | .closed => .closed

/-- The link and the clauses before an open group. The first clause of a scope is joined to
nothing. -/
def OpenGroup.reading (g : OpenGroup) : Link × Chain :=
  (if g.before.isNil then .always else g.link, g.before.unplaced)

namespace Scanner

/-- The reading that the state stands for. -/
def reading (s : Scanner) : Reading where
  groups := s.groups.map OpenGroup.reading
  clauses := s.clauses.unplaced
  link := if s.clauses.isNil then .always else s.link
  spot := s.phase.spot

/-- The clauses, up to offsets, that the source is read as if `cs` is left of it. -/
def scanned (s : Scanner) (cs : List Char) : Option Chain :=
  ((s.run cs).bind finish).toOption.map (·.clauses.unplaced)

theorem scanned_cons_ok {s s' : Scanner} {c : Char} (h : s.step c = .ok s') (cs : List Char) :
    s.scanned (c :: cs) = s'.scanned cs := by
  simp [scanned, h, Except.bind]

theorem scanned_cons_error {s : Scanner} {c : Char} {e : SyntaxError} (h : s.step c = .error e)
    (cs : List Char) : s.scanned (c :: cs) = none := by
  simp [scanned, h, Except.bind, Except.toOption]

theorem scanned_congr {s s' : Scanner} {cs ds : List Char} (h : s.run cs = s'.run ds) :
    s.scanned cs = s'.scanned ds := by
  rw [scanned, h, scanned]

theorem settled_unplaced (s : Scanner) : s.settled.unplaced = s.reading.settled := by
  obtain ⟨p, gs, cl, l, phase, comment⟩ := s
  cases phase <;>
    simp [settled, call?, reading, Reading.settled, Phase.spot, Chain.unplaced,
      Invocation.unplaced]

theorem awaitsClause_iff (s : Scanner) : s.awaitsClause = true ↔ s.phase = .start := by
  simp [awaitsClause]

theorem spot_ne_start {s : Scanner} (h : ¬s.awaitsClause = true) : s.reading.spot ≠ .start := by
  rw [awaitsClause_iff] at h
  cases hp : s.phase <;> simp_all [reading, Phase.spot]

/-! ### States between two tokens -/

/-- Whether a word has just been read that more characters may add to. -/
def InWord (s : Scanner) : Prop :=
  match s.phase with
  | .name .. | .word .. => True
  | _ => False

/-- Whether the state lies between two tokens if `cs` is left of the source. -/
structure Ready (s : Scanner) (cs : List Char) : Prop where
  outside : s.Outside
  comment : s.comment = false
  closed : s.phase = .closed → s.clauses.isNil = false
  ends : s.InWord → EndsWord cs

theorem settled_isNil {s : Scanner} (hc : s.phase = .closed → s.clauses.isNil = false)
    (hs : s.awaitsClause = false) : s.settled.isNil = false := by
  obtain ⟨p, gs, cl, l, phase, comment⟩ := s
  cases phase <;> cases cl <;> simp_all [settled, call?, awaitsClause, Chain.isNil]

/-- What is left of the source after the end of a comment is read as if there had been none. -/
theorem scanned_endComment (s : Scanner) {cs : List Char} (hs : s.Outside)
    (h : ∀ c ∈ cs.head?, c = '\n') :
    s.scanned cs = scanned { s with comment := false } cs := by
  cases cs with
  | nil => rfl
  | cons c cs =>
    obtain rfl : c = '\n' := h c (by simp)
    have h₁ := step_outside hs (.inr (rfl : '\n' = '\n'))
    have h₂ := step_outside (s := { s with comment := false }) hs (.inr (rfl : '\n' = '\n'))
    refine scanned_congr ?_
    rw [run_cons, run_cons, h₁, h₂]
    rfl

theorem finish_of_outside {s : Scanner} (h : s.Outside) (hg : s.groups = []) :
    s.finish = .ok ⟨if s.settled.isNil then .command .always {} .nil else s.settled⟩ := by
  unfold Outside at h
  unfold finish
  split at h <;> simp_all

theorem finish_of_group {s : Scanner} (h : s.Outside) {g : OpenGroup} {gs : List OpenGroup}
    (hg : s.groups = g :: gs) : s.finish = .error ⟨.unclosedGroup, g.offset, 1⟩ := by
  unfold Outside at h
  unfold finish
  split at h <;> simp_all

theorem scanned_nil {s : Scanner} (h : s.Ready []) : s.scanned [] = s.reading.finish := by
  have hn : s.reading.settled.isNil = s.settled.isNil := by
    rw [← settled_unplaced, Chain.isNil_unplaced]
  cases hg : s.groups with
  | nil =>
    have hr : s.reading.groups = [] := by simp [reading, hg]
    simp only [scanned, run_nil, Except.bind, finish_of_outside h.outside hg, Reading.finish, hr, hn,
      Except.toOption, Option.map_some]
    split
    · rfl
    · rw [settled_unplaced]
  | cons g gs =>
    have hr : s.reading.groups = g.reading :: gs.map OpenGroup.reading := by simp [reading, hg]
    simp [scanned, Except.bind, finish_of_group h.outside hg, Reading.finish, hr, Except.toOption]

/-! ### Tokens -/

/-- Whether the scanner takes the token, which stands at the head of `cs` and before `rest`, to the
reading that the token leads to. -/
def Simulates (s : Scanner) (t : Token) (cs rest : List Char) : Prop :=
  (s.reading.step t = none ∧ s.scanned cs = none) ∨
    ∃ s' : Scanner, s.reading.step t = some s'.reading ∧ s.scanned cs = s'.scanned rest ∧
      s'.Ready rest

theorem scanned_blank {s : Scanner} {c : Char} {cs : List Char} (h : s.Ready (c :: cs))
    (hc : Text.isBlank c) :
    ∃ s' : Scanner, s.scanned (c :: cs) = s'.scanned cs ∧ s.reading = s'.reading ∧ s'.Ready cs := by
  have hstep := (step_outside h.outside (.inl h.comment)).trans (outerChar_blank hc)
  have hclosed := h.closed
  obtain ⟨p, gs, cl, l, phase, comment⟩ := s
  cases phase with
  | start =>
    exact ⟨_, scanned_cons_ok hstep cs, rfl, trivial, rfl, by simp, fun h => h.elim⟩
  | name offset name =>
    exact ⟨_, scanned_cons_ok hstep cs, rfl, trivial, rfl, by simp, fun h => h.elim⟩
  | between call =>
    exact ⟨_, scanned_cons_ok hstep cs, rfl, trivial, rfl, by simp, fun h => h.elim⟩
  | word call word inside =>
    exact ⟨_, scanned_cons_ok hstep cs, rfl, trivial, rfl, by simp, fun h => h.elim⟩
  | closed =>
    exact ⟨_, scanned_cons_ok hstep cs, rfl, trivial, rfl, hclosed, fun h => h.elim⟩

theorem simulates_link {s : Scanner} {c : Char} {l : Link} {cs : List Char}
    (h : s.Ready (c :: cs)) (hc : Link.ofChar? c = some l) : s.Simulates (.link l) (c :: cs) cs := by
  have hstep := (step_outside h.outside (.inl h.comment)).trans (outerChar_link hc)
  unfold join at hstep
  split at hstep
  · next hs =>
    refine .inl ⟨?_, scanned_cons_error hstep cs⟩
    simp [Reading.step, reading, (awaitsClause_iff s).1 hs, Phase.spot]
  · next hs =>
    have hn := settled_isNil h.closed (by simpa using hs)
    refine .inr ⟨_, ?_, scanned_cons_ok hstep cs, trivial, rfl, by simp, fun h => h.elim⟩
    rw [Reading.step_link (spot_ne_start hs), ← settled_unplaced]
    simp [reading, hn, Phase.spot]

theorem simulates_open {s : Scanner} {cs : List Char} (h : s.Ready ('(' :: cs)) :
    s.Simulates .openParen ('(' :: cs) cs := by
  have hstep := (step_outside h.outside (.inl h.comment)).trans outerChar_open
  unfold openGroup at hstep
  split at hstep
  · next hs =>
    refine .inr ⟨_, ?_, scanned_cons_ok hstep cs, trivial, rfl, by simp, fun h => h.elim⟩
    simp [Reading.step, reading, (awaitsClause_iff s).1 hs, Phase.spot, OpenGroup.reading,
      Chain.unplaced]
  · next hs =>
    refine .inl ⟨?_, scanned_cons_error hstep cs⟩
    rw [awaitsClause_iff] at hs
    cases hp : s.phase <;> simp_all [Reading.step, reading, Phase.spot]

theorem simulates_close {s : Scanner} {cs : List Char} (h : s.Ready (')' :: cs)) :
    s.Simulates .closeParen (')' :: cs) cs := by
  have hstep := (step_outside h.outside (.inl h.comment)).trans outerChar_close
  unfold closeGroup at hstep
  split at hstep
  · next hg =>
    exact .inl ⟨Reading.step_closeParen_nil (by simp [reading, hg]), scanned_cons_error hstep cs⟩
  · next g gs hg =>
    split at hstep
    · next hs =>
      have hr : s.reading.step .closeParen = none := by
        simp [Reading.step, reading, (awaitsClause_iff s).1 hs, Phase.spot]
      split at hstep <;> exact .inl ⟨hr, scanned_cons_error hstep cs⟩
    · next hs =>
      have hg' : s.reading.groups = g.reading :: gs.map OpenGroup.reading := by simp [reading, hg]
      refine .inr ⟨_, ?_, scanned_cons_ok hstep cs, trivial, rfl, ?_, fun h => h.elim⟩
      · rw [Reading.step_closeParen (spot_ne_start hs) hg', ← settled_unplaced]
        simp [reading, Phase.spot, Chain.unplaced]
      · intro _
        cases g.before <;> rfl

/-! ### Words -/

section Words

variable {gs : List OpenGroup} {cl : Chain} {l : Link}

/-- Pieces behind the blank after an argument, or behind the quote that ends a name, are one more
argument. -/
theorem run_argument {pieces : List Piece} (h : ∀ p ∈ pieces, p.Valid) (p : Nat)
    (call : Invocation) (rest : List Char) :
    ∃ p' w, run ⟨p, gs, cl, l, .word call ⟨p, []⟩ .bare, false⟩
        (pieces.flatMap Piece.chars ++ rest) =
        run ⟨p', gs, cl, l, .word call w .bare, false⟩ rest ∧
      (Phase.word call w .bare).spot = .call (withWord call.unplaced pieces) := by
  obtain ⟨p', w, hrun, hw⟩ := @run_pieces gs cl l call pieces h p ⟨p, []⟩ rest
  refine ⟨p', w, hrun, ?_⟩
  rw [Phase.spot, withWord, Invocation.unplaced, List.map_append, List.map_singleton,
    Word.unplaced_argument_of hw]
  rfl

/-- Where the pieces begin makes no difference, as long as no argument has been begun. -/
theorem step_between (p : Nat) (call : Invocation) {c : Char} (hc : beginsPiece c) :
    step ⟨p, gs, cl, l, .between call, false⟩ c =
      step ⟨p, gs, cl, l, .word call ⟨p, []⟩ .bare, false⟩ c := by
  rw [step_outside (s := ⟨p, gs, cl, l, .between call, false⟩) trivial (.inl rfl),
    step_outside (s := ⟨p, gs, cl, l, .word call ⟨p, []⟩ .bare, false⟩) trivial (.inl rfl)]
  simp only [beginsPiece, Bool.or_eq_true, beq_iff_eq] at hc
  rcases hc with (hc | rfl) | rfl
  · rw [outerChar_plain hc, outerChar_plain hc]
    rfl
  · rfl
  · rfl

/-- The pieces of a first word, from its name on. Either they make the invocation that
`firstCall?` tells, or they are refused. -/
theorem run_name {pieces : List Piece} (h : ∀ p ∈ pieces, p.Valid) (p : Nat) (offset : Nat)
    {name : String} (hn : name ≠ "") (rest : List Char) :
    (firstCall? name.toList pieces = none ∧
      scanned ⟨p, gs, cl, l, .name offset name, false⟩ (pieces.flatMap Piece.chars ++ rest) =
        none) ∨
    ∃ call p' phase, firstCall? name.toList pieces = some call ∧
      run ⟨p, gs, cl, l, .name offset name, false⟩ (pieces.flatMap Piece.chars ++ rest) =
        run ⟨p', gs, cl, l, phase, false⟩ rest ∧
      phase.spot = .call call ∧ Outside ⟨p', gs, cl, l, phase, false⟩ := by
  induction pieces generalizing p name with
  | nil =>
    refine .inr ⟨⟨name, 0, []⟩, p, .name offset name, ?_, rfl, rfl, trivial⟩
    simp [firstCall?, String.toList_eq_nil_iff, hn]
  | cons piece pieces ih =>
    have hp := h piece (by simp)
    have hps : ∀ d ∈ pieces, d.Valid := fun d hd => h d (List.mem_cons_of_mem _ hd)
    cases piece with
    | plain c =>
      have hstep : step ⟨p, gs, cl, l, .name offset name, false⟩ c =
          .ok ⟨p + 1, gs, cl, l, .name offset (name.push c), false⟩ := by
        rw [step_outside (s := ⟨p, gs, cl, l, .name offset name, false⟩) trivial (.inl rfl),
          outerChar_plain hp]
        rfl
      have hne : name.push c ≠ "" := by
        rw [Ne, ← String.toList_inj]; simp
      simp only [List.flatMap_cons, Piece.chars, List.cons_append, List.nil_append, run_cons, hstep,
        scanned_cons_ok hstep, Except.bind, firstCall?]
      rw [← String.toList_push]
      exact ih hps (p + 1) hne
    | quoted items =>
      -- from its quote on, the word is the first argument
      obtain ⟨p', w, hrun, hw⟩ := @run_argument gs cl l _ h p ⟨name, offset, []⟩ rest
      refine .inr ⟨_, p', .word ⟨name, offset, []⟩ w .bare, rfl, ?_, ?_, trivial⟩
      · rw [← hrun]
        rfl
      · rw [hw]
        simp [withWord, Invocation.unplaced]
    | reference ref =>
      refine .inl ⟨rfl, ?_⟩
      exact scanned_cons_error (c := '{') (e := ⟨.misplacedReference, p, 1⟩) rfl _

theorem run_firstWord {pieces : List Piece} (hne : pieces ≠ []) (h : ∀ p ∈ pieces, p.Valid)
    (p : Nat) (rest : List Char) :
    (firstCall? [] pieces = none ∧
      scanned ⟨p, gs, cl, l, .start, false⟩ (pieces.flatMap Piece.chars ++ rest) = none) ∨
    ∃ call p' phase, firstCall? [] pieces = some call ∧
      run ⟨p, gs, cl, l, .start, false⟩ (pieces.flatMap Piece.chars ++ rest) =
        run ⟨p', gs, cl, l, phase, false⟩ rest ∧
      phase.spot = .call call ∧ Outside ⟨p', gs, cl, l, phase, false⟩ := by
  obtain ⟨piece, pieces, rfl⟩ := List.exists_cons_of_ne_nil hne
  have hp := h piece (by simp)
  have hps : ∀ d ∈ pieces, d.Valid := fun d hd => h d (List.mem_cons_of_mem _ hd)
  cases piece with
  | plain c =>
    have hstep : step ⟨p, gs, cl, l, .start, false⟩ c =
        .ok ⟨p + 1, gs, cl, l, .name p (String.singleton c), false⟩ := by
      rw [step_outside (s := ⟨p, gs, cl, l, .start, false⟩) trivial (.inl rfl), outerChar_plain hp]
      rfl
    have hc : String.singleton c ≠ "" := by
      rw [Ne, ← String.toList_inj]; simp
    simp only [List.flatMap_cons, Piece.chars, List.cons_append, List.nil_append, run_cons, hstep,
      scanned_cons_ok hstep, Except.bind, firstCall?]
    rw [← String.toList_singleton]
    exact run_name hps (p + 1) p hc rest
  | quoted items =>
    obtain ⟨p', w, hrun, hw⟩ := @run_argument gs cl l _ h p ⟨"", p, []⟩ rest
    refine .inr ⟨_, p', .word ⟨"", p, []⟩ w .bare, rfl, ?_, ?_, trivial⟩
    · rw [← hrun]
      rfl
    · rw [hw]
      simp [withWord, Invocation.unplaced]
  | reference ref =>
    refine .inl ⟨rfl, ?_⟩
    exact scanned_cons_error (c := '{') (e := ⟨.misplacedReference, p, 1⟩) rfl _

end Words

theorem beginsPiece_chars {p : Piece} (h : p.Valid) : ∃ c cs, p.chars = c :: cs ∧ beginsPiece c := by
  cases p with
  | plain c => exact ⟨c, [], rfl, by simp_all [beginsPiece, Piece.Valid]⟩
  | quoted items => exact ⟨'"', _, rfl, rfl⟩
  | reference name => exact ⟨'{', _, rfl, rfl⟩

/-- A word cannot be added to right behind another one. -/
theorem Ready.not_inWord {s : Scanner} {pieces : List Piece} {rest : List Char}
    (h : s.Ready (pieces.flatMap Piece.chars ++ rest)) (hne : pieces ≠ [])
    (hv : ∀ p ∈ pieces, p.Valid) : ¬s.InWord := by
  obtain ⟨piece, pieces, rfl⟩ := List.exists_cons_of_ne_nil hne
  obtain ⟨c, cs, he, hc⟩ := beginsPiece_chars (hv piece (by simp))
  intro hw
  have := h.ends hw c (by simp [he])
  rw [hc] at this
  cases this

theorem simulates_word {s : Scanner} {pieces : List Piece} {rest : List Char} (hne : pieces ≠ [])
    (hv : ∀ p ∈ pieces, p.Valid) (hrest : EndsWord rest)
    (h : s.Ready (pieces.flatMap Piece.chars ++ rest)) :
    s.Simulates (.word pieces) (pieces.flatMap Piece.chars ++ rest) rest := by
  have hw := h.not_inWord hne hv
  obtain ⟨ho, hcomment, -, -⟩ := h
  obtain ⟨p, gs, cl, l, phase, comment⟩ := s
  cases hcomment
  have hready : ∀ {p' : Nat} {phase' : Phase}, Outside ⟨p', gs, cl, l, phase', false⟩ →
      phase' ≠ .closed → Ready ⟨p', gs, cl, l, phase', false⟩ rest :=
    fun ho hc => ⟨ho, rfl, fun h => absurd h hc, fun _ => hrest⟩
  cases phase with
  | start =>
    rcases @run_firstWord gs cl l _ hne hv p rest with
      ⟨hf, hs⟩ | ⟨call, p', phase, hf, hrun, hspot, ho'⟩
    · exact .inl ⟨by simp [Reading.step, reading, Phase.spot, hf], hs⟩
    · refine .inr ⟨⟨p', gs, cl, l, phase, false⟩, ?_, scanned_congr hrun, hready ho' ?_⟩
      · have hstart : Phase.spot .start = .start := rfl
        simp [Reading.step, reading, hstart, hf, hspot]
      · rintro rfl
        cases hspot
  | name offset name => exact absurd trivial hw
  | between call =>
    obtain ⟨p', w, hrun, hspot⟩ := @run_argument gs cl l _ hv p call rest
    refine .inr ⟨⟨p', gs, cl, l, .word call w .bare, false⟩, ?_, scanned_congr ?_,
      hready trivial (by simp)⟩
    · simp [Reading.step, reading, Phase.spot, ← hspot]
    · rw [← hrun]
      obtain ⟨piece, pieces, rfl⟩ := List.exists_cons_of_ne_nil hne
      obtain ⟨c, cs, he, hc⟩ := beginsPiece_chars (hv piece (by simp))
      rw [List.flatMap_cons, he, List.cons_append, List.cons_append, run_cons, run_cons,
        step_between p call hc]
  | word call w inside => exact absurd trivial hw
  | closed =>
    obtain ⟨piece, pieces, rfl⟩ := List.exists_cons_of_ne_nil hne
    obtain ⟨c, cs, he, hc⟩ := beginsPiece_chars (hv piece (by simp))
    -- behind a group only a link or a parenthesis can stand
    have hstep : step ⟨p, gs, cl, l, .closed, false⟩ c = .error ⟨.linkExpected c, p, 1⟩ := by
      rw [step_outside (s := ⟨p, gs, cl, l, .closed, false⟩) trivial (.inl rfl)]
      simp only [beginsPiece, Bool.or_eq_true, beq_iff_eq] at hc
      rcases hc with (hc | rfl) | rfl
      · rw [outerChar_plain hc]
        rfl
      · rfl
      · rfl
    refine .inl ⟨rfl, ?_⟩
    rw [List.flatMap_cons, he]
    exact scanned_cons_error hstep _

/-! ### Whole texts -/

/-- **The scanner reads the tokens of the text.** -/
theorem scanned_of_lexes {cs : List Char} {ts : List Token} (h : Lexes cs ts) {s : Scanner}
    (hs : s.Ready cs) : s.scanned cs = s.reading.read ts := by
  have token : ∀ {t : Token} {cs rest : List Char} {ts : List Token} {s : Scanner},
      s.Simulates t cs rest →
      (∀ {s' : Scanner}, s'.Ready rest → s'.scanned rest = s'.reading.read ts) →
      s.scanned cs = s.reading.read (t :: ts) := by
    rintro t cs rest ts s (⟨hr, hn⟩ | ⟨s', hr, he, hs'⟩) ih
    · rw [Reading.read, hr, hn, Option.bind_none]
    · rw [Reading.read, hr, he, ih hs', Option.bind_some]
  induction h generalizing s with
  | nil => exact scanned_nil hs
  | blank hc _ ih =>
    obtain ⟨s', he, hr, hs'⟩ := scanned_blank hs hc
    rw [he, hr, ih hs']
  | @comment skipped cs ts hskipped hcs _ ih =>
    have hstep := (step_outside hs.outside (.inl hs.comment)).trans outerChar_numberSign
    have hend : EndsWord cs := by
      intro c hc
      rw [hcs c hc]
      rfl
    rw [List.cons_append, scanned_cons_ok hstep, scanned_congr (run_comment rfl hskipped cs)]
    have ho : Outside ⟨s.position + 1 + skipped.length, s.groups, s.clauses, s.link, s.phase, true⟩ :=
      hs.outside
    refine (scanned_endComment _ ho hcs).trans ?_
    exact ih ⟨hs.outside, rfl, hs.closed, fun _ => hend⟩
  | link hc _ ih => exact token (simulates_link hs hc) ih
  | openParen _ ih => exact token (simulates_open hs) ih
  | closeParen _ ih => exact token (simulates_close hs) ih
  | word hne hv hend _ ih => exact token (simulates_word hne hv hend hs) ih

end Scanner

end DevConsole
