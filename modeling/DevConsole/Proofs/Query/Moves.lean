import DevConsole.Proofs.Query.Steps

/-!
What a step comes to for the clauses. Links and parentheses outside comments, quotes and references
end the clause at hand or begin a group; with every other character the scanner stays within the
clause at hand.
-/

namespace DevConsole

/-- What a character does to the clauses. -/
inductive Move
  | stay
  | join (link : Link)
  | enter
  | leave

def Move.ofChar (c : Char) : Move :=
  match Link.ofChar? c with
  | some link => .join link
  | none => if c == '(' then .enter else if c == ')' then .leave else .stay

namespace Scanner

def move (s : Scanner) (c : Char) : Move :=
  if s.comment && c != '\n' then .stay
  else match s.phase with
    | .word _ _ (.quoted _) | .word _ _ (.escaped ..) | .word _ _ (.reference ..) => .stay
    | _ => .ofChar c

theorem move_of_outside {s : Scanner} (ho : s.Outside) {c : Char}
    (hc : (s.comment && c != '\n') = false) : s.move c = .ofChar c := by
  rw [move, hc]
  unfold Outside at ho
  split at ho <;> simp_all

theorem move_of_inside {s : Scanner} (ho : ¬s.Outside) (c : Char) : s.move c = .stay := by
  obtain ⟨p, gs, cl, l, phase, comment⟩ := s
  cases phase with
  | word call w inside =>
    cases inside with
    | bare => exact absurd trivial ho
    | _ => simp [move]
  | _ => exact absurd trivial ho

theorem call?_eq_none_iff {s : Scanner} :
    s.call? = none ↔ s.phase = .start ∨ s.phase = .closed := by
  obtain ⟨p, gs, cl, l, phase, comment⟩ := s
  cases phase <;> simp [call?]

/-! ### Staying within a clause -/

/-- Whether a step stays within the clause at hand. -/
structure Within (s s' : Scanner) : Prop where
  groups : s'.groups = s.groups
  clauses : s'.clauses = s.clauses
  link : s'.link = s.link
  phase : s'.phase = .start ∨ s'.phase = .closed → s.phase = s'.phase
  /-- Comments begin outside quotes and references only. -/
  comment : s'.comment = true → s'.phase = s.phase ∧ (s.comment = true ∨ s.Outside)

theorem within_of_next {s s' : Scanner} {phase : Phase} (h : s.next phase = .ok s')
    (hp : phase = .start ∨ phase = .closed → s.phase = phase) : Within s s' := by
  cases h
  exact ⟨rfl, rfl, rfl, hp, by simp⟩

theorem within_of_inside {s s' : Scanner} {c : Char} (ho : ¬s.Outside)
    (hc : (s.comment && c != '\n') = false) (h : s.step c = .ok s') : Within s s' := by
  rw [step, hc] at h
  obtain ⟨p, gs, cl, l, phase, comment⟩ := s
  cases phase with
  | word call w inside =>
    cases inside with
    | bare => exact absurd trivial ho
    | quoted start =>
      simp only [Bool.false_eq_true, if_false, quotedChar] at h
      repeat' split at h
      all_goals exact within_of_next h (by simp)
    | escaped start backslash => exact within_of_next h (by simp)
    | reference start name quote =>
      simp only [Bool.false_eq_true, if_false, referenceChar] at h
      repeat' split at h
      all_goals first | exact within_of_next h (by simp) | cases h
  | _ => exact absurd trivial ho

theorem within_of_outerChar {s s' : Scanner} {c : Char} (ho : s.Outside)
    (hl : Link.ofChar? c = none) (hopen : c ≠ '(') (hclose : c ≠ ')') (h : s.outerChar c = .ok s') :
    Within s s' := by
  rcases Grammar.class_cases c with rfl | hc | ⟨l, hc⟩ | rfl | rfl | rfl | rfl | rfl | hc
  · cases h
    exact ⟨rfl, rfl, rfl, fun _ => rfl, fun _ => ⟨rfl, .inr ho⟩⟩
  · rw [outerChar_blank hc, blank] at h
    split at h
    · exact within_of_next h (by simp)
    · exact within_of_next h (by simp)
    · exact within_of_next h fun _ => rfl
  · rw [hl] at hc
    cases hc
  · exact absurd rfl hopen
  · exact absurd rfl hclose
  · rw [outerChar_quote, openQuote] at h
    split at h
    · cases h
    all_goals exact within_of_next h (by simp)
  · rw [outerChar_brace, openReference] at h
    split at h
    any_goals cases h; done
    all_goals exact within_of_next h (by simp)
  · cases h
  · rw [outerChar_plain hc, plainChar] at h
    split at h
    · cases h
    all_goals exact within_of_next h (by simp)

/-! ### All moves -/

/-- `Moves s m s'` says that the move `m` leads from `s` to `s'`. -/
inductive Moves (s : Scanner) : Move → Scanner → Prop
  | stay {s' : Scanner} : Within s s' → Moves s .stay s'
  | join (link : Link) : s.awaitsClause = false →
    Moves s (.join link) ⟨s.position + 1, s.groups, s.settled, link, .start, false⟩
  | enter : s.awaitsClause = true →
    Moves s .enter
      ⟨s.position + 1, ⟨s.position, s.link, s.clauses⟩ :: s.groups, .nil, .always, .start, false⟩
  | leave {g : OpenGroup} {gs : List OpenGroup} : s.groups = g :: gs → s.awaitsClause = false →
    Moves s .leave
      ⟨s.position + 1, gs,
        g.before ++ Chain.group (if g.before.isNil then .always else g.link) g.offset s.settled .nil,
        .always, .closed, false⟩

theorem moves_of_outerChar {s s' : Scanner} {c : Char} (ho : s.Outside)
    (h : s.outerChar c = .ok s') : Moves s (.ofChar c) s' := by
  rcases hl : Link.ofChar? c with _ | link
  · by_cases hopen : c = '('
    · subst hopen
      obtain ⟨hawaits, rfl⟩ := openGroup_eq_ok h
      exact .enter hawaits
    by_cases hclose : c = ')'
    · subst hclose
      obtain ⟨g, gs, hgs, hawaits, rfl⟩ := closeGroup_eq_ok h
      exact .leave hgs hawaits
    · have hmove : Move.ofChar c = .stay := by simp [Move.ofChar, hl, hopen, hclose]
      rw [hmove]
      exact .stay (within_of_outerChar ho hl hopen hclose h)
  · rw [outerChar_link hl] at h
    obtain ⟨hawaits, rfl⟩ := join_eq_ok h
    have hmove : Move.ofChar c = .join link := by simp [Move.ofChar, hl]
    rw [hmove]
    exact .join link hawaits

/-- **Every step is a move.** -/
theorem moves_of_step {s s' : Scanner} {c : Char} (h : s.step c = .ok s') :
    Moves s (s.move c) s' := by
  by_cases hc : (s.comment && c != '\n') = true
  · have hmove : s.move c = .stay := by rw [move, if_pos hc]
    obtain ⟨hcomment, hn⟩ : s.comment = true ∧ c ≠ '\n' := by simpa using hc
    rw [step_comment hcomment hn] at h
    cases h
    rw [hmove]
    exact .stay ⟨rfl, rfl, rfl, fun _ => rfl, fun _ => ⟨rfl, .inl hcomment⟩⟩
  · have hc : (s.comment && c != '\n') = false := by simpa using hc
    by_cases ho : s.Outside
    · have hcomment : s.comment = false ∨ c = '\n' := by
        cases hs : s.comment <;> simp_all
      rw [move_of_outside ho hc]
      exact moves_of_outerChar ho (step_outside ho hcomment ▸ h)
    · rw [move_of_inside ho]
      exact .stay (within_of_inside ho hc h)

theorem outside_of_step {s s' : Scanner} {c : Char} (hs : s.comment = true → s.Outside)
    (h : s.step c = .ok s') : s'.comment = true → s'.Outside := by
  intro hc
  have hmoves := moves_of_step h
  generalize s.move c = m at hmoves
  cases hmoves with
  | stay hw =>
    obtain ⟨hphase, hcomment⟩ := hw.comment hc
    have ho : s.Outside := hcomment.elim hs id
    unfold Outside at ho ⊢
    rwa [hphase]
  | join link _ => cases hc
  | enter _ => cases hc
  | leave _ _ => cases hc

end Scanner

end DevConsole
