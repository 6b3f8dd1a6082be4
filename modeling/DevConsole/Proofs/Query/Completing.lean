import DevConsole.Proofs.Query.Lexing
import DevConsole.Proofs.Query.Moves

/-!
Sources that are not yet at their end. From every state that the scanner comes to, some characters
lead to the end of a query. Main statement: a fault is found as soon as the source cannot be
continued to a query any more, and no continuation changes it.
-/

namespace DevConsole

namespace Scanner

variable {s s' s'' : Scanner}

/-! ### What the next characters lead to -/

/-- A fault stays the same whatever comes after it. -/
theorem run_append_of_error {cs : List Char} {e : SyntaxError} (h : s.run cs = .error e)
    (ds : List Char) : s.run (cs ++ ds) = .error e := by
  rw [run_append, h]
  rfl

/-- Whether some characters lead from one state to the other. -/
def LeadsTo (s s' : Scanner) : Prop := ∃ cs, s.run cs = .ok s'

namespace LeadsTo

theorem refl (s : Scanner) : s.LeadsTo s := ⟨[], rfl⟩

theorem of_step {c : Char} (h : s.step c = .ok s') : s.LeadsTo s' :=
  ⟨[c], by rw [run_cons, h]; rfl⟩

theorem trans (h : s.LeadsTo s') (h' : s'.LeadsTo s'') : s.LeadsTo s'' := by
  obtain ⟨cs, hcs⟩ := h
  obtain ⟨ds, hds⟩ := h'
  exact ⟨cs ++ ds, by rw [run_append, hcs]; exact hds⟩

end LeadsTo

theorem outside_of_run {cs : List Char} (hs : s.comment = true → s.Outside)
    (h : s.run cs = .ok s') : s'.comment = true → s'.Outside :=
  run_induction (P := fun s => s.comment = true → s.Outside) outside_of_step hs h

/-! ### Out of comments, quotes and references -/

/-- Whether the next character stands outside comments, quotes and references. -/
structure Bare (s : Scanner) : Prop where
  outside : s.Outside
  comment : s.comment = false

theorem Bare.step_eq (h : s.Bare) (c : Char) : s.step c = s.outerChar c :=
  step_outside h.outside (.inl h.comment)

/-- A character that has the scanner go on in another phase. -/
theorem exists_of_next {c : Char} {phase : Phase} (h : s.step c = s.next phase) :
    ∃ s', s.LeadsTo s' ∧ s'.phase = phase ∧ s'.comment = false :=
  ⟨_, .of_step h, rfl, rfl⟩

/-- A character that has the scanner go on outside comments, quotes and references. -/
theorem exists_bare_of_next {c : Char} {phase : Phase} (h : s.step c = s.next phase)
    (hphase : ∀ s' : Scanner, s'.phase = phase → s'.Outside) : ∃ s', s.LeadsTo s' ∧ s'.Bare := by
  obtain ⟨s', hleads, hs', hc⟩ := exists_of_next h
  exact ⟨s', hleads, hphase s' hs', hc⟩

theorem outside_of_bare {call : Invocation} {w : Word} (s : Scanner)
    (h : s.phase = .word call w .bare) : s.Outside := by
  rw [Outside, h]
  trivial

/-- A quoted piece is ended by a quote. -/
theorem exists_bare_of_quoted {call : Invocation} {w : Word} {start : Nat}
    (hphase : s.phase = .word call w (.quoted start)) (hc : s.comment = false) :
    ∃ s', s.LeadsTo s' ∧ s'.Bare := by
  have hstep : s.step '"' = s.next (.word call w .bare) := by
    rw [step, hc, hphase]
    rfl
  exact exists_bare_of_next hstep outside_of_bare

/-- A reference that has a name is ended by its closing brace. -/
theorem exists_bare_of_reference {call : Invocation} {w : Word} {start : Nat} {name : String}
    {quote : Option Nat} (hphase : s.phase = .word call w (.reference start name quote))
    (hname : name.isEmpty = false) (hc : s.comment = false) : ∃ s', s.LeadsTo s' ∧ s'.Bare := by
  cases quote with
  | none =>
    have hstep : s.step '}' = s.next (.word call (w.refer name start) .bare) := by
      rw [step, hc, hphase]
      simp [referenceChar, hname]
    exact exists_bare_of_next hstep outside_of_bare
  | some q =>
    have hstep : s.step '}' = s.next (.word call (w.refer name start) (.quoted q)) := by
      rw [step, hc, hphase]
      simp [referenceChar, hname]
    obtain ⟨s₁, hleads₁, hphase₁, hc₁⟩ := exists_of_next hstep
    obtain ⟨s', hleads, hbare⟩ := exists_bare_of_quoted hphase₁ hc₁
    exact ⟨s', hleads₁.trans hleads, hbare⟩

/-- Comments, quotes and references can be ended. -/
theorem exists_bare (hs : s.comment = true → s.Outside) : ∃ s', s.LeadsTo s' ∧ s'.Bare := by
  rcases hc : s.comment with _ | _
  · by_cases ho : s.Outside
    · exact ⟨s, .refl s, ho, hc⟩
    · obtain ⟨call, w, inside, hphase⟩ : ∃ call w inside, s.phase = .word call w inside := by
        unfold Outside at ho
        split at ho <;> simp_all
      cases inside with
      | bare => exact absurd (outside_of_bare s hphase) ho
      | quoted start => exact exists_bare_of_quoted hphase hc
      | escaped start backslash =>
        have hstep : s.step 'a' = s.next (.word call (w.push 'a' s.position) (.quoted start)) := by
          rw [step, hc, hphase]
          rfl
        obtain ⟨s₁, hleads₁, hphase₁, hc₁⟩ := exists_of_next hstep
        obtain ⟨s', hleads, hbare⟩ := exists_bare_of_quoted hphase₁ hc₁
        exact ⟨s', hleads₁.trans hleads, hbare⟩
      | reference start name quote =>
        have hstep : s.step 'a' =
            s.next (.word call w (.reference start (name.push 'a') quote)) := by
          rw [step, hc, hphase]
          rfl
        obtain ⟨s₁, hleads₁, hphase₁, hc₁⟩ := exists_of_next hstep
        obtain ⟨s', hleads, hbare⟩ := exists_bare_of_reference hphase₁ (by simp) hc₁
        exact ⟨s', hleads₁.trans hleads, hbare⟩
  · -- the line feed that ends the comment is a blank, which ends a name or an argument at most
    have hstep : s.step '\n' = s.blank := step_outside (hs hc) (.inr rfl)
    rw [blank] at hstep
    split at hstep
    · exact exists_bare_of_next hstep fun s' hs' => by rw [Outside, hs']; trivial
    · exact exists_bare_of_next hstep fun s' hs' => by rw [Outside, hs']; trivial
    · refine exists_bare_of_next hstep fun s' hs' => ?_
      rw [Outside, hs']
      exact hs hc

/-! ### To the end of a query -/

/-- Where there is no clause at hand, one can be begun. -/
theorem Bare.exists_clause (h : s.Bare) :
    ∃ s', s.LeadsTo s' ∧ s'.Bare ∧ s'.awaitsClause = false := by
  rcases hawaits : s.awaitsClause with _ | _
  · exact ⟨s, .refl s, h, hawaits⟩
  · have hphase : s.phase = .start := (awaitsClause_iff s).1 hawaits
    have hstep : s.step 'a' = s.next (.name s.position "a") := by
      rw [h.step_eq, outerChar_plain rfl, plainChar, hphase]
      rfl
    exact ⟨_, .of_step hstep, ⟨trivial, rfl⟩, rfl⟩

/-- Behind a clause the open groups can be closed, one after the other. -/
theorem Bare.exists_closed (h : s.Bare) (hawaits : s.awaitsClause = false) :
    ∃ s', s.LeadsTo s' ∧ s'.Bare ∧ s'.groups = [] := by
  generalize hgs : s.groups = gs
  induction gs generalizing s with
  | nil => exact ⟨s, .refl s, h, hgs⟩
  | cons g gs ih =>
    have hstep : ∃ s₁, s.step ')' = .ok s₁ ∧ s₁.Bare ∧ s₁.awaitsClause = false ∧
        s₁.groups = gs := by
      rw [h.step_eq, outerChar_close, closeGroup, hgs]
      simp only [hawaits, Bool.false_eq_true, if_false]
      exact ⟨_, rfl, ⟨trivial, rfl⟩, rfl, rfl⟩
    obtain ⟨s₁, hs₁, hbare₁, hawaits₁, hgs₁⟩ := hstep
    obtain ⟨s', hleads, hs'⟩ := ih hbare₁ hawaits₁ hgs₁
    exact ⟨s', (LeadsTo.of_step hs₁).trans hleads, hs'⟩

theorem Bare.exists_finish_eq_ok (h : s.Bare) (hgs : s.groups = []) : ∃ q, s.finish = .ok q := by
  have ho := h.outside
  unfold Outside at ho
  unfold finish
  split at ho <;> simp_all

/-- From every state that the scanner comes to, some characters lead to the end of a query. -/
theorem exists_completion (hs : s.comment = true → s.Outside) :
    ∃ s' q, s.LeadsTo s' ∧ s'.finish = .ok q := by
  obtain ⟨s₁, hleads₁, hbare₁⟩ := exists_bare hs
  obtain ⟨s₂, hleads₂, hbare₂, hawaits₂⟩ := hbare₁.exists_clause
  obtain ⟨s₃, hleads₃, hbare₃, hgs₃⟩ := hbare₂.exists_closed hawaits₂
  obtain ⟨q, hq⟩ := hbare₃.exists_finish_eq_ok hgs₃
  exact ⟨s₃, q, (hleads₁.trans hleads₂).trans hleads₃, hq⟩

end Scanner

/-! ### Sources and their continuations -/

theorem parse_eq_bind (source : String) :
    parse source = (Scanner.run {} source.toList).bind Scanner.finish := rfl

/-- Whether the source can be continued to one that is parsed. -/
def Completes (source : String) : Prop := ∃ rest q, parse (source ++ rest) = .ok q

theorem completes_of_run {source : String} {s : Scanner}
    (h : Scanner.run {} source.toList = .ok s) : Completes source := by
  have hs : s.comment = true → s.Outside := Scanner.outside_of_run (by simp) h
  obtain ⟨s', q, ⟨cs, hcs⟩, hq⟩ := Scanner.exists_completion hs
  refine ⟨String.ofList cs, q, ?_⟩
  rw [parse_eq_bind, String.toList_append, String.toList_ofList, Scanner.run_append, h]
  show (s.run cs).bind Scanner.finish = .ok q
  rw [hcs]
  exact hq

theorem parse_append_of_error {source : String} {e : SyntaxError}
    (h : Scanner.run {} source.toList = .error e) (rest : String) :
    parse (source ++ rest) = .error e := by
  rw [parse_eq_bind, String.toList_append, Scanner.run_append_of_error h]
  rfl

/-- **Faults are found as soon as they are there.** The scanner accepts the characters of a source
just if it can be continued to one that is parsed. And a fault that the scanner finds at some
character is one that no continuation changes, while the characters before it have some. -/
theorem completes_iff (source : String) :
    ((∃ s, Scanner.run {} source.toList = .ok s) ↔ Completes source) ∧
    ∀ s c e, Scanner.run {} source.toList = .ok s → s.step c = .error e →
      Completes source ∧ ¬ Completes (source.push c) ∧
        ∀ rest, parse (source.push c ++ rest) = .error e := by
  refine ⟨⟨fun ⟨s, hs⟩ => completes_of_run hs, ?_⟩, ?_⟩
  · rintro ⟨rest, q, hq⟩
    rcases hrun : Scanner.run {} source.toList with e | s
    · rw [parse_append_of_error hrun] at hq
      cases hq
    · exact ⟨s, rfl⟩
  · intro s c e hs hstep
    have hfault : Scanner.run {} (source.push c).toList = .error e := by
      rw [String.toList_push, Scanner.run_append, hs]
      show s.run [c] = .error e
      rw [Scanner.run_cons, hstep]
      rfl
    have hrest := parse_append_of_error hfault
    refine ⟨completes_of_run hs, ?_, hrest⟩
    rintro ⟨rest, q, hq⟩
    rw [hrest rest] at hq
    cases hq

/-- A quote breaks off a quoted reference in a group. -/
theorem completes_iff_of_reference : Completes "a & (b \"\x7bx" ∧
    ∀ rest, parse ("a & (b \"\x7bx\"" ++ rest) = .error ⟨.unterminatedReference, 8, 2⟩ := by
  obtain ⟨hcompletes, -, hrest⟩ := (completes_iff "a & (b \"\x7bx").2 _ '"' _ rfl rfl
  exact ⟨hcompletes, hrest⟩

end DevConsole
