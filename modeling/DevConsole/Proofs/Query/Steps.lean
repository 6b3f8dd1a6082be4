import Mathlib.Tactic.Common
import DevConsole.Query.Scanner
import DevConsole.Proofs.Query.Grammar

/-!
Single steps of the scanner. A character outside comments, quotes and references is dealt with by
its class alone; the lemmas here name the class and what is done.
-/

namespace DevConsole

open Grammar

/-! ### Classes of characters -/

namespace Grammar

/-- A character outside quotes is of exactly one class. -/
theorem class_cases (c : Char) :
    c = '#' ∨ Text.isBlank c ∨ (∃ l, Link.ofChar? c = some l) ∨ c = '(' ∨ c = ')' ∨ c = '"' ∨
      c = '{' ∨ c = '\\' ∨ isPlain c := by
  by_cases hp : isPlain c
  · simp [hp]
  · have hl : (Link.ofChar? c).isSome ↔ ∃ l, Link.ofChar? c = some l := Option.isSome_iff_exists
    simp only [isPlain, Bool.not_eq_true', Bool.not_eq_false, Bool.or_eq_true, beq_iff_eq, hl] at hp
    tauto

theorem link_cases {c : Char} {l : Link} (h : Link.ofChar? c = some l) :
    c = ';' ∨ c = '&' ∨ c = '|' := by
  unfold Link.ofChar? at h
  split at h <;> simp_all

theorem beginsPiece_eq_false_iff (c : Char) :
    beginsPiece c = false ↔
      c = '#' ∨ Text.isBlank c ∨ (∃ l, Link.ofChar? c = some l) ∨ c = '(' ∨ c = ')' ∨ c = '\\' := by
  constructor
  · intro h
    simp only [beginsPiece, Bool.or_eq_false_iff, beq_eq_false_iff_ne] at h
    rcases class_cases c with rfl | hc | hc | rfl | rfl | rfl | rfl | rfl | hc <;> simp_all
  · rintro (rfl | hc | ⟨l, hl⟩ | rfl | rfl | rfl)
    · rfl
    · have h₁ : c ≠ '"' := by rintro rfl; cases hc
      have h₂ : c ≠ '{' := by rintro rfl; cases hc
      simp [beginsPiece, isPlain, hc, h₁, h₂]
    · rcases link_cases hl with rfl | rfl | rfl <;> rfl
    · rfl
    · rfl
    · rfl

end Grammar

namespace Scanner

/-! ### Outside comments, quotes and references -/

/-- Whether the next character stands outside quotes and references. -/
def Outside (s : Scanner) : Prop :=
  match s.phase with
  | .start | .name .. | .between _ | .word _ _ .bare | .closed => True
  | .word .. => False

theorem step_outside {s : Scanner} (h : s.Outside) {c : Char} (hc : s.comment = false ∨ c = '\n') :
    s.step c = s.outerChar c := by
  have : (s.comment && c != '\n') = false := by rcases hc with hc | rfl <;> simp [*]
  rw [step, this]
  unfold Outside at h
  split at h <;> simp_all

theorem step_comment {s : Scanner} (h : s.comment = true) {c : Char} (hc : c ≠ '\n') :
    s.step c = .ok { s with position := s.position + 1 } := by
  simp [step, h, hc]

section Classes

variable {s : Scanner} {c : Char}

theorem outerChar_blank (h : Text.isBlank c) : s.outerChar c = s.blank := by
  have : c ≠ '#' := by rintro rfl; cases h
  simp [outerChar, h, this]

theorem outerChar_link {l : Link} (h : Link.ofChar? c = some l) : s.outerChar c = s.join c l := by
  rcases link_cases h with rfl | rfl | rfl <;> cases h <;> rfl

theorem outerChar_plain (h : isPlain c) : s.outerChar c = s.plainChar c := by
  simp only [isPlain, Bool.not_eq_true', Bool.or_eq_false_iff, beq_eq_false_iff_ne,
    Option.isSome_eq_false_iff, Option.isNone_iff_eq_none] at h
  simp [outerChar, h]

theorem outerChar_numberSign : s.outerChar '#' = s.beginComment := rfl
theorem outerChar_open : s.outerChar '(' = s.openGroup := rfl
theorem outerChar_close : s.outerChar ')' = s.closeGroup := rfl
theorem outerChar_quote : s.outerChar '"' = s.openQuote := rfl
theorem outerChar_brace : s.outerChar '{' = s.openReference := rfl

end Classes

/-! ### Links and parentheses -/

section Accepted

variable {s s' : Scanner}

theorem join_eq_ok {c : Char} {l : Link} (h : s.join c l = .ok s') :
    s.awaitsClause = false ∧
      s' = ⟨s.position + 1, s.groups, s.settled, l, .start, false⟩ := by
  unfold join at h
  split at h
  · cases h
  · next hs =>
    cases h
    exact ⟨by simpa using hs, rfl⟩

theorem openGroup_eq_ok (h : s.openGroup = .ok s') :
    s.awaitsClause = true ∧
      s' = ⟨s.position + 1, ⟨s.position, s.link, s.clauses⟩ :: s.groups, .nil, .always, .start,
        false⟩ := by
  unfold openGroup at h
  split at h
  · next hs =>
    cases h
    exact ⟨hs, rfl⟩
  · cases h

theorem closeGroup_eq_ok (h : s.closeGroup = .ok s') :
    ∃ g gs, s.groups = g :: gs ∧ s.awaitsClause = false ∧
      s' = ⟨s.position + 1, gs,
        g.before ++ Chain.group (if g.before.isNil then .always else g.link) g.offset s.settled .nil,
        .always, .closed, false⟩ := by
  unfold closeGroup at h
  split at h
  · cases h
  · next g gs hg =>
    split at h
    · split at h <;> cases h
    · next hs =>
      cases h
      exact ⟨g, gs, hg, by simpa using hs, rfl⟩

theorem finish_eq_ok {q : Query} (h : s.finish = .ok q) :
    s.groups = [] ∧ q = ⟨if s.settled.isNil then .command .always {} .nil else s.settled⟩ := by
  unfold finish at h
  split at h
  · cases h
  · cases h
  · cases h
  · cases h
  · split at h
    · cases h
    · next hg =>
      cases h
      exact ⟨hg, rfl⟩

end Accepted

/-! ### Runs -/

@[simp] theorem run_nil (s : Scanner) : s.run [] = .ok s := rfl

@[simp] theorem run_cons (s : Scanner) (c : Char) (cs : List Char) :
    s.run (c :: cs) = (s.step c).bind (·.run cs) := rfl

theorem run_append (s : Scanner) (cs ds : List Char) :
    s.run (cs ++ ds) = (s.run cs).bind (·.run ds) :=
  List.foldlM_append

/-- What is kept by every step is kept by a run. -/
theorem run_induction {P : Scanner → Prop}
    (hstep : ∀ {s s' : Scanner} {c : Char}, P s → s.step c = .ok s' → P s') {s s' : Scanner}
    {cs : List Char} (h : P s) (hs : s.run cs = .ok s') : P s' := by
  induction cs generalizing s with
  | nil =>
    cases hs
    exact h
  | cons c cs ih =>
    rw [run_cons] at hs
    rcases hc : s.step c with e | s₁
    · rw [hc] at hs
      cases hs
    · rw [hc] at hs
      exact ih (hstep h hc) hs

/-- A comment is skipped to the end of its line. -/
theorem run_comment {s : Scanner} (h : s.comment = true) {cs : List Char}
    (hcs : ∀ c ∈ cs, c ≠ '\n') (ds : List Char) :
    s.run (cs ++ ds) = run { s with position := s.position + cs.length } ds := by
  induction cs generalizing s with
  | nil => rfl
  | cons c cs ih =>
    rw [List.cons_append, run_cons, step_comment h (hcs c (by simp))]
    have := ih (s := { s with position := s.position + 1 }) h
      (fun d hd => hcs d (List.mem_cons_of_mem _ hd))
    rw [Except.bind, this]
    simp [Nat.add_assoc, Nat.add_comm 1]

end Scanner

end DevConsole
