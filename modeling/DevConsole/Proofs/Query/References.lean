import DevConsole.Query.Walk
import DevConsole.Proofs.Query.Moves

/-!
The places of references. Main statement: in a query that has been read, the offset of each
reference is the place of its opening brace in the source, where its name follows in braces, and all
names of invocations are plain.
-/

namespace DevConsole

open Grammar

/-! ### Chains of which all invocations have a property -/

def Chain.All (P : Invocation → Prop) : Chain → Prop
  | .nil => True
  | .command _ call rest => P call ∧ rest.All P
  | .group _ _ body rest => body.All P ∧ rest.All P

namespace Chain

variable {P Q : Invocation → Prop}

theorem all_append {c d : Chain} : (c ++ d).All P ↔ c.All P ∧ d.All P := by
  induction c with
  | nil => simp [All]
  | command link call rest ih => simp [All, ih, and_assoc]
  | group link offset body rest _ ih => simp [All, ih, and_assoc]

theorem All.mono {c : Chain} (h : c.All P) (hPQ : ∀ call, P call → Q call) : c.All Q := by
  induction c with
  | nil => trivial
  | command link call rest ih => exact ⟨hPQ call h.1, ih h.2⟩
  | group link offset body rest ihb ihr => exact ⟨ihb h.1, ihr h.2⟩

theorem all_trivial (c : Chain) (h : ∀ call, P call) : c.All P := by
  induction c with
  | nil => trivial
  | command link call rest ih => exact ⟨h call, ih⟩
  | group link offset body rest ihb ihr => exact ⟨ihb, ihr⟩

/-- What a chain has, its next stop and what remains behind it have too. -/
theorem all_of_stop? {failed : Bool} {after : List Chain} {stop : Stop} {c : Chain}
    (h : c.stop? failed after = some stop) (hc : c.All P) (hafter : ∀ d ∈ after, d.All P) :
    (∀ d ∈ stop.rest, d.All P) ∧ ∀ call rest, stop = .command call rest → P call := by
  induction c with
  | nil => cases h
  | command link call rest _ =>
    rw [stop?] at h
    split at h
    · cases h
      exact ⟨by simpa [Stop.rest] using ⟨hc.2, hafter⟩, by rintro _ _ ⟨⟩; exact hc.1⟩
    · cases h
  | group link offset body rest _ ih =>
    rw [stop?] at h
    split at h
    · cases h
      exact ⟨by simpa [Stop.rest] using ⟨hc.1, hc.2, hafter⟩, by rintro _ _ ⟨⟩⟩
    · exact ih h hc.2

end Chain

theorem all_of_nextStop? {P : Invocation → Prop} {failed : Bool} {stop : Stop} {cs : List Chain}
    (h : nextStop? failed cs = some stop) (hcs : ∀ c ∈ cs, c.All P) :
    (∀ d ∈ stop.rest, d.All P) ∧ ∀ call rest, stop = .command call rest → P call := by
  induction cs with
  | nil => cases h
  | cons c after ih =>
    have hc := hcs c List.mem_cons_self
    have hafter := fun d hd => hcs d (List.mem_cons_of_mem c hd)
    rw [nextStop?] at h
    split at h
    · next stop' hstop =>
      cases h
      exact Chain.all_of_stop? hstop hc hafter
    · exact ih h hafter

/-! ### References in a text -/

/-- Whether the name stands in braces in the text, from the place `offset` on. -/
def StandsAt (cs : List Char) (name : String) (offset : Nat) : Prop :=
  ∃ before after, cs = before ++ '{' :: name.toList ++ '}' :: after ∧ before.length = offset

theorem StandsAt.append {cs : List Char} {name : String} {offset : Nat}
    (h : StandsAt cs name offset) (ds : List Char) : StandsAt (cs ++ ds) name offset := by
  obtain ⟨before, after, rfl, hlength⟩ := h
  exact ⟨before, after ++ ds, by simp, hlength⟩

/-- Whether the part, if it is a reference, stands in the text. -/
def Part.StandsIn (cs : List Char) : Part → Prop
  | .literal .. => True
  | .reference name offset => StandsAt cs name offset

theorem Part.StandsIn.append {cs : List Char} {p : Part} (h : p.StandsIn cs) (ds : List Char) :
    p.StandsIn (cs ++ ds) := by
  cases p with
  | literal => trivial
  | reference name offset => exact StandsAt.append h ds

/-- Whether the invocation may have been read from the text: its name is plain, and its references
stand where their offsets say. -/
structure Invocation.StandsIn (cs : List Char) (call : Invocation) : Prop where
  name : ∀ c ∈ call.name.toList, isPlain c
  args : ∀ a ∈ call.args, ∀ p ∈ a.parts, p.StandsIn cs

theorem Invocation.StandsIn.append {cs : List Char} {call : Invocation} (h : call.StandsIn cs)
    (ds : List Char) : call.StandsIn (cs ++ ds) :=
  ⟨h.name, fun a ha p hp => (h.args a ha p hp).append ds⟩

/-! ### The scanner -/

/-- Whether a reference that is being read stands at the end of the text. -/
def Inside.StandsIn (cs : List Char) : Inside → Prop
  | .reference start name _ => ∃ before, cs = before ++ '{' :: name.toList ∧ before.length = start
  | _ => True

def Phase.StandsIn (cs : List Char) : Phase → Prop
  | .start | .closed => True
  | .name _ text => ∀ c ∈ text.toList, isPlain c
  | .between call => call.StandsIn cs
  | .word call w inside =>
    call.StandsIn cs ∧ (∀ p ∈ w.parts, p.StandsIn cs) ∧ inside.StandsIn cs

/-- Whether all that the scanner holds stands in the text `cs` that has been read. -/
structure Scanner.StandsIn (cs : List Char) (s : Scanner) : Prop where
  position : s.position = cs.length
  clauses : s.clauses.All (·.StandsIn cs)
  groups : ∀ g ∈ s.groups, g.before.All (·.StandsIn cs)
  phase : s.phase.StandsIn cs
  comment : s.comment = true → s.Outside

theorem Word.standsIn_push {cs : List Char} {w : Word} (h : ∀ p ∈ w.parts, p.StandsIn cs) (c : Char)
    (position : Nat) : ∀ p ∈ (w.push c position).parts, p.StandsIn cs := by
  unfold push
  split
  · next text offset parts hparts =>
    intro p hp
    rcases List.mem_cons.1 hp with rfl | hp
    · trivial
    · exact h p (hparts ▸ List.mem_cons_of_mem _ hp)
  · intro p hp
    rcases List.mem_cons.1 hp with rfl | hp
    · trivial
    · exact h p hp

theorem Word.standsIn_argument {cs : List Char} {w : Word} (h : ∀ p ∈ w.parts, p.StandsIn cs) :
    ∀ p ∈ w.argument.parts, p.StandsIn cs := by
  unfold argument
  split
  · simp [Part.StandsIn]
  · simpa using h

namespace Scanner

variable {s s' : Scanner} {cs : List Char} {c : Char}

theorem StandsIn.call? (h : s.StandsIn cs) {call : Invocation} (hcall : s.call? = some call) :
    call.StandsIn cs := by
  have hphase := h.phase
  unfold Scanner.call? at hcall
  split at hcall
  · next offset name hname =>
    cases hcall
    rw [hname] at hphase
    exact ⟨hphase, by simp⟩
  · next call' hbetween =>
    cases hcall
    rw [hbetween] at hphase
    exact hphase
  · next call' word inside hword =>
    cases hcall
    rw [hword] at hphase
    obtain ⟨hcall, hparts, -⟩ := hphase
    refine ⟨hcall.name, fun a ha => ?_⟩
    rcases List.mem_append.1 ha with ha | ha
    · exact hcall.args a ha
    · rw [List.mem_singleton.1 ha]
      exact Word.standsIn_argument hparts
  · cases hcall
  · cases hcall

theorem StandsIn.settled (h : s.StandsIn cs) : s.settled.All (·.StandsIn cs) := by
  unfold Scanner.settled
  split
  · exact h.clauses
  · next call hcall => exact Chain.all_append.2 ⟨h.clauses, h.call? hcall, trivial⟩

/-! ### Steps -/

theorem standsIn_of_next {phase : Phase} (hs : s.next phase = .ok s') (hphase : phase.StandsIn cs) :
    s'.phase.StandsIn cs := by
  cases hs
  exact hphase

/-- An argument stands in a longer text, and may then have more in it. -/
theorem StandsIn.of_word (h : s.StandsIn cs) {call : Invocation} {w : Word} {inside : Inside}
    (hphase : s.phase = .word call w inside) (ds : List Char) :
    call.StandsIn (cs ++ ds) ∧ (∀ p ∈ w.parts, p.StandsIn (cs ++ ds)) ∧ inside.StandsIn cs := by
  have hword := h.phase
  rw [hphase] at hword
  obtain ⟨hcall, hparts, hinside⟩ := hword
  exact ⟨hcall.append ds, fun p hp => (hparts p hp).append ds, hinside⟩

theorem StandsIn.phase_quotedChar (h : s.StandsIn cs) {call : Invocation} {w : Word} {start : Nat}
    (hphase : s.phase = .word call w (.quoted start)) (hs : s.quotedChar call w start c = .ok s') :
    s'.phase.StandsIn (cs ++ [c]) := by
  obtain ⟨hcall, hparts, -⟩ := h.of_word hphase [c]
  unfold quotedChar at hs
  split at hs
  · exact standsIn_of_next hs ⟨hcall, hparts, trivial⟩
  · split at hs
    · exact standsIn_of_next hs ⟨hcall, hparts, trivial⟩
    · split at hs
      · next hc =>
        obtain rfl := beq_iff_eq.1 hc
        exact standsIn_of_next hs ⟨hcall, hparts, cs, by simp, h.position.symm⟩
      · exact standsIn_of_next hs ⟨hcall, Word.standsIn_push hparts c _, trivial⟩

theorem StandsIn.phase_referenceChar (h : s.StandsIn cs) {call : Invocation} {w : Word}
    {start : Nat} {name : String} {quote : Option Nat}
    (hphase : s.phase = .word call w (.reference start name quote))
    (hs : s.referenceChar call w start name quote c = .ok s') : s'.phase.StandsIn (cs ++ [c]) := by
  obtain ⟨hcall, hparts, before, hbefore, hlength⟩ := h.of_word hphase [c]
  unfold referenceChar at hs
  split at hs
  · next hc =>
    -- the reference is closed
    obtain rfl := beq_iff_eq.1 hc
    split at hs
    · cases hs
    · have hrefer : ∀ p ∈ (w.refer name start).parts, p.StandsIn (cs ++ ['}']) := by
        intro p hp
        rcases List.mem_cons.1 hp with rfl | hp
        · exact ⟨before, [], by simp [hbefore], hlength⟩
        · exact hparts p hp
      refine standsIn_of_next hs ⟨hcall, hrefer, ?_⟩
      split <;> trivial
  · split at hs
    · cases hs
    · split at hs
      · exact standsIn_of_next hs ⟨hcall, hparts, before, by simp [hbefore], hlength⟩
      · split at hs <;> cases hs

theorem StandsIn.phase_openReference (h : s.StandsIn cs) (hs : s.openReference = .ok s') :
    s'.phase.StandsIn (cs ++ ['{']) := by
  have hphase := h.phase
  unfold openReference at hs
  split at hs
  · cases hs
  · cases hs
  · cases hs
  · next call hbetween =>
    rw [hbetween] at hphase
    exact standsIn_of_next hs ⟨hphase.append _, by simp, cs, by simp, h.position.symm⟩
  · next call w inside hword =>
    obtain ⟨hcall, hparts, -⟩ := h.of_word hword ['{']
    exact standsIn_of_next hs ⟨hcall, hparts, cs, by simp, h.position.symm⟩

theorem StandsIn.phase_openQuote (h : s.StandsIn cs) (hs : s.openQuote = .ok s') :
    s'.phase.StandsIn (cs ++ ['"']) := by
  have hphase := h.phase
  unfold openQuote at hs
  split at hs
  · cases hs
  · exact standsIn_of_next hs ⟨⟨by simp, by simp⟩, by simp, trivial⟩
  · next offset name hname =>
    rw [hname] at hphase
    exact standsIn_of_next hs ⟨⟨hphase, by simp⟩, by simp, trivial⟩
  · next call hbetween =>
    rw [hbetween] at hphase
    exact standsIn_of_next hs ⟨hphase.append _, by simp, trivial⟩
  · next call w inside hword =>
    obtain ⟨hcall, hparts, -⟩ := h.of_word hword ['"']
    exact standsIn_of_next hs ⟨hcall, hparts, trivial⟩

theorem StandsIn.phase_plainChar (h : s.StandsIn cs) (hc : isPlain c)
    (hs : s.plainChar c = .ok s') :
    s'.phase.StandsIn (cs ++ [c]) := by
  have hphase := h.phase
  unfold plainChar at hs
  split at hs
  · cases hs
  · exact standsIn_of_next hs (by simpa [Phase.StandsIn] using hc)
  · next offset name hname =>
    rw [hname] at hphase
    refine standsIn_of_next hs ?_
    intro d hd
    rcases (by simpa using hd : d ∈ name.toList ∨ d = c) with hd | rfl
    · exact hphase d hd
    · exact hc
  · next call hbetween =>
    rw [hbetween] at hphase
    exact standsIn_of_next hs ⟨hphase.append _, Word.standsIn_push (by simp) c _, trivial⟩
  · next call w inside hword =>
    obtain ⟨hcall, hparts, -⟩ := h.of_word hword [c]
    exact standsIn_of_next hs ⟨hcall, Word.standsIn_push hparts c _, trivial⟩

/-- What stands in the text while the scanner is outside stands in every longer text. -/
theorem StandsIn.phase_append (h : s.StandsIn cs) (ho : s.Outside) (ds : List Char) :
    s.phase.StandsIn (cs ++ ds) := by
  have hphase := h.phase
  unfold Outside at ho
  cases hp : s.phase with
  | start | closed => trivial
  | name offset name =>
    rw [hp] at hphase
    exact hphase
  | between call =>
    rw [hp] at hphase
    exact Invocation.StandsIn.append hphase ds
  | word call w inside =>
    obtain ⟨hcall, hparts, -⟩ := h.of_word hp ds
    rw [hp] at ho
    cases inside with
    | bare => exact ⟨hcall, hparts, trivial⟩
    | _ => cases ho

theorem StandsIn.phase_blank (h : s.StandsIn cs) (ho : s.Outside) (hs : s.blank = .ok s')
    (ds : List Char) : s'.phase.StandsIn (cs ++ ds) := by
  unfold blank at hs
  split at hs
  · next call hcall => exact standsIn_of_next hs ((h.call? hcall).append ds)
  · next call hcall => exact standsIn_of_next hs ((h.call? hcall).append ds)
  · exact standsIn_of_next hs (h.phase_append ho ds)

theorem StandsIn.phase_outerChar (h : s.StandsIn cs) (ho : s.Outside)
    (hs : s.outerChar c = .ok s') :
    s'.phase.StandsIn (cs ++ [c]) := by
  rcases class_cases c with rfl | hc | ⟨l, hc⟩ | rfl | rfl | rfl | rfl | rfl | hc
  · cases hs
    exact h.phase_append ho _
  · rw [outerChar_blank hc] at hs
    exact h.phase_blank ho hs _
  · rw [outerChar_link hc] at hs
    rw [(join_eq_ok hs).2]
    trivial
  · rw [outerChar_open] at hs
    rw [(openGroup_eq_ok hs).2]
    trivial
  · rw [outerChar_close] at hs
    obtain ⟨g, gs, -, -, rfl⟩ := closeGroup_eq_ok hs
    trivial
  · rw [outerChar_quote] at hs
    exact h.phase_openQuote hs
  · rw [outerChar_brace] at hs
    exact h.phase_openReference hs
  · cases hs
  · rw [outerChar_plain hc] at hs
    exact h.phase_plainChar hc hs

theorem StandsIn.phase_step (h : s.StandsIn cs) (hs : s.step c = .ok s') :
    s'.phase.StandsIn (cs ++ [c]) := by
  by_cases hc : (s.comment && c != '\n') = true
  · obtain ⟨hcomment, hn⟩ : s.comment = true ∧ c ≠ '\n' := by simpa using hc
    rw [step_comment hcomment hn] at hs
    cases hs
    exact h.phase_append (h.comment hcomment) _
  · have hcomment : s.comment = false ∨ c = '\n' := by
      cases hs : s.comment <;> simp_all
    by_cases ho : s.Outside
    · rw [step_outside ho hcomment] at hs
      exact h.phase_outerChar ho hs
    · rw [step, if_neg hc] at hs
      cases hp : s.phase with
      | word call w inside =>
        simp only [hp] at hs
        cases inside with
        | bare => exact absurd (by simp [Outside, hp]) ho
        | quoted start => exact h.phase_quotedChar hp hs
        | escaped start backslash =>
          obtain ⟨hcall, hparts, -⟩ := h.of_word hp [c]
          exact standsIn_of_next hs ⟨hcall, Word.standsIn_push hparts c _, trivial⟩
        | reference start name quote => exact h.phase_referenceChar hp hs
      | _ => exact absurd (by simp [Outside, hp]) ho

theorem position_of_next {phase : Phase} (hs : s.next phase = .ok s') :
    s'.position = s.position + 1 := by
  cases hs
  rfl

theorem position_of_outerChar (hs : s.outerChar c = .ok s') : s'.position = s.position + 1 := by
  rcases class_cases c with rfl | hc | ⟨l, hc⟩ | rfl | rfl | rfl | rfl | rfl | hc
  · cases hs
    rfl
  · rw [outerChar_blank hc, blank] at hs
    split at hs
    all_goals exact position_of_next hs
  · rw [outerChar_link hc] at hs
    rw [(join_eq_ok hs).2]
  · rw [outerChar_open] at hs
    rw [(openGroup_eq_ok hs).2]
  · rw [outerChar_close] at hs
    obtain ⟨g, gs, -, -, rfl⟩ := closeGroup_eq_ok hs
    rfl
  · rw [outerChar_quote, openQuote] at hs
    split at hs
    all_goals first | exact position_of_next hs | cases hs
  · rw [outerChar_brace, openReference] at hs
    split at hs
    all_goals first | exact position_of_next hs | cases hs
  · cases hs
  · rw [outerChar_plain hc, plainChar] at hs
    split at hs
    all_goals first | exact position_of_next hs | cases hs

theorem position_of_step (hs : s.step c = .ok s') : s'.position = s.position + 1 := by
  unfold step at hs
  split at hs
  · cases hs
    rfl
  · split at hs
    · unfold quotedChar at hs
      repeat' split at hs
      all_goals exact position_of_next hs
    · exact position_of_next hs
    · unfold referenceChar at hs
      repeat' split at hs
      all_goals first | exact position_of_next hs | cases hs
    · exact position_of_outerChar hs

/-- What the scanner holds stands in the text that has been read. -/
theorem StandsIn.step (h : s.StandsIn cs) (hs : s.step c = .ok s') : s'.StandsIn (cs ++ [c]) := by
  have hphase := h.phase_step hs
  have hcomment := outside_of_step h.comment hs
  have hposition : s'.position = (cs ++ [c]).length := by
    rw [position_of_step hs, h.position, List.length_append, List.length_singleton]
  have hclauses : s.clauses.All (·.StandsIn (cs ++ [c])) :=
    h.clauses.mono fun _ hcall => hcall.append [c]
  have hsettled : s.settled.All (·.StandsIn (cs ++ [c])) :=
    h.settled.mono fun _ hcall => hcall.append [c]
  have hgroups : ∀ g ∈ s.groups, g.before.All (·.StandsIn (cs ++ [c])) := fun g hg =>
    (h.groups g hg).mono fun _ hcall => hcall.append [c]
  have hmoves := moves_of_step hs
  generalize s.move c = move at hmoves
  cases hmoves with
  | stay hw => exact ⟨hposition, hw.clauses ▸ hclauses, hw.groups ▸ hgroups, hphase, hcomment⟩
  | join link _ => exact ⟨hposition, hsettled, hgroups, hphase, hcomment⟩
  | enter _ =>
    refine ⟨hposition, trivial, ?_, hphase, hcomment⟩
    intro g hg
    rcases List.mem_cons.1 hg with rfl | hg
    · exact hclauses
    · exact hgroups g hg
  | leave hg _ =>
    have hbefore := hgroups _ (hg ▸ List.mem_cons_self)
    refine ⟨hposition, Chain.all_append.2 ⟨hbefore, hsettled, trivial⟩, ?_, hphase, hcomment⟩
    exact fun g' hg' => hgroups g' (hg ▸ List.mem_cons_of_mem _ hg')

theorem StandsIn.run {ds : List Char} (h : s.StandsIn cs) (hs : s.run ds = .ok s') :
    s'.StandsIn (cs ++ ds) := by
  induction ds generalizing s cs with
  | nil =>
    cases hs
    simpa using h
  | cons d ds ih =>
    rw [run_cons] at hs
    rcases hstep : s.step d with fault | s₁
    · rw [hstep] at hs
      cases hs
    · rw [hstep] at hs
      simpa using ih (h.step hstep) hs

end Scanner

/-- **References stand where their offsets say.** In a query that has been read the name of each
invocation is plain, and the offset of each reference is the place of its opening brace. -/
theorem standsIn_of_parse {source : String} {q : Query} (h : parse source = .ok q) :
    q.clauses.All (·.StandsIn source.toList) := by
  change (Scanner.run {} source.toList).bind Scanner.finish = .ok q at h
  rcases hrun : Scanner.run {} source.toList with fault | s
  · rw [hrun] at h
    cases h
  · rw [hrun] at h
    have hstart : Scanner.StandsIn [] {} := ⟨rfl, trivial, by simp, trivial, by simp⟩
    obtain ⟨-, rfl⟩ := Scanner.finish_eq_ok h
    have hs := (hstart.run hrun).settled
    rw [List.nil_append] at hs
    dsimp only
    split
    · exact ⟨⟨by simp, by simp⟩, trivial⟩
    · exact hs

end DevConsole
