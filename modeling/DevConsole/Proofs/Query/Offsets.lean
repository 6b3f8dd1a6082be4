import DevConsole.Proofs.Query.References

/-!
The offsets of clauses. A clause begins where its first character stands, and a group where its
parenthesis does. Main statement: in a query that has been read, clauses that begin later have
greater offsets.
-/

namespace DevConsole

/-! ### The order in which clauses begin -/

/-- The offsets of the clauses, in the order in which the clauses begin. -/
def Chain.offsets : Chain → List Nat
  | .nil => []
  | .command _ call rest => call.offset :: rest.offsets
  | .group _ offset body rest => offset :: (body.offsets ++ rest.offsets)

@[simp] theorem Chain.offsets_append (c d : Chain) : (c ++ d).offsets = c.offsets ++ d.offsets := by
  induction c with
  | nil => rfl
  | command link call rest ih => simp [offsets, ih]
  | group link offset body rest _ ih => simp [offsets, ih]

/-- The offsets of open groups, and of the clauses before them. -/
def offsetsBefore : List OpenGroup → List Nat
  | [] => []
  | g :: gs => offsetsBefore gs ++ g.before.offsets ++ [g.offset]

def Phase.offset? : Phase → Option Nat
  | .start | .closed => none
  | .name offset _ => some offset
  | .between call | .word call _ _ => some call.offset

namespace Scanner

variable {s s' : Scanner} {c : Char}

/-- The offsets of the clauses that have begun, in the order in which they began. -/
def offsets (s : Scanner) : List Nat := offsetsBefore s.groups ++ s.settled.offsets

theorem map_offset_call? (s : Scanner) : s.call?.map Invocation.offset = s.phase.offset? := by
  obtain ⟨p, gs, cl, l, phase, comment⟩ := s
  cases phase <;> rfl

theorem offsets_settled (s : Scanner) :
    s.settled.offsets = s.clauses.offsets ++ s.phase.offset?.toList := by
  rw [← map_offset_call?, settled]
  cases s.call? <;> simp [Chain.offsets]

/-! ### Single steps -/

/-- Whether the clause at hand begins where it did, or has only begun. -/
def KeepsOffset (s s' : Scanner) : Prop :=
  s'.phase.offset? = s.phase.offset? ∨
    s.phase.offset? = none ∧ s'.phase.offset? = some s.position

theorem keepsOffset_of_next {phase : Phase} (hs : s.next phase = .ok s')
    (h : phase.offset? = s.phase.offset? ∨
      s.phase.offset? = none ∧ phase.offset? = some s.position) : KeepsOffset s s' := by
  cases hs
  exact h

theorem keepsOffset_of_outerChar (hw : Within s s') (hs : s.outerChar c = .ok s') :
    KeepsOffset s s' := by
  have hstart : s'.phase = .start ∨ s'.phase = .closed → KeepsOffset s s' :=
    fun h => .inl (by rw [hw.phase h])
  rcases Grammar.class_cases c with rfl | hc | ⟨l, hc⟩ | rfl | rfl | rfl | rfl | rfl | hc
  · cases hs
    exact .inl rfl
  · rw [outerChar_blank hc, blank] at hs
    split at hs
    · next hcall => exact keepsOffset_of_next hs (.inl (by rw [← map_offset_call?, hcall]; rfl))
    · next hcall => exact keepsOffset_of_next hs (.inl (by rw [← map_offset_call?, hcall]; rfl))
    · exact keepsOffset_of_next hs (.inl rfl)
  · rw [outerChar_link hc] at hs
    exact hstart (.inl (by rw [(join_eq_ok hs).2]))
  · rw [outerChar_open] at hs
    exact hstart (.inl (by rw [(openGroup_eq_ok hs).2]))
  · rw [outerChar_close] at hs
    obtain ⟨g, gs, -, -, rfl⟩ := closeGroup_eq_ok hs
    exact hstart (.inr rfl)
  · rw [outerChar_quote, openQuote] at hs
    split at hs
    · cases hs
    all_goals next hp => exact keepsOffset_of_next hs (by simp [hp, Phase.offset?])
  · rw [outerChar_brace, openReference] at hs
    split at hs
    · cases hs
    · cases hs
    · cases hs
    all_goals next hp => exact keepsOffset_of_next hs (by simp [hp, Phase.offset?])
  · cases hs
  · rw [outerChar_plain hc, plainChar] at hs
    split at hs
    · cases hs
    all_goals next hp => exact keepsOffset_of_next hs (by simp [hp, Phase.offset?])

/-- A step within a clause changes the place where it begins only by beginning it. -/
theorem keepsOffset_of_step (hw : Within s s') (hs : s.step c = .ok s') : KeepsOffset s s' := by
  unfold step at hs
  split at hs
  · cases hs
    exact .inl rfl
  · split at hs
    · next hp =>
      unfold quotedChar at hs
      repeat' split at hs
      all_goals exact keepsOffset_of_next hs (by simp [hp, Phase.offset?])
    · next hp => exact keepsOffset_of_next hs (by simp [hp, Phase.offset?])
    · next hp =>
      unfold referenceChar at hs
      repeat' split at hs
      all_goals first | exact keepsOffset_of_next hs (by simp [hp, Phase.offset?]) | cases hs
    · exact keepsOffset_of_outerChar hw hs

theorem clauses_eq_settled (h : s.phase.offset? = none) : s.settled = s.clauses := by
  rw [← map_offset_call?, Option.map_eq_none_iff] at h
  rw [settled, h]

/-- **One step begins one clause at most**, at the character at hand. -/
theorem offsets_of_step (hs : s.step c = .ok s') :
    s'.offsets = s.offsets ∨ s'.offsets = s.offsets ++ [s.position] := by
  have hmoves := moves_of_step hs
  generalize s.move c = m at hmoves
  cases hmoves with
  | stay hw =>
    rw [offsets, offsets, offsets_settled, offsets_settled, hw.groups, hw.clauses]
    rcases keepsOffset_of_step hw hs with hkeeps | ⟨hnone, hbegins⟩
    · rw [hkeeps]
      exact .inl rfl
    · rw [hnone, hbegins]
      exact .inr (by simp)
  | join link _ => exact .inl rfl
  | enter hawaits =>
    have hphase : s.phase = .start := by simpa [awaitsClause] using hawaits
    have hsettled : s.settled = s.clauses := clauses_eq_settled (by rw [hphase]; rfl)
    rw [offsets, offsets, hsettled]
    exact .inr (List.append_nil _)
  | @leave g gs hgs _ =>
    left
    rw [offsets, offsets, hgs]
    show offsetsBefore gs ++ (g.before ++ Chain.group _ g.offset s.settled .nil).offsets = _
    simp [Chain.offsets, offsetsBefore]

/-! ### Whole sources -/

/-- Whether clauses that began later have greater offsets, all of them offsets of characters that
have been read. -/
def InOrder (s : Scanner) : Prop := (s.offsets ++ [s.position]).Pairwise (· < ·)

theorem InOrder.step (h : s.InOrder) (hs : s.step c = .ok s') : s'.InOrder := by
  have hposition := position_of_step hs
  unfold InOrder at h ⊢
  rw [hposition]
  have hpairwise := List.pairwise_append.1 h
  rcases offsets_of_step hs with hoffsets | hoffsets
  · rw [hoffsets]
    refine List.pairwise_append.2 ⟨hpairwise.1, by simp, fun a ha b hb => ?_⟩
    have := hpairwise.2.2 a ha s.position List.mem_cons_self
    simp only [List.mem_singleton] at hb
    omega
  · rw [hoffsets]
    refine List.pairwise_append.2 ⟨h, by simp, fun a ha b hb => ?_⟩
    simp only [List.mem_singleton] at hb
    rcases List.mem_append.1 ha with ha | ha
    · have := hpairwise.2.2 a ha s.position List.mem_cons_self
      omega
    · simp only [List.mem_singleton] at ha
      omega

theorem InOrder.run {cs : List Char} (h : s.InOrder) (hs : s.run cs = .ok s') : s'.InOrder :=
  run_induction InOrder.step h hs

end Scanner

/-- **Clauses that begin later have greater offsets.** -/
theorem pairwise_offsets_of_parse {source : String} {q : Query} (h : parse source = .ok q) :
    q.clauses.offsets.Pairwise (· < ·) := by
  change (Scanner.run {} source.toList).bind Scanner.finish = .ok q at h
  rcases hrun : Scanner.run {} source.toList with e | s
  · rw [hrun] at h
    cases h
  · rw [hrun] at h
    have hstart : Scanner.InOrder {} := by simp [Scanner.InOrder, Scanner.offsets, offsetsBefore,
      Scanner.settled, Scanner.call?, Chain.offsets]
    obtain ⟨hgs, rfl⟩ := Scanner.finish_eq_ok h
    have hs := (List.pairwise_append.1 (hstart.run hrun)).1
    rw [Scanner.offsets, hgs] at hs
    dsimp only
    split
    · simp [Chain.offsets]
    · exact hs

end DevConsole
