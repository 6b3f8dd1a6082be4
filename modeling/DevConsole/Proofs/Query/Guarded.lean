import DevConsole.Proofs.Query.FaultSpans
import DevConsole.Proofs.Query.Linking

/-!
Reading behind guards. A fault that goes back to some place is as long as the way from there to the
position of the scanner, and the linker finds the clauses and the scopes of its table by number. The
guarded reader does what these two do, but gives up where a way would lead ahead, and where there is
no clause or no scope of a number. Main statement: it never gives up, on any source, and comes to
what the source is parsed as.
-/

namespace DevConsole

namespace Scanner

variable {s s' : Scanner} {c : Char} {cs : List Char} {e : SyntaxError}

/-! ### Guarded steps -/

/-- The number of characters that have been read from `start` on. It fails if `start` lies ahead. -/
def since? (s : Scanner) (start : Nat) : Option Nat :=
  if start ≤ s.position then some (s.position - start) else none

/-- A character of a reference. It fails if a fault would go back to a place ahead. -/
def guardedReferenceChar (s : Scanner) (call : Invocation) (word : Word) (start : Nat)
    (name : String) (quote : Option Nat) (c : Char) : Option (Except SyntaxError Scanner) :=
  if c == '}' then
    if name.isEmpty then
      (s.since? start).map fun length => .error ⟨.emptyReference, start, length + 1⟩
    else some (s.next (.word call (word.refer name start)
      (match quote with | some q => .quoted q | none => .bare)))
  else if c == '{' then some (s.refuse .nestedReference)
  else if Text.isNameChar c then
    some (s.next (.word call word (.reference start (name.push c) quote)))
  else if c == '"' && quote.isSome then
    (s.since? start).map fun length => .error ⟨.unterminatedReference, start, length⟩
  else some (s.refuse (.invalidReferenceChar c))

def guardedCloseGroup (s : Scanner) : Option (Except SyntaxError Scanner) :=
  match s.groups with
  | [] => some (s.refuse .unmatchedClose)
  | g :: _ =>
    if s.awaitsClause then
      if s.clauses.isNil then
        (s.since? g.offset).map fun length => .error ⟨.emptyGroup, g.offset, length + 1⟩
      else some (s.refuse (.commandExpected ')'))
    else some s.closeGroup

def guardedOuterChar (s : Scanner) (c : Char) : Option (Except SyntaxError Scanner) :=
  if c == ')' then s.guardedCloseGroup else some (s.outerChar c)

def guardedStep (s : Scanner) (c : Char) : Option (Except SyntaxError Scanner) :=
  if s.comment && c != '\n' then some (.ok { s with position := s.position + 1 })
  else match s.phase with
    | .word call word (.quoted start) => some (s.quotedChar call word start c)
    | .word call word (.escaped start _) =>
      some (s.next (.word call (word.push c s.position) (.quoted start)))
    | .word call word (.reference start name quote) =>
      s.guardedReferenceChar call word start name quote c
    | _ => s.guardedOuterChar c

def guardedFinish (s : Scanner) : Option (Except SyntaxError Query) :=
  match s.phase with
  | .word _ _ (.quoted start) =>
    (s.since? start).map fun length => .error ⟨.unterminatedString, start, length⟩
  | .word _ _ (.reference _ _ (some start)) =>
    (s.since? start).map fun length => .error ⟨.unterminatedString, start, length⟩
  | .word _ _ (.reference start _ none) =>
    (s.since? start).map fun length => .error ⟨.unterminatedReference, start, length⟩
  | _ => some s.finish

/-- Reads the characters `cs` and links the clauses that end. It fails if a fault would go back to a
place ahead, and if the linker fails. -/
def guardedRun (s : Scanner) (l : Linker) : List Char → Option (Except SyntaxError (List Row × Nat))
  | [] =>
    match s.guardedFinish with
    | none => none
    | some (.error e) => some (.error e)
    | some (.ok _) => (l.finish s).map .ok
  | c :: cs =>
    match s.guardedStep c with
    | none => none
    | some (.error e) => some (.error e)
    | some (.ok s') => (l.move s (s.move c)).bind (s'.guardedRun · cs)

/-! ### Guards that hold -/

theorem since?_of_le {start : Nat} (h : start ≤ s.position) :
    s.since? start = some (s.position - start) := if_pos h

theorem guardedReferenceChar_eq {start : Nat} (h : start ≤ s.position) (call : Invocation)
    (w : Word) (name : String) (quote : Option Nat) (c : Char) :
    s.guardedReferenceChar call w start name quote c =
      some (s.referenceChar call w start name quote c) := by
  unfold guardedReferenceChar referenceChar
  rw [since?_of_le h]
  split_ifs <;> rfl

theorem guardedCloseGroup_eq (h : ∀ g ∈ s.groups, g.offset ≤ s.position) :
    s.guardedCloseGroup = some s.closeGroup := by
  cases hgs : s.groups with
  | nil => simp only [guardedCloseGroup, closeGroup, hgs]
  | cons g gs =>
    have hle : g.offset ≤ s.position := h g (hgs ▸ List.mem_cons_self)
    simp only [guardedCloseGroup, closeGroup, hgs, since?_of_le hle]
    split_ifs <;> rfl

theorem guardedOuterChar_eq (h : ∀ g ∈ s.groups, g.offset ≤ s.position) (c : Char) :
    s.guardedOuterChar c = some (s.outerChar c) := by
  unfold guardedOuterChar
  split
  · next heq =>
    obtain rfl := beq_iff_eq.1 heq
    rw [guardedCloseGroup_eq h, outerChar_close]
  · rfl

/-- **No guard of a step fails.** -/
theorem PlacedIn.guardedStep_eq (hs : s.PlacedIn cs) (c : Char) :
    s.guardedStep c = some (s.step c) := by
  have houter : s.guardedOuterChar c = some (s.outerChar c) :=
    guardedOuterChar_eq (fun g hg => Nat.le_of_lt (hs.groups g hg).2.1) c
  unfold guardedStep Scanner.step
  split
  · rfl
  · cases hp : s.phase with
    | word call w inside =>
      cases inside with
      | bare => exact houter
      | quoted start => rfl
      | escaped start backslash => rfl
      | reference start name quote =>
        have hcomment : s.comment = false := hs.comment_eq_false (by simp [Outside, hp])
        obtain ⟨-, hposition, -⟩ := (hs.word hcomment hp).2.2.reference
        exact guardedReferenceChar_eq (hposition ▸ Nat.le_add_right ..) call w name quote c
    | _ => exact houter

/-- **No guard at the end fails.** -/
theorem PlacedIn.guardedFinish_eq (hs : s.PlacedIn cs) : s.guardedFinish = some s.finish := by
  by_cases ho : s.Outside
  · unfold guardedFinish
    unfold Outside at ho
    split <;> simp_all
  · have hcomment := hs.comment_eq_false ho
    unfold guardedFinish
    split
    · next call w start hp =>
      have hlt := (hs.word hcomment hp).2.2.quote_lt
      rw [since?_of_le (Nat.le_of_lt hlt), Scanner.finish, hp]
      rfl
    · next call w start name q hp =>
      obtain ⟨-, -, -, hquote⟩ := (hs.word hcomment hp).2.2.reference
      rw [since?_of_le (Nat.le_of_lt (hquote q rfl)), Scanner.finish, hp]
      rfl
    · next call w start name hp =>
      obtain ⟨-, hposition, -⟩ := (hs.word hcomment hp).2.2.reference
      have hle : start ≤ s.position := hposition ▸ Nat.le_add_right ..
      rw [since?_of_le hle, Scanner.finish, hp]
      rfl
    · rfl

/-! ### Runs -/

theorem exists_rootId_of_finish {q : Query} (h : s.finish = .ok q) :
    ∃ root, q.rootId? = some root := by
  obtain ⟨-, rfl⟩ := finish_eq_ok h
  refine Chain.exists_firstId? ?_ 0
  dsimp only
  split
  · simp
  · next hnil => exact Chain.isNil_eq_false_iff.1 (by simpa using hnil)

/-- What is left of a source, behind guards: the linker goes along, and the fault or the table is
the one that there is without guards. -/
theorem PlacedIn.guardedRun_eq (hs : s.PlacedIn cs) (hclosed : KeepsClosed s) {ds : List Char}
    (hds : ds <+: cs.drop s.position) :
    match (s.run ds).bind finish with
    | .error e => s.guardedRun s.linker ds = some (.error e)
    | .ok q => ∃ root, q.rootId? = some root ∧
      s.guardedRun s.linker ds = some (.ok (q.rows, root)) := by
  induction ds generalizing s with
  | nil =>
    simp only [guardedRun, hs.guardedFinish_eq]
    show match s.finish with | .error e => _ | .ok q => _
    cases hfinish : s.finish with
    | error e => rfl
    | ok q =>
      obtain ⟨root, hroot⟩ := exists_rootId_of_finish hfinish
      refine ⟨root, hroot, ?_⟩
      rw [finish_linker hfinish hroot]
      rfl
  | cons d ds ih =>
    obtain ⟨hd, hds⟩ := cons_prefix_drop_iff.1 hds
    simp only [guardedRun, hs.guardedStep_eq, run_cons]
    cases hstep : s.step d with
    | error e => rfl
    | ok s' =>
      have hmoves := moves_of_step hstep
      simp only [move_linker hmoves hclosed, Option.bind_some]
      exact ih (hs.step hd hstep) (keepsClosed_of_moves hmoves hclosed)
        (position_of_step hstep ▸ hds)

end Scanner

/-! ### Whole sources -/

/-- The table of a source and the number of its root, or its fault, read behind guards. -/
def guardedParse (source : String) : Option (Except SyntaxError (List Row × Nat)) :=
  Scanner.guardedRun {} {} source.toList

/-- **No guard fails.** The guarded reader never gives up. On a source that is rejected it comes to
the fault of the source, which is about one character at least and about none behind the end; on any
other it comes to the table of the query. -/
theorem guardedParse_eq (source : String) :
    match parse source with
    | .error e => guardedParse source = some (.error e) ∧
      1 ≤ e.length ∧ e.offset + e.length ≤ source.length
    | .ok q => ∃ root, q.rootId? = some root ∧
      guardedParse source = some (.ok (q.rows, root)) := by
  have hclosed : KeepsClosed {} := by simp [KeepsClosed]
  have hrun := (Scanner.placedIn_empty source.toList).guardedRun_eq hclosed (List.prefix_refl _)
  change match parse source with | .error e => _ | .ok q => _ at hrun
  cases hparse : parse source with
  | error e =>
    rw [hparse] at hrun
    have he := pointsInto_of_parse hparse
    exact ⟨hrun, he.length_pos, he.end_le⟩
  | ok q =>
    rw [hparse] at hrun
    exact hrun

/-- A group that is not closed, behind two clauses that are linked in their scopes. -/
example : guardedParse "a & (b; c" = some (.error ⟨.unclosedGroup, 4, 1⟩) := by rfl

end DevConsole
