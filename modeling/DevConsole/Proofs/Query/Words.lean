import DevConsole.Proofs.Query.Steps
import DevConsole.Proofs.Query.Unplaced

/-!
Words as the scanner reads them: piece by piece, from the name or the argument it is in. What it
holds of an argument is, up to offsets, the parts of the atoms read so far.
-/

namespace DevConsole

open Grammar

/-! ### The argument at hand -/

/-- The parts of the word in order, with all offsets zero. -/
def Word.unplaced (w : Word) : List Part := w.parts.reverse.map Part.unplaced

@[simp] theorem Word.unplaced_mk_nil (offset : Nat) : Word.unplaced ⟨offset, []⟩ = [] := rfl

theorem Word.unplaced_push (w : Word) (c : Char) (position : Nat) :
    (w.push c position).unplaced = addAtom w.unplaced (.char c) := by
  obtain ⟨offset, parts⟩ := w
  rcases parts with _ | ⟨⟨text, o⟩ | ⟨name, o⟩, ps⟩ <;>
    simp [Word.push, Word.unplaced, addAtom, Part.unplaced]

theorem Word.unplaced_refer (w : Word) (name : String) (offset : Nat) :
    (w.refer name offset).unplaced = addAtom w.unplaced (.reference name.toList) := by
  simp [Word.refer, Word.unplaced, addAtom, Part.unplaced]

theorem Word.unplaced_argument (w : Word) :
    w.argument.unplaced = ⟨if w.unplaced = [] then [.literal "" 0] else w.unplaced, 0⟩ := by
  obtain ⟨offset, parts⟩ := w
  cases parts <;> simp [Word.argument, Argument.unplaced, Word.unplaced, Part.unplaced]

/-- A word that holds the atoms of the pieces makes the argument of the pieces. -/
theorem Word.unplaced_argument_of {w : Word} {pieces : List Piece}
    (h : w.unplaced = partsOf (pieces.flatMap Piece.atoms)) :
    w.argument.unplaced = argumentOf pieces := by
  rw [Word.unplaced_argument, h]
  rfl

/-! ### Pieces -/

namespace Scanner

section Pieces

variable {gs : List OpenGroup} {cl : Chain} {l : Link} {call : Invocation}

theorem run_referenceChars {name : List Char} (h : ∀ c ∈ name, Text.isNameChar c) (p : Nat)
    (w : Word) (start : Nat) (read : String) (quote : Option Nat) (rest : List Char) :
    run ⟨p, gs, cl, l, .word call w (.reference start read quote), false⟩ (name ++ rest) =
      run ⟨p + name.length, gs, cl, l,
        .word call w (.reference start (read ++ String.ofList name) quote), false⟩ rest := by
  induction name generalizing p read with
  | nil => simp
  | cons c name ih =>
    have hc : Text.isNameChar c := h c (by simp)
    have h₁ : c ≠ '}' := by rintro rfl; cases hc
    have h₂ : c ≠ '{' := by rintro rfl; cases hc
    have hs : read ++ String.ofList (c :: name) = read.push c ++ String.ofList name := by
      rw [← String.toList_inj]; simp
    rw [hs, List.length_cons, ← Nat.add_assoc, Nat.add_right_comm,
      ← ih (fun d hd => h d (List.mem_cons_of_mem _ hd))]
    simp [step, referenceChar, next, Except.bind, hc, h₁, h₂]

/-- A reference is read from its opening brace to its closing one. -/
theorem run_reference {name : List Char} (h : Text.isPlainName name) (p : Nat) (w : Word)
    (start : Nat) (quote : Option Nat) (rest : List Char) :
    ∃ p' w', run ⟨p, gs, cl, l, .word call w (.reference start "" quote), false⟩
        (name ++ '}' :: rest) =
      run ⟨p', gs, cl, l,
        .word call w' (match quote with | some q => .quoted q | none => .bare), false⟩ rest ∧
      w'.unplaced = addAtom w.unplaced (.reference name) := by
  simp only [Text.isPlainName, Bool.and_eq_true, Bool.not_eq_true', List.isEmpty_eq_false_iff,
    List.all_eq_true] at h
  refine ⟨p + name.length + 1, w.refer (String.ofList name) start, ?_, ?_⟩
  · rw [run_referenceChars h.2]
    cases quote <;> simp [step, referenceChar, next, Except.bind, h.1]
  · rw [Word.unplaced_refer, String.toList_ofList]

theorem run_item {i : Item} (h : i.Valid) (p : Nat) (w : Word) (q : Nat) (rest : List Char) :
    ∃ p' w', run ⟨p, gs, cl, l, .word call w (.quoted q), false⟩ (i.chars ++ rest) =
        run ⟨p', gs, cl, l, .word call w' (.quoted q), false⟩ rest ∧
      w'.unplaced = addAtom w.unplaced i.atom := by
  cases i with
  | plain c =>
    obtain ⟨h₁, h₂, h₃⟩ := h
    refine ⟨p + 1, w.push c p, ?_, Word.unplaced_push ..⟩
    simp [Item.chars, step, quotedChar, next, Except.bind, h₁, h₂, h₃]
  | escaped c =>
    refine ⟨p + 2, w.push c (p + 1), ?_, Word.unplaced_push ..⟩
    simp [Item.chars, step, quotedChar, next, Except.bind]
  | reference name =>
    obtain ⟨p', w', hrun, hw⟩ := run_reference h (p + 1) w p (some q) rest
    refine ⟨p', w', ?_, hw⟩
    rw [← hrun]
    simp [Item.chars, referenceChars, step, quotedChar, next, Except.bind]

theorem run_items {items : List Item} (h : ∀ i ∈ items, i.Valid) (p : Nat) (w : Word) (q : Nat)
    (rest : List Char) :
    ∃ p' w', run ⟨p, gs, cl, l, .word call w (.quoted q), false⟩
        (items.flatMap Item.chars ++ rest) =
        run ⟨p', gs, cl, l, .word call w' (.quoted q), false⟩ rest ∧
      w'.unplaced = (items.map Item.atom).foldl addAtom w.unplaced := by
  induction items generalizing p w with
  | nil => exact ⟨p, w, rfl, rfl⟩
  | cons i items ih =>
    obtain ⟨p₁, w₁, hrun₁, hw₁⟩ := run_item (h i (by simp)) p w q (items.flatMap Item.chars ++ rest)
    obtain ⟨p₂, w₂, hrun₂, hw₂⟩ := ih (fun j hj => h j (List.mem_cons_of_mem _ hj)) p₁ w₁
    refine ⟨p₂, w₂, ?_, ?_⟩
    · rw [List.flatMap_cons, List.append_assoc, hrun₁, hrun₂]
    · rw [hw₂, hw₁, List.map_cons, List.foldl_cons]

theorem run_piece {piece : Piece} (h : piece.Valid) (p : Nat) (w : Word) (rest : List Char) :
    ∃ p' w', run ⟨p, gs, cl, l, .word call w .bare, false⟩ (piece.chars ++ rest) =
        run ⟨p', gs, cl, l, .word call w' .bare, false⟩ rest ∧
      w'.unplaced = piece.atoms.foldl addAtom w.unplaced := by
  cases piece with
  | plain c =>
    refine ⟨p + 1, w.push c p, ?_, Word.unplaced_push ..⟩
    have hstep : step ⟨p, gs, cl, l, .word call w .bare, false⟩ c =
        .ok ⟨p + 1, gs, cl, l, .word call (w.push c p) .bare, false⟩ := by
      rw [step_outside (s := ⟨p, gs, cl, l, .word call w .bare, false⟩) trivial (.inl rfl),
        outerChar_plain h]
      rfl
    simp [Piece.chars, hstep, Except.bind]
  | quoted items =>
    obtain ⟨p', w', hrun, hw⟩ := run_items h (p + 1) w p ('"' :: rest)
    refine ⟨p' + 1, w', ?_, hw⟩
    have hstep : step ⟨p, gs, cl, l, .word call w .bare, false⟩ '"' =
        .ok ⟨p + 1, gs, cl, l, .word call w (.quoted p), false⟩ := rfl
    simp only [Piece.chars, List.cons_append, List.append_assoc, run_cons, hstep, Except.bind]
    rw [List.nil_append, hrun]
    rfl
  | reference name =>
    obtain ⟨p', w', hrun, hw⟩ := run_reference h (p + 1) w p none rest
    refine ⟨p', w', ?_, hw⟩
    have hstep : step ⟨p, gs, cl, l, .word call w .bare, false⟩ '{' =
        .ok ⟨p + 1, gs, cl, l, .word call w (.reference p "" none), false⟩ := rfl
    rw [← hrun]
    simp [Piece.chars, referenceChars, hstep, Except.bind]

theorem run_pieces {pieces : List Piece} (h : ∀ p ∈ pieces, p.Valid) (p : Nat) (w : Word)
    (rest : List Char) :
    ∃ p' w', run ⟨p, gs, cl, l, .word call w .bare, false⟩
        (pieces.flatMap Piece.chars ++ rest) =
        run ⟨p', gs, cl, l, .word call w' .bare, false⟩ rest ∧
      w'.unplaced = (pieces.flatMap Piece.atoms).foldl addAtom w.unplaced := by
  induction pieces generalizing p w with
  | nil => exact ⟨p, w, rfl, rfl⟩
  | cons piece pieces ih =>
    obtain ⟨p₁, w₁, hrun₁, hw₁⟩ :=
      run_piece (h piece (by simp)) p w (pieces.flatMap Piece.chars ++ rest)
    obtain ⟨p₂, w₂, hrun₂, hw₂⟩ := ih (fun d hd => h d (List.mem_cons_of_mem _ hd)) p₁ w₁
    refine ⟨p₂, w₂, ?_, ?_⟩
    · rw [List.flatMap_cons, List.append_assoc, hrun₁, hrun₂]
    · rw [hw₂, hw₁, List.flatMap_cons, List.foldl_append]

end Pieces

end Scanner

end DevConsole
