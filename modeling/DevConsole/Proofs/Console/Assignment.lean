import DevConsole.Proofs.Console.Pending
import DevConsole.Proofs.Query.Literals

/-!
Assignments. The name of a variable with arguments assigns to it by a query that the console writes
itself, with the value in quotes. Main statement: whatever text the value is, this query assigns
that text to the variable, as the host does, and does nothing else.
-/

namespace DevConsole

open Grammar

/-! ### The query of an assignment -/

/-- The characters of valid names are plain. -/
theorem isPlain_of_isNameChar {c : Char} (h : Text.isNameChar c) : isPlain c := by
  have hblank : ¬ Text.isBlank c := by
    intro hc
    delta Text.isNameChar Char.isAlphanum Char.isAlpha Char.isUpper Char.isLower Char.isDigit at h
    simp only [ge_iff_le, UInt32.le_iff_toNat_le, Bool.or_eq_true, Bool.and_eq_true,
      decide_eq_true_eq, beq_iff_eq, Char.ext_iff, ← UInt32.toNat_inj] at h
    simp only [Text.isBlank, Bool.or_eq_true, Bool.and_eq_true, decide_eq_true_eq, beq_iff_eq] at hc
    change ((65 ≤ c.toNat ∧ c.toNat ≤ 90 ∨ 97 ≤ c.toNat ∧ c.toNat ≤ 122) ∨
      48 ≤ c.toNat ∧ c.toNat ≤ 57) ∨ c.toNat = 95 at h
    omega
  rcases class_cases c with rfl | hc | ⟨l, hl⟩ | rfl | rfl | rfl | rfl | rfl | hc
  · cases h
  · exact absurd hc hblank
  · rcases link_cases hl with rfl | rfl | rfl <;> cases h
  all_goals first | exact hc | cases h

theorem isPlain_of_isValidName {name : String} (h : Text.isValidName name) :
    name ≠ "" ∧ ∀ c ∈ name.toList, isPlain c := by
  obtain ⟨hne, hall⟩ := Bool.and_eq_true_iff.1 h
  refine ⟨?_, fun c hc => isPlain_of_isNameChar (List.all_eq_true.1 hall c hc)⟩
  rintro rfl
  cases hne

theorem isPlain_assign : ∀ c ∈ "assign".toList, isPlain c := List.all_eq_true.1 rfl

/-- The query of an assignment is one command, and its values are the name and the value. -/
theorem exists_parse_assignment {name : String} (hne : name ≠ "")
    (hname : ∀ c ∈ name.toList, isPlain c) (value : String) :
    ∃ offset args,
      parse (Console.assignment name value) = .ok ⟨.command .always ⟨"assign", offset, args⟩ .nil⟩ ∧
      ∀ text?, resolveAll text? args = .ok [name, value] := by
  have hwords : List.Forall₂ Spells [name, quote value] [name, value] :=
    .cons (.bare hne hname) (.cons (.quoted value) .nil)
  obtain ⟨⟨callName, offset, args⟩, ⟨rfl, -, -, hresolve⟩, hparse⟩ :=
    exists_parse_of_spells (by decide) isPlain_assign hwords
  have hsource : Console.assignment name value =
      "assign" ++ String.join ([name, quote value].map (" " ++ ·)) := by
    simp [← String.toList_inj, Console.assignment]
  exact ⟨offset, args, hsource ▸ hparse, hresolve⟩

/-! ### The handler of assignments -/

section Run

variable {κ ε : Type} {host : Host κ (Workspace κ ε)}

/-- What commands and queries work on, the output aside. -/
def Workspace.holdings (w : Workspace κ ε) :
    Store (World ε) × World ε × Aliases × Binds × Commands (Handler κ) :=
  (w.vars, w.world, w.aliases, w.binds, w.commands)

/-- The console's own handler assigns as the host does, and changes nothing else but the output. -/
theorem Workspace.runAssign_eq (w : Workspace κ ε) (name value : String) (constant : Bool) :
    let r := runAssign ⟨"assign", [name, value], constant⟩ w
    let s := w.vars.set w.world name value true
    r.1.holdings = (s.1, s.2.1, w.aliases, w.binds, w.commands) ∧
      (r.2 = .passed ↔ s.2.2.isOk) := by
  have hjoin : Call.joinFrom ⟨"assign", [name, value], constant⟩ 1 " " = value := by
    simp [Call.joinFrom, String.intercalate_singleton]
  have hrequire : Call.require ⟨"assign", [name, value], constant⟩ 0 "<variable> <value>" =
      .ok name := rfl
  have hsize : ¬ Call.size ⟨"assign", [name, value], constant⟩ < 2 := by simp [Call.size]
  simp only [runAssign, withArg, hrequire, if_neg hsize, hjoin, assign]
  rcases w.vars.set w.world name value true with ⟨vars, world, e | done⟩
  · cases e <;> simp [holdings, Ending.ofAssignError, Except.isOk, Except.toBool]
  · cases done <;> simp [holdings, Workspace.print, Except.isOk, Except.toBool]

namespace Console

variable {c : Console κ ε}

@[simp] theorem holdings_countStep : c.countStep.holdings = c.holdings := by
  unfold countStep
  dsimp only
  split <;> rfl

@[simp] theorem holdings_enter : c.enter.holdings = c.holdings := rfl

@[simp] theorem holdings_leave : c.leave.holdings = c.holdings := rfl

@[simp] theorem holdings_warnArguments (call : Invocation) :
    (c.warnArguments call).holdings = c.holdings := by
  unfold warnArguments
  split <;> rfl

@[simp] theorem holdings_close (name : String) (ending : Ending) :
    (c.close name ending).1.holdings = c.holdings := by
  unfold close
  split <;> rfl

theorem close_snd (name : String) (ending : Ending) : (c.close name ending).2 =
    match c.pending with
    | some (source, e) => .error (e.within name source)
    | none => .ok (ending ≠ .passed) := by
  unfold close
  split <;> simp_all

theorem run_ofCommand {run : Runner κ ε} (call : Invocation) :
    Query.run ⟨.command .always call .nil⟩ (visitor host run) c =
      ((c.countStep.invoke host run call).1, (c.countStep.invoke host run call).2.map (!·)) := by
  have hstop : nextStop? false [.command .always call .nil] = some (.command call [.nil]) := rfl
  rcases hcall : c.countStep.invoke host run call with ⟨c', e | failed⟩
  · rw [Query.run, walk_of_error hstop hcall]
    rfl
  · rw [Query.run, walk_of_ok hstop hcall, walk_of_none rfl]
    rfl

theorem invoke_assign (host : Host κ (Workspace κ ε)) (run : Runner κ ε)
    {command : Command (Handler κ)} (hfind : c.commands.find? "assign" = some command)
    (hhandler : command.handler = .builtin .assign) {args : List Argument} {name value : String}
    (hargs : ∀ text?, resolveAll text? args = .ok [name, value]) (offset : Nat) :
    let r := c.invoke host run ⟨"assign", offset, args⟩
    let s := c.vars.set c.world name value true
    r.1.holdings = (s.1, s.2.1, c.aliases, c.binds, c.commands) ∧
      r.2 = match c.pending with
        | some (source, e) => .error (e.within "assign" source)
        | none => .ok !s.2.2.isOk := by
  have htarget : c.target "assign" = .command (.builtin .assign) := by
    rw [target, hfind]
    exact congrArg _ hhandler
  have hinvoke : c.invoke host run ⟨"assign", offset, args⟩ =
      let r := Workspace.runAssign ⟨"assign", [name, value], allConstant args⟩ c.toWorkspace
      { c with toWorkspace := r.1 }.close "assign" r.2 := by
    rw [invoke_of_command (by simp) htarget]
    exact invokeCommand_of_act (hargs _) rfl
  obtain ⟨hholdings, hending⟩ := Workspace.runAssign_eq c.toWorkspace name value (allConstant args)
  rw [hinvoke]
  refine ⟨(holdings_close ..).trans hholdings, ?_⟩
  rw [close_snd]
  cases c.pending with
  | some pending => rfl
  | none =>
    simp only [ne_eq, hending]
    simp

/-- **An assignment assigns the text that its arguments are.** If `call` has the valid name of a
variable and arguments, then it does to the variables and to the world what setting the variable to
the values of the arguments, joined by blanks, does, and it fails if that fails; no other part of
the console but the output changes. Only an error that is pending already is taken up. -/
theorem invoke_variable_eq_set {command : Command (Handler κ)}
    (hfind : c.commands.find? "assign" = some command)
    (hhandler : command.handler = .builtin .assign) {call : Invocation}
    (hname : Text.isValidName call.name) (htarget : c.target call.name = .variable)
    (hargs : call.args ≠ []) {values : List String}
    (hvalues : resolveAll c.vars.text? call.args = .ok values) (hdepth : c.depth < c.maxDepth) :
    let r := c.invoke host (runner host) call
    let s := c.vars.set c.world call.name (" ".intercalate values) true
    r.1.vars = s.1 ∧ r.1.world = s.2.1 ∧ r.1.aliases = c.aliases ∧ r.1.binds = c.binds ∧
      r.1.commands = c.commands ∧
      r.2 = match c.pending with
        | some (source, e) => .error (e.within "assign" source)
        | none => .ok !s.2.2.isOk := by
  obtain ⟨hne, hplain⟩ := isPlain_of_isValidName hname
  obtain ⟨offset, args, hparse, hresolve⟩ :=
    exists_parse_assignment hne hplain (" ".intercalate values)
  -- the query is one command, one level deeper
  have hinvoke : c.invoke host (runner host) call =
      ((c.enter.countStep.invoke host (runner host) ⟨"assign", offset, args⟩).1.leave,
        (c.enter.countStep.invoke host (runner host) ⟨"assign", offset, args⟩).2) := by
    rw [invoke, if_neg (by simpa using hne), htarget]
    simp only [invokeVariable]
    rw [if_neg (by simpa using hargs), hvalues]
    simp only [hparse]
    rw [runner_of_lt hdepth, run_ofCommand]
    rcases c.enter.countStep.invoke host (runner host) ⟨"assign", offset, args⟩ with
      ⟨c', e | failed⟩
    · rfl
    · simp [Except.map]
  have hsame : c.enter.countStep.holdings = c.holdings := by
    rw [holdings_countStep, holdings_enter]
  have hpending : c.enter.countStep.pending = c.pending := by
    rw [pending_countStep, pending_enter]
  simp only [Workspace.holdings, Prod.mk.injEq] at hsame
  obtain ⟨hvars, hworld, haliases, hbinds, hcommands⟩ := hsame
  have hassign : c.enter.countStep.commands.find? "assign" = some command := by
    rw [hcommands, hfind]
  obtain ⟨hholdings, hanswer⟩ := invoke_assign host (runner host) hassign hhandler hresolve offset
  rw [hvars, hworld, haliases, hbinds, hcommands] at hholdings
  rw [hvars, hworld, hpending] at hanswer
  rw [hinvoke]
  rw [← holdings_leave] at hholdings
  simp only [Workspace.holdings, Prod.mk.injEq] at hholdings
  obtain ⟨hvars, hworld, haliases, hbinds, hcommands⟩ := hholdings
  exact ⟨hvars, hworld, haliases, hbinds, hcommands, hanswer⟩

def notebook : Console Unit Unit :=
  (Console.ofSettings {} ()).mapWorkspace fun w =>
    { w with
      commands := (w.commands.insert { name := "assign", handler := .builtin .assign }).2
      vars.builtins := .ofList [("note", ⟨.text, .ofDefault "note" "", false⟩),
        ("rest", ⟨.text, .ofDefault "rest" "\x7bnote\x7d\"\\; #\n(", false⟩)] }

def idleHost : Host Unit (Workspace Unit Unit) := ⟨fun _ _ => .stop .passed⟩

/-- The invocation of the text `note "a\"\{|" {rest}`. -/
def noteMarks : Invocation :=
  ⟨"note", 0, [⟨[.literal "a\"\x7b|" 6], 5⟩, ⟨[.reference "rest" 14], 14⟩]⟩

/-- A value full of what would mean something in a query. -/
theorem invoke_variable_eq_set_of_marks :
    DevConsole.parse "note \"a\\\"\\\x7b|\" \x7brest\x7d" =
        .ok ⟨.command .always noteMarks .nil⟩ ∧
      notebook.target noteMarks.name = .variable ∧ noteMarks.args ≠ [] ∧
      notebook.depth < notebook.maxDepth ∧
      (notebook.invoke idleHost (runner idleHost) noteMarks).1.vars.text? "note" =
        some "a\"\x7b| \x7bnote\x7d\"\\; #\n(" ∧
      (notebook.invoke idleHost (runner idleHost) noteMarks).2 = .ok false := by
  have htarget : notebook.target noteMarks.name = .variable := by rfl
  have hargs : noteMarks.args ≠ [] := by simp [noteMarks]
  have hvalues : resolveAll notebook.vars.text? noteMarks.args =
      .ok ["a\"\x7b|", "\x7bnote\x7d\"\\; #\n("] := by rfl
  have hdepth : notebook.depth < notebook.maxDepth := by decide
  obtain ⟨hvars, -, -, -, -, hanswer⟩ := @invoke_variable_eq_set _ _ idleHost notebook _ (by rfl)
    (by rfl) noteMarks (by rfl) htarget hargs _ hvalues hdepth
  refine ⟨by rfl, htarget, hargs, hdepth, ?_, ?_⟩
  · rw [hvars]
    rfl
  · rw [hanswer]
    rfl

end Console

end Run

end DevConsole
