import DevConsole.Proofs.Console.Listings
import DevConsole.Proofs.Query.Literals
import DevConsole.Proofs.Variable.Bounds
import DevConsole.Proofs.Variable.History

/-!
What a toggle prints. The command assigns a text to a variable and prints this text, whatever value
it has been taken for. Main statement: it prints what the variable shows afterwards if the variable
shows the text as it is spelled, and it keeps no change if the value is equal to the one before.
-/

namespace DevConsole

/-! ### Texts that are taken for values -/

namespace Variable

variable {k : Kind} {v : Variable k}

/-- The value that a text is taken for, within the bounds. -/
def taken (v : Variable k) (text : String) : Except CastError k.Value :=
  (v.cast text).map fun value => (v.store value).value

/-- Whether the variable shows the text as it is spelled once it has been assigned: the value has
just this text, and the variable does not keep an equal one with another text. -/
def Shows (v : Variable k) (text : String) : Prop :=
  ∃ value, v.taken text = .ok value ∧ k.format value = text ∧
    (k.same value v.value = true → k.format v.value = text)

end Variable

/-! ### Assignments that come to their end -/

namespace Store

variable {ω : Type} {s s' : Store ω} {name raw : String} {e : Entry} {value : e.kind.Value}

theorem set_of_taken (hfind : s.find? name = some e) (hlock : e.flags.lock? = none)
    (htaken : e.var.taken raw = .ok value) (w : ω) (through : Bool) :
    s.set w name raw through =
      if e.kind.same value e.var.value then (s, w, .ok .unchanged)
      else s.commit w name e.text (e.withValue value) through := by
  rcases hcast : e.var.cast raw with reason | cast
  · simp only [Variable.taken, hcast] at htaken
    cases htaken
  · simp only [Variable.taken, hcast] at htaken
    obtain rfl := Except.ok.inj htaken
    simp only [set, hfind, hlock, Entry.assign_eq, hcast]
    split <;> split <;> simp_all

theorem find?_commit (hfind : s.find? name = some e) (after : Entry) (w : ω) (old : String)
    (through : Bool) : (s.commit w name old after through).1.find? name = some after := by
  obtain ⟨changes, hcommit⟩ := s.exists_commit_fst w name old after through
  rw [hcommit]
  show (s.replace name after).find? name = some after
  rw [find?_replace, if_pos rfl, hfind, Option.map_some]

theorem listeners_commit (after : Entry) (w : ω) (old : String) (through : Bool) :
    (s.commit w name old after through).1.listeners = s.listeners := by
  obtain ⟨changes, hcommit⟩ := s.exists_commit_fst w name old after through
  rw [hcommit]
  exact listeners_replace after

/-- An assignment that comes to its end has taken the text for a value. The variable has this value
now, unless it had an equal one. -/
theorem set_eq_ok {w w' : ω} {through : Bool} {done : Assigned} (hfind : s.find? name = some e)
    (h : s.set w name raw through = (s', w', .ok done)) : ∃ value, e.var.taken raw = .ok value ∧
      (e.kind.same value e.var.value = true ∧ s' = s ∨
        e.kind.same value e.var.value = false ∧ s'.find? name = some (e.withValue value)) := by
  rcases hlock : e.flags.lock? with _ | lock
  · rcases hcast : e.var.cast raw with reason | cast
    · simp [set, hfind, hlock, Entry.assign_eq, hcast] at h
    · have htaken : e.var.taken raw = .ok (e.var.store cast).value := by
        rw [Variable.taken, hcast]
        rfl
      refine ⟨_, htaken, ?_⟩
      rw [set_of_taken hfind hlock htaken] at h
      split at h
      · next hsame => exact .inl ⟨hsame, (Prod.mk.inj h).1.symm⟩
      · next hsame =>
        refine .inr ⟨Bool.eq_false_iff.2 hsame, ?_⟩
        rw [← find?_commit hfind _ w e.text through, h]
  · simp [set, hfind, hlock] at h

theorem shows_of_set {w w' : ω} {through : Bool} {done : Assigned} (hfind : s.find? name = some e)
    (h : s.set w name raw through = (s', w', .ok done)) :
    ∃ value, s'.find? name = some (e.withValue value) ∧
      (e.var.Shows raw → (e.withValue value).text = raw) ∧
      (e.kind.isExact → (e.withValue value).text = raw → e.var.Shows raw) ∧
      (e.kind.same value e.var.value = true → s'.changes = s.changes) := by
  obtain ⟨value, htaken, ⟨hsame, rfl⟩ | ⟨hsame, hfind'⟩⟩ := set_eq_ok hfind h
  · refine ⟨e.var.value, hfind, ?_, ?_, fun _ => rfl⟩
    · rintro ⟨_, htaken', -, hkept⟩
      obtain rfl := Except.ok.inj (htaken.symm.trans htaken')
      exact hkept hsame
    · intro hk htext
      refine ⟨value, htaken, ?_, fun _ => htext⟩
      rw [(Kind.same_iff_eq hk).1 hsame]
      exact htext
  · refine ⟨value, hfind', ?_, ?_, ?_⟩
    · rintro ⟨_, htaken', htext, -⟩
      obtain rfl := Except.ok.inj (htaken.symm.trans htaken')
      exact htext
    · intro _ htext
      exact ⟨value, htaken, htext, fun h => by cases h.symm.trans hsame⟩
    · intro h
      cases h.symm.trans hsame

end Store

/-! ### The handler -/

/-- What a variable is toggled to, given some texts or none. -/
def Entry.next? (e : Entry) (texts : List String) : Option String :=
  if texts = [] then Workspace.toggled? e else some (Workspace.nextValue texts e.text)

namespace Workspace

variable {κ ε : Type} {w w' : Workspace κ ε} {call : Call} {name next : String}
variable {texts : List String} {e : Entry}

theorem runToggle_of_next (hargs : call.args = name :: texts) (hfind : w.vars.find? name = some e)
    (hnext : e.next? texts = some next) :
    runToggle call w = match w.assign name next true with
      | (w, .ok _) => (w.print .info (name ++ " = \"" ++ next ++ "\""), .passed)
      | (w, .error e) => (w, .ofAssignError e) := by
  have hrequire : call.require 0 "<variable> [value...]" = .ok name := by
    simp [Call.require, Call.get?, hargs]
  have hchoice : (if 1 < call.size then some (nextValue (call.args.drop 1) e.text)
      else toggled? e) = some next := by
    rw [← hnext, Entry.next?]
    cases texts <;> simp [Call.size, hargs]
  rcases hassign : w.assign name next true with ⟨w', reason | done⟩
  · simp only [runToggle, withArg, hrequire, hfind, hchoice, hassign]
  · simp only [runToggle, withArg, hrequire, hfind, hchoice, hassign]

/-- A toggle that passes has found a variable and what to toggle it to. -/
theorem exists_next_of_passed (h : (runToggle call w).2 = .passed) : ∃ name texts e next,
    call.args = name :: texts ∧ w.vars.find? name = some e ∧ e.next? texts = some next := by
  rcases hargs : call.args with _ | ⟨name, texts⟩
  · simp [runToggle, withArg, Call.require, Call.get?, hargs, refuse] at h
  rcases hfind : w.vars.find? name with _ | e
  · simp [runToggle, withArg, Call.require, Call.get?, hargs, refuse, hfind] at h
  rcases hnext : e.next? texts with _ | next
  · obtain rfl : texts = [] := by
      by_contra hne
      simp [Entry.next?, hne] at hnext
    have htoggled : toggled? e = none := by simpa [Entry.next?] using hnext
    simp [runToggle, withArg, Call.require, Call.get?, Call.size, hargs, refuse, hfind,
      htoggled] at h
  · exact ⟨name, texts, e, next, rfl, hfind, hnext⟩

/-- A toggle that passes has assigned the text that it prints. -/
theorem runToggle_eq_passed (h : runToggle call w = (w', .passed)) : ∃ name texts e next vars world
    done, call.args = name :: texts ∧ w.vars.find? name = some e ∧ e.next? texts = some next ∧
      w.vars.set w.world name next true = (vars, world, .ok done) ∧
      w' = { w with vars, world }.print .info (name ++ " = \"" ++ next ++ "\"") := by
  obtain ⟨name, texts, e, next, hargs, hfind, hnext⟩ :=
    exists_next_of_passed (congrArg Prod.snd h)
  rw [runToggle_of_next hargs hfind hnext] at h
  rcases hset : w.vars.set w.world name next true with ⟨vars, world, reason | done⟩
  · simp only [assign, hset] at h
    cases reason <;> cases h
  · simp only [assign, hset] at h
    exact ⟨name, texts, e, next, vars, world, done, hargs, hfind, hnext, hset,
      (Prod.mk.inj h).1.symm⟩

end Workspace

/-! ### What a toggle prints -/

/-- A text is shown as it is spelled if it is the text of a value within the bounds. -/
theorem Variable.shows_format {k : Kind} {v : Variable k} (hk : k.isExact) (hcast : v.cast = k.cast)
    {value : k.Value} (h : v.Admits value) : v.Shows (k.format value) := by
  refine ⟨value, ?_, rfl, fun hsame => ?_⟩
  · rw [taken, hcast, Kind.cast_format hk]
    exact congrArg Except.ok (Kind.clamp_eq_self h)
  · rw [(Kind.same_iff_eq hk).1 hsame]

/-- Without texts, a variable is toggled to the text of a value. -/
theorem exists_value_of_toggled {e : Entry} {next : String}
    (h : Workspace.toggled? e = some next) :
    e.kind.isExact = true ∧ ∃ value, e.kind.format value = next := by
  obtain ⟨k, v, user⟩ := e
  cases k with
  | bool => exact ⟨rfl, !v.value, Option.some.inj h⟩
  | int32 =>
    refine ⟨rfl, if v.value == 0 then (1 : Int32) else (0 : Int32), ?_⟩
    rw [← Option.some.inj h]
    split <;> rfl
  | int64 =>
    refine ⟨rfl, if v.value == 0 then (1 : Int64) else (0 : Int64), ?_⟩
    rw [← Option.some.inj h]
    split <;> rfl
  | float32 | float64 | text => cases h

namespace Console

variable {κ ε : Type} {host : Host κ (Workspace κ ε)} {run : Runner κ ε} {c c' : Console κ ε}
variable {call : Invocation}

theorem close_eq_ok_false {name : String} {ending : Ending}
    (h : c.close name ending = (c', .ok false)) : ending = .passed ∧ c' = c := by
  unfold close at h
  split at h
  · cases h
  · exact ⟨rfl, (Prod.mk.inj h).1.symm⟩
  · cases h
  · cases h

theorem invoke_toggle {args : List String} (hname : call.name ≠ "")
    (htarget : c.target call.name = .command (.builtin .toggle))
    (hargs : resolveAll c.vars.text? call.args = .ok args) :
    c.invoke host run call =
      let r := Workspace.runToggle ⟨call.name, args, allConstant call.args⟩ c.toWorkspace
      { c with toWorkspace := r.1 }.close call.name r.2 := by
  rw [invoke_of_command hname htarget]
  exact invokeCommand_of_act hargs rfl

/-- **What a toggle prints.** If the invocation of a toggle passes, then it has printed one line,
which tells the text that it has assigned to a variable. This is the text that the variable has
afterwards if the variable shows it as it is spelled, and, but for numbers that are not whole, only
then. Without texts to choose from, this is so if the variable takes texts as its kind does and has
no bounds that matter. No change is kept if the value is equal to the one before. -/
theorem prints_toggled (hname : call.name ≠ "")
    (htarget : c.target call.name = .command (.builtin .toggle))
    (hrun : c.invoke host run call = (c', .ok false)) : ∃ name texts e value next,
      resolveAll c.vars.text? call.args = .ok (name :: texts) ∧
      c.vars.find? name = some e ∧ e.next? texts = some next ∧
      c'.vars.find? name = some (e.withValue value) ∧
      c'.output = pushBounded c.capacity c.output ⟨.info, name ++ " = \"" ++ next ++ "\""⟩ ∧
      (e.var.Shows next → c'.vars.text? name = some next) ∧
      (e.kind.isExact → c'.vars.text? name = some next → e.var.Shows next) ∧
      (texts = [] → e.var.cast = e.kind.cast → (∀ value, e.var.Admits value) →
        c'.vars.text? name = some next) ∧
      (e.kind.same value e.var.value = true → c'.vars.changes = c.vars.changes) := by
  rcases hresolve : resolveAll c.vars.text? call.args with r | args
  · rw [invoke_of_command hname htarget] at hrun
    simp [invokeCommand, hresolve] at hrun
  rw [invoke_toggle hname htarget hresolve] at hrun
  obtain ⟨hpassed, hc'⟩ := close_eq_ok_false hrun
  obtain ⟨name, texts, e, next, vars, world, done, rfl, hfind, hnext, hset, hw⟩ :=
    Workspace.runToggle_eq_passed (Prod.ext rfl hpassed)
  obtain ⟨value, hfind', hshows, hshown, hchanges⟩ := Store.shows_of_set hfind hset
  have hworkspace := (congrArg Console.toWorkspace hc').trans hw
  rw [hworkspace]
  have htext : vars.text? name = some (e.withValue value).text := by
    rw [Store.text?, hfind', Option.map_some]
  have hprinted : e.var.Shows next → vars.text? name = some next := fun h =>
    htext.trans (congrArg some (hshows h))
  refine ⟨name, texts, e, value, next, rfl, hfind, hnext, hfind', rfl, hprinted, fun hk h => ?_,
    fun hnone hcast hadmits => hprinted ?_, hchanges⟩
  · exact hshown hk (Option.some.inj (htext.symm.trans h))
  · obtain ⟨hk, value, rfl⟩ := exists_value_of_toggled (by rwa [Entry.next?, if_pos hnone] at hnext)
    exact Variable.shows_format hk hcast (hadmits value)

def fovConsole : Console Empty Unit :=
  (Console.ofSettings {} ()).installCore.mapWorkspace fun w =>
    let fov : Variable .int32 :=
      ((Variable.ofDefault "cl_fov" (90 : Int32)).withLeast (60 : Int32)).withGreatest (120 : Int32)
    { w with vars := { builtins := NameMap.empty.insert "cl_fov" ⟨.int32, fov, false⟩ } }

def toggling (args : List String) : Invocation := ⟨"toggle", 0, args.map literalArgument⟩

theorem passes_toggling (args : List String) : (toggling args).Passes "toggle" args :=
  Invocation.passes_of_unplaced (by
    simp [toggling, Invocation.unplaced, Argument.unplaced, Part.unplaced, literalArgument])

/-- A toggle to a number between the bounds. -/
theorem prints_toggled_fovConsole :
    let c' := (fovConsole.invoke .idle (runner .idle) (toggling ["cl_fov", "90", "110"])).1
    c'.vars.text? "cl_fov" = some "110" ∧ c'.output = [⟨.info, "cl_fov = \"110\""⟩] := by
  have hanswer : (fovConsole.invoke .idle (runner .idle)
      (toggling ["cl_fov", "90", "110"])).2 = .ok false := by rfl
  obtain ⟨name, texts, e, value, next, hargs, hfind, hnext, -, houtput, hshows, -⟩ :=
    prints_toggled (by decide) (by rfl) (Prod.ext rfl hanswer)
  obtain ⟨rfl, rfl⟩ := List.cons.inj (Except.ok.inj (hargs.symm.trans (by rfl)))
  obtain rfl := Option.some.inj (hfind.symm.trans (by rfl))
  obtain rfl : "110" = next := Option.some.inj (Eq.trans (by rfl) hnext)
  exact ⟨hshows ⟨(110 : Int32), by rfl, by rfl, by decide⟩, houtput⟩

/-- Whether every toggle that passes prints the text that the variable has afterwards. -/
def PrintsWhatIsShown (host : Host κ (Workspace κ ε)) (c : Console κ ε) : Prop :=
  ∀ (call : Invocation) (c' : Console κ ε), call.name ≠ "" →
    c.target call.name = .command (.builtin .toggle) →
    c.invoke host (runner host) call = (c', .ok false) → ∃ name texts text,
      resolveAll c.vars.text? call.args = .ok (name :: texts) ∧
      c'.vars.text? name = some text ∧
      c'.output = pushBounded c.capacity c.output ⟨.info, name ++ " = \"" ++ text ++ "\""⟩

/-- A number beyond the upper bound is printed, though the variable has come to the bound. -/
theorem not_printsWhatIsShown_fovConsole : ¬ PrintsWhatIsShown .idle fovConsole := by
  intro h
  have hanswer : (fovConsole.invoke .idle (runner .idle)
      (toggling ["cl_fov", "90", "200"])).2 = .ok false := by rfl
  obtain ⟨name, texts, text, hargs, htext, houtput⟩ := h _ _ (by decide) (by rfl)
    (Prod.ext rfl hanswer)
  obtain ⟨rfl, rfl⟩ := List.cons.inj (Except.ok.inj (hargs.symm.trans (by rfl)))
  obtain rfl : "120" = text := Option.some.inj (Eq.trans (by rfl) htext)
  revert houtput
  decide +kernel

end Console

end DevConsole
