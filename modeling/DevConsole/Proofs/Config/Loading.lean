import DevConsole.Proofs.Config.Restoring

/-!
What a configuration gives to a console. Main statement: if no listener panics, loading a file
gives each variable the value that the file has for it, as far as the variable takes it, and brings
the aliases and the bindings of the file.
-/

namespace DevConsole

variable {κ ε ω : Type}

/-! ### What a configuration gives to variables -/

namespace Entry

/-- The variable after a text has been assigned to it, if it is not locked and takes the text. -/
def given (e : Entry) (text : String) : Entry :=
  match e.flags.lock?, e.assign text with
  | none, .ok (some changed) => changed
  | _, _ => e

end Entry

theorem Store.set_given {s : Store ω} (hcalm : s.Calm) (name raw : String) (w : ω) :
    ∃ s' w' answer, s.set w name raw false = (s', w', answer) ∧
      (∀ p, answer ≠ .error (.panicked p)) ∧ s'.listeners = s.listeners ∧ s'.hook = s.hook ∧
      ∀ other, s'.find? other =
        if other = name then (s.find? other).map (·.given raw) else s.find? other := by
  have hunchanged : (∀ e, s.find? name = some e → e.given raw = e) → ∀ other, s.find? other =
      if other = name then (s.find? other).map (·.given raw) else s.find? other := by
    intro hgiven other
    split
    · next heq =>
      subst heq
      rcases hfind : s.find? other with _ | e
      · rfl
      · rw [Option.map_some, hgiven e hfind]
    · rfl
  unfold set
  split
  · next hfind =>
    exact ⟨s, w, _, rfl, by simp, rfl, rfl, hunchanged fun e he => by cases hfind.symm.trans he⟩
  · next e hfind =>
    have honly : ∀ e', s.find? name = some e' → e' = e := fun e' he' =>
      Option.some.inj (he'.symm.trans hfind)
    split
    · next lock hlock =>
      refine ⟨s, w, _, rfl, by simp, rfl, rfl, hunchanged fun e' he' => ?_⟩
      rw [honly e' he', Entry.given, hlock]
    · next hlock =>
      split
      · next reason hassign =>
        refine ⟨s, w, _, rfl, by simp, rfl, rfl, hunchanged fun e' he' => ?_⟩
        rw [honly e' he', Entry.given, hlock, hassign]
      · next hassign =>
        refine ⟨s, w, _, rfl, by simp, rfl, rfl, hunchanged fun e' he' => ?_⟩
        rw [honly e' he', Entry.given, hlock, hassign]
      · next changed hassign =>
        have hgiven : e.given raw = changed := by rw [Entry.given, hlock, hassign]
        rw [commit_of_calm hcalm]
        refine ⟨_, _, _, rfl, by simp, listeners_replace _, hook_replace _, fun other => ?_⟩
        change (s.replace name changed).find? other = _
        rw [find?_replace, ← hgiven]
        split
        · next heq =>
          subst heq
          rw [hfind]
          rfl
        · rfl

namespace Snapshot

/-- The variable with the value that the configuration has for it, if there is one. -/
def give (s : Snapshot) (name : String) (e : Entry) : Entry :=
  ((s.values.find? name).map e.given).getD e

def aliasesOver (s : Snapshot) (as : Aliases) : Aliases :=
  ⟨(s.aliases.entries.filter fun e => Text.isValidPairedName e.1).foldl
    (fun m e => m.insert e.1 e.2) as.byName⟩

def bindsOver (s : Snapshot) (bs : Binds) : Binds :=
  BindsOp.runAll (s.binds.entries.map fun e => .bind e.1 e.2) bs

/-- The configuration in a file; there is nothing in it if the file is missing or cannot be read. -/
def inFile (files : Files) (path : String) : Snapshot :=
  if files.exists? path then (load files path).toOption.getD {} else {}

end Snapshot

namespace Workspace

variable {w w' : Workspace κ ε}

/-- Whether the workspace `w'` is `w` with a configuration loaded into it. -/
structure Loads (s : Snapshot) (w w' : Workspace κ ε) : Prop where
  vars : ∀ name, w'.vars.find? name = (w.vars.find? name).map (s.give name)
  listeners : w'.vars.listeners = w.vars.listeners
  hook : w'.vars.hook = w.vars.hook
  commands : w'.commands = w.commands
  aliases : w'.aliases = s.aliasesOver w.aliases
  binds : w'.binds = s.bindsOver w.binds

theorem applyValues_given {es : List (String × String)} (hes : es.Pairwise fun a b => a.1 < b.1)
    (hcalm : w.vars.Calm) (applied : Nat) :
    ∃ s v n, w.applyValues applied es = ({ w with vars := s, world := v }, .ok n) ∧
      s.listeners = w.vars.listeners ∧ s.hook = w.vars.hook ∧
      ∀ name, s.find? name =
        (w.vars.find? name).map fun e => ((es.lookup name).map e.given).getD e := by
  induction es generalizing w applied with
  | nil => exact ⟨w.vars, w.world, applied, rfl, rfl, rfl, fun name => by simp⟩
  | cons entry es ih =>
    obtain ⟨key, text⟩ := entry
    obtain ⟨hlt, hrest⟩ := List.pairwise_cons.1 hes
    obtain ⟨s, v, answer, hset, hends, hlisteners, hhook, hfind⟩ :=
      Store.set_given hcalm key text w.world
    have hassign : w.assign key text false = ({ w with vars := s, world := v }, answer) := by
      rw [assign, hset]
    have hcalm' : s.Calm := by
      rw [Store.Calm, hlisteners]
      exact hcalm
    have hgoOn : ∃ applied', w.applyValues applied ((key, text) :: es) =
        { w with vars := s, world := v }.applyValues applied' es := by
      simp only [applyValues, hassign]
      rcases answer with (reason | p) | assigned
      · exact ⟨applied, rfl⟩
      · exact absurd rfl (hends p)
      · exact ⟨applied + 1, rfl⟩
    obtain ⟨applied', hgoOn⟩ := hgoOn
    obtain ⟨s', v', n, happly, hlisteners', hhook', hfind'⟩ :=
      ih (w := { w with vars := s, world := v }) hrest hcalm' applied'
    refine ⟨s', v', n, hgoOn.trans happly, hlisteners'.trans hlisteners, hhook'.trans hhook,
      fun name => ?_⟩
    rw [hfind' name, hfind name, List.lookup_cons]
    by_cases hname : name = key
    · subst hname
      have hnone : es.lookup name = none := by
        rcases hlookup : es.lookup name with _ | value
        · rfl
        · exact absurd (hlt _ (NameMap.mem_of_lookup_eq_some hlookup)) (String.lt_irrefl _)
      simp [hnone, Function.comp_def]
    · have hother : (name == key) = false := by simpa using hname
      simp [hname, hother]

theorem loads_apply (hcalm : w.vars.Calm) (s : Snapshot) : Loads s w (w.apply s).1 := by
  obtain ⟨vars, v, n, hvalues, hlisteners, hhook, hfind⟩ :=
    applyValues_given s.values.sorted hcalm 0
  have happly : (w.apply s).1 = { w with
      vars, world := v, aliases := s.aliasesOver w.aliases, binds := s.bindsOver w.binds } := by
    simp only [apply, hvalues, foldl_applyAlias_eq, foldl_applyBind_eq]
    rfl
  rw [happly]
  exact ⟨hfind, hlisteners, hhook, rfl, rfl, rfl⟩

theorem Loads.empty : Loads {} w w where
  vars := fun _ => Option.map_id'.symm
  listeners := rfl
  hook := rfl
  commands := rfl
  aliases := rfl
  binds := rfl

/-- **Loading a file gives what the file has**, if no listener panics. -/
theorem loads_load (hcalm : w.vars.Calm) (path : String) :
    Loads (.inFile w.world.files path) w (w.load path).1 := by
  unfold load Snapshot.inFile
  by_cases hexists : w.world.files.exists? path = true
  · simp only [hexists, Bool.not_true, Bool.false_eq_true, if_false, if_true]
    rcases Snapshot.load w.world.files path with e | s
    · exact .empty
    · have hloads := loads_apply hcalm s
      dsimp only [Except.toOption, Option.getD]
      rcases happly : w.apply s with ⟨w', p | applied⟩
      all_goals
        rw [happly] at hloads
        exact hloads
  · simp only [Bool.not_eq_true] at hexists
    simp only [hexists, Bool.not_false, if_true, Bool.false_eq_true, if_false]
    exact .empty

/-- Whether the workspace has the aliases and the bindings of a configuration: those aliases that
may be there, and the bindings if all of their keys are in small letters, as they are saved. -/
structure HasEdits (s : Snapshot) (w : Workspace κ ε) : Prop where
  aliases : ∀ name body, s.aliases.find? name = some body →
    Text.isValidPairedName name = true → w.aliases.find? name = some body
  binds : (∀ key query, s.binds.find? key = some query → Binds.keyName key = key) →
    ∀ key query, s.binds.find? key = some query → w.binds.queryFor? key = some query

theorem Loads.hasEdits {s : Snapshot} (h : Loads s w w') : w'.HasEdits s where
  aliases := by
    intro name body hfind hname
    rw [h.aliases, Aliases.find?, Snapshot.aliasesOver]
    have hsorted : (s.aliases.entries.filter fun e => Text.isValidPairedName e.1).Pairwise
        fun a b => a.1 < b.1 := s.aliases.sorted.filter _
    rw [NameMap.find?_foldl_insert hsorted, NameMap.lookup_filter, if_pos hname]
    rw [NameMap.find?] at hfind
    rw [hfind, Option.some_or]
  binds := by
    intro hsmall key query hfind
    have hkeys : ∀ e ∈ s.binds.entries, Binds.keyName e.1 = e.1 := fun e he =>
      hsmall e.1 e.2 ((NameMap.mem_entries_iff _).1 he)
    rw [h.binds, Binds.queryFor?, Snapshot.bindsOver, BindsOp.byKey_runAll hkeys,
      hsmall key query hfind, NameMap.find?_foldl_insert s.binds.sorted]
    rw [NameMap.find?] at hfind
    rw [hfind, Option.some_or]

end Workspace

end DevConsole
