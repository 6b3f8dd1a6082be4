import DevConsole.Config.Saved
import DevConsole.Proofs.Console.Dealings
import DevConsole.Proofs.Console.Locked

/-!
What is saved is restored. Main statement: what a console would save makes another one, on which the
same variables are registered, hold the same saved variables, aliases and bindings; the hook is not
told of it, and loading it once more changes nothing.
-/

namespace DevConsole

variable {κ ε ω : Type} {vars : NameMap Entry}

/-! ### What a snapshot holds -/

theorem Workspace.find?_values_of_upholds {w : Workspace κ ε} (h : w.vars.Upholds vars)
    (name : String) : w.snapshot.values.find? name =
      ((w.vars.find? name).filter (·.flags.archive)).map Entry.text := by
  have huser : (w.vars.user.find? name).filter (·.flags.archive) = none := by
    rw [Option.filter_eq_none_iff]
    intro e hfind
    simp [h.user name e hfind]
  rw [find?_values, huser, Option.none_or, Store.find?]
  rcases w.vars.builtins.find? name with _ | e
  · rw [Option.none_or, huser]
    rfl
  · rw [Option.some_or]

/-! ### Assigning texts of values -/

theorem Entry.withValue_injective {e : Entry} {value value' : e.kind.Value}
    (h : e.withValue value = e.withValue value') : value = value' := by
  simpa [value?, withValue] using congrArg (·.value? e.kind) h

namespace Store

variable {s s' s'' t : Store ω} {w w' w'' : ω} {name : String} {e : Entry}

/-- Assigning the text of a value gives the variable this value. -/
theorem set_text {value former : e.kind.Value} (hcalm : s.Calm)
    (hfind : s.find? name = some (e.withValue former)) (hportable : e.Portable)
    (hwithin : e.var.Admits value) (hlock : e.flags.isLocked = true → value = former) (w : ω) :
    ∃ s' w' answer, s.set w name (e.withValue value).text false = (s', w', answer) ∧
      (∀ p, answer ≠ .error (.panicked p)) ∧
      (value = former ∧ s' = s ∧ w' = w ∨
        value ≠ former ∧ s'.listeners = s.listeners ∧ ∀ other, s'.find? other =
          if other = name then some (e.withValue value) else s.find? other) := by
  let a : Assignment := .set name (e.withValue value).text false
  change ∃ s' w' answer, a.run s w = (s', w', answer) ∧ _
  rcases hfree : e.flags.lock? with _ | lock
  · have hcast : e.var.cast (e.kind.format value) = .ok value := by
      rw [hportable.cast]
      exact Kind.cast_format hportable.exact value
    have hasked : a.value? (e.withValue former) = .ok value := by
      have hclamp := Kind.clamp_eq_self hwithin
      change (e.var.cast (e.kind.format value)).map
        (fun value => e.kind.clamp e.var.least e.var.greatest value) = .ok value
      rw [hcast, Except.map, hclamp]
    have hasks : a.Asks s (e.withValue former) value := ⟨hfind, hfree, hasked⟩
    rcases hasks.run_eq w with ⟨hsame, hrun⟩ | ⟨hother, hrun⟩
    · exact ⟨s, w, _, hrun, by simp, .inl ⟨hsame hportable.exact, rfl, rfl⟩⟩
    · rw [commit_of_calm hcalm] at hrun
      refine ⟨_, _, _, hrun, by simp, .inr ⟨hother hportable.exact, listeners_replace _, ?_⟩⟩
      intro other
      change (s.replace name (e.withValue value)).find? other = _
      rw [find?_replace]
      split
      · next heq => simp [heq, hfind]
      · rfl
  · have hlocked : e.flags.isLocked = true := by simp [Flags.isLocked, hfree]
    exact ⟨s, w, _, Assignment.run_of_lock (e := e.withValue former) hfind hfree w, by simp,
      .inl ⟨hlock hlocked, rfl, rfl⟩⟩

/-- Whether a store has come to hold what `t` holds under some names, and nothing else has changed
but the changes that are kept. -/
structure Takes (t : Store ω) (names : List String) (s : Store ω) (w : ω) (s' : Store ω) (w' : ω) :
    Prop where
  found : ∀ name ∈ names, s'.find? name = t.find? name
  others : ∀ name ∉ names, s'.find? name = s.find? name
  listeners : s'.listeners = s.listeners
  same : (∀ name ∈ names, s.find? name = t.find? name) → s' = s ∧ w' = w

namespace Takes

theorem nil : Takes t [] s w s w where
  found := fun _ h => by cases h
  others := fun _ _ => rfl
  listeners := rfl
  same := fun _ => ⟨rfl, rfl⟩

theorem cons {names : List String} (h : Takes t [name] s w s' w')
    (h' : Takes t names s' w' s'' w'') : Takes t (name :: names) s w s'' w'' where
  found := by
    intro other hother
    by_cases hmem : other ∈ names
    · exact h'.found other hmem
    · rw [h'.others other hmem]
      rcases List.mem_cons.1 hother with rfl | hother
      · exact h.found other List.mem_cons_self
      · exact absurd hother hmem
  others := by
    intro other hother
    rw [List.mem_cons, not_or] at hother
    rw [h'.others other hother.2, h.others other (by simpa using hother.1)]
  listeners := h'.listeners.trans h.listeners
  same := by
    intro hsame
    obtain ⟨rfl, rfl⟩ := h.same fun other hother =>
      hsame other (by rw [List.mem_singleton.1 hother]; exact List.mem_cons_self)
    exact h'.same fun other hother => hsame other (List.mem_cons_of_mem _ hother)

/-- The text of a variable that is saved in one store makes another one hold this variable. -/
theorem set_text (hvars : Registered vars) (ht : t.Upholds vars) (hs : s.Upholds vars)
    (hcalm : s.Calm) (hfind : t.find? name = some e) (harchive : e.flags.archive = true) (w : ω) :
    ∃ s' w' answer, s.set w name e.text false = (s', w', answer) ∧
      (∀ p, answer ≠ .error (.panicked p)) ∧ Takes t [name] s w s' w' := by
  obtain ⟨e₀, value, hfind₀, rfl, hreaches⟩ := ht.exists_saved hfind harchive
  obtain ⟨former, hformer, hreached⟩ := hs.find?_of_registered hfind₀
  have hlock : e₀.flags.isLocked = true → value = former := fun hlocked =>
    (hreaches.locked hlocked).trans (hreached.locked hlocked).symm
  obtain ⟨s', w', answer, hset, hends, hdone⟩ := Store.set_text hcalm hformer
    (hvars.portable name e₀ hfind₀ harchive) (hreaches.within harchive) hlock w
  refine ⟨s', w', answer, hset, hends, ?_⟩
  rcases hdone with ⟨rfl, rfl, rfl⟩ | ⟨hne, hlisteners, hreplaced⟩
  · exact {
      found := by simp [hfind, hformer]
      others := fun _ _ => rfl
      listeners := rfl
      same := fun _ => ⟨rfl, rfl⟩ }
  · exact {
      found := by simp [hreplaced, hfind]
      others := fun other hother => by rw [hreplaced, if_neg (by simpa using hother)]
      listeners := hlisteners
      same := by
        intro hsame
        have heq := hsame name List.mem_cons_self
        rw [hformer, hfind] at heq
        exact absurd (Entry.withValue_injective (Option.some.inj heq)).symm hne }

end Takes

end Store

/-! ### Loading -/

/-- Bindings that have been bound again, of keys in small letters, are kept under these keys. -/
theorem BindsOp.byKey_runAll {es : List (String × String)}
    (hes : ∀ e ∈ es, Binds.keyName e.1 = e.1) (bs : Binds) :
    (runAll (es.map fun e => .bind e.1 e.2) bs).byKey =
      es.foldl (fun m e => m.insert e.1 e.2) bs.byKey := by
  induction es generalizing bs with
  | nil => rfl
  | cons e es ih =>
    obtain ⟨hkey, hes⟩ := List.forall_mem_cons.1 hes
    have hbyKey : (bs.bind e.1 e.2).2.byKey = bs.byKey.insert e.1 e.2 := by
      refine NameMap.eq_of_find?_eq fun other => ?_
      rw [Binds.byKey_bind, NameMap.find?_insert, hkey]
    rw [List.foldl_cons, ← hbyKey]
    exact ih hes _

namespace Workspace

variable {u w : Workspace κ ε} {t : Store (World ε)}

theorem applyValues_takes (hvars : Registered vars) (ht : t.Upholds vars)
    {es : List (String × String)}
    (hes : ∀ entry ∈ es, ∃ e, t.find? entry.1 = some e ∧ e.flags.archive = true ∧
      e.text = entry.2)
    (hw : w.vars.Upholds vars) (hcalm : w.vars.Calm) (applied : Nat) :
    ∃ s v n, w.applyValues applied es = ({ w with vars := s, world := v }, .ok n) ∧
      s.Upholds vars ∧ Store.Takes t (es.map (·.1)) w.vars w.world s v := by
  induction es generalizing w applied with
  | nil => exact ⟨w.vars, w.world, applied, rfl, hw, .nil⟩
  | cons entry es ih =>
    obtain ⟨name, text⟩ := entry
    obtain ⟨⟨e, hfind, harchive, rfl⟩, hrest⟩ := List.forall_mem_cons.1 hes
    obtain ⟨s, v, answer, hset, hends, htakes⟩ :=
      Store.Takes.set_text hvars ht hw hcalm hfind harchive w.world
    have hassign : w.assign name e.text false = ({ w with vars := s, world := v }, answer) := by
      rw [assign, hset]
    have hs : s.Upholds vars := by
      have hkept := hw.assign hvars w.world (.set name e.text false)
      rwa [Assignment.run, hset] at hkept
    have hcalm' : s.Calm := by
      rw [Store.Calm, htakes.listeners]
      exact hcalm
    have hgoOn : ∃ applied', w.applyValues applied ((name, e.text) :: es) =
        { w with vars := s, world := v }.applyValues applied' es := by
      simp only [applyValues, hassign]
      rcases answer with (reason | p) | assigned
      · exact ⟨applied, rfl⟩
      · exact absurd rfl (hends p)
      · exact ⟨applied + 1, rfl⟩
    obtain ⟨applied', hgoOn⟩ := hgoOn
    obtain ⟨s', v', n, happly, hs', htakes'⟩ :=
      ih (w := { w with vars := s, world := v }) hrest hs hcalm' applied'
    exact ⟨s', v', n, hgoOn.trans happly, hs', htakes.cons htakes'⟩

/-- Aliases with names that aliases may have are loaded, and no others. -/
theorem foldl_applyAlias_eq (es : List (String × String)) (w : Workspace κ ε) (n : Nat) :
    es.foldl applyAlias (w, n) =
      ({ w with aliases := ⟨(es.filter fun e => Text.isValidPairedName e.1).foldl
          (fun m e => m.insert e.1 e.2) w.aliases.byName⟩ },
        n + (es.filter fun e => Text.isValidPairedName e.1).length) := by
  induction es generalizing w n with
  | nil => rfl
  | cons e es ih =>
    rw [List.foldl_cons, List.filter_cons]
    by_cases hname : Text.isValidPairedName e.1 = true
    · have hstep : applyAlias (w, n) e =
          ({ w with aliases := ⟨w.aliases.byName.insert e.1 e.2⟩ }, n + 1) := by
        simp only [applyAlias, Aliases.set, hname, if_true]
      rw [hstep, ih, if_pos hname, List.foldl_cons, List.length_cons, Nat.add_right_comm]
      rfl
    · have hstep : applyAlias (w, n) e = (w, n) := by
        simp only [applyAlias, Aliases.set, hname, Bool.false_eq_true, if_false]
      rw [hstep, ih, if_neg hname]

/-- Loading all of some aliases gives just these, if there were no others. -/
theorem foldl_applyAlias {as : Aliases} (has : as.Valid)
    (hsub : ∀ name body, w.aliases.find? name = some body → as.find? name = some body) (n : Nat) :
    as.byName.entries.foldl applyAlias (w, n) = ({ w with aliases := as }, n + as.byName.size) := by
  have hall : (as.byName.entries.filter fun e => Text.isValidPairedName e.1) =
      as.byName.entries :=
    List.filter_eq_self.2 fun e he => has e.1 e.2 ((NameMap.mem_entries_iff _).1 he)
  rw [foldl_applyAlias_eq, hall, NameMap.foldl_insert_entries hsub]
  rfl

/-- Bindings are loaded by binding all keys again. -/
theorem foldl_applyBind_eq (es : List (String × String)) (w : Workspace κ ε) (n : Nat) :
    es.foldl applyBind (w, n) =
      ({ w with binds := BindsOp.runAll (es.map fun e => .bind e.1 e.2) w.binds },
        n + es.length) := by
  induction es generalizing w n with
  | nil => rfl
  | cons e es ih =>
    rw [List.foldl_cons, applyBind, ih, List.length_cons, Nat.add_right_comm]
    rfl

theorem foldl_applyBind {bs : Binds} (hbs : bs.Mirrored) (hw : w.binds.Mirrored)
    (hsub : ∀ key query, w.binds.byKey.find? key = some query →
      bs.byKey.find? key = some query) (n : Nat) :
    bs.byKey.entries.foldl applyBind (w, n) = ({ w with binds := bs }, n + bs.byKey.size) := by
  have hbound : BindsOp.runAll (bs.byKey.entries.map fun e => .bind e.1 e.2) w.binds = bs := by
    refine (BindsOp.mirrored_runAll hw _).eq_of_byKey_eq hbs ?_
    rw [BindsOp.byKey_runAll fun e he => hbs.small e.1 e.2 ((NameMap.mem_entries_iff _).1 he),
      NameMap.foldl_insert_entries hsub]
  rw [foldl_applyBind_eq, hbound]
  rfl

/-- Loading what `u` would save gives the saved variables, the aliases and the bindings of `u`. -/
theorem apply_snapshot (hvars : Registered vars) (hu : u.Upholds vars) (hw : w.vars.Upholds vars)
    (hcalm : w.vars.Calm)
    (haliases : ∀ name body, w.aliases.find? name = some body → u.aliases.find? name = some body)
    (hmirrored : w.binds.Mirrored)
    (hbinds : ∀ key query, w.binds.byKey.find? key = some query →
      u.binds.byKey.find? key = some query) :
    ∃ s v n, w.apply u.snapshot =
        ({ w with vars := s, world := v, aliases := u.aliases, binds := u.binds }, .ok n) ∧
      s.Upholds vars ∧ Store.Takes u.vars u.snapshot.values.names w.vars w.world s v := by
  have hes : ∀ entry ∈ u.snapshot.values.entries, ∃ e, u.vars.find? entry.1 = some e ∧
      e.flags.archive = true ∧ e.text = entry.2 := by
    rintro ⟨name, text⟩ hmem
    rw [NameMap.mem_entries_iff, find?_values_of_upholds hu.vars, Option.map_eq_some_iff] at hmem
    obtain ⟨e, hsaved, htext⟩ := hmem
    obtain ⟨hfind, harchive⟩ := Option.filter_eq_some_iff.1 hsaved
    exact ⟨e, hfind, harchive, htext⟩
  obtain ⟨s, v, n, hvalues, hs, htakes⟩ := applyValues_takes hvars hu.vars hes hw hcalm 0
  refine ⟨s, v, n + u.aliases.byName.size + u.binds.byKey.size, ?_, hs, htakes⟩
  have halias := foldl_applyAlias (w := { w with vars := s, world := v }) hu.aliases haliases n
  have hbind := foldl_applyBind (w := { w with vars := s, world := v, aliases := u.aliases })
    hu.binds hmirrored hbinds (n + u.aliases.byName.size)
  rw [apply, hvalues]
  dsimp only [snapshot]
  rw [halias, hbind]

end Workspace

/-! ### The hook -/

section Hook

variable (hook : SaveHook (World ε))

theorem Store.commit_withHook (s : Store (World ε)) (v : World ε) (name old : String) (e : Entry) :
    (s.withHook hook).commit v name old e false =
      ((s.commit v name old e false).1.withHook hook, (s.commit v name old e false).2) := by
  have hreplace : (s.withHook hook).replace name e = (s.replace name e).withHook hook := by
    unfold replace withHook
    dsimp only
    split <;> rfl
  unfold commit
  rw [hreplace]
  dsimp only [withHook]
  split <;> rfl

theorem Store.set_withHook (s : Store (World ε)) (v : World ε) (name raw : String) :
    (s.withHook hook).set v name raw false =
      ((s.set v name raw false).1.withHook hook, (s.set v name raw false).2) := by
  have hfind : (s.withHook hook).find? name = s.find? name := rfl
  unfold set
  rw [hfind]
  rcases s.find? name with _ | e
  · rfl
  · dsimp only
    split
    · rfl
    · split
      · rfl
      · rfl
      · exact commit_withHook ..

namespace Workspace

def withHook (w : Workspace κ ε) : Workspace κ ε := { w with vars := w.vars.withHook hook }

theorem applyValues_withHook (es : List (String × String)) (w : Workspace κ ε) (applied : Nat) :
    (w.withHook hook).applyValues applied es =
      ((w.applyValues applied es).1.withHook hook, (w.applyValues applied es).2) := by
  induction es generalizing w applied with
  | nil => rfl
  | cons entry es ih =>
    obtain ⟨name, text⟩ := entry
    have hassign : (w.withHook hook).assign name text false =
        ((w.assign name text false).1.withHook hook, (w.assign name text false).2) := by
      simp only [assign, withHook, Store.set_withHook]
    simp only [applyValues, hassign]
    rcases w.assign name text false with ⟨w', (reason | p) | assigned⟩
    · exact ih w' applied
    · rfl
    · exact ih w' (applied + 1)

theorem foldl_withHook {f : Workspace κ ε × Nat → String × String → Workspace κ ε × Nat}
    (hf : ∀ w n e, f (withHook hook w, n) e = ((f (w, n) e).1.withHook hook, (f (w, n) e).2))
    (es : List (String × String)) (w : Workspace κ ε) (n : Nat) :
    es.foldl f (w.withHook hook, n) =
      ((es.foldl f (w, n)).1.withHook hook, (es.foldl f (w, n)).2) := by
  induction es generalizing w n with
  | nil => rfl
  | cons e es ih => rw [List.foldl_cons, hf, ih, List.foldl_cons]

/-- The hook is not told of what is loaded: it does not matter which one there is. -/
theorem apply_withHook (w : Workspace κ ε) (c : Snapshot) :
    (w.withHook hook).apply c = ((w.apply c).1.withHook hook, (w.apply c).2) := by
  have halias : ∀ (w : Workspace κ ε) n e, applyAlias (w.withHook hook, n) e =
      ((applyAlias (w, n) e).1.withHook hook, (applyAlias (w, n) e).2) := by
    intro w n e
    unfold applyAlias
    dsimp only [withHook]
    split <;> rfl
  have hbind : ∀ (w : Workspace κ ε) n e, applyBind (w.withHook hook, n) e =
      ((applyBind (w, n) e).1.withHook hook, (applyBind (w, n) e).2) := fun _ _ _ => rfl
  simp only [apply, applyValues_withHook]
  rcases w.applyValues 0 c.values.entries with ⟨w', p | applied⟩
  · rfl
  · dsimp only
    rw [foldl_withHook hook halias, foldl_withHook hook hbind]

end Workspace

end Hook

/-! ### Restoring -/

namespace Workspace

/-- Whether loading what `u` would save makes `w` into `w'`, which holds all that is saved of `u`
and is otherwise like `w`; `applied` entries are applied. -/
structure Restores (u w w' : Workspace κ ε) (applied : Nat) : Prop where
  loaded : w.apply u.snapshot = (w', .ok applied)
  saved : ∀ name e, u.vars.find? name = some e → e.flags.archive = true →
    w'.vars.find? name = some e
  others : ∀ name, (∀ e, u.vars.find? name = some e → e.flags.archive = false) →
    w'.vars.find? name = w.vars.find? name
  aliases : w'.aliases = u.aliases
  binds : w'.binds = u.binds
  snapshot : w'.snapshot = u.snapshot
  /-- The hook is not told of it: with any other one the same happens. -/
  silent : ∀ hook, (w.withHook hook).apply u.snapshot = (w'.withHook hook, .ok applied)
  /-- Loading it once more changes nothing. -/
  again : ∃ applied', w'.apply u.snapshot = (w', .ok applied')

/-- Whether the workspace is as a host sets it up: with the variables that it has registered and
without aliases and bindings. Users' variables are not saved. -/
structure SetUp (vars : NameMap Entry) (w : Workspace κ ε) : Prop where
  builtins : w.vars.builtins = vars
  user : ∀ name e, w.vars.user.find? name = some e → e.flags.archive = false
  aliases : w.aliases = {}
  binds : w.binds = {}

variable {u w w' : Workspace κ ε}

theorem SetUp.upholds (hvars : Registered vars) (h : w.SetUp vars) (hcommands : w.OnlyBuiltins) :
    w.Upholds vars where
  commands := hcommands
  vars := .of_registered hvars h.builtins h.user
  aliases := by rw [h.aliases]; exact Aliases.valid_empty
  binds := by rw [h.binds]; exact .empty

theorem mem_names_snapshot (hu : u.vars.Upholds vars) {name : String} :
    name ∈ u.snapshot.values.names ↔
      ∃ e, u.vars.find? name = some e ∧ e.flags.archive = true := by
  rw [← NameMap.contains_iff_mem, NameMap.contains_iff_exists, find?_values_of_upholds hu]
  simp [Option.filter_eq_some_iff]

/-- Two workspaces that hold the same variables that are saved, the same aliases and the same
bindings would save the same. -/
theorem snapshot_eq (hu : u.vars.Upholds vars) (hw : w.vars.Upholds vars)
    (hsaved : ∀ name e, u.vars.find? name = some e → e.flags.archive = true →
      w.vars.find? name = some e)
    (haliases : w.aliases = u.aliases) (hbinds : w.binds = u.binds) :
    w.snapshot = u.snapshot := by
  have hvalues : w.snapshot.values = u.snapshot.values := by
    refine NameMap.eq_of_find?_eq fun name => ?_
    rw [find?_values_of_upholds hw, find?_values_of_upholds hu]
    congr 1
    refine Option.ext fun e => ?_
    rw [Option.filter_eq_some_iff, Option.filter_eq_some_iff]
    constructor
    · rintro ⟨hfind, harchive⟩
      obtain ⟨e₀, value, hfind₀, rfl, -⟩ := hw.exists_saved hfind harchive
      obtain ⟨value', hfind', -⟩ := hu.find?_of_registered hfind₀
      have heq := Option.some.inj (hfind.symm.trans (hsaved name _ hfind' harchive))
      exact ⟨heq ▸ hfind', harchive⟩
    · rintro ⟨hfind, harchive⟩
      exact ⟨hsaved name e hfind harchive, harchive⟩
  simp only [Snapshot.mk.injEq, snapshot, haliases, hbinds, and_true]
  exact hvalues

/-- A workspace that has just been set up takes over all that another one would save. -/
theorem SetUp.restores (hvars : Registered vars) (hu : u.Upholds vars) (hw : w.SetUp vars)
    (hcalm : w.vars.Calm) : ∃ w' n, u.Restores w w' n := by
  have hheld : w.vars.Upholds vars := .of_registered hvars hw.builtins hw.user
  obtain ⟨s, v, n, happly, hs, htakes⟩ := apply_snapshot hvars hu hheld hcalm
    (by rw [hw.aliases]; rintro _ _ ⟨⟩) (by rw [hw.binds]; exact .empty)
    (by rw [hw.binds]; rintro _ _ ⟨⟩)
  have hsaved : ∀ name e, u.vars.find? name = some e → e.flags.archive = true →
      s.find? name = some e := by
    intro name e hfind harchive
    rw [htakes.found name ((mem_names_snapshot hu.vars).2 ⟨e, hfind, harchive⟩), hfind]
  have hcalm' : s.Calm := by
    rw [Store.Calm, htakes.listeners]
    exact hcalm
  -- loaded once more, it finds everything as it is
  obtain ⟨s', v', n', hagain, -, htakes'⟩ := apply_snapshot
    (w := { w with vars := s, world := v, aliases := u.aliases, binds := u.binds }) hvars hu hs
    hcalm' (fun _ _ h => h) hu.binds (fun _ _ h => h)
  obtain ⟨rfl, rfl⟩ := htakes'.same htakes.found
  refine ⟨_, n, {
    loaded := happly
    saved := hsaved
    others := ?_
    aliases := rfl
    binds := rfl
    snapshot := snapshot_eq hu.vars hs hsaved rfl rfl
    silent := fun hook => by rw [apply_withHook, happly]
    again := ⟨n', hagain⟩ }⟩
  intro name hnone
  refine htakes.others name fun hmem => ?_
  obtain ⟨e, hfind, harchive⟩ := (mem_names_snapshot hu.vars).1 hmem
  cases harchive.symm.trans (hnone e hfind)

end Workspace

namespace Dealing

variable {host : Host κ (Workspace κ ε)}

/-- **What is saved is restored.** Let the same variables be registered on two consoles, and let
those that are saved have values that are read back from their texts. Then whatever is done to the
first console, loading what it would save makes the other one hold the same. -/
theorem restores_runAll (hvars : Registered vars) {c : Console κ ε} (hc : c.SetUp vars)
    (hcommands : c.OnlyBuiltins) {w : Workspace κ ε} (hw : w.SetUp vars) (hcalm : w.vars.Calm)
    (ds : List Dealing) : ∃ w' n, (runAll host ds c).toWorkspace.Restores w w' n :=
  hw.restores hvars (upholds_runAll hvars (hc.upholds hvars hcommands) ds) hcalm

end Dealing

/-! ### A number with bounds and a locked text -/

def fieldOfView : Variable .int32 :=
  { ((Variable.ofDefault "cl_fov" 90).withLeast 60).withGreatest 120 with
    flags := { archive := true } }

theorem portable_fieldOfView : Entry.Portable ⟨.int32, fieldOfView, false⟩ where
  exact := rfl
  cast := by
    simp only [fieldOfView, Variable.withLeast, Variable.withGreatest, Variable.store,
      Variable.ofDefault]
  default := by
    constructor
    · intro bound h
      obtain rfl : (60 : Int32) = bound := Option.some.inj h
      decide
    · intro bound h
      obtain rfl : (120 : Int32) = bound := Option.some.inj h
      decide

def hostName : Variable .text :=
  { Variable.ofDefault "sv_name" "local" with flags := { archive := true, readOnly := true } }

def savedVars : NameMap Entry :=
  let vars := NameMap.empty.insert "cl_fov" ⟨.int32, fieldOfView, false⟩
  vars.insert "sv_name" ⟨.text, hostName, false⟩

def savedConsole : Console Empty Unit :=
  (Console.ofSettings {} ()).mapWorkspace fun w =>
    { w with vars := { builtins := savedVars } }.registerBuiltins coreCommands

theorem registered_savedVars : Registered savedVars := by
  let before : Store Unit :=
    { builtins := NameMap.empty.insert "cl_fov" ⟨.int32, fieldOfView, false⟩ }
  let after : Store Unit := { builtins := savedVars }
  have hfirst : ({} : Store Unit).register fieldOfView = .ok (true, before) := by rfl
  have hsecond : before.register hostName = .ok (true, after) := by rfl
  have hfieldOfView : fieldOfView.Built :=
    .describe "" { archive := true } (.withGreatest 120 (.withLeast 60 (.ofDefault "cl_fov" 90)))
  have hhostName : hostName.Built :=
    .describe "" { archive := true, readOnly := true } (.ofDefault (k := .text) "sv_name" "local")
  have hbefore : Registered before.builtins :=
    .register .empty hfieldOfView (fun _ => portable_fieldOfView) hfirst
  have hportable : Entry.Portable ⟨.text, hostName, false⟩ :=
    ⟨rfl, rfl, by constructor <;> rintro _ ⟨⟩⟩
  exact hbefore.register hhostName (fun _ => hportable) hsecond

namespace Dealing

/-- A value that was brought into its bounds, an alias and a binding are restored, and a locked
variable does not stand in the way. -/
theorem restores_runAll_savedConsole :
    Registered savedVars ∧ savedConsole.SetUp savedVars ∧ ∃ w' n,
      (runAll .idle [.execute false "cl_fov 200; sv_name other",
        .execute false "alias hi echo hi", .binds (.bind "W" "hi")]
        savedConsole).toWorkspace.Restores savedConsole.toWorkspace w' n := by
  have hsetUp : savedConsole.SetUp savedVars := ⟨rfl, by rintro _ _ ⟨⟩, rfl, rfl⟩
  have hcommands : savedConsole.OnlyBuiltins :=
    Workspace.onlyBuiltins_registerBuiltins (by rintro _ _ ⟨⟩) coreCommands
  have hcalm : savedConsole.vars.Calm := by rintro _ _ ⟨⟩
  exact ⟨registered_savedVars, hsetUp,
    restores_runAll registered_savedVars hsetUp hcommands hsetUp hcalm _⟩

example : (runAll .idle [.execute false "cl_fov 200; sv_name other"]
    savedConsole).snapshot.values.entries = [("cl_fov", "120"), ("sv_name", "local")] := by
  decide +kernel

end Dealing

end DevConsole
