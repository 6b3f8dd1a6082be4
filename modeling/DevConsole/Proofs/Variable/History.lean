import DevConsole.Proofs.Variable.Assigning

/-!
Changes told as they happen. Where no listener panics and the values of all variables are told by
their texts, the changes that a store keeps are a history: those of each variable lead from the text
that it had to the text that it has. Main statement: this holds after any assignments, and each of
them tells of what it does and of nothing else.
-/

namespace DevConsole

variable {ω : Type} {s s' s'' : Store ω}

/-! ### Listeners that do not panic -/

namespace Store

def Calm (s : Store ω) : Prop :=
  ∀ name told, s.listeners.find? name = some told →
    ∀ listener ∈ told, ∀ new old e w, (listener new old e w).2 = none

/-- Whether the values of all variables are told by their texts. -/
def Exact (s : Store ω) : Prop := ∀ name e, s.find? name = some e → e.kind.isExact

theorem tellListeners_of_calm {new old : String} {e : Entry} {told : List (Listener ω)}
    (h : ∀ listener ∈ told, ∀ new old e w, (listener new old e w).2 = none) (w : ω) :
    tellListeners new old e told w =
      (told.foldl (fun w listener => (listener new old e w).1) w, none) := by
  induction told generalizing w with
  | nil => rfl
  | cons listener rest ih =>
    have hnone := h listener List.mem_cons_self new old e w
    rcases hcall : listener new old e w with ⟨w', p⟩
    rw [hcall] at hnone
    cases hnone
    simp only [tellListeners, hcall, List.foldl_cons]
    exact ih (fun l hl => h l (List.mem_cons_of_mem _ hl)) w'

/-- The world after the listeners of a variable have been told that it has become `after`, each once
and in the order in which they came, and then the hook, if the change goes through to it and the
variable is saved. -/
def told (s : Store ω) (name : String) (before after : Entry) (through : Bool) (w : ω) : ω :=
  let w := ((s.listeners.find? name).getD []).foldl
    (fun w listener => (listener after.text before.text after w).1) w
  match s.hook with
  | some hook => if through && after.flags.archive then hook name after.text w else w
  | none => w

/-- A change comes to its end if no listener panics. -/
theorem commit_of_calm (h : s.Calm) (w : ω) (name : String) (before after : Entry)
    (through : Bool) :
    s.commit w name before.text after through =
      ({ s.replace name after with changes := s.changes ++ [⟨name, before.text, after.text⟩] },
        s.told name before after through w, .ok (.changed before.text after.text)) := by
  have hcalm : ∀ listener ∈ (s.listeners.find? name).getD [],
      ∀ new old e w, (listener new old e w).2 = none := by
    rcases hfind : s.listeners.find? name with _ | told
    · simp
    · exact h name told hfind
  have hhook : ∀ w, (if through && after.flags.archive then
      (s.replace name after).tellHook name after.text w else w) = match s.hook with
        | some hook => if through && after.flags.archive then hook name after.text w else w
        | none => w := by
    intro w
    rw [tellHook, hook_replace]
    rcases s.hook with _ | hook
    · exact ite_self w
    · rfl
  simp only [commit, listeners_replace, changes_replace, tellListeners_of_calm hcalm, told, hhook]

/-- A change that breaks off does so because a listener panicked. -/
theorem panicked_of_commit {w : ω} {name : String} {before after : Entry} {through : Bool}
    {e : AssignError} (h : (s.commit w name before.text after through).2.2 = .error e) :
    ∃ p, e = .panicked p ∧ ¬ s.Calm := by
  have hcalm : ¬ s.Calm := fun hcalm => by
    rw [commit_of_calm hcalm] at h
    cases h
  unfold commit at h
  dsimp only at h
  split at h
  · next p _ =>
    cases h
    exact ⟨p, rfl, hcalm⟩
  · cases h

end Store

/-! ### One assignment -/

namespace Assignment

/-- Whether the variable `e` has been given the value, nothing else has changed, and those have been
told who are to be told. -/
structure Changed (a : Assignment) (s : Store ω) (w : ω) (e : Entry) (value : e.kind.Value)
    (s' : Store ω) (w' : ω) : Prop where
  found : s.find? a.name = some e
  readable : s'.find? a.name = some (e.withValue value)
  others : ∀ other, other ≠ a.name → s'.find? other = s.find? other
  builtins : s'.builtins.names = s.builtins.names
  user : s'.user.names = s.user.names
  listeners : s'.listeners = s.listeners
  hook : s'.hook = s.hook
  changes : s'.changes = s.changes ++ [⟨a.name, e.text, (e.withValue value).text⟩]
  told : w' = s.told a.name e (e.withValue value) a.through w

/-- Whether what an assignment answers is what it has done. It is refused if it asks for nothing that
may be assigned, and nothing changes if the variable has the value that is asked for; otherwise the
variable has been given that value, and its text has changed from the one to the other. -/
def Reports (a : Assignment) (s : Store ω) (w : ω) :
    Store ω × ω × Except AssignError Assigned → Prop
  | (s', w', .error _) => (∀ e value, ¬ a.Asks s e value) ∧ s' = s ∧ w' = w
  | (s', w', .ok .unchanged) => (∃ e, a.Asks s e e.var.value) ∧ s' = s ∧ w' = w
  | (s', w', .ok (.changed old new)) => ∃ e value, a.Asks s e value ∧
      old = e.text ∧ new = (e.withValue value).text ∧ old ≠ new ∧ a.Changed s w e value s' w'

theorem Asks.changed {a : Assignment} {e : Entry} {value : e.kind.Value} (h : a.Asks s e value)
    (w : ω) :
    a.Changed s w e value
      { s.replace a.name (e.withValue value) with
        changes := s.changes ++ [⟨a.name, e.text, (e.withValue value).text⟩] }
      (s.told a.name e (e.withValue value) a.through w) where
  found := h.found
  readable := by
    show (s.replace a.name (e.withValue value)).find? a.name = _
    rw [Store.find?_replace, if_pos rfl, h.found, Option.map_some]
  others := by
    intro other hother
    show (s.replace a.name (e.withValue value)).find? other = _
    rw [Store.find?_replace, if_neg hother]
  builtins := Store.names_builtins_replace _
  user := Store.names_user_replace _
  listeners := Store.listeners_replace _
  hook := Store.hook_replace _
  changes := rfl
  told := rfl

theorem reports_run (hcalm : s.Calm) (hexact : s.Exact) (w : ω) (a : Assignment) :
    a.Reports s w (a.run s w) := by
  rcases a.run_cases s w with ⟨reason, hnone, hrun⟩ | ⟨e, value, hasks, h⟩
  · rw [hrun]
    exact ⟨hnone, rfl, rfl⟩
  · have hkind : e.kind.isExact := hexact _ _ hasks.found
    rcases h with ⟨heq, hrun⟩ | ⟨hne, hrun⟩
    · rw [hrun]
      obtain rfl := heq hkind
      exact ⟨⟨e, hasks⟩, rfl, rfl⟩
    · rw [hrun, Store.commit_of_calm hcalm]
      have htext : e.text ≠ (e.withValue value).text := Entry.text_withValue_ne hkind (hne hkind)
      exact ⟨e, value, hasks, rfl, rfl, htext, hasks.changed w⟩

end Assignment

/-! ### A history -/

/-- Whether the changes lead from one text to another, each to a text other than the one before. -/
def Linked : String → List Change → String → Prop
  | start, [], stop => start = stop
  | start, c :: cs, stop => c.old = start ∧ c.new ≠ start ∧ Linked c.new cs stop

theorem Linked.append {start middle stop : String} {cs ds : List Change}
    (hcs : Linked start cs middle) (hds : Linked middle ds stop) : Linked start (cs ++ ds) stop := by
  induction cs generalizing start with
  | nil => exact hcs ▸ hds
  | cons c cs ih => exact ⟨hcs.1, hcs.2.1, ih hcs.2.2⟩

def changesOf (name : String) (cs : List Change) : List Change := cs.filter (·.name = name)

theorem changesOf_append (name : String) (cs ds : List Change) :
    changesOf name (cs ++ ds) = changesOf name cs ++ changesOf name ds :=
  List.filter_append ..

namespace Store

/-- Whether the changes `fresh`, which are kept behind the ones that were kept, tell how the store
`s` has become `s'`: those of each variable lead from its former text to the one it has, and it has
the value that it had if there are none. -/
structure Follows (s : Store ω) (fresh : List Change) (s' : Store ω) : Prop where
  changes : s'.changes = s.changes ++ fresh
  known : ∀ name e, s.find? name = some e → ∃ value, s'.find? name = some (e.withValue value) ∧
    Linked e.text (changesOf name fresh) (e.withValue value).text ∧
    (changesOf name fresh = [] → value = e.var.value)
  others : ∀ name, s.find? name = none → s'.find? name = none ∧ changesOf name fresh = []

theorem Follows.refl (s : Store ω) : Follows s [] s where
  changes := (List.append_nil _).symm
  known := fun _ e h => ⟨e.var.value, h, rfl, fun _ => rfl⟩
  others := fun _ h => ⟨h, rfl⟩

theorem Follows.trans {cs ds : List Change} (h : Follows s cs s') (h' : Follows s' ds s'') :
    Follows s (cs ++ ds) s'' where
  changes := by rw [h'.changes, h.changes, List.append_assoc]
  known := by
    intro name e hfind
    obtain ⟨value, hfind', hlinked, hnone⟩ := h.known name e hfind
    obtain ⟨value', hfind'', hlinked', hnone'⟩ := h'.known name _ hfind'
    rw [changesOf_append]
    refine ⟨value', hfind'', hlinked.append hlinked', fun hnil => ?_⟩
    obtain ⟨hnil, hnil'⟩ := List.append_eq_nil_iff.1 hnil
    exact (hnone' hnil').trans (hnone hnil)
  others := by
    intro name hfind
    obtain ⟨hfind', hnil⟩ := h.others name hfind
    obtain ⟨hfind'', hnil'⟩ := h'.others name hfind'
    rw [changesOf_append, hnil, hnil']
    exact ⟨hfind'', rfl⟩

end Store

namespace Assignment

variable {a : Assignment} {w w' : ω}

/-- A change is told by the one that is kept of it. -/
theorem Changed.follows {e : Entry} {value : e.kind.Value} (h : a.Changed s w e value s' w')
    (hne : e.text ≠ (e.withValue value).text) :
    s.Follows [⟨a.name, e.text, (e.withValue value).text⟩] s' where
  changes := h.changes
  known := by
    intro name former hfind
    -- the variable that was assigned has one change, all others have none
    by_cases hname : name = a.name
    · subst hname
      obtain rfl : e = former := Option.some.inj (h.found.symm.trans hfind)
      exact ⟨value, h.readable, by simp [changesOf, Linked, hne.symm], by simp [changesOf]⟩
    · have hnone : changesOf name [⟨a.name, e.text, (e.withValue value).text⟩] = [] := by
        simp [changesOf, Ne.symm hname]
      rw [hnone]
      exact ⟨former.var.value, (h.others name hname).trans hfind, rfl, fun _ => rfl⟩
  others := by
    intro name hfind
    have hname : name ≠ a.name := by
      rintro rfl
      cases h.found.symm.trans hfind
    exact ⟨(h.others name hname).trans hfind, by simp [changesOf, Ne.symm hname]⟩

theorem Changed.exact {e : Entry} {value : e.kind.Value} (h : a.Changed s w e value s' w')
    (hexact : s.Exact) : s'.Exact := by
  intro name former hfind
  by_cases hname : name = a.name
  · subst hname
    obtain rfl := Option.some.inj (h.readable.symm.trans hfind)
    rw [Entry.kind_withValue]
    exact hexact _ _ h.found
  · exact hexact name former ((h.others name hname).symm.trans hfind)

/-- What one assignment keeps: listeners stay calm, values stay exact, and its changes tell what has
become of the store. -/
theorem keeps_run (hcalm : s.Calm) (hexact : s.Exact) (w : ω) (a : Assignment) :
    (a.run s w).1.Calm ∧ (a.run s w).1.Exact ∧ ∃ fresh, s.Follows fresh (a.run s w).1 := by
  have hreports := reports_run hcalm hexact w a
  generalize a.run s w = r at hreports ⊢
  obtain ⟨s', w', e | - | ⟨old, new⟩⟩ := r
  · obtain ⟨-, rfl, -⟩ := hreports
    exact ⟨hcalm, hexact, [], .refl _⟩
  · obtain ⟨-, rfl, -⟩ := hreports
    exact ⟨hcalm, hexact, [], .refl _⟩
  · obtain ⟨e, value, -, rfl, rfl, hne, hchanged⟩ := hreports
    have hcalm' : s'.Calm := by
      rw [Store.Calm, hchanged.listeners]
      exact hcalm
    exact ⟨hcalm', hchanged.exact hexact, _, hchanged.follows hne⟩

def runAll : List Assignment → Store ω → ω → Store ω × ω
  | [], s, w => (s, w)
  | a :: calls, s, w => runAll calls (a.run s w).1 (a.run s w).2.1

theorem keeps_runAll (calls : List Assignment) (hcalm : s.Calm) (hexact : s.Exact) (w : ω) :
    (runAll calls s w).1.Calm ∧ (runAll calls s w).1.Exact ∧
      ∃ fresh, s.Follows fresh (runAll calls s w).1 := by
  induction calls generalizing s w with
  | nil => exact ⟨hcalm, hexact, [], .refl _⟩
  | cons a calls ih =>
    obtain ⟨hcalm', hexact', cs, hcs⟩ := keeps_run hcalm hexact w a
    obtain ⟨hcalm'', hexact'', ds, hds⟩ := ih hcalm' hexact' (a.run s w).2.1
    exact ⟨hcalm'', hexact'', cs ++ ds, hcs.trans hds⟩

/-- **Changes are told as they happen.** After any assignments, the changes kept since tell how the
variables have come to the values that they have; and the next assignment does what it answers, tells
those who are to be told of it, and does nothing else. -/
theorem follows_runAll (hcalm : s.Calm) (hexact : s.Exact) (w : ω) (calls : List Assignment) :
    (∃ fresh, s.Follows fresh (runAll calls s w).1) ∧
      ∀ a : Assignment, a.Reports (runAll calls s w).1 (runAll calls s w).2
        (a.run (runAll calls s w).1 (runAll calls s w).2) := by
  obtain ⟨hcalm', hexact', hfollows⟩ := keeps_runAll calls hcalm hexact w
  exact ⟨hfollows, reports_run hcalm' hexact' _⟩

/-- A store of one variable that is saved, with a listener that notes the change and a hook that
notes what it is told. -/
def notingStore : Store (List (String × String)) where
  builtins := NameMap.empty.insert "cl_fov"
    ⟨.int32, { Variable.ofDefault "cl_fov" 90 with flags := { archive := true } }, false⟩
  listeners := NameMap.empty.insert "cl_fov" [fun new old _ notes => (notes ++ [(old, new)], none)]
  hook := some fun name text notes => notes ++ [(name, text)]

/-- The hook is told of the first change, and not of the second one, which does not go through. -/
theorem follows_runAll_notingStore :
    let calls : List Assignment := [.set "cl_fov" "100" true, .set "cl_fov" "80" false]
    let (s, notes) := runAll calls notingStore []
    notingStore.Calm ∧ notingStore.Exact ∧ (∃ fresh, notingStore.Follows fresh s) ∧
      notes = [("90", "100"), ("cl_fov", "100"), ("100", "80")] ∧
      Reports (.reset "cl_fov" true) s notes
        ((Assignment.reset "cl_fov" true).run s notes) := by
  have hcalm : notingStore.Calm := by
    intro name told htold
    simp only [notingStore, NameMap.find?_insert, NameMap.find?_empty] at htold
    split at htold
    · obtain rfl := Option.some.inj htold
      simp
    · cases htold
  have hexact : notingStore.Exact := by
    intro name e hfind
    simp only [notingStore, Store.find?, NameMap.find?_insert, NameMap.find?_empty,
      Option.or_none] at hfind
    split at hfind
    · obtain rfl := Option.some.inj hfind
      rfl
    · cases hfind
  obtain ⟨hfollows, hreports⟩ := follows_runAll hcalm hexact []
    [.set "cl_fov" "100" true, .set "cl_fov" "80" false]
  exact ⟨hcalm, hexact, hfollows, by decide +kernel, hreports (.reset "cl_fov" true)⟩

end Assignment

end DevConsole
