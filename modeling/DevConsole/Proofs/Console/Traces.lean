import DevConsole.Frame
import DevConsole.Proofs.Console.Events
import DevConsole.Proofs.Console.Locked

/-!
What a run does to output and changes, event by event. Of its own the console only prints lines and
drops changes that are not to be kept; all else is done by handlers, of which it is supposed that
they change what is held by events only. Main statement: what a run has printed since the output was
last taken is held in any moment of it, but for what is too old.
-/

namespace DevConsole

open Relation

variable {κ ε : Type}

/-! ### Workspaces -/

namespace Workspace

/-- Whether it is by these events that `w` comes to hold what `w'` holds. -/
structure Undergoes (w : Workspace κ ε) (events : List Event) (w' : Workspace κ ε) : Prop where
  capacity : w'.capacity = w.capacity
  held : w'.held = Event.runAll w.capacity w.held events

variable {undeclares : String → Prop} {w w' w'' : Workspace κ ε} {events events' : List Event}

theorem Undergoes.append (h : w.Undergoes events w') (h' : w'.Undergoes events' w'') :
    w.Undergoes (events ++ events') w'' := by
  refine ⟨h'.capacity.trans h.capacity, ?_⟩
  rw [h'.held, h.held, h.capacity, Event.runAll, Event.runAll, Event.runAll, List.foldl_append]

theorem undergoes_print (level : Level) (message : String) :
    w.Undergoes [.print ⟨level, message⟩] (w.print level message) := ⟨rfl, rfl⟩

theorem undergoes_keepChanges : w.Undergoes [.keepChanges w.capacity] w.keepChanges := ⟨rfl, rfl⟩

theorem undergoes_takeOutput : w.Undergoes [.takeOutput] w.takeOutput.2 := ⟨rfl, rfl⟩

theorem undergoes_takeChanges : w.Undergoes [.takeChanges] w.takeChanges.2 := ⟨rfl, rfl⟩

/-- Whether it is by events that `w` comes to hold what `w'` holds: by ordinary ones and by those
that `may` holds of. -/
def Accounts (may : Event → Prop) (w w' : Workspace κ ε) : Prop :=
  ∃ events, w.Undergoes events w' ∧ ∀ event ∈ events, event.Ordinary w.capacity ∨ may event

variable {may : Event → Prop}

theorem Undergoes.accounts {event : Event} (h : w.Undergoes [event] w')
    (hevent : event.Ordinary w.capacity ∨ may event) : w.Accounts may w' :=
  ⟨[event], h, List.forall_mem_singleton.2 hevent⟩

theorem Accounts.of_held (hcapacity : w'.capacity = w.capacity) (hheld : w'.held = w.held) :
    w.Accounts may w' := ⟨[], ⟨hcapacity, hheld⟩, List.forall_mem_nil _⟩

theorem Accounts.trans (h : w.Accounts may w') (h' : w'.Accounts may w'') :
    w.Accounts may w'' := by
  obtain ⟨events, hevents, hmay⟩ := h
  obtain ⟨events', hevents', hmay'⟩ := h'
  rw [hevents.capacity] at hmay'
  exact ⟨events ++ events', hevents.append hevents', List.forall_mem_append.2 ⟨hmay, hmay'⟩⟩

/-- An assignment makes no change, or one that it has come to the end with. -/
theorem changes_run (a : Assignment) (s : Store (World ε)) (world : World ε) :
    (a.run s world).1.changes = s.changes ∨
      ∃ old new, (a.run s world).2.2 = .ok (.changed old new) ∧
        (a.run s world).1.changes = s.changes ++ [⟨a.name, old, new⟩] := by
  rcases a.run_cases s world with ⟨_, -, heq⟩ | ⟨e, value, -, ⟨-, heq⟩ | ⟨-, heq⟩⟩
  · exact .inl (by rw [heq])
  · exact .inl (by rw [heq])
  · rw [heq, Store.commit]
    split
    · exact .inl (Store.changes_replace _)
    · exact .inr ⟨_, _, rfl, by rw [Store.changes_replace]⟩

theorem accounts_assignment (a : Assignment) : w.Accounts may
    { w with vars := (a.run w.vars w.world).1, world := (a.run w.vars w.world).2.1 } := by
  rcases changes_run a w.vars w.world with heq | ⟨old, new, -, heq⟩
  · exact .of_held rfl (by rw [held, heq]; rfl)
  · have hchange : w.Undergoes [.change ⟨a.name, old, new⟩]
        { w with vars := (a.run w.vars w.world).1, world := (a.run w.vars w.world).2.1 } := by
      refine ⟨rfl, ?_⟩
      rw [held, heq]
      rfl
    exact hchange.accounts (.inl trivial)

theorem held_noteEdits (names : List String) :
    (names.foldl (fun w name => w.noteEdit name "") w).held = w.held ∧
    (names.foldl (fun w name => w.noteEdit name "") w).capacity = w.capacity := by
  induction names generalizing w with
  | nil => exact ⟨rfl, rfl⟩
  | cons name names ih => exact ih

/-- The console's own commands do nothing but what is ordinary. -/
theorem Edit.accounts (h : Edit undeclares w w') : w.Accounts may w' := by
  cases h with
  | print level message => exact (undergoes_print level message).accounts (.inl trivial)
  | keepChanges => exact undergoes_keepChanges.accounts (.inl (Nat.le_refl w.capacity))
  | assign name raw => exact accounts_assignment (.set name raw true)
  | reset name => exact accounts_assignment (.reset name true)
  | declare name value hdeclare =>
    obtain ⟨-, -, -, -, rfl⟩ := Store.declare_eq_ok hdeclare
    exact .of_held rfl rfl
  | undeclare _ hremove =>
    obtain ⟨-, rfl⟩ := Store.remove_eq_ok hremove
    exact .of_held rfl rfl
  | removeAliases => exact .of_held (held_noteEdits _).2 (held_noteEdits _).1
  | _ => exact .of_held rfl rfl

theorem Edits.accounts (h : Edits undeclares w w') : w.Accounts may w' := by
  induction h with
  | refl => exact .of_held rfl rfl
  | tail _ hedit ih => exact ih.trans hedit.accounts

end Workspace

/-! ### Handlers that change what is held by events -/

/-- Whether the program changes what is held by events only, when it starts on `w`. -/
def Program.Accounts (may : Event → Prop) : Program (Workspace κ ε) → Workspace κ ε → Prop
  | stop _, _ => True
  | get k, w => (k w).Accounts may w
  | put w' p, w => w.Accounts may w' ∧ p.Accounts may w'
  | execute _ _ k, _ => ∀ passed w, (k passed).Accounts may w
  | parse _ k, w => ∀ answer, (k answer).Accounts may w
  | evaluate _ k, _ => ∀ answer w, (k answer).Accounts may w

def Host.Accounts (may : Event → Prop) (host : Host κ (Workspace κ ε)) : Prop :=
  ∀ k call w, (host.run k call).Accounts may w

variable {may : Event → Prop}

theorem Program.Edits.accounts {undeclares : String → Prop} {p : Program (Workspace κ ε)}
    {w : Workspace κ ε} (h : p.Edits undeclares w) : p.Accounts may w := by
  induction p generalizing w with
  | stop => trivial
  | get k ih => exact ih w h
  | put w' p ih => exact ⟨h.1.accounts, ih h.2⟩
  | execute _ _ k ih => exact fun passed w => ih passed (h passed w)
  | parse _ k ih => exact fun answer => ih answer (h answer)
  | evaluate _ k ih => exact fun answer w => ih answer (h answer w)

theorem Program.accounts_executeAll (sources : List String) (w : Workspace κ ε) :
    (executeAll sources).Accounts may w := by
  have hedits : (executeAll sources).Edits (fun _ => True) w := edits_executeAll sources w
  exact hedits.accounts

theorem Host.accounts_idle (may : Event → Prop) :
    (Host.idle : Host Empty (Workspace Empty ε)).Accounts may := fun k => k.elim

theorem Console.accounts_program {host : Host κ (Workspace κ ε)} (hhost : host.Accounts may)
    (handler : Handler κ) (call : Call) (w : Workspace κ ε) :
    (Console.program host handler call).Accounts may w := by
  cases handler with
  | builtin b => exact (b.edits_program call w fun _ _ _ => trivial).accounts
  | host k => exact hhost k call w

/-! ### What the console prints of its own -/

namespace Console

variable {c : Console κ ε}

def withOutput (c : Console κ ε) (output : List OutputLine) : Console κ ε :=
  c.mapWorkspace fun w => { w with output }

/-- What the console prints in doing `f`: the output that there is if there was none before. -/
def prints (c : Console κ ε) (f : Console κ ε → Console κ ε) : List Event :=
  (f (c.withOutput [])).output.map .print

/-- The console after it has printed what it prints when it begins to perform an invocation. -/
def announce (c : Console κ ε) (call : Invocation) : Console κ ε :=
  if call.name = "" then if call.args = [] then c else c.report .missingName
  else match c.target call.name with
    | .command _ => c
    | .alias _ => c.warnArguments call
    | .variable =>
      if call.args = [] then c.print .result
        ("\"" ++ call.name ++ "\" = \"" ++ (c.vars.text? call.name).getD "" ++ "\"")
      else c
    | .nothing => c.report (.notFound call.name)

/-- What the console does to changes after a source: unless it is inside of a query, it drops those
that are not to be kept. -/
def drops (c : Console κ ε) : List Event :=
  if c.depth = 0 then [.keepChanges c.capacity] else []

/-- Whether `f` prints a line or nothing, the same whatever has been printed before. -/
def PrintsOnce (c : Console κ ε) (f : Console κ ε → Console κ ε) : Prop :=
  (∀ output, (f (c.withOutput output)).toWorkspace = (c.withOutput output).toWorkspace) ∨
  ∃ level message, ∀ output, (f (c.withOutput output)).toWorkspace =
    ((c.withOutput output).print level message).toWorkspace

theorem PrintsOnce.undergoes {f : Console κ ε → Console κ ε} (h : c.PrintsOnce f) :
    c.toWorkspace.Undergoes (c.prints f) (f c).toWorkspace := by
  rcases h with h | ⟨level, message, h⟩
  · have hprints : c.prints f = [] := by
      rw [prints, h]
      rfl
    have hf : (f c).toWorkspace = c.toWorkspace := h c.output
    rw [hprints, hf]
    exact ⟨rfl, rfl⟩
  · have hprints : c.prints f = [.print ⟨level, message⟩] := by
      rw [prints, h]
      simp [withOutput, print, mapWorkspace, Workspace.print, pushBounded]
    have hf : (f c).toWorkspace = (c.print level message).toWorkspace := h c.output
    rw [hprints, hf]
    exact Workspace.undergoes_print level message

theorem printsOnce_countStep : c.PrintsOnce countStep := by
  have hsteps (output : List OutputLine) : (c.withOutput output).steps = c.steps := rfl
  have hwarning (output : List OutputLine) :
      (c.withOutput output).iterationWarning = c.iterationWarning := rfl
  simp only [PrintsOnce, countStep, hsteps, hwarning]
  split
  · exact .inr ⟨_, _, fun _ => rfl⟩
  · exact .inl fun _ => rfl

theorem printsOnce_announce (call : Invocation) : c.PrintsOnce (·.announce call) := by
  have htarget (output : List OutputLine) :
      (c.withOutput output).target call.name = c.target call.name := rfl
  have hvars (output : List OutputLine) : (c.withOutput output).vars = c.vars := rfl
  simp only [PrintsOnce, announce, htarget, hvars]
  split
  · split
    · exact .inl fun _ => rfl
    · exact .inr ⟨_, _, fun _ => rfl⟩
  · split
    · exact .inl fun _ => rfl
    · unfold warnArguments
      split
      · exact .inl fun _ => rfl
      · exact .inr ⟨_, _, fun _ => rfl⟩
    · split
      · exact .inr ⟨_, _, fun _ => rfl⟩
      · exact .inl fun _ => rfl
    · exact .inr ⟨_, _, fun _ => rfl⟩

theorem printsOnce_settle (contained : Bool) (source : String) (e : QueryError) :
    c.PrintsOnce (·.settle contained source e) := by
  have hdepth (output : List OutputLine) : (c.withOutput output).depth = c.depth := rfl
  simp only [PrintsOnce, settle, hdepth]
  split
  · exact .inl fun _ => rfl
  · exact .inr ⟨_, _, fun _ => rfl⟩

theorem printsOnce_close (name : String) (ending : Ending) :
    c.PrintsOnce fun c => (c.close name ending).1 := by
  have hpending (output : List OutputLine) : (c.withOutput output).pending = c.pending := rfl
  simp only [PrintsOnce, close, hpending]
  split
  · exact .inl fun _ => rfl
  · exact .inl fun _ => rfl
  · exact .inr ⟨_, _, fun _ => rfl⟩
  · exact .inr ⟨_, _, fun _ => rfl⟩

theorem undergoes_trim : c.toWorkspace.Undergoes c.drops c.trim.toWorkspace := by
  unfold drops trim
  split
  · exact Workspace.undergoes_keepChanges
  · exact ⟨rfl, rfl⟩

end Console

/-! ### Steps -/

/-- What the console does of its own in a moment to output and changes. -/
def Moment.ownEvents (m : Moment κ ε) : List Event :=
  match m.activity, m.waiting with
  | .clauses failed _ cs, _ =>
    if (nextStop? failed cs).isSome then m.console.prints .countStep else []
  | .invocation call, _ => m.console.prints (·.announce call)
  | .ended (.ok _), .execute .. :: _ => m.console.drops
  | .ended (.error e), .execute contained source _ :: _ =>
    m.console.drops ++ m.console.trim.prints (·.settle contained source e)
  | .handler (.stop ending), .command name :: _ =>
    m.console.prints fun c => (c.close name ending).1
  | _, _ => []

/-- Whether it is these events that happen in a moment. A handler that has changed the workspace
tells of all that it has done. -/
def Moment.Tells (m : Moment κ ε) (events : List Event) : Prop :=
  match m.activity with
  | .handler (.put w _) => m.console.toWorkspace.Undergoes events w
  | _ => events = m.ownEvents

variable {host : Host κ (Workspace κ ε)} {m m' m'' : Moment κ ε} {events events' : List Event}

/-- What has been announced is all that an invocation prints in its first step. -/
theorem Step.toWorkspace_announce {call : Invocation} {K : List (Waiting κ ε)} {c : Console κ ε}
    (h : Step host ⟨.invocation call, K, c⟩ m') :
    m'.console.toWorkspace = (c.announce call).toWorkspace := by
  cases h with
  | malformedBody hname htarget hparse | expand hname htarget hparse =>
    rw [Console.toWorkspace_of_parse hparse]
    simp [Console.announce, hname, htarget]
  | _ => simp_all [Console.announce]

/-- What one step does to output and changes is what happens in the moment before it. -/
theorem Step.undergoes (h : Step host m m') (htells : m.Tells events) :
    m.console.toWorkspace.Undergoes events m'.console.toWorkspace := by
  obtain ⟨activity, K, c⟩ := m
  -- what happens is told by what the console does, and only a handler may tell more
  cases activity with
  | query | returned =>
    rw [show events = [] from htells]
    cases h <;> exact ⟨rfl, rfl⟩
  | clauses failed anyFailed cs =>
    simp only [Moment.Tells, Moment.ownEvents] at htells
    cases h with
    | leave hstop =>
      rw [hstop] at htells
      exact htells ▸ ⟨rfl, rfl⟩
    | group hstop | command hstop =>
      rw [hstop] at htells
      exact htells ▸ Console.printsOnce_countStep.undergoes
  | invocation call =>
    rw [show events = _ from htells, h.toWorkspace_announce]
    exact (Console.printsOnce_announce call).undergoes
  | ended answer =>
    cases h with
    | expanded | assigned | evaluated =>
      cases answer
      all_goals
        rw [show events = [] from htells]
        exact ⟨rfl, rfl⟩
    | executed =>
      rw [show events = _ from htells]
      exact Console.undergoes_trim
    | settle =>
      rw [show events = _ from htells]
      exact Console.undergoes_trim.append (Console.printsOnce_settle ..).undergoes
  | handler p =>
    cases h with
    | put => exact htells
    | get | parse | skip | evaluate =>
      rw [show events = [] from htells]
      exact ⟨rfl, rfl⟩
    | malformedSource _ hparse | execute _ hparse =>
      rw [show events = [] from htells, Console.toWorkspace_of_parse hparse]
      exact ⟨rfl, rfl⟩
    | close =>
      rw [show events = _ from htells]
      exact (Console.printsOnce_close ..).undergoes

/-! ### Runs -/

/-- `Trace host m events m'` says that a run comes from the moment `m` to `m'`, and that these are
the events of it. -/
inductive Trace (host : Host κ (Workspace κ ε)) (m : Moment κ ε) :
    List Event → Moment κ ε → Prop
  | refl : Trace host m [] m
  | tail {events new : List Event} {m' m'' : Moment κ ε} :
    Trace host m events m' → Step host m' m'' → m'.Tells new → Trace host m (events ++ new) m''

theorem Trace.trans (h : Trace host m events m') (h' : Trace host m' events' m'') :
    Trace host m (events ++ events') m'' := by
  induction h' with
  | refl => rwa [List.append_nil]
  | tail _ hstep htells ih =>
    rw [← List.append_assoc]
    exact ih.tail hstep htells

/-- What a run does to output and changes are its events. -/
theorem Trace.undergoes (h : Trace host m events m') :
    m.console.toWorkspace.Undergoes events m'.console.toWorkspace := by
  induction h with
  | refl => exact ⟨rfl, rfl⟩
  | tail _ hstep htells ih => exact ih.append (hstep.undergoes htells)

/-- The output that is held is the newest that has been printed. -/
theorem Trace.output_eq {lines : List OutputLine} (h : Trace host m events m')
    (hm : m.console.output = lines.rtake (max 1 m.console.capacity)) :
    m'.console.output = (Event.linesSince lines events).rtake (max 1 m.console.capacity) := by
  have hheld : m'.console.output = _ := congrArg Held.output h.undergoes.held
  exact hheld.trans (Event.output_runAll hm events)

/-- None of the newest changes is missing, if none is dropped that is to be kept. -/
theorem Trace.keepsNewest {changes : List Change} (h : Trace host m events m')
    (hspare : Event.Spare m.console.capacity events)
    (hm : KeepsNewest m.console.capacity changes m.console.vars.changes) :
    KeepsNewest m.console.capacity (Event.changesSince changes events) m'.console.vars.changes := by
  have hheld : m'.console.vars.changes = _ := congrArg Held.changes h.undergoes.held
  exact hheld ▸ Event.changes_runAll hm hspare

/-! ### Runs have traces -/

/-- Whether what waits changes what is held by events only when it goes on. -/
def Waiting.Accounts (may : Event → Prop) : Waiting κ ε → Prop
  | .execute _ _ k => ∀ passed w, (k passed).Accounts may w
  | .evaluate k => ∀ answer w, (k answer).Accounts may w
  | _ => True

/-- Whether a handler that goes on changes what is held by events only. -/
def Activity.Accounts (may : Event → Prop) (w : Workspace κ ε) : Activity κ ε → Prop
  | .handler p => p.Accounts may w
  | _ => True

/-- Whether all that goes on changes what is held by events only. -/
structure Moment.Accounts (may : Event → Prop) (m : Moment κ ε) : Prop where
  activity : m.activity.Accounts may m.console.toWorkspace
  waiting : ∀ x ∈ m.waiting, x.Accounts may

/-- Of its own the console does nothing but what is ordinary. -/
theorem Moment.ordinary_ownEvents : ∀ event ∈ m.ownEvents, event.Ordinary m.console.capacity := by
  have hprints (c : Console κ ε) (f : Console κ ε → Console κ ε) (capacity : Nat) :
      ∀ event ∈ c.prints f, event.Ordinary capacity := by
    simp [Console.prints, Event.Ordinary]
  have hdrops (c : Console κ ε) : ∀ event ∈ c.drops, event.Ordinary c.capacity := by
    unfold Console.drops
    split <;> simp [Event.Ordinary]
  unfold ownEvents
  split
  · split
    · exact hprints _ _ _
    · exact List.forall_mem_nil _
  · exact hprints _ _ _
  · exact hdrops _
  · exact List.forall_mem_append.2 ⟨hdrops _, hprints _ _ _⟩
  · exact hprints _ _ _
  · exact List.forall_mem_nil _

theorem Moment.Accounts.exists_tells (hm : m.Accounts may) :
    ∃ events, m.Tells events ∧ ∀ event ∈ events, event.Ordinary m.console.capacity ∨ may event := by
  have hown : ∀ event ∈ m.ownEvents, event.Ordinary m.console.capacity ∨ may event :=
    fun event hmem => .inl (m.ordinary_ownEvents event hmem)
  obtain ⟨activity, K, c⟩ := m
  cases activity with
  | handler p =>
    cases p with
    | put w p => exact hm.activity.1
    | _ => exact ⟨_, rfl, hown⟩
  | _ => exact ⟨_, rfl, hown⟩

theorem Step.keeps_accounts (h : Step host m m') (hhost : host.Accounts may)
    (hm : m.Accounts may) : m'.Accounts may := by
  obtain ⟨hactivity, hwaiting⟩ := hm
  refine ⟨?_, ?_⟩
  · cases h with
    | handle => exact Console.accounts_program hhost ..
    | get => exact hactivity
    | put => exact hactivity.2
    | parse => exact hactivity _
    | skip => exact hactivity _ _
    | executed | settle | evaluated => exact hwaiting _ List.mem_cons_self _ _
    | _ => trivial
  · cases h with
    | command | expand | assign | handle => exact List.forall_mem_cons.2 ⟨trivial, hwaiting⟩
    | malformedSource | execute | evaluate => exact List.forall_mem_cons.2 ⟨hactivity, hwaiting⟩
    | goOn | breakOff | expanded | assigned | executed | settle | evaluated | close =>
      exact (List.forall_mem_cons.1 hwaiting).2
    | _ => exact hwaiting

/-- **Every run has a trace**, in which nothing happens but what is ordinary and what handlers may
do. -/
theorem Leads.exists_trace (h : Leads host m m') (hhost : host.Accounts may)
    (hm : m.Accounts may) :
    (∃ events, Trace host m events m' ∧
      ∀ event ∈ events, event.Ordinary m.console.capacity ∨ may event) ∧ m'.Accounts may := by
  induction h with
  | refl => exact ⟨⟨[], .refl, List.forall_mem_nil _⟩, hm⟩
  | tail _ hstep ih =>
    obtain ⟨⟨events, htrace, hmay⟩, hlast⟩ := ih
    obtain ⟨new, htells, hnew⟩ := hlast.exists_tells
    rw [htrace.undergoes.capacity] at hnew
    exact ⟨⟨events ++ new, htrace.tail hstep htells, List.forall_mem_append.2 ⟨hmay, hnew⟩⟩,
      hstep.keeps_accounts hhost hlast⟩

theorem Moment.accounts_handler {p : Program (Workspace κ ε)} {c : Console κ ε}
    (hp : p.Accounts may c.toWorkspace) : Moment.Accounts may ⟨.handler p, [], c⟩ :=
  ⟨hp, fun _ hmem => by cases hmem⟩

/-! ### The output that is held -/

namespace Console

/-- **The output that is held is the newest that has been printed.** In every moment of whatever the
host does with a console, inside of handlers and of nested queries too, the console holds the lines
printed since its output was last taken, in their order; if there are more than its capacity, it
holds as many of the newest, but the last line in any case. -/
theorem output_eq_newest {c : Console κ ε} {p : Program (Workspace κ ε)} {lines : List OutputLine}
    (hhost : host.Accounts may) (hp : p.Accounts may c.toWorkspace)
    (hc : c.output = lines.rtake (max 1 c.capacity)) (h : Leads host ⟨.handler p, [], c⟩ m) :
    (∃ events, Trace host ⟨.handler p, [], c⟩ events m ∧
      ∀ event ∈ events, event.Ordinary c.capacity ∨ may event) ∧
    ∀ events, Trace host ⟨.handler p, [], c⟩ events m →
      m.console.output = (Event.linesSince lines events).rtake (max 1 c.capacity) :=
  ⟨(h.exists_trace hhost (Moment.accounts_handler hp)).1, fun _ htrace => htrace.output_eq hc⟩

/-- A console with the commands that every console has, and with room for a few lines. -/
def narrowConsole (capacity : Nat) : Console Empty Unit :=
  (ofSettings { bufferCapacity := capacity } ()).installCore

/-- The first of three lines is dropped if there is room for two. -/
theorem output_eq_newest_narrowConsole : ∃ events,
    Trace .idle (.startAll ["echo a; echo b; echo c"] (narrowConsole 2)) events
      ⟨.handler (.stop .passed), [],
        (narrowConsole 2).executeAll .idle ["echo a; echo b; echo c"]⟩ ∧
    (∀ event ∈ events, event.Ordinary 2) ∧
    [⟨.info, "b"⟩, ⟨.info, "c"⟩] = (Event.linesSince [] events).rtake 2 := by
  have hcapacity : max 1 (narrowConsole 2).capacity = 2 := rfl
  have hempty : (narrowConsole 2).output = List.rtake [] (max 1 (narrowConsole 2).capacity) := by
    rw [List.rtake_nil]
    rfl
  have hprogram : (Program.executeAll ["echo a; echo b; echo c"]).Accounts (fun _ => False)
      (narrowConsole 2).toWorkspace :=
    Program.accounts_executeAll _ _
  have houtput : ((narrowConsole 2).executeAll .idle ["echo a; echo b; echo c"]).output =
      [⟨.info, "b"⟩, ⟨.info, "c"⟩] := by
    decide +kernel
  obtain ⟨⟨events, htrace, hmay⟩, hall⟩ :=
    output_eq_newest (Host.accounts_idle _) hprogram hempty (leads_executeAll _ (narrowConsole 2))
  have hlast := hall events htrace
  dsimp only at hlast
  rw [houtput, hcapacity] at hlast
  exact ⟨events, htrace, fun event hmem => (hmay event hmem).resolve_right id, hlast⟩

/-- Whether the console never holds other lines than the newest that there is room for. -/
def HoldsNewest (host : Host κ (Workspace κ ε)) (c : Console κ ε) : Prop :=
  ∀ p m events, Trace host ⟨.handler p, [], c⟩ events m →
    m.console.output = (Event.linesSince c.output events).rtake c.capacity

/-- If there is room for no line, one is held nevertheless. -/
theorem not_holdsNewest_narrowConsole : (narrowConsole 0).capacity = 0 ∧
    (narrowConsole 0).output = [] ∧ ¬ (narrowConsole 0).HoldsNewest .idle := by
  refine ⟨rfl, rfl, fun h => ?_⟩
  let printed := (narrowConsole 0).toWorkspace.print .info "hello"
  have htrace : Trace .idle ⟨.handler (.put printed (.stop .passed)), [], narrowConsole 0⟩ _ _ :=
    Trace.refl.tail .put (Workspace.undergoes_print .info "hello")
  have hclaimed : [(⟨.info, "hello"⟩ : OutputLine)] = List.rtake _ 0 := h _ _ _ htrace
  rw [List.rtake_zero] at hclaimed
  cases hclaimed

end Console

end DevConsole
