import DevConsole.Proofs.Console.Requests

/-!
What an application is told in its frames. Main statement: frame by frame the application is told
the lines printed and the changes made since the last frame, each once, in their order and not
later; if there are more than the console has room for, the oldest are missing.
-/

namespace DevConsole

variable {κ ε : Type} {host : Host κ (Workspace κ ε)} {path : String}

/-! ### Messages as requests -/

namespace Message

/-- What a submitted query asks of the console. -/
def inputs : Message → List Request
  | .input source =>
    let source := Text.trim source
    if source.isEmpty then [] else [.print .command ("$ " ++ source), .execute source]
  | _ => []

/-- What a key asks of the console. -/
def keys : Message → List Request
  | .press key => [.press key]
  | .release key => [.release key]
  | .input _ => []

/-- What messages ask of the console: first come all submitted queries, then all keys. -/
def requests (messages : List Message) : List Request :=
  messages.flatMap inputs ++ messages.flatMap keys

variable {c : Console κ ε}

theorem handleInput_eq (m : Message) : c.handleInput host m = Request.runAll host c m.inputs := by
  cases m with
  | input source =>
    simp only [Console.handleInput, Console.submit, inputs]
    split <;> rfl
  | _ => rfl

theorem handleKey_eq (m : Message) : c.handleKey host m = Request.runAll host c m.keys := by
  cases m <;> rfl

theorem runAll_flatMap {f : Message → List Request} {g : Console κ ε → Message → Console κ ε}
    (h : ∀ c m, g c m = Request.runAll host c (f m)) (messages : List Message) :
    Request.runAll host c (messages.flatMap f) = messages.foldl g c := by
  induction messages generalizing c with
  | nil => rfl
  | cons m messages ih =>
    rw [List.flatMap_cons, Request.runAll, List.foldl_append, List.foldl_cons, h]
    exact ih

theorem frame_eq (messages : List Message) : c.frame host path messages =
    ((Request.runAll host c (requests messages)).passOn.1,
      (Request.runAll host c (requests messages)).passOn.2.saveIfDirty path) := by
  rw [requests, Request.runAll, List.foldl_append, ← Request.runAll, ← Request.runAll,
    runAll_flatMap (fun _ => handleInput_eq), runAll_flatMap (fun _ => handleKey_eq)]
  rfl

theorem mem_requests {messages : List Message} {r : Request} (h : r ∈ requests messages) :
    (∃ level message, r = .print level message) ∨ (∃ source, r = .execute source) ∨
      (∃ key, r = .press key) ∨ ∃ key, r = .release key := by
  rcases List.mem_append.1 h with hmem | hmem
  · obtain ⟨m, -, hm⟩ := List.mem_flatMap.1 hmem
    unfold inputs at hm
    split at hm
    · dsimp only at hm
      split at hm
      · cases hm
      · rcases List.mem_cons.1 hm with rfl | hm
        · exact .inl ⟨_, _, rfl⟩
        · exact .inr (.inl ⟨_, List.mem_singleton.1 hm⟩)
    · cases hm
  · obtain ⟨m, -, hm⟩ := List.mem_flatMap.1 hmem
    cases m with
    | input => cases hm
    | press => exact .inr (.inr (.inl ⟨_, List.mem_singleton.1 hm⟩))
    | release => exact .inr (.inr (.inr ⟨_, List.mem_singleton.1 hm⟩))

theorem accounts_requests {may : Event → Prop} (messages : List Message) :
    ∀ r ∈ requests messages, r.Accounts may := by
  intro r hr
  rcases mem_requests hr with ⟨_, _, rfl⟩ | ⟨_, rfl⟩ | ⟨_, rfl⟩ | ⟨_, rfl⟩
  all_goals trivial

/-- After messages no more changes are held than are to be kept, if that was so before. -/
theorem trimmed_requests (hc : c.AtRest) (htrimmed : c.Trimmed) (messages : List Message) :
    (Request.runAll host c (requests messages)).Trimmed := by
  refine Request.trimmed_runAll hc (fun _ : true = true => htrimmed) ?_
  refine List.foldlRecOn (motive := fun trimmed => trimmed = true) _ _ rfl ?_
  rintro _ rfl r hr
  rcases mem_requests hr with ⟨_, _, rfl⟩ | ⟨_, rfl⟩ | ⟨_, rfl⟩ | ⟨_, rfl⟩
  all_goals rfl

end Message

/-! ### What is passed on -/

namespace Console

variable {c : Console κ ε}

/-- Saving does nothing to output and changes. -/
theorem undergoes_saveIfDirty : c.toWorkspace.Undergoes [] (c.saveIfDirty path).toWorkspace := by
  simp only [saveIfDirty, mapWorkspace, Workspace.takeDirty]
  cases c.world.dirty <;> exact ⟨rfl, rfl⟩

/-- Whether the console runs nothing and holds nothing. -/
structure Idle (c : Console κ ε) : Prop extends c.AtRest where
  held : c.toWorkspace.held = ⟨[], []⟩

theorem AtRest.idle_passOn (hc : c.AtRest) : (c.passOn.2.saveIfDirty path).Idle where
  depth := hc.depth
  pending := hc.pending
  held := undergoes_saveIfDirty.held

end Console

/-! ### Frames -/

/-- A frame of an application: what it does with the console itself, and the messages that are
handled then. -/
structure AppFrame (κ ε : Type) where
  own : Program (Workspace κ ε)
  messages : List Message

/-- What happens in a frame to output and changes: by what the application does itself, and while
the messages are handled. -/
structure FrameLog where
  own : List Event
  handled : List Event

namespace AppFrame

/-- The console once the application has done with it what it does itself. -/
def prepare (host : Host κ (Workspace κ ε)) (f : AppFrame κ ε) (c : Console κ ε) : Console κ ε :=
  (c.perform (Console.runner host) f.own).1

def handle (host : Host κ (Workspace κ ε)) (f : AppFrame κ ε) (c : Console κ ε) : Console κ ε :=
  Request.runAll host (f.prepare host c) (Message.requests f.messages)

/-- What is passed on in the frame, and the console after it. -/
def run (host : Host κ (Workspace κ ε)) (path : String) (f : AppFrame κ ε) (c : Console κ ε) :
    FrameReport × Console κ ε :=
  (f.prepare host c).frame host path f.messages

def runAll (host : Host κ (Workspace κ ε)) (path : String) :
    List (AppFrame κ ε) → Console κ ε → List FrameReport × Console κ ε
  | [], c => ([], c)
  | f :: fs, c =>
    let (report, c) := f.run host path c
    let (reports, c) := runAll host path fs c
    (report :: reports, c)

/-- Whether this is what happens in a frame. -/
structure Logged (host : Host κ (Workspace κ ε)) (c : Console κ ε) (f : AppFrame κ ε)
    (log : FrameLog) : Prop where
  own : Trace host ⟨.handler f.own, [], c⟩ log.own
    ⟨.handler (.stop (c.perform (Console.runner host) f.own).2), [], f.prepare host c⟩
  handled : Trace host (Request.start (Message.requests f.messages) (f.prepare host c)) log.handled
    (Request.finish host (Message.requests f.messages) (f.prepare host c))

inductive LoggedAll (host : Host κ (Workspace κ ε)) (path : String) :
    Console κ ε → List (AppFrame κ ε) → List FrameLog → Prop
  | nil {c : Console κ ε} : LoggedAll host path c [] []
  | cons {c : Console κ ε} {f : AppFrame κ ε} {fs : List (AppFrame κ ε)} {log : FrameLog}
      {logs : List FrameLog} :
    f.Logged host c log → LoggedAll host path (f.run host path c).2 fs logs →
    LoggedAll host path c (f :: fs) (log :: logs)

end AppFrame

def FrameLog.events (log : FrameLog) : List Event := log.own ++ log.handled

/-- Whether an application is told in a frame what has been printed and changed in it. -/
structure FrameLog.Told (capacity : Nat) (log : FrameLog) (report : FrameReport) : Prop where
  output : report.output = (Event.linesSince [] log.events).rtake capacity
  /-- Old changes may be missing, but none of the newest, unless they have been dropped. -/
  newest : Event.Spare capacity log.events →
    KeepsNewest capacity (Event.changesSince [] log.events) report.changes
  /-- No more than the newest are told, unless the application has made too many itself. -/
  changes : Event.Spare capacity log.events →
    (Event.changesSince [] log.own).length ≤ capacity →
    report.changes = (Event.changesSince [] log.events).rtake capacity

namespace AppFrame

variable {c : Console κ ε} {f : AppFrame κ ε} {fs : List (AppFrame κ ε)} {log : FrameLog}
  {logs : List FrameLog} {may : Event → Prop}

theorem run_eq : f.run host path c =
    ((f.handle host c).passOn.1, (f.handle host c).passOn.2.saveIfDirty path) :=
  Message.frame_eq f.messages

namespace Logged

variable (h : f.Logged host c log)
include h

theorem capacity_prepare : (f.prepare host c).capacity = c.capacity := h.own.undergoes.capacity

theorem capacity_handle : (f.handle host c).capacity = c.capacity :=
  (show _ = _ from h.handled.undergoes.capacity).trans h.capacity_prepare

theorem capacity_run : (f.run host path c).2.capacity = c.capacity := by
  rw [run_eq]
  exact Console.undergoes_saveIfDirty.capacity.trans h.capacity_handle

theorem output_handle (hc : c.Idle) : (f.handle host c).output =
    (Event.linesSince [] log.events).rtake (max 1 c.capacity) := by
  have hempty : c.output = List.rtake [] (max 1 c.capacity) := by
    rw [List.rtake_nil]
    exact congrArg Held.output hc.held
  have hprepared : (f.prepare host c).output =
      (Event.linesSince [] log.own).rtake (max 1 c.capacity) := h.own.output_eq hempty
  rw [FrameLog.events, Event.linesSince_append]
  exact h.capacity_prepare ▸ h.handled.output_eq (h.capacity_prepare.symm ▸ hprepared)

theorem newest_prepare (hc : c.Idle) (hspare : Event.Spare c.capacity log.own) :
    KeepsNewest c.capacity (Event.changesSince [] log.own) (f.prepare host c).vars.changes := by
  have hempty : c.vars.changes = [] := congrArg Held.changes hc.held
  have hstart : KeepsNewest c.capacity [] c.vars.changes := hempty.symm ▸ .refl ..
  exact h.own.keepsNewest hspare hstart

theorem newest_handle (hc : c.Idle) (hspare : Event.Spare c.capacity log.events) :
    KeepsNewest c.capacity (Event.changesSince [] log.events) (f.handle host c).vars.changes := by
  obtain ⟨hown, hhandled⟩ := Event.spare_append.1 hspare
  rw [FrameLog.events, Event.changesSince_append]
  exact h.capacity_prepare ▸ h.handled.keepsNewest (h.capacity_prepare.symm ▸ hhandled)
    (h.capacity_prepare.symm ▸ h.newest_prepare hc hown)

/-- **One frame.** What has been printed and changed in it is told in it, and then the console holds
nothing and runs nothing. -/
theorem told (hc : c.Idle) (hcapacity : 0 < c.capacity) :
    log.Told c.capacity (f.run host path c).1 ∧ (f.run host path c).2.Idle := by
  have hrest : (f.prepare host c).AtRest := hc.toAtRest.perform f.own
  have hmax : max 1 c.capacity = c.capacity := by omega
  rw [run_eq]
  refine ⟨⟨?_, h.newest_handle hc, fun hspare hfew => ?_⟩, (Request.atRest_runAll hrest _).idle_passOn⟩
  · exact hmax ▸ h.output_handle hc
  · refine (h.newest_handle hc hspare).eq_rtake ?_
    have hnewest := h.newest_prepare hc (Event.spare_append.1 hspare).1
    have htrimmed : (f.prepare host c).Trimmed := by
      rw [Console.Trimmed, h.capacity_prepare]
      exact hnewest.suffix.length_le.trans hfew
    exact h.capacity_handle ▸ Message.trimmed_requests hrest htrimmed f.messages

end Logged

theorem exists_logged (hhost : host.Accounts may) (hf : ∀ w, f.own.Accounts may w) :
    ∃ log, f.Logged host c log ∧
      ∀ event ∈ log.events, event.Ordinary c.capacity ∨ may event := by
  have hown : Leads host ⟨.handler f.own, [], c⟩ _ := Console.leads_handler f.own [] c
  have hrequests : (Request.program (Message.requests f.messages)).Accounts may
      (f.prepare host c).toWorkspace :=
    Request.accounts_program (Message.accounts_requests f.messages) _
  obtain ⟨⟨own, htrace, hmay⟩, -⟩ :=
    hown.exists_trace hhost (Moment.accounts_handler (hf c.toWorkspace))
  obtain ⟨⟨handled, htrace', hmay'⟩, -⟩ :=
    Request.leads_finish.exists_trace hhost (Moment.accounts_handler hrequests)
  have hlogged : f.Logged host c ⟨own, handled⟩ := ⟨htrace, htrace'⟩
  have hcapacity : (Request.start (Message.requests f.messages)
      (f.prepare host c)).console.capacity = c.capacity := hlogged.capacity_prepare
  rw [hcapacity] at hmay'
  exact ⟨_, hlogged, List.forall_mem_append.2 ⟨hmay, hmay'⟩⟩

/-- **An application is told what has been printed and changed.** In each of its frames it is told
the lines printed in it, by the application itself and then while the messages were handled, each
once, in their order and in this frame; if there are more than the console has room for, it is told
as many of the newest. So it is told the changes, unless it has made more of them itself than there
is room for: then it may be told more than the newest. -/
theorem told_runAll (hhost : host.Accounts may) (hfs : ∀ f ∈ fs, ∀ w, f.own.Accounts may w)
    (hc : c.Idle) (hcapacity : 0 < c.capacity) :
    (∃ logs, LoggedAll host path c fs logs ∧
      ∀ log ∈ logs, ∀ event ∈ log.events, event.Ordinary c.capacity ∨ may event) ∧
    ∀ logs, LoggedAll host path c fs logs →
      List.Forall₂ (FrameLog.Told c.capacity) logs (runAll host path fs c).1 ∧
      (runAll host path fs c).2.Idle := by
  constructor
  · clear hc hcapacity
    induction fs generalizing c with
    | nil => exact ⟨[], .nil, List.forall_mem_nil _⟩
    | cons f fs ih =>
      obtain ⟨hf, hfs⟩ := List.forall_mem_cons.1 hfs
      obtain ⟨log, hlog, hmay⟩ := exists_logged (c := c) hhost hf
      obtain ⟨logs, hlogs, hall⟩ := ih (c := (f.run host path c).2) hfs
      rw [hlog.capacity_run] at hall
      exact ⟨log :: logs, .cons hlog hlogs, List.forall_mem_cons.2 ⟨hmay, hall⟩⟩
  · intro logs hlogs
    clear hfs
    induction hlogs with
    | nil => exact ⟨.nil, hc⟩
    | @cons c f fs log logs hlog _ ih =>
      have hkept : (f.run host path c).2.capacity = c.capacity := hlog.capacity_run
      obtain ⟨htold, hidle⟩ : log.Told c.capacity (f.run host path c).1 ∧
        (f.run host path c).2.Idle := hlog.told hc hcapacity
      obtain ⟨hrest, hend⟩ := ih hidle (hkept ▸ hcapacity)
      exact ⟨.cons htold (hkept ▸ hrest), hend⟩

/-! ### More lines than there is room for -/

/-- A frame in which the application does nothing with the console itself. -/
def ofMessages (messages : List Message) : AppFrame κ ε := ⟨.stop .passed, messages⟩

theorem accounts_ofMessages (messages : List (List Message)) :
    ∀ f ∈ messages.map ofMessages, ∀ w : Workspace κ ε, f.own.Accounts may w := by
  intro f hf w
  obtain ⟨_, -, rfl⟩ := List.mem_map.1 hf
  trivial

theorem idle_narrowConsole (capacity : Nat) : (Console.narrowConsole capacity).Idle where
  depth := rfl
  pending := rfl
  held := rfl

/-- If there is room for two lines, both lines of a query are told, and nothing in the frame after
it. -/
theorem told_runAll_narrowConsole : ∃ logs,
    LoggedAll .idle "console.ron" (Console.narrowConsole 2)
      ([[.input "echo a"], []].map ofMessages) logs ∧
    List.Forall₂ (FrameLog.Told 2) logs
      [⟨[⟨.command, "$ echo a"⟩, ⟨.info, "a"⟩], []⟩, ⟨[], []⟩] := by
  have hcapacity : (Console.narrowConsole 2).capacity = 2 := rfl
  have hreports : (runAll .idle "console.ron" ([[.input "echo a"], []].map ofMessages)
      (Console.narrowConsole 2)).1 =
        [⟨[⟨.command, "$ echo a"⟩, ⟨.info, "a"⟩], []⟩, ⟨[], []⟩] := by
    decide +kernel
  obtain ⟨⟨logs, hlogs, -⟩, hall⟩ := told_runAll (Host.accounts_idle fun _ => False)
    (accounts_ofMessages [[.input "echo a"], []]) (idle_narrowConsole 2) (by decide)
  have htold := (hall logs hlogs).1
  rw [hcapacity, hreports] at htold
  exact ⟨logs, hlogs, htold⟩

/-- Whether all lines that are printed and all changes that are made while messages are handled are
told in their frame, if nothing is taken before and no more is dropped than usual. -/
def TellsAll (host : Host κ (Workspace κ ε)) (path : String) (c : Console κ ε) : Prop :=
  ∀ (messages : List (List Message)) logs, LoggedAll host path c (messages.map ofMessages) logs →
    (∀ log ∈ logs, ∀ event ∈ log.events, event.Ordinary c.capacity) →
    List.Forall₂ (fun log report => report.output = Event.linesSince [] log.handled ∧
        report.changes = Event.changesSince [] log.handled)
      logs (runAll host path (messages.map ofMessages) c).1

/-- A submitted query is echoed before anything else happens. -/
theorem exists_logged_input (hhost : host.Accounts may) (c : Console κ ε) {source : String}
    (hsource : (Text.trim source).isEmpty = false) : ∃ events,
      (ofMessages [.input source]).Logged host c
        ⟨[], .print ⟨.command, "$ " ++ Text.trim source⟩ :: events⟩ ∧
      ∀ event ∈ events, event.Ordinary c.capacity ∨ may event := by
  let line := "$ " ++ Text.trim source
  have hrequests : Message.requests [.input source] =
      [.print .command line, .execute (Text.trim source)] := by
    simp [Message.requests, Message.inputs, Message.keys, hsource, line]
  have hecho : Trace host
      (Request.start [.print .command line, .execute (Text.trim source)] c)
      [.print ⟨.command, line⟩]
      (Request.start [.execute (Text.trim source)] (c.print .command line)) :=
    (Trace.refl.tail .get rfl).tail .put (Workspace.undergoes_print ..)
  have hexecute : ∀ r ∈ [Request.execute (Text.trim source)], r.Accounts may :=
    List.forall_mem_singleton.2 trivial
  obtain ⟨⟨events, hrun, hmay⟩, -⟩ := Request.leads_finish.exists_trace hhost
    (Moment.accounts_handler
      (Request.accounts_program hexecute (c.print .command line).toWorkspace))
  refine ⟨events, ⟨.refl, ?_⟩, hmay⟩
  dsimp only [ofMessages]
  rw [hrequests]
  exact hecho.trans hrun

/-- If there is room for one line, the first of the two is lost. -/
theorem not_tellsAll_narrowConsole : (Console.narrowConsole 1).Idle ∧
    ¬ TellsAll .idle "console.ron" (Console.narrowConsole 1) := by
  refine ⟨idle_narrowConsole 1, fun h => ?_⟩
  have hsource : (Text.trim "echo a").isEmpty = false := by decide
  obtain ⟨events, hlogged, hmay⟩ := exists_logged_input (Host.accounts_idle fun _ => False)
    (Console.narrowConsole 1) hsource
  have hordinary : ∀ event ∈ events, event.Ordinary (Console.narrowConsole 1).capacity :=
    fun event hmem => (hmay event hmem).resolve_right id
  have hreports : (runAll .idle "console.ron" ([[.input "echo a"]].map ofMessages)
      (Console.narrowConsole 1)).1 = [⟨[⟨.info, "a"⟩], []⟩] := by
    decide +kernel
  have htold := h [[.input "echo a"]] _ (.cons hlogged .nil)
    (List.forall_mem_singleton.2 (List.forall_mem_cons.2 ⟨trivial, hordinary⟩))
  rw [hreports] at htold
  obtain ⟨⟨houtput, -⟩, -⟩ := List.forall₂_cons.1 htold
  -- the echo is the first of all lines, but it is not told
  have hprefix := Event.prefix_linesSince (fun hmem => hordinary _ hmem)
    [⟨.command, "$ " ++ Text.trim "echo a"⟩]
  have hlines : [⟨.info, "a"⟩] = Event.linesSince [⟨.command, "$ " ++ Text.trim "echo a"⟩] events :=
    houtput
  rw [← hlines] at hprefix
  cases (List.cons_prefix_cons.1 hprefix).1

end AppFrame

end DevConsole
