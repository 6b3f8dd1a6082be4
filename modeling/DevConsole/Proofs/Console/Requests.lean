import DevConsole.Proofs.Console.Scripts
import DevConsole.Proofs.Console.Traces

/-!
What a host asks of a console that runs nothing, one request after the other. Main statement: of the
changes made since they were last taken none of the newest is missing, and no others are held but
where a query has been evaluated: only after sources the console sees to it.
-/

namespace DevConsole

variable {κ ε : Type} {host : Host κ (Workspace κ ε)}

/-! ### Consoles that run nothing -/

namespace Console

variable {c : Console κ ε}

theorem WithinLimits.perform (hc : c.WithinLimits) (p : Program (Workspace κ ε)) :
    (c.perform (runner host) p).1.WithinLimits := by
  induction p generalizing c with
  | stop => exact hc
  | get k ih => exact ih c.toWorkspace hc
  | put w p ih => exact ih ⟨hc.depth_le, hc.pending⟩
  | execute contained source k ih => exact ih _ (hc.runSource contained source)
  | parse source k ih => exact ih _ ⟨hc.depth_le, hc.pending⟩
  | evaluate q k ih => exact ih _ (hc.evaluate q)

theorem AtRest.perform (hc : c.AtRest) (p : Program (Workspace κ ε)) :
    (c.perform (runner host) p).1.AtRest := by
  have hlimits : c.WithinLimits := ⟨by simp [hc.depth], fun _ => hc.pending⟩
  have hdepth : (c.perform (runner host) p).1.depth = 0 :=
    (depth_of_limits (limits_perform keepsLimits_runner p)).1.trans hc.depth
  exact ⟨hdepth, (hlimits.perform p).pending hdepth⟩

/-- Whether no more changes are held than are to be kept. -/
def Trimmed (c : Console κ ε) : Prop := c.vars.changes.length ≤ c.capacity

theorem trimmed_trim (hc : c.depth = 0) : c.trim.Trimmed := by
  rw [trim, if_pos hc, Trimmed]
  exact (length_rtake c.vars.changes c.capacity).trans_le (Nat.min_le_left ..)

theorem Trimmed.settle (hc : c.Trimmed) (contained : Bool) (source : String) (e : QueryError) :
    (c.settle contained source e).Trimmed := by
  unfold Console.settle
  split <;> exact hc

/-- After a source no more changes are held than are to be kept. -/
theorem AtRest.trimmed_runSource (hc : c.AtRest) (contained : Bool) (source : String) :
    (c.runSource (runner host) contained source).1.Trimmed := by
  have hlimits : (c.outcome (runner host) source).1.limits = c.limits :=
    limits_outcome keepsLimits_runner source
  unfold runSource
  rw [if_neg (by simp [hc.pending])]
  rcases houtcome : c.outcome (runner host) source with ⟨c', e | passed⟩
  all_goals
    rw [houtcome] at hlimits
    have hdepth : c'.depth = 0 := (depth_of_limits hlimits).1.trans hc.depth
  · exact (trimmed_trim hdepth).settle ..
  · exact trimmed_trim hdepth

end Console

/-- An assignment by the host drops what is not to be kept, unless a listener panics. -/
theorem Workspace.set_cases (w : Workspace κ ε) (name raw : String) :
    (∃ p, (w.assign name raw true).2 = .error (.panicked p)) ∧
      (w.set name raw).1 = (w.assign name raw true).1 ∨
    (w.set name raw).1 = (w.assign name raw true).1.keepChanges := by
  unfold Workspace.set
  split
  · next p heq => exact .inl ⟨⟨p, by rw [heq]⟩, by rw [heq]⟩
  · next heq => exact .inr (by rw [heq])

/-! ### Requests -/

/-- What a host may ask of a console. -/
inductive Request
  | print (level : Level) (message : String)
  | takeOutput
  | takeChanges
  | set (name raw : String)
  | execute (source : String)
  | executeLine (source : String)
  | evaluate (q : Query)
  | press (key : String)
  | release (key : String)

namespace Request

def run (host : Host κ (Workspace κ ε)) (c : Console κ ε) : Request → Console κ ε
  | print level message => c.print level message
  | takeOutput => c.mapWorkspace (·.takeOutput.2)
  | takeChanges => c.mapWorkspace (·.takeChanges.2)
  | set name raw => c.mapWorkspace fun w => (w.set name raw).1
  | execute source => (c.execute host source).1
  | executeLine source => (c.executeLine host source).1
  | evaluate q => (c.evaluate host q).1
  | press key => (c.press host key).1
  | release key => (c.release host key).1

def runAll (host : Host κ (Workspace κ ε)) (c : Console κ ε) (rs : List Request) : Console κ ε :=
  rs.foldl (run host) c

def change (f : Workspace κ ε → Workspace κ ε) (p : Program (Workspace κ ε)) :
    Program (Workspace κ ε) :=
  .get fun w => .put (f w) p

/-- Has the release of a query run, if it has one, and goes on. -/
def releaseOf (p : Program (Workspace κ ε)) : Except SyntaxError Query → Program (Workspace κ ε)
  | .error _ => p
  | .ok q =>
    match q.singlePress?.map Console.releaseName with
    | none => p
    | some name => .get fun w =>
      if w.commands.contains name || w.aliases.contains name then .execute false name fun _ => p
      else p

/-- Makes the request, and goes on. -/
def andThen (p : Program (Workspace κ ε)) : Request → Program (Workspace κ ε)
  | print level message => change (·.print level message) p
  | takeOutput => change (·.takeOutput.2) p
  | takeChanges => change (·.takeChanges.2) p
  | set name raw => change (fun w => (w.set name raw).1) p
  | execute source => .execute false source fun _ => p
  | executeLine source => .execute true source fun _ => p
  | evaluate q => .evaluate q fun _ => p
  | press key => .get fun w =>
    match w.binds.queryFor? key with
    | none => p
    | some source => .execute false source fun _ => p
  | release key => .get fun w =>
    match w.binds.queryFor? key with
    | none => p
    | some source => .parse source (releaseOf p)

def program (rs : List Request) : Program (Workspace κ ε) :=
  rs.foldr (fun r p => r.andThen p) (.stop .passed)

variable {c : Console κ ε} {rs : List Request}

/-- The host makes a request by its program. -/
theorem perform_andThen (r : Request) (p : Program (Workspace κ ε)) :
    c.perform (Console.runner host) (r.andThen p) =
      (r.run host c).perform (Console.runner host) p := by
  cases r with
  | press key =>
    simp only [andThen, run, Console.press, Console.perform]
    rcases c.binds.queryFor? key with _ | source
    · rfl
    · rfl
  | release key =>
    simp only [andThen, run, Console.release, Console.perform]
    rcases c.binds.queryFor? key with _ | source
    · rfl
    · simp only [Console.perform]
      rcases c.parse source with ⟨fault | q, c'⟩
      · rfl
      · simp only [releaseOf]
        rcases q.singlePress?.map Console.releaseName with _ | name
        · rfl
        · simp only [Console.perform]
          split
          · rfl
          · rfl
  | _ => rfl

theorem perform_program :
    c.perform (Console.runner host) (program rs) = (runAll host c rs, .passed) := by
  induction rs generalizing c with
  | nil => rfl
  | cons r rs ih => exact (perform_andThen r _).trans ih

def start (rs : List Request) (c : Console κ ε) : Moment κ ε := ⟨.handler (program rs), [], c⟩

def finish (host : Host κ (Workspace κ ε)) (rs : List Request) (c : Console κ ε) : Moment κ ε :=
  ⟨.handler (.stop .passed), [], runAll host c rs⟩

/-- Requests are met step by step. -/
theorem leads_finish : Leads host (start rs c) (finish host rs c) := by
  have h : Leads host (start rs c) _ := Console.leads_handler (program rs) [] c
  rwa [perform_program] at h

theorem atRest_runAll (hc : c.AtRest) (rs : List Request) : (runAll host c rs).AtRest := by
  have h : (c.perform (Console.runner host) (program rs)).1.AtRest := hc.perform _
  rwa [perform_program] at h

/-! ### The changes that are held -/

/-- Whether no more changes are held after the request than are to be kept, if `before` says so of
the time before it. -/
def leavesTrimmed (before : Bool) : Request → Bool
  | takeChanges | execute _ | executeLine _ => true
  | evaluate _ => false
  | _ => before

theorem trimmed_set (hc : c.Trimmed) (name raw : String) :
    (c.mapWorkspace fun w => (w.set name raw).1).Trimmed := by
  rcases Workspace.set_cases c.toWorkspace name raw with ⟨⟨p, hpanic⟩, heq⟩ | heq
  -- a listener has panicked, so no change has been made
  · rcases Workspace.changes_run (.set name raw true) c.vars c.world with hsame | ⟨_, _, hok, -⟩
    · have hchanges : (c.assign name raw true).1.vars.changes = c.vars.changes := hsame
      simp only [Console.Trimmed, Console.mapWorkspace, heq]
      exact hchanges ▸ hc
    · cases hok.symm.trans hpanic
  · simp only [Console.Trimmed, Console.mapWorkspace, heq]
    exact (length_rtake ..).trans_le (Nat.min_le_left ..)

theorem trimmed_run (hc : c.AtRest) {before : Bool} (hbefore : before = true → c.Trimmed)
    {r : Request} (hr : r.leavesTrimmed before = true) : (r.run host c).Trimmed := by
  cases r with
  | print | takeOutput => exact hbefore hr
  | takeChanges => exact Nat.zero_le _
  | set name raw => exact trimmed_set (hbefore hr) name raw
  | execute source => exact hc.trimmed_runSource false source
  | executeLine source => exact hc.trimmed_runSource true source
  -- nothing is dropped after a query that is not of a source
  | evaluate => cases hr
  | press key =>
    simp only [run, Console.press]
    split
    · exact hc.trimmed_runSource false _
    · exact hbefore hr
  | release key =>
    simp only [run, Console.release]
    split
    · exact hbefore hr
    · next source _ =>
      -- looking up the query does nothing but to the cache
      have hparsed : (c.parse source).2.Trimmed := hbefore hr
      rcases hparse : c.parse source with ⟨fault | q, c'⟩
      all_goals
        rw [hparse] at hparsed
      · exact hparsed
      · have hc' : c'.AtRest := by
          have hlimits := limits_of_parse hparse
          exact ⟨(Console.depth_of_limits hlimits).1.trans hc.depth,
            (Console.pending_of_parse hparse).trans hc.pending⟩
        dsimp only
        split
        · exact hparsed
        · split
          · exact hc'.trimmed_runSource false _
          · exact hparsed

theorem trimmed_runAll (hc : c.AtRest) {before : Bool} (hbefore : before = true → c.Trimmed)
    (hrs : rs.foldl leavesTrimmed before = true) : (runAll host c rs).Trimmed := by
  induction rs generalizing c before with
  | nil => exact hbefore hrs
  | cons r rs ih => exact ih (atRest_runAll hc [r]) (trimmed_run hc hbefore) hrs

/-! ### What requests do to what is held -/

variable {may : Event → Prop}

/-- Whether `may` holds of what the request takes. -/
def Accounts (may : Event → Prop) : Request → Prop
  | takeOutput => may .takeOutput
  | takeChanges => may .takeChanges
  | _ => True

theorem accounts_change {f : Workspace κ ε → Workspace κ ε} {p : Program (Workspace κ ε)}
    (hf : ∀ w : Workspace κ ε, w.Accounts may (f w)) (hp : ∀ w, p.Accounts may w)
    (w : Workspace κ ε) : (change f p).Accounts may w := ⟨hf w, hp (f w)⟩

theorem accounts_set (name raw : String) (w : Workspace κ ε) :
    w.Accounts may (w.set name raw).1 := by
  have hassign : w.Accounts may (w.assign name raw true).1 :=
    Workspace.accounts_assignment (.set name raw true)
  rcases w.set_cases name raw with ⟨-, heq⟩ | heq
  · rwa [heq]
  · rw [heq]
    exact hassign.trans (Workspace.undergoes_keepChanges.accounts (.inl (Nat.le_refl _)))

theorem accounts_releaseOf {p : Program (Workspace κ ε)} (hp : ∀ w, p.Accounts may w)
    (answer : Except SyntaxError Query) (w : Workspace κ ε) :
    (releaseOf p answer).Accounts may w := by
  cases answer with
  | error => exact hp w
  | ok q =>
    simp only [releaseOf]
    split
    · exact hp w
    · rw [Program.Accounts]
      split
      · exact fun _ => hp
      · exact hp w

theorem accounts_andThen {r : Request} (hr : r.Accounts may) {p : Program (Workspace κ ε)}
    (hp : ∀ w, p.Accounts may w) (w : Workspace κ ε) : (r.andThen p).Accounts may w := by
  cases r with
  | print level message =>
    exact accounts_change (fun _ =>
      (Workspace.undergoes_print level message).accounts (.inl trivial)) hp w
  | takeOutput =>
    exact accounts_change (fun _ => Workspace.undergoes_takeOutput.accounts (.inr hr)) hp w
  | takeChanges =>
    exact accounts_change (fun _ => Workspace.undergoes_takeChanges.accounts (.inr hr)) hp w
  | set name raw => exact accounts_change (accounts_set name raw) hp w
  | execute | executeLine | evaluate => exact fun _ => hp
  | press key =>
    simp only [andThen, Program.Accounts]
    split
    · exact hp w
    · exact fun _ => hp
  | release key =>
    simp only [andThen, Program.Accounts]
    split
    · exact hp w
    · exact fun answer => accounts_releaseOf hp answer w

theorem accounts_program (hrs : ∀ r ∈ rs, r.Accounts may) (w : Workspace κ ε) :
    (program rs).Accounts may w := by
  induction rs generalizing w with
  | nil => trivial
  | cons r rs ih =>
    obtain ⟨hr, hrs⟩ := List.forall_mem_cons.1 hrs
    exact accounts_andThen hr (ih hrs) w

/-- **The changes that are held are the newest that have been made.** After any requests to a
console that runs nothing, the changes made since they were last taken are held in their order;
unless a handler itself drops changes that are to be kept, old ones may be missing, but none of the
newest. No more than the newest are held, unless a query has been evaluated and neither sources
executed nor changes taken after it. -/
theorem changes_eq_newest {changes : List Change} (hc : c.AtRest) (hhost : host.Accounts may)
    (hrs : ∀ r ∈ rs, r.Accounts may) (hchanges : c.vars.changes = changes.rtake c.capacity) :
    (∃ events, Trace host (start rs c) events (finish host rs c) ∧
      ∀ event ∈ events, event.Ordinary c.capacity ∨ may event) ∧
    ∀ events, Trace host (start rs c) events (finish host rs c) → Event.Spare c.capacity events →
      KeepsNewest c.capacity (Event.changesSince changes events)
        (runAll host c rs).vars.changes ∧
      (rs.foldl leavesTrimmed true = true → (runAll host c rs).vars.changes =
        (Event.changesSince changes events).rtake c.capacity) := by
  have hstart : Moment.Accounts may (start rs c) :=
    Moment.accounts_handler (accounts_program hrs c.toWorkspace)
  refine ⟨(leads_finish.exists_trace hhost hstart).1, fun events htrace hspare => ?_⟩
  have hbefore : KeepsNewest c.capacity changes c.vars.changes :=
    hchanges ▸ (KeepsNewest.refl c.capacity changes).rtake le_rfl
  have hnewest : KeepsNewest c.capacity _ (runAll host c rs).vars.changes :=
    htrace.keepsNewest hspare hbefore
  refine ⟨hnewest, fun htrimmed => hnewest.eq_rtake ?_⟩
  have htrim : c.Trimmed := by
    rw [Console.Trimmed, hchanges, length_rtake]
    exact Nat.min_le_left ..
  have hcapacity : (runAll host c rs).capacity = c.capacity := htrace.undergoes.capacity
  have hlast : (runAll host c rs).Trimmed := trimmed_runAll hc (fun _ => htrim) htrimmed
  exact hcapacity ▸ hlast

/-! ### A query that assigns twice -/

/-- A console with room for a few changes and with a variable. -/
def gaugeConsole (capacity : Nat) : Console Empty Unit :=
  (Console.narrowConsole capacity).mapWorkspace fun w =>
    { w with vars := {
        builtins := NameMap.empty.insert "sv_a" ⟨.int32, .ofDefault "sv_a" 0, false⟩ } }

def twoAssignments : Query :=
  ⟨.command .always { name := "sv_a", args := [⟨[.literal "1" 5], 5⟩] }
    (.command .always { name := "sv_a", offset := 8, args := [⟨[.literal "2" 13], 13⟩] } .nil)⟩

example : parse "sv_a 1; sv_a 2" = .ok twoAssignments := by rfl

/-- If there is room for one change, the first of two is dropped after the source. -/
theorem changes_eq_newest_gaugeConsole : ∃ events,
    Trace .idle (start [.execute "sv_a 1; sv_a 2"] (gaugeConsole 1)) events
      (finish .idle [.execute "sv_a 1; sv_a 2"] (gaugeConsole 1)) ∧
    (∀ event ∈ events, event.Ordinary 1) ∧
    [⟨"sv_a", "1", "2"⟩] = (Event.changesSince [] events).rtake 1 := by
  have hrest : (gaugeConsole 1).AtRest := ⟨rfl, rfl⟩
  have hcapacity : (gaugeConsole 1).capacity = 1 := rfl
  have hempty : (gaugeConsole 1).vars.changes = List.rtake [] (gaugeConsole 1).capacity := by
    rw [List.rtake_nil]
    rfl
  have hrequest : ∀ r ∈ [.execute "sv_a 1; sv_a 2"], Accounts (fun _ => False) r :=
    List.forall_mem_singleton.2 trivial
  have hchanges : (runAll .idle (gaugeConsole 1) [.execute "sv_a 1; sv_a 2"]).vars.changes =
      [⟨"sv_a", "1", "2"⟩] := by
    decide +kernel
  obtain ⟨⟨events, htrace, hmay⟩, hall⟩ := changes_eq_newest hrest (Host.accounts_idle _) hrequest hempty
  have hordinary : ∀ event ∈ events, event.Ordinary 1 := fun event hmem =>
    (hmay event hmem).resolve_right id
  have hlast := (hall events htrace fun _ hmem => hordinary _ hmem).2 rfl
  rw [hchanges, hcapacity] at hlast
  exact ⟨events, htrace, hordinary, hlast⟩

/-- Whether no other changes than the newest are ever held after some requests. -/
def HoldsNewestChanges (host : Host κ (Workspace κ ε)) (c : Console κ ε) : Prop :=
  ∀ rs events, Trace host (start rs c) events (finish host rs c) → Event.Spare c.capacity events →
    (runAll host c rs).vars.changes =
      (Event.changesSince c.vars.changes events).rtake c.capacity

/-- If there is room for one change, both are held after a query has been evaluated. -/
theorem not_holdsNewestChanges_gaugeConsole : (gaugeConsole 1).AtRest ∧
    (gaugeConsole 1).vars.changes = [] ∧ ¬ HoldsNewestChanges .idle (gaugeConsole 1) := by
  refine ⟨⟨rfl, rfl⟩, rfl, fun h => ?_⟩
  have hrequest : ∀ r ∈ [.evaluate twoAssignments], Accounts (fun _ => False) r :=
    List.forall_mem_singleton.2 trivial
  have hprogram := accounts_program hrequest (gaugeConsole 1).toWorkspace
  obtain ⟨⟨events, htrace, hmay⟩, -⟩ :=
    leads_finish.exists_trace (Host.accounts_idle _) (Moment.accounts_handler hprogram)
  have hspare : Event.Spare (gaugeConsole 1).capacity events := fun _ hmem =>
    (hmay _ hmem).resolve_right id
  have hactual : (runAll .idle (gaugeConsole 1) [.evaluate twoAssignments]).vars.changes.length =
      2 := by
    decide +kernel
  have hcapacity : (gaugeConsole 1).capacity = 1 := rfl
  rw [h _ events htrace hspare, length_rtake, hcapacity] at hactual
  omega

end Request

end DevConsole
