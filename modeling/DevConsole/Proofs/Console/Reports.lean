import DevConsole.Proofs.Console.Grounds
import DevConsole.Proofs.Console.Pending
import DevConsole.Proofs.Query.Caching

/-!
Errors and their texts. An error carries the name and the text of every alias and of every executed
query that it has come out of. Main statement: the innermost of these texts is the one that the
error is about, so that a reference stands there where the error says, and a fault is the fault of
just this text.
-/

namespace DevConsole

open Relation

/-! ### Consoles that are sound -/

namespace Console

variable {κ ε : Type} {c c' : Console κ ε} {raised raised' : ReferenceError → Prop}

/-- Whether the cache is right, and an error that is pending is explained by the text that was
executed. -/
structure Sound (raised : ReferenceError → Prop) (c : Console κ ε) : Prop where
  cache : c.cache.Faithful
  pending : ∀ source e, c.pending = some (source, e) → e.Explained raised (.text source)

theorem sound_ofSettings (s : Settings) (host : ε) :
    (ofSettings s host : Console κ ε).Sound raised :=
  ⟨fun _ _ h => (by simp [ofSettings] at h), fun _ _ h => by simp [ofSettings] at h⟩

theorem Sound.mono (h : c.Sound raised) (hr : ∀ r, raised r → raised' r) : c.Sound raised' :=
  ⟨h.cache, fun source e he => (h.pending source e he).mono hr⟩

theorem Sound.of_eq (h : c.Sound raised) (hcache : c'.cache = c.cache)
    (hpending : c'.pending = c.pending) : c'.Sound raised :=
  ⟨hcache ▸ h.cache, hpending ▸ h.pending⟩

theorem Sound.of_parse (h : c.Sound raised) {source : String}
    {answer : Except SyntaxError Query} (hparse : c.parse source = (answer, c')) :
    DevConsole.parse source = answer ∧ c'.Sound raised := by
  obtain ⟨hanswer, hcache⟩ := h.cache.get source
  obtain ⟨rfl, rfl⟩ := Prod.mk.inj hparse
  exact ⟨hanswer.symm, hcache, h.pending⟩

@[simp] theorem cache_print (level : Level) (message : String) :
    (c.print level message).cache = c.cache := rfl

@[simp] theorem cache_report (e : InvocationError) : (c.report e).cache = c.cache := rfl

@[simp] theorem cache_enter : c.enter.cache = c.cache := rfl

@[simp] theorem cache_leave : c.leave.cache = c.cache := rfl

@[simp] theorem cache_trim : c.trim.cache = c.cache := by
  unfold trim
  split <;> rfl

@[simp] theorem cache_countStep : c.countStep.cache = c.cache := by
  unfold countStep
  dsimp only
  split <;> rfl

@[simp] theorem cache_warnArguments (call : Invocation) :
    (c.warnArguments call).cache = c.cache := by
  unfold warnArguments
  split <;> rfl

@[simp] theorem cache_settle (contained : Bool) (source : String) (e : QueryError) :
    (c.settle contained source e).cache = c.cache := by
  unfold settle
  split <;> rfl

@[simp] theorem cache_close (name : String) (ending : Ending) :
    (c.close name ending).1.cache = c.cache := by
  unfold close
  split <;> rfl

theorem Sound.settle (h : c.Sound raised) {source : String} {e : QueryError}
    (he : e.Explained raised (.text source)) (contained : Bool) :
    (c.settle contained source e).Sound raised := by
  refine ⟨(cache_settle (c := c) contained source e).symm ▸ h.cache, ?_⟩
  intro source' e' hpending
  unfold Console.settle at hpending
  split at hpending
  · cases hpending
    exact he
  · exact h.pending source' e' hpending

theorem Sound.close (h : c.Sound raised) (name : String) (ending : Ending) :
    (c.close name ending).1.Sound raised := by
  refine ⟨(cache_close (c := c) name ending).symm ▸ h.cache, ?_⟩
  intro source e hpending
  cases (pending_close name ending).symm.trans hpending

/-- The error of a handler that has ended is one that was pending. -/
theorem Sound.explained_close (h : c.Sound raised) {name : String} {ending : Ending}
    {e : QueryError} (he : (c.close name ending).2 = .error e) (g : Ground) :
    e.Explained raised g := by
  unfold Console.close at he
  split at he
  · next source e' hpending =>
    cases he
    exact (h.pending source e' hpending).within name
  · cases he
  · cases he
  · cases he

end Console

/-! ### Moments that are explained -/

section Moments

variable {κ ε : Type} {host : Host κ (Workspace κ ε)} {m m' : Moment κ ε} {own : Ground}
variable {raised raised' : ReferenceError → Prop}

/-- Where the clauses come from that the console is at, with `K` waiting; `own` is where those of
the outermost query come from. -/
def ground (own : Ground) : List (Waiting κ ε) → Ground
  | [] => own
  | .rest .. :: K | .command _ :: K => ground own K
  | .expansion _ body :: _ => .text body
  | .assignment :: K => (ground own K).assigning
  | .execute _ source _ :: _ => .text source
  | .evaluate _ :: _ => .handler

/-- Whether the clauses that remain behind what waits come from where they should. -/
def Grounded (own : Ground) : List (Waiting κ ε) → Prop
  | [] => True
  | .rest _ cs :: K => (∀ c ∈ cs, c.All (ground own K).Gives) ∧ Grounded own K
  | _ :: K => Grounded own K

/-- Whether what is at hand comes from the ground. -/
def Activity.Explained (raised : ReferenceError → Prop) (g : Ground) : Activity κ ε → Prop
  | .query _ q => q.clauses.All g.Gives
  | .clauses _ _ cs => ∀ c ∈ cs, c.All g.Gives
  | .invocation call => g.Gives call
  | .handler _ => True
  | .returned answer | .ended answer => ∀ e, answer = .error e → e.Explained raised g

/-- Whether all that is at hand, that waits or is pending comes from where it should. -/
structure Moment.Explained (raised : ReferenceError → Prop) (own : Ground) (m : Moment κ ε) :
    Prop where
  activity : m.activity.Explained raised (ground own m.waiting)
  waiting : Grounded own m.waiting
  console : m.console.Sound raised

/-- Whether the reference comes up in the moment, where there is no variable of its name. -/
def Moment.Raises (host : Host κ (Workspace κ ε)) (m : Moment κ ε) (r : ReferenceError) : Prop :=
  m.console.vars.text? r.name = none ∧ ∃ call m', m.activity = .invocation call ∧ Step host m m' ∧
    m'.activity = .returned (.error (.undefined r))

theorem Step.raises {call : Invocation} {K : List (Waiting κ ε)} {c : Console κ ε}
    {r : ReferenceError}
    (h : Step host ⟨.invocation call, K, c⟩ ⟨.returned (.error (.undefined r)), K, c⟩)
    (hresolve : resolveAll c.vars.text? call.args = .error r) :
    Moment.Raises host ⟨.invocation call, K, c⟩ r :=
  ⟨(resolveAll_eq_error hresolve).1, call, _, rfl, h, rfl⟩

theorem Step.grounded (h : Step host m m') (hm : m.Explained raised own) :
    Grounded own m'.waiting := by
  obtain ⟨hactivity, hwaiting, -⟩ := hm
  cases h with
  | command hstop => exact ⟨(all_of_nextStop? hstop hactivity).1, hwaiting⟩
  | goOn | breakOff => exact hwaiting.2
  | _ => exact hwaiting

theorem Step.console_sound (h : Step host m m') (hm : m.Explained raised own) :
    m'.console.Sound raised := by
  obtain ⟨hactivity, -, hconsole⟩ := hm
  cases h with
  | malformedBody _ _ hparse | expand _ _ hparse =>
    exact ((hconsole.of_eq (by simp) (by simp)).of_parse hparse).2
  | malformedSource _ hparse | execute _ hparse => exact (hconsole.of_parse hparse).2
  | parse => exact (hconsole.of_parse rfl).2
  | put => exact hconsole.of_eq rfl rfl
  | settle => exact (hconsole.of_eq (by simp) (by simp)).settle (hactivity _ rfl) _
  | close => exact hconsole.close _ _
  | _ => exact hconsole.of_eq (by simp) (by simp)

theorem Step.activity_explained (h : Step host m m')
    (hraises : ∀ r, m.Raises host r → raised r) (hm : m.Explained raised own) :
    m'.activity.Explained raised (ground own m'.waiting) := by
  obtain ⟨hactivity, hwaiting, hconsole⟩ := hm
  cases h with
  -- the clauses of a query
  | enter => simpa [Activity.Explained] using hactivity
  | group hstop => exact (all_of_nextStop? hstop hactivity).1
  | command hstop => exact (all_of_nextStop? hstop hactivity).2 _ _ rfl
  | goOn => exact hwaiting.1
  | breakOff => exact hactivity
  | tooDeep =>
    rintro _ ⟨⟩
    trivial
  -- references that are not defined
  | undefinedArgument hname htarget hresolve =>
    rintro _ ⟨⟩
    refine ⟨Ground.refers_of_gives hactivity hresolve, hraises _ ?_⟩
    exact Step.raises (.undefinedArgument hname htarget hresolve) hresolve
  | undefinedValue hname htarget hargs hresolve =>
    rintro _ ⟨⟩
    refine ⟨Ground.refers_of_gives hactivity hresolve, hraises _ ?_⟩
    exact Step.raises (.undefinedValue hname htarget hargs hresolve) hresolve
  -- aliases
  | malformedBody _ _ hparse =>
    rintro _ ⟨⟩
    have hfault := ((hconsole.of_eq (by simp) (by simp)).of_parse hparse).1
    exact hfault
  | expand _ _ hparse =>
    exact standsIn_of_parse ((hconsole.of_eq (by simp) (by simp)).of_parse hparse).1
  | @expanded answer name body =>
    intro e he
    cases answer with
    | error e' =>
      cases he
      exact (hactivity _ rfl).within name
    | ok passed => cases he
  -- assignments
  | malformedAssignment hname _ _ _ hparse =>
    rintro _ ⟨⟩
    exact Ground.faulty_of_assignment hactivity hname hparse
  | assign hname _ _ _ hparse => exact Ground.gives_assignment hactivity hname hparse
  | @assigned answer =>
    intro e he
    cases answer with
    | error e' =>
      cases he
      exact (hactivity _ rfl).of_assigning
    | ok passed => cases he
  -- sources that handlers run
  | malformedSource _ hparse =>
    rintro _ ⟨⟩
    exact (hconsole.of_parse hparse).1
  | execute _ hparse => exact standsIn_of_parse (hconsole.of_parse hparse).1
  | @evaluate q => exact q.clauses.all_trivial fun _ => trivial
  | close =>
    intro e he
    exact hconsole.explained_close he _
  | _ => first | trivial | rintro _ ⟨⟩

theorem Step.explained (h : Step host m m') (hraises : ∀ r, m.Raises host r → raised r)
    (hm : m.Explained raised own) : m'.Explained raised own :=
  ⟨h.activity_explained hraises hm, h.grounded hm, h.console_sound hm⟩

/-- **Errors come from where they say.** What is explained at one moment of a run is explained at
all that follow. -/
theorem Leads.explained (h : Leads host m m') (hm : m.Explained raised own)
    (hraises : ∀ m' r, Leads host m m' → m'.Raises host r → raised r) :
    m'.Explained raised own := by
  induction h with
  | refl => exact hm
  | tail hlead hstep ih => exact hstep.explained (fun r hr => hraises _ r hlead hr) ih

end Moments

/-! ### Errors that are true to their texts -/

namespace QueryError

variable {raised : ReferenceError → Prop}

/-- The innermost text that the error carries, `source` if it carries none, and the error that arose
in this text. -/
def innermost (source : String) : QueryError → String × QueryError
  | .expanding _ body e => e.innermost body
  | e => (source, e)

/-- Whether the error of a query with the text `source` is what it says about its innermost text. -/
structure TrueTo (raised : ReferenceError → Prop) (source : String) (e : QueryError) : Prop where
  /-- A reference lies inside the text, its name stands there in braces, and it has come up. -/
  undefined : ∀ r, (e.innermost source).2 = .undefined r →
    r.offset + r.length ≤ (e.innermost source).1.length ∧
      ((e.innermost source).1.toList.drop r.offset).take r.length = '{' :: r.name.toList ++ ['}'] ∧
      raised r
  /-- A fault is what reading the text comes to. -/
  malformed : ∀ fault, (e.innermost source).2 = .malformed fault →
    parse (e.innermost source).1 = .error fault
  /-- It is in this text that the place is shown. -/
  report : ∃ heading,
    e.report source = heading ++ (e.innermost source).2.report (e.innermost source).1

theorem report_eq_innermost (e : QueryError) (source : String) : ∃ heading,
    e.report source = heading ++ (e.innermost source).2.report (e.innermost source).1 := by
  induction e generalizing source with
  | expanding name body e ih =>
    obtain ⟨heading, h⟩ := ih body
    refine ⟨s!"in '{name}':\n" ++ heading, ?_⟩
    simp only [QueryError.report, innermost, h, String.append_assoc]
  | _ => exact ⟨"", by simp [innermost]⟩

theorem Explained.innermost {source : String} {e : QueryError}
    (h : e.Explained raised (.text source)) :
    (e.innermost source).2.Explained raised (.text (e.innermost source).1) := by
  induction e generalizing source with
  | expanding name body e ih => exact ih h
  | _ => exact h

theorem Explained.trueTo {source : String} {e : QueryError}
    (h : e.Explained raised (.text source)) : e.TrueTo raised source := by
  have hinnermost := h.innermost
  refine ⟨fun r hr => ?_, fun fault hfault => ?_, e.report_eq_innermost source⟩
  · rw [hr] at hinnermost
    obtain ⟨⟨before, after, htext, hlength⟩, hraised⟩ := hinnermost
    have hbraces : ('{' :: r.name.toList ++ ['}']).length = r.length := by
      simp [ReferenceError.length, String.length_toList]
    have htext' : (e.innermost source).1.toList =
        before ++ (('{' :: r.name.toList ++ ['}']) ++ after) := by
      simpa using htext
    refine ⟨?_, ?_, hraised⟩
    · rw [← String.length_toList, htext', ← hlength, ← hbraces]
      simp
    · rw [htext', ← hlength, List.drop_left, ← hbraces, List.take_left]
  · rw [hfault] at hinnermost
    exact hinnermost

end QueryError

variable {κ ε : Type} {host : Host κ (Workspace κ ε)} {c : Console κ ε}
variable {earlier : ReferenceError → Prop}

/-- Whether the reference comes up in the run of the query, or has come up `earlier`. -/
def RaisedBy (host : Host κ (Workspace κ ε)) (earlier : ReferenceError → Prop) (q : Query)
    (c : Console κ ε) (r : ReferenceError) : Prop :=
  earlier r ∨ ∃ m, Leads host (.start q c) m ∧ m.Raises host r

/-- All moments in the run of a query that has been read are explained. -/
theorem Leads.explained_of_parse (hc : c.Sound earlier) {source : String} {q : Query}
    (hparse : parse source = .ok q) {m : Moment κ ε} (h : Leads host (.start q c) m) :
    m.Explained (RaisedBy host earlier q c) (.text source) := by
  have hstart : (Moment.start q c).Explained (RaisedBy host earlier q c) (.text source) :=
    ⟨standsIn_of_parse hparse, trivial, hc.mono fun _ => .inl⟩
  exact h.explained hstart fun m' r hm' hr => .inr ⟨m', hm', hr⟩

/-- Whether the reference comes up when the source runs, or has come up `earlier`. -/
def RaisedRunning (host : Host κ (Workspace κ ε)) (earlier : ReferenceError → Prop)
    (source : String) (c : Console κ ε) (r : ReferenceError) : Prop :=
  earlier r ∨ ∃ q m, parse source = .ok q ∧ Leads host (.start q (c.parse source).2) m ∧
    m.Raises host r

theorem Leads.sound (hc : c.Sound earlier) {q : Query} {m : Moment κ ε}
    (h : Leads host (.start q c) m) : m.console.Sound (RaisedBy host earlier q c) := by
  have hstart : (Moment.start q c).Explained (RaisedBy host earlier q c) .handler :=
    ⟨q.clauses.all_trivial fun _ => trivial, trivial, hc.mono fun _ => .inl⟩
  exact (h.explained hstart fun m' r hm' hr => .inr ⟨m', hm', hr⟩).console

/-- What a source comes to leaves a sound console sound, and an error of it is explained. -/
theorem Console.Sound.outcome (hc : c.Sound earlier) (source : String) :
    (c.outcome (runner host) source).1.Sound (RaisedRunning host earlier source c) ∧
      ∀ e, (c.outcome (runner host) source).2 = .error e →
        e.Explained (RaisedRunning host earlier source c) (.text source) := by
  unfold Console.outcome
  rcases hlookup : c.parse source with ⟨fault | q, c₁⟩
  · obtain ⟨hparse, hc₁⟩ := hc.of_parse hlookup
    refine ⟨hc₁.mono fun _ => .inl, ?_⟩
    rintro _ ⟨⟩
    exact hparse
  · obtain ⟨hparse, hc₁⟩ := hc.of_parse hlookup
    have hraised : ∀ r, RaisedBy host earlier q c₁ r → RaisedRunning host earlier source c r := by
      rintro r (hr | ⟨m, hm, hr⟩)
      · exact .inl hr
      · exact .inr ⟨q, m, hparse, by rwa [hlookup], hr⟩
    have hlead : Leads host (.start q c₁) _ := leads_evaluate q c₁
    refine ⟨(hlead.sound hc₁).mono hraised, fun e he => ?_⟩
    exact ((hlead.explained_of_parse hc₁ hparse).activity e he).mono hraised

theorem Console.Sound.runSource (hc : c.Sound earlier) (contained : Bool) (source : String) :
    (c.runSource (runner host) contained source).1.Sound
      (RaisedRunning host earlier source c) := by
  obtain ⟨hsound, hexplained⟩ := hc.outcome source
  unfold Console.runSource
  split
  · exact hc.mono fun _ => .inl
  · split
    · next c' passed houtcome =>
      rw [houtcome] at hsound
      exact hsound.of_eq (by simp) (by simp)
    · next c' e houtcome =>
      rw [houtcome] at hsound hexplained
      exact (hsound.of_eq (by simp) (by simp)).settle (hexplained e rfl) contained

/-- **Errors are true to their texts.** If the query of a source breaks off with an error, then the
innermost text that the error carries, or the source if there is none, is the one that it is about:
a reference stands there where the error says, and came up when there was no variable of its name,
and a fault is what reading this text comes to. So it is with every source that a handler executes
meanwhile, and with every source that the console runs; and the console stays sound. An error that
is pending before may be about a reference that came up `earlier`. -/
theorem errors_trueTo (hc : c.Sound earlier) (source : String) :
    (∀ q, parse source = .ok q →
      (∀ e, (c.evaluate host q).2 = .error e → e.TrueTo (RaisedBy host earlier q c) source) ∧
      (∀ e contained text k K c',
        Leads host (.start q c) ⟨.ended (.error e), .execute contained text k :: K, c'⟩ →
        e.TrueTo (RaisedBy host earlier q c) text) ∧
      ∀ m, Leads host (.start q c) m → m.console.Sound (RaisedBy host earlier q c)) ∧
    (∀ e c', c.pending = none → c.outcome (Console.runner host) source = (c', .error e) →
      (∀ contained, c.runSource (Console.runner host) contained source =
        (c'.trim.settle contained source e, false)) ∧
      e.TrueTo (RaisedRunning host earlier source c) source) ∧
    ∀ contained, (c.runSource (Console.runner host) contained source).1.Sound
      (RaisedRunning host earlier source c) := by
  refine ⟨fun q hparse => ⟨fun e he => ?_, fun e contained text k K c' h => ?_, fun m h => ?_⟩,
    fun e c' hnone houtcome => ⟨fun contained => ?_, ?_⟩, fun contained => ?_⟩
  · have hlead : Leads host (.start q c) _ := Console.leads_evaluate q c
    exact ((hlead.explained_of_parse hc hparse).activity e he).trueTo
  · exact ((h.explained_of_parse hc hparse).activity e rfl).trueTo
  · exact h.sound hc
  · simp [Console.runSource, hnone, houtcome]
  · exact ((hc.outcome source).2 e (by rw [houtcome])).trueTo
  · exact hc.runSource contained source

/-- A console with an alias that refers to a variable that is not there. -/
def referring : Console Bool Unit :=
  { twoCommands with aliases := ⟨.ofList [("ä", "idle \"ö\\\"\x7bx\x7d\"")]⟩ }

/-- The reference stands behind an escape and a letter of two bytes, in the body of an alias that a
handler executes. -/
theorem errors_trueTo_of_alias :
    let host := .carryingOut (.execute false "ä" fun _ => .stop .passed)
    let e := QueryError.expanding "run" "ä"
      (.expanding "ä" "idle \"ö\\\"\x7bx\x7d\"" (.undefined ⟨"x", 9⟩))
    referring.Sound (fun _ => False) ∧ parse "run" = .ok (.ofName "run") ∧
      (referring.evaluate host (.ofName "run")).2 = .error e ∧
      e.TrueTo (RaisedBy host (fun _ => False) (.ofName "run") referring) "run" := by
  intro host e
  have hempty : (Console.ofSettings {} () : Console Bool Unit).Sound fun _ => False :=
    Console.sound_ofSettings {} ()
  have hsound : referring.Sound fun _ => False := hempty.of_eq rfl rfl
  have hparse : parse "run" = .ok (.ofName "run") := by rfl
  have herror : (referring.evaluate host (.ofName "run")).2 = .error e := by
    decide +kernel
  exact ⟨hsound, hparse, herror, ((errors_trueTo hsound "run").1 _ hparse).1 e herror⟩

end DevConsole
