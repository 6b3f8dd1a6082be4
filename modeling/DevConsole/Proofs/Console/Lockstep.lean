import Mathlib.Data.List.Forall2
import DevConsole.Proofs.Console.Runs

/-!
Runs side by side, on two consoles that differ in their settings and in what no handler looks at.
Main statement: if it is the same queries that are too deep, and the same clauses that are warned
about or the warnings are not looked at, then each step on the one console goes with a step on the
other.
-/

namespace DevConsole

open Relation

variable {κ ε : Type}

/-! ### Programs that do the same -/

/-- Whether two programs have the same queries run and end the same way, as long as what they look
at differs by no more than `W` allows. What they leave behind differs by no more than that, too. -/
inductive Program.Alike {γ : Type} (W : γ → γ → Prop) : Program γ → Program γ → Prop
  | stop (e : Ending) : Alike W (.stop e) (.stop e)
  | get {k k' : γ → Program γ} :
    (∀ w w', W w w' → Alike W (k w) (k' w')) → Alike W (.get k) (.get k')
  | put {w w' : γ} {p p' : Program γ} :
    W w w' → Alike W p p' → Alike W (.put w p) (.put w' p')
  | execute {contained : Bool} {source : String} {k k' : Bool → Program γ} :
    (∀ passed, Alike W (k passed) (k' passed)) →
    Alike W (.execute contained source k) (.execute contained source k')
  | parse {source : String} {k k' : Except SyntaxError Query → Program γ} :
    (∀ answer, Alike W (k answer) (k' answer)) → Alike W (.parse source k) (.parse source k')
  | evaluate {q : Query} {k k' : Except QueryError Bool → Program γ} :
    (∀ answer, Alike W (k answer) (k' answer)) → Alike W (.evaluate q k) (.evaluate q k')

namespace Program

variable {γ : Type} {p p' : Program γ}

theorem alike_refl (p : Program γ) : p.Alike Eq p := by
  induction p with
  | stop e => exact .stop e
  | get k ih =>
    refine .get ?_
    rintro w _ rfl
    exact ih w
  | put w p ih => exact .put rfl ih
  | execute _ _ k ih => exact .execute ih
  | parse _ k ih => exact .parse ih
  | evaluate _ k ih => exact .evaluate ih

theorem Alike.eq (h : p.Alike Eq p') : p' = p := by
  induction h with
  | stop => rfl
  | get _ ih => exact congrArg Program.get (funext fun w => ih w w rfl)
  | put hw _ ih => rw [hw, ih]
  | execute _ ih => exact congrArg _ (funext ih)
  | parse _ ih => exact congrArg _ (funext ih)
  | evaluate _ ih => exact congrArg _ (funext ih)

end Program

/-! ### Workspaces that the console does not tell apart -/

/-- Whether the console does the same on any two workspaces of which `W` holds, and makes them into
such as `W` holds of again. -/
structure Workspace.Unseen (W : Workspace κ ε → Workspace κ ε → Prop) : Prop where
  vars : ∀ {w w'}, W w w' → w'.vars = w.vars
  commands : ∀ {w w'}, W w w' → w'.commands = w.commands
  aliases : ∀ {w w'}, W w w' → w'.aliases = w.aliases
  print : ∀ {w w'} level message, W w w' → W (w.print level message) (w'.print level message)
  keepChanges : ∀ {w w'}, W w w' → W w.keepChanges w'.keepChanges

/-- Whether `W` holds all the same after only one of two workspaces has got a line of output. -/
structure Workspace.Absorbs (W : Workspace κ ε → Workspace κ ε → Prop) : Prop where
  left : ∀ {w w'} level message, W w w' → W (w.print level message) w'
  right : ∀ {w w'} level message, W w w' → W w (w'.print level message)

theorem Workspace.unseen_eq : Workspace.Unseen (Eq : Workspace κ ε → Workspace κ ε → Prop) where
  vars h := h ▸ rfl
  commands h := h ▸ rfl
  aliases h := h ▸ rfl
  print _ _ h := h ▸ rfl
  keepChanges h := h ▸ rfl

variable {W : Workspace κ ε → Workspace κ ε → Prop}

/-! ### Consoles -/

namespace Console

/-- Whether the consoles differ in their settings and otherwise by no more than `W` allows. -/
structure Alike (W : Workspace κ ε → Workspace κ ε → Prop) (c c' : Console κ ε) : Prop where
  workspace : W c.toWorkspace c'.toWorkspace
  cache : c'.cache = c.cache
  depth : c'.depth = c.depth
  steps : c'.steps = c.steps
  pending : c'.pending = c.pending

namespace Alike

variable {c c' d : Console κ ε}

theorem target (hW : Workspace.Unseen W) (h : c.Alike W c') (name : String) :
    c'.target name = c.target name := by
  simp only [Console.target, hW.vars h.workspace, hW.commands h.workspace, hW.aliases h.workspace]

theorem print (hW : Workspace.Unseen W) (h : c.Alike W c') (level : Level) (message : String) :
    (c.print level message).Alike W (c'.print level message) :=
  { h with workspace := hW.print level message h.workspace }

theorem put (h : c.Alike W c') {w w' : Workspace κ ε} (hw : W w w') :
    { c with toWorkspace := w }.Alike W { c' with toWorkspace := w' } :=
  { h with workspace := hw }

theorem parse (h : c.Alike W c') {source : String} {answer : Except SyntaxError Query}
    (hparse : c.parse source = (answer, d)) :
    ∃ d', c'.parse source = (answer, d') ∧ d.Alike W d' := by
  have hget : c'.cache.get source = c.cache.get source := by rw [h.cache]
  obtain ⟨rfl, rfl⟩ := Prod.mk.inj hparse
  refine ⟨(c'.parse source).2, Prod.ext ?_ rfl, { h with cache := congrArg Prod.snd hget }⟩
  show (c'.cache.get source).1 = (c.cache.get source).1
  rw [hget]

theorem warnArguments (hW : Workspace.Unseen W) (h : c.Alike W c') (call : Invocation) :
    (c.warnArguments call).Alike W (c'.warnArguments call) := by
  unfold Console.warnArguments
  split
  · exact h
  · exact h.print hW ..

theorem trim (hW : Workspace.Unseen W) (h : c.Alike W c') : c.trim.Alike W c'.trim := by
  simp only [Console.trim, h.depth]
  split
  · exact { h with workspace := hW.keepChanges h.workspace }
  · exact h

theorem settle (hW : Workspace.Unseen W) (h : c.Alike W c') (contained : Bool) (source : String)
    (e : QueryError) : (c.settle contained source e).Alike W (c'.settle contained source e) := by
  simp only [Console.settle, h.depth]
  split
  · exact { h with depth := rfl, pending := rfl }
  · exact h.print hW ..

theorem close (hW : Workspace.Unseen W) (h : c.Alike W c') (name : String) (ending : Ending) :
    (c.close name ending).1.Alike W (c'.close name ending).1 ∧
      (c'.close name ending).2 = (c.close name ending).2 := by
  simp only [Console.close, h.pending]
  split
  · exact ⟨{ h with pending := rfl }, rfl⟩
  · exact ⟨h, rfl⟩
  · exact ⟨h.print hW .., rfl⟩
  · exact ⟨h.print hW .., rfl⟩

theorem enter (h : c.Alike W c') : c.enter.Alike W c'.enter :=
  { h with
    depth := congrArg (· + 1) h.depth
    steps := by rw [steps_enter, steps_enter, h.depth, h.steps] }

theorem leave (h : c.Alike W c') : c.leave.Alike W c'.leave :=
  { h with depth := congrArg (· - 1) h.depth }

/-- A clause is counted the same if the same is warned about or warnings are not looked at. -/
theorem countStep (hW : Workspace.Unseen W) (h : c.Alike W c')
    (hwarning : c'.iterationWarning = c.iterationWarning ∨ Workspace.Absorbs W) :
    c.countStep.Alike W c'.countStep := by
  have hcounted : Alike W { c with steps := c.steps + 1 } { c' with steps := c.steps + 1 } :=
    { h with steps := rfl }
  simp only [Console.countStep, h.steps]
  split <;> split
  · exact hcounted.print hW ..
  · next hw hw' =>
    rcases hwarning with heq | habsorbs
    · exact absurd (hw.trans heq.symm) hw'
    · exact { hcounted with workspace := habsorbs.left _ _ h.workspace }
  · next hw hw' =>
    rcases hwarning with heq | habsorbs
    · exact absurd (hw'.trans heq) hw
    · exact { hcounted with workspace := habsorbs.right _ _ h.workspace }
  · exact hcounted

end Alike

/-- The console with other numbers at which it refuses a query and warns about one. -/
def withBounds (c : Console κ ε) (bounds : Nat × Nat) : Console κ ε :=
  { c with maxDepth := bounds.1, iterationWarning := bounds.2 }

theorem Alike.eq_withBounds {c c' : Console κ ε} (h : c.Alike Eq c') :
    c' = c.withBounds c'.bounds := by
  obtain ⟨w', maxDepth, iterationWarning, cache, depth, steps, pending⟩ := c'
  obtain ⟨rfl, rfl, rfl, rfl, rfl⟩ := h
  rfl

end Console

/-! ### Moments -/

/-- Whether the same waits, with programs of handlers that do the same. -/
def Waiting.Alike (W : Workspace κ ε → Workspace κ ε → Prop) : Waiting κ ε → Waiting κ ε → Prop
  | .execute contained source k, w =>
    ∃ k', w = .execute contained source k' ∧ ∀ passed, (k passed).Alike W (k' passed)
  | .evaluate k, w => ∃ k', w = .evaluate k' ∧ ∀ answer, (k answer).Alike W (k' answer)
  | w, w' => w' = w

/-- Whether the same is done, with programs of handlers that do the same. -/
def Activity.Alike (W : Workspace κ ε → Workspace κ ε → Prop) :
    Activity κ ε → Activity κ ε → Prop
  | .handler p, a => ∃ p', a = .handler p' ∧ p.Alike W p'
  | a, a' => a' = a

/-- Whether the same goes on in both moments, on consoles that differ in their settings and
otherwise by no more than `W` allows. -/
structure Moment.Alike (W : Workspace κ ε → Workspace κ ε → Prop) (m n : Moment κ ε) : Prop where
  activity : m.activity.Alike W n.activity
  waiting : List.Forall₂ (Waiting.Alike W) m.waiting n.waiting
  console : m.console.Alike W n.console

theorem Waiting.Alike.eq {w w' : Waiting κ ε} (h : w.Alike Eq w') : w' = w := by
  cases w with
  | execute contained source k =>
    obtain ⟨k', rfl, hk⟩ := h
    rw [show k' = k from funext fun passed => (hk passed).eq]
  | evaluate k =>
    obtain ⟨k', rfl, hk⟩ := h
    rw [show k' = k from funext fun answer => (hk answer).eq]
  | _ => exact h

theorem Waiting.alike_refl (w : Waiting κ ε) : w.Alike Eq w := by
  cases w with
  | execute contained source k => exact ⟨k, rfl, fun passed => (k passed).alike_refl⟩
  | evaluate k => exact ⟨k, rfl, fun answer => (k answer).alike_refl⟩
  | _ => rfl

theorem Activity.Alike.eq {a a' : Activity κ ε} (h : a.Alike Eq a') : a' = a := by
  cases a with
  | handler p =>
    obtain ⟨p', rfl, hp⟩ := h
    rw [hp.eq]
  | _ => exact h

/-- Only programs of handlers may be different ones. -/
theorem Activity.Alike.handlers_or_eq {a a' : Activity κ ε} (h : a.Alike W a') :
    (∃ p p', a = .handler p ∧ a' = .handler p') ∨ a' = a := by
  cases a with
  | handler p =>
    obtain ⟨p', rfl, -⟩ := h
    exact .inl ⟨p, p', rfl, rfl⟩
  | _ => exact .inr h

theorem Activity.alike_refl (a : Activity κ ε) : a.Alike Eq a := by
  cases a with
  | handler p => exact ⟨p, rfl, p.alike_refl⟩
  | _ => rfl

namespace Moment

variable {m n : Moment κ ε}

/-- The moment with other numbers at which the console refuses a query and warns about one. -/
def withBounds (m : Moment κ ε) (bounds : Nat × Nat) : Moment κ ε :=
  { m with console := m.console.withBounds bounds }

theorem alike_withBounds (m : Moment κ ε) (bounds : Nat × Nat) :
    m.Alike Eq (m.withBounds bounds) where
  activity := m.activity.alike_refl
  waiting := List.forall₂_same.2 fun w _ => w.alike_refl
  console := ⟨rfl, rfl, rfl, rfl, rfl⟩

theorem Alike.eq_withBounds (h : m.Alike Eq n) : n = m.withBounds n.console.bounds := by
  obtain ⟨activity, K, c⟩ := n
  have hactivity : activity = m.activity := h.activity.eq
  have hwaiting : m.waiting = K :=
    List.forall₂_eq_eq_eq ▸ h.waiting.imp fun _ _ hw => hw.eq.symm
  rw [withBounds, ← h.console.eq_withBounds, ← hactivity, hwaiting]

theorem Alike.visits_eq (h : m.Alike W n) : n.visits = m.visits := by
  rcases h.activity.handlers_or_eq with ⟨p, p', hp, hp'⟩ | heq
  · simp [visits, hp, hp']
  · simp [visits, heq]

theorem Alike.call?_eq (h : m.Alike W n) : n.call? = m.call? := by
  rcases h.activity.handlers_or_eq with ⟨p, p', hp, hp'⟩ | heq
  · simp [call?, hp, hp']
  · simp [call?, heq]

theorem Alike.result?_eq (h : m.Alike W n) : n.result? = m.result? := by
  rcases h.activity.handlers_or_eq with ⟨p, p', hp, hp'⟩ | heq
  · simp [result?, hp, hp']
  · simp [result?, heq]

end Moment

variable {host : Host κ (Workspace κ ε)} {m m' n : Moment κ ε} {ms : List (Moment κ ε)}

/-- Whether all commands of the console and of the host have handlers that do the same on
workspaces of which `W` holds. -/
def Host.Respects (W : Workspace κ ε → Workspace κ ε → Prop) (host : Host κ (Workspace κ ε)) :
    Prop :=
  ∀ handler call,
    (Console.program host handler call).Alike W (Console.program host handler call)

theorem Host.respects_eq (host : Host κ (Workspace κ ε)) : host.Respects Eq :=
  fun _ _ => Program.alike_refl _

/-! ### Steps side by side -/

variable {K K' : List (Waiting κ ε)} {c c' : Console κ ε}

/-- The same becomes of an invocation, but the handler that it starts may be another one. -/
theorem Step.alike_of_invocation {call : Invocation} (hW : Workspace.Unseen W)
    (hhost : host.Respects W) (h : Step host ⟨.invocation call, K, c⟩ m')
    (hK : List.Forall₂ (Waiting.Alike W) K K') (hc : c.Alike W c') :
    ∃ n', Step host ⟨.invocation call, K', c'⟩ n' ∧ m'.Alike W n' := by
  have htarget := hc.target hW
  have hvars := hW.vars hc.workspace
  cases h with
  | noop hname hargs => exact ⟨_, .noop hname hargs, rfl, hK, hc⟩
  | missingName hname hargs => exact ⟨_, .missingName hname hargs, rfl, hK, hc.print hW ..⟩
  | notFound hname hnothing =>
    rw [← htarget] at hnothing
    exact ⟨_, .notFound hname hnothing, rfl, hK, hc.print hW ..⟩
  | undefinedArgument hname hcommand hresolve =>
    rw [← htarget] at hcommand
    rw [← hvars] at hresolve
    exact ⟨_, .undefinedArgument hname hcommand hresolve, rfl, hK, hc⟩
  | handle hname hcommand hresolve =>
    rw [← htarget] at hcommand
    rw [← hvars] at hresolve
    exact ⟨_, .handle hname hcommand hresolve, ⟨_, rfl, hhost _ _⟩, .cons rfl hK, hc⟩
  | malformedBody hname halias hparse =>
    rw [← htarget] at halias
    obtain ⟨d', hparse', hd⟩ := (hc.warnArguments hW _).parse hparse
    exact ⟨_, .malformedBody hname halias hparse', rfl, hK, hd⟩
  | expand hname halias hparse =>
    rw [← htarget] at halias
    obtain ⟨d', hparse', hd⟩ := (hc.warnArguments hW _).parse hparse
    exact ⟨_, .expand hname halias hparse', rfl, .cons rfl hK, hd⟩
  | tell hname hvariable hargs =>
    rw [← htarget] at hvariable
    refine ⟨_, .tell hname hvariable hargs, rfl, hK, ?_⟩
    rw [hvars]
    exact hc.print hW ..
  | undefinedValue hname hvariable hargs hresolve =>
    rw [← htarget] at hvariable
    rw [← hvars] at hresolve
    exact ⟨_, .undefinedValue hname hvariable hargs hresolve, rfl, hK, hc⟩
  | malformedAssignment hname hvariable hargs hresolve hparse =>
    rw [← htarget] at hvariable
    rw [← hvars] at hresolve
    exact ⟨_, .malformedAssignment hname hvariable hargs hresolve hparse, rfl, hK, hc⟩
  | assign hname hvariable hargs hresolve hparse =>
    rw [← htarget] at hvariable
    rw [← hvars] at hresolve
    exact ⟨_, .assign hname hvariable hargs hresolve hparse, rfl, .cons rfl hK, hc⟩

/-- Handlers that do the same ask for the same, and go on alike with what they get. -/
theorem Step.alike_of_handler {p p' : Program (Workspace κ ε)} (hW : Workspace.Unseen W)
    (h : Step host ⟨.handler p, K, c⟩ m') (hp : p.Alike W p')
    (hK : List.Forall₂ (Waiting.Alike W) K K') (hc : c.Alike W c') :
    ∃ n', Step host ⟨.handler p', K', c'⟩ n' ∧ m'.Alike W n' := by
  cases h with
  | get =>
    obtain _ | hk := hp
    exact ⟨_, .get, ⟨_, rfl, hk _ _ hc.workspace⟩, hK, hc⟩
  | put =>
    obtain _ | _ | ⟨hw, hp⟩ := hp
    exact ⟨_, .put, ⟨_, rfl, hp⟩, hK, hc.put hw⟩
  | parse =>
    cases hp with
    | parse hk =>
      obtain ⟨d', hparse', hd⟩ := hc.parse (Prod.eta _).symm
      refine ⟨_, .parse, ?_, hK, ?_⟩
      · rw [hparse']
        exact ⟨_, rfl, hk _⟩
      · rw [hparse']
        exact hd
  | skip hpending =>
    cases hp with
    | execute hk =>
      rw [← hc.pending] at hpending
      exact ⟨_, .skip hpending, ⟨_, rfl, hk false⟩, hK, hc⟩
  | malformedSource hnone hparse =>
    cases hp with
    | execute hk =>
      rw [← hc.pending] at hnone
      obtain ⟨d', hparse', hd⟩ := hc.parse hparse
      exact ⟨_, .malformedSource hnone hparse', rfl, .cons ⟨_, rfl, hk⟩ hK, hd⟩
  | execute hnone hparse =>
    cases hp with
    | execute hk =>
      rw [← hc.pending] at hnone
      obtain ⟨d', hparse', hd⟩ := hc.parse hparse
      exact ⟨_, .execute hnone hparse', rfl, .cons ⟨_, rfl, hk⟩ hK, hd⟩
  | evaluate =>
    cases hp with
    | evaluate hk => exact ⟨_, .evaluate, rfl, .cons ⟨_, rfl, hk⟩ hK, hc⟩
  | close =>
    cases hp
    obtain _ | ⟨rfl, hK⟩ := hK
    obtain ⟨hclosed, hanswer⟩ := hc.close hW _ _
    refine ⟨_, .close, ?_, hK, hclosed⟩
    rw [hanswer]
    rfl

/-- The same waits for the end of a query, but the handlers among it may be other ones. -/
theorem Step.alike_of_ended {answer : Except QueryError Bool} (hW : Workspace.Unseen W)
    (h : Step host ⟨.ended answer, K, c⟩ m') (hK : List.Forall₂ (Waiting.Alike W) K K')
    (hc : c.Alike W c') : ∃ n', Step host ⟨.ended answer, K', c'⟩ n' ∧ m'.Alike W n' := by
  cases h with
  | expanded =>
    obtain _ | ⟨rfl, hK⟩ := hK
    exact ⟨_, .expanded, rfl, hK, hc⟩
  | assigned =>
    obtain _ | ⟨rfl, hK⟩ := hK
    exact ⟨_, .assigned, rfl, hK, hc⟩
  | executed =>
    obtain _ | ⟨⟨k', rfl, hk⟩, hK⟩ := hK
    exact ⟨_, .executed, ⟨_, rfl, hk _⟩, hK, hc.trim hW⟩
  | settle =>
    obtain _ | ⟨⟨k', rfl, hk⟩, hK⟩ := hK
    exact ⟨_, .settle, ⟨_, rfl, hk false⟩, hK, (hc.trim hW).settle hW ..⟩
  | evaluated =>
    obtain _ | ⟨⟨k', rfl, hk⟩, hK⟩ := hK
    exact ⟨_, .evaluated, ⟨_, rfl, hk _⟩, hK, hc⟩

/-- **Steps go side by side.** -/
theorem Step.alike (hW : Workspace.Unseen W) (hhost : host.Respects W) (h : Step host m m')
    (hmn : m.Alike W n)
    (hdeep : ∀ name q, m.activity = .query name q → n.console.maxDepth = m.console.maxDepth ∨
      m.console.depth < m.console.maxDepth ∧ n.console.depth < n.console.maxDepth)
    (hwarning : m.visits = true →
      n.console.iterationWarning = m.console.iterationWarning ∨ Workspace.Absorbs W) :
    ∃ n', Step host n n' ∧ m'.Alike W n' := by
  obtain ⟨activity, K, c⟩ := m
  obtain ⟨activity', K', c'⟩ := n
  obtain ⟨ha, hK, hc⟩ := hmn
  dsimp only at ha hK hc hdeep hwarning
  cases activity with
  | query name q =>
    obtain rfl := ha
    cases h with
    | tooDeep hle =>
      rcases hdeep _ _ rfl with heq | ⟨hlt, -⟩
      · refine ⟨_, .tooDeep (by rwa [heq, hc.depth]), ?_, hK, hc⟩
        rw [heq]
        rfl
      · exact absurd hle (Nat.not_le.2 hlt)
    | enter hlt =>
      refine ⟨_, .enter ?_, rfl, hK, hc.enter⟩
      rcases hdeep _ _ rfl with heq | ⟨-, hlt'⟩
      · rwa [heq, hc.depth]
      · exact hlt'
  | clauses failed anyFailed cs =>
    obtain rfl := ha
    cases h with
    | leave hstop => exact ⟨_, .leave hstop, rfl, hK, hc.leave⟩
    | group hstop =>
      have hcounted := hc.countStep hW (hwarning (by simp [Moment.visits, hstop]))
      exact ⟨_, .group hstop, rfl, hK, hcounted⟩
    | command hstop =>
      have hcounted := hc.countStep hW (hwarning (by simp [Moment.visits, hstop]))
      exact ⟨_, .command hstop, rfl, .cons rfl hK, hcounted⟩
  | invocation call =>
    obtain rfl := ha
    exact h.alike_of_invocation hW hhost hK hc
  | handler p =>
    obtain ⟨p', rfl, hp⟩ := ha
    exact h.alike_of_handler hW hp hK hc
  | returned answer =>
    obtain rfl := ha
    cases h with
    | goOn =>
      obtain _ | ⟨rfl, hK⟩ := hK
      exact ⟨_, .goOn, rfl, hK, hc⟩
    | breakOff =>
      obtain _ | ⟨rfl, hK⟩ := hK
      exact ⟨_, .breakOff, rfl, hK, hc.leave⟩
  | ended answer =>
    obtain rfl := ha
    exact h.alike_of_ended hW hK hc

/-- A step is the same with other numbers at which the console refuses a query and warns about one,
if it is not about these. -/
theorem Step.withBounds (h : Step host m m') (bounds : Nat × Nat)
    (hdeep : ∀ name q, m.activity = .query name q → bounds.1 = m.console.maxDepth ∨
      m.console.depth < m.console.maxDepth ∧ m.console.depth < bounds.1)
    (hwarning : m.visits = true → bounds.2 = m.console.iterationWarning) :
    Step host (m.withBounds bounds) (m'.withBounds bounds) := by
  obtain ⟨n, hstep, halike⟩ := h.alike Workspace.unseen_eq host.respects_eq
    (m.alike_withBounds bounds) hdeep fun hvisits => .inl (hwarning hvisits)
  have hbounds : n.console.bounds = bounds := hstep.bounds_eq
  rw [halike.eq_withBounds, hbounds] at hstep
  exact hstep

/-- Runs go side by side on consoles that differ in what they warn about. -/
theorem Passes.alike (hW : Workspace.Unseen W) (habsorbs : Workspace.Absorbs W)
    (hhost : host.Respects W) (h : Passes host m ms m') (hmn : m.Alike W n)
    (hdepth : n.console.maxDepth = m.console.maxDepth) :
    ∃ ns n', Passes host n ns n' ∧ List.Forall₂ (Moment.Alike W) ms ns ∧ m'.Alike W n' := by
  induction h with
  | refl => exact ⟨[], n, .refl, .nil, hmn⟩
  | @tail ms m₁ m₂ hpasses hstep ih =>
    obtain ⟨ns, n₁, hpasses', hall, hm₁⟩ := ih
    have hlimit : n₁.console.maxDepth = m₁.console.maxDepth :=
      (congrArg Prod.fst hpasses'.leads.bounds_eq).trans
        (hdepth.trans (congrArg Prod.fst hpasses.leads.bounds_eq).symm)
    obtain ⟨n₂, hstep', hm₂⟩ := hstep.alike hW hhost hm₁ (fun _ _ _ => .inl hlimit)
      fun _ => .inr habsorbs
    exact ⟨_, n₂, hpasses'.tail hstep', List.rel_append hall (.cons hm₁ .nil), hm₂⟩

end DevConsole
