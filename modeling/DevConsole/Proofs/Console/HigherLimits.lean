import DevConsole.Proofs.Console.Lockstep
import DevConsole.Proofs.Console.Recursion

/-!
Consoles in which queries may run deeper. Main statement: a run in which no query is too deep is the
same, moment by moment, on a console with a higher limit, and it comes to the same end.
-/

namespace DevConsole

open Relation

variable {κ ε : Type}

/-! ### Other limits -/

namespace Console

def withMaxDepth (c : Console κ ε) (limit : Nat) : Console κ ε := { c with maxDepth := limit }

variable {c : Console κ ε} {limit : Nat}

theorem parse_withMaxDepth (source : String) : (c.withMaxDepth limit).parse source =
    ((c.parse source).1, (c.parse source).2.withMaxDepth limit) := rfl

theorem trim_withMaxDepth : (c.withMaxDepth limit).trim = c.trim.withMaxDepth limit := by
  have hdepth : (c.withMaxDepth limit).depth = c.depth := rfl
  rw [trim, trim, hdepth]
  split <;> rfl

theorem settle_withMaxDepth (contained : Bool) (source : String) (e : QueryError) :
    (c.withMaxDepth limit).settle contained source e =
      (c.settle contained source e).withMaxDepth limit := by
  have hdepth : (c.withMaxDepth limit).depth = c.depth := rfl
  rw [settle, settle, hdepth]
  split <;> rfl

end Console

namespace Moment

def withMaxDepth (m : Moment κ ε) (limit : Nat) : Moment κ ε :=
  { m with console := m.console.withMaxDepth limit }

/-- Whether no query is too deep in a run from the moment on, at whatever level. -/
def StaysShallow (host : Host κ (Workspace κ ε)) (m : Moment κ ε) : Prop :=
  ∀ m' name q, Leads host m m' → m'.activity = .query name q →
    m'.console.depth < m'.console.maxDepth

end Moment

variable {host : Host κ (Workspace κ ε)} {m m' n : Moment κ ε} {ns : List (Moment κ ε)}
variable {limit : Nat}

/-! ### Runs with other limits -/

/-- **A step is the same with another limit**, unless a query is too deep for one of them. -/
theorem Step.withMaxDepth (h : Step host m m') (hshallow : ∀ name q, m.activity = .query name q →
      m.console.depth < m.console.maxDepth ∧ m.console.depth < limit) :
    Step host (m.withMaxDepth limit) (m'.withMaxDepth limit) := by
  have hwarning : m'.console.iterationWarning = m.console.iterationWarning :=
    congrArg Prod.snd h.bounds_eq
  have hend : m'.withBounds (limit, m.console.iterationWarning) = m'.withMaxDepth limit := by
    rw [← hwarning]
    rfl
  rw [← hend]
  exact h.withBounds (limit, m.console.iterationWarning)
    (fun name q hquery => .inr (hshallow name q hquery)) fun _ => rfl

namespace Moment.StaysShallow

theorem depth_lt (hm : m.StaysShallow host) (hlimit : m.console.maxDepth ≤ limit)
    (h : Leads host m m') (name : String) (q : Query) (hquery : m'.activity = .query name q) :
    m'.console.depth < m'.console.maxDepth ∧ m'.console.depth < limit := by
  have hmax : m'.console.maxDepth = m.console.maxDepth := congrArg Prod.fst h.bounds_eq
  have hlt := hm m' name q h hquery
  omega

/-- **A run that stays shallow is the same with a higher limit**, and no other one there is. -/
theorem passes_iff (hm : m.StaysShallow host) (hlimit : m.console.maxDepth ≤ limit) :
    Passes host (m.withMaxDepth limit) ns n ↔
      ∃ ms m', Passes host m ms m' ∧ ns = ms.map (·.withMaxDepth limit) ∧
        n = m'.withMaxDepth limit := by
  constructor
  · intro h
    induction h with
    | refl => exact ⟨[], m, .refl, rfl, rfl⟩
    | @tail _ _ n hpasses hstep ih =>
      obtain ⟨ms, m', hpasses', rfl, rfl⟩ := ih
      have hlt := hm.depth_lt hlimit hpasses'.leads
      -- with the former limit the step leads to a moment of the former run
      have hback : Step host m' (n.withMaxDepth m'.console.maxDepth) :=
        hstep.withMaxDepth fun name q hquery => (hlt name q hquery).symm
      have hn : n = (n.withMaxDepth m'.console.maxDepth).withMaxDepth limit := by
        have hmax : n.console.maxDepth = limit := congrArg Prod.fst hstep.bounds_eq
        rw [← hmax]
        rfl
      exact ⟨_, _, hpasses'.tail hback, by rw [List.map_append]; rfl, hn⟩
  · rintro ⟨ms, m', h, rfl, rfl⟩
    induction h with
    | refl => exact .refl
    | tail hpasses hstep ih =>
      rw [List.map_append]
      exact ih.tail (hstep.withMaxDepth (hm.depth_lt hlimit hpasses.leads))

theorem evaluate_withMaxDepth {c : Console κ ε} {q : Query}
    (hm : (Moment.start q c).StaysShallow host) (hlimit : c.maxDepth ≤ limit) :
    (c.withMaxDepth limit).evaluate host q =
      ((c.evaluate host q).1.withMaxDepth limit, (c.evaluate host q).2) := by
  have hleads : Leads host (.start q c) _ := Console.leads_evaluate q c
  obtain ⟨ms, hpasses⟩ := hleads.exists_passes
  have hhigher := (hm.passes_iff hlimit).2 ⟨ms, _, hpasses, rfl, rfl⟩
  exact hhigher.leads.evaluate_eq

end Moment.StaysShallow

/-- If handlers run queries only by executing them, then none was too deep in a query that does not
tell so. -/
theorem Moment.staysShallow_start {q : Query} {c : Console κ ε}
    (hhost : ∀ k call, (host.run k call).OnlyExecutes)
    (hanswer : ∀ name, (c.evaluate host q).2 ≠ .error (.tooDeep name c.maxDepth)) :
    (Moment.start q c).StaysShallow host := by
  intro m name q' hleads hquery
  obtain ⟨activity, K, c'⟩ := m
  obtain rfl : activity = .query name q' := hquery
  by_contra hdeep
  rcases hleads.aborts hhost (Nat.not_lt.1 hdeep) hleads.leads_end with heq | ⟨-, haborts⟩
  · cases heq
  · exact hanswer name (by simpa [Moment.Aborts] using haborts)

namespace Console

variable {c : Console κ ε}

/-- **A higher limit never changes a run that does not reach it.** If no query is too deep at any
level while a query runs, then with a higher limit the run passes through the same moments and
through no other ones, with the same console in each of them but for the limit: the same
invocations, output and changes, the same answer and the same console in the end. So it is for a
source too. -/
theorem unchanged_withMaxDepth (host : Host κ (Workspace κ ε)) (hlimit : c.maxDepth ≤ limit) :
    (∀ q, (Moment.start q c).StaysShallow host →
      (∀ ns n, Passes host (.start q (c.withMaxDepth limit)) ns n ↔
        ∃ ms m, Passes host (.start q c) ms m ∧ ns = ms.map (·.withMaxDepth limit) ∧
          n = m.withMaxDepth limit) ∧
      (c.withMaxDepth limit).evaluate host q =
        ((c.evaluate host q).1.withMaxDepth limit, (c.evaluate host q).2)) ∧
    ∀ contained source,
      (∀ q c', c.parse source = (.ok q, c') → (Moment.start q c').StaysShallow host) →
      (c.withMaxDepth limit).runSource (runner host) contained source =
        ((c.runSource (runner host) contained source).1.withMaxDepth limit,
          (c.runSource (runner host) contained source).2) := by
  refine ⟨fun q hshallow => ⟨fun ns n => hshallow.passes_iff hlimit,
    hshallow.evaluate_withMaxDepth hlimit⟩, fun contained source hshallow => ?_⟩
  have hpending : (c.withMaxDepth limit).pending = c.pending := rfl
  rw [runSource, runSource, hpending]
  split
  · rfl
  · rcases hparse : c.parse source with ⟨fault | q, c'⟩
    · rw [outcome, outcome, parse_withMaxDepth, hparse]
      dsimp only
      rw [trim_withMaxDepth, settle_withMaxDepth]
    · have hlimit' : c'.maxDepth ≤ limit := by
        rw [(depth_of_limits (limits_of_parse hparse)).2]
        exact hlimit
      have hrun := (hshallow q c' hparse).evaluate_withMaxDepth hlimit'
      rw [evaluate, evaluate] at hrun
      rw [outcome, outcome, parse_withMaxDepth, hparse]
      dsimp only
      rw [hrun]
      rcases runner host q.text q c' with ⟨c'', e | passed⟩
      · dsimp only
        rw [trim_withMaxDepth, settle_withMaxDepth]
      · dsimp only
        rw [trim_withMaxDepth]

/-- A console in which three queries may run, each inside another. -/
def snugConsole : Console Bool Unit := { twoCommands with maxDepth := 3 }

def relayingHost : Host Bool (Workspace Bool Unit) :=
  .carryingOut (.execute true "idle" fun _ => .stop .passed)

/-- An alias for a command whose handler executes a line needs just these three. -/
theorem staysShallow_snugConsole {c : Console Bool Unit}
    (hanswer : (c.evaluate relayingHost (.ofName "go")).2 = .ok true) :
    (Moment.start (.ofName "go") c).StaysShallow relayingHost := by
  have hhost : ∀ k call, (relayingHost.run k call).OnlyExecutes := by
    intro k call
    cases k with
    | false => exact Program.onlyExecutes_stop _
    | true => exact fun _ => Program.onlyExecutes_stop _
  exact Moment.staysShallow_start hhost fun name => by rw [hanswer]; simp

theorem unchanged_withMaxDepth_snugConsole :
    snugConsole.maxDepth ≤ 32 ∧
      (Moment.start (.ofName "go") snugConsole).StaysShallow relayingHost ∧
      (snugConsole.withMaxDepth 32).evaluate relayingHost (.ofName "go") =
        ((snugConsole.evaluate relayingHost (.ofName "go")).1.withMaxDepth 32, .ok true) ∧
      (snugConsole.withMaxDepth 32).execute relayingHost "go" =
        ((snugConsole.execute relayingHost "go").1.withMaxDepth 32, true) := by
  have hlimit : snugConsole.maxDepth ≤ 32 := by decide
  have hanswer : (snugConsole.evaluate relayingHost (.ofName "go")).2 = .ok true := by
    decide +kernel
  have hshallow := staysShallow_snugConsole hanswer
  obtain ⟨hquery, hsource⟩ := unchanged_withMaxDepth relayingHost hlimit
  refine ⟨hlimit, hshallow, ?_, ?_⟩
  · rw [(hquery _ hshallow).2, hanswer]
  · have hexecute := hsource false "go" ?_
    · have hpassed : (snugConsole.execute relayingHost "go").2 = true := by decide +kernel
      rw [execute, hexecute, ← execute, hpassed]
    · intro q c' hparse
      have hgo : snugConsole.parse "go" = (.ok (.ofName "go"), (snugConsole.parse "go").2) := rfl
      rw [hgo] at hparse
      obtain ⟨⟨⟩, rfl⟩ := Prod.mk.inj hparse
      exact staysShallow_snugConsole (by decide +kernel)

end Console

end DevConsole
