import DevConsole.Proofs.Config.Marking
import DevConsole.Proofs.Console.Caches

/-!
Refused calls. The console's own commands take effect as a whole or not at all. Main statement: a
handler that refuses leaves everything as it was, whatever it has looked up and read before, and
only listeners make one panic.
-/

namespace DevConsole

variable {κ ε : Type}

/-- All core commands have handlers that take one step. -/
theorem isCore_of_mem_coreCommands {command : String × Builtin × String}
    (h : command ∈ coreCommands) : command.2.1.isCore = true := by
  have hall : ∀ command ∈ coreCommands, command.2.1.isCore = true := by decide
  exact hall command h

namespace Console

variable {c : Console κ ε}

/-- The console after a program of one step: beside the workspace only the cache can be another
one. -/
theorem exists_perform_eq {may : String → Prop} (run : Runner κ ε)
    {p : Program (Workspace κ ε)} (h : p.TakesStep may) : ∃ w k ending,
      c.perform run p = ({ c.withCache k with toWorkspace := w }, ending) ∧
        c.toWorkspace.Ends may (w, ending) := by
  cases h with
  | refuse e => exact ⟨_, c.cache, _, rfl, .refused e⟩
  | act hf => exact ⟨_, c.cache, _, rfl, hf c.toWorkspace⟩
  | readQuery source hf =>
    rcases hanswer : (c.parse source).1 with e | q
    · refine ⟨_, (c.cache.get source).2, _, ?_, .refused (.query e source)⟩
      simp only [Program.readQuery, perform, hanswer]
      rfl
    · refine ⟨_, (c.cache.get source).2, _, ?_, hf c.toWorkspace⟩
      simp only [Program.readQuery, perform, hanswer]
      rfl

/-- **Commands that fail do nothing.** Whatever the arguments of one of the core commands are and
whatever is on the console, if its handler refuses, the console is as it was before, but for its
cache of parsed queries: no variable, listener, alias, binding, command or kept change is another
one, no line is printed, and the world has heard of nothing, so that neither a listener nor the hook
was told. And unless a listener may panic, no handler breaks off in another way. -/
theorem unchanged_of_refused {name : String} {b : Builtin} {description : String}
    (hcore : (name, b, description) ∈ coreCommands) (run : Runner κ ε) (call : Call)
    (c : Console κ ε) :
    (∀ e, (c.perform run (b.program call)).2 = .refused e →
      ∃ k, (c.perform run (b.program call)).1 = c.withCache k) ∧
    (c.vars.Calm → ∀ p, (c.perform run (b.program call)).2 ≠ .panicked p) := by
  have hstep : (b.program call : Program (Workspace κ ε)).TakesStep fun _ => True :=
    Builtin.takesStep_program (isCore_of_mem_coreCommands hcore) call fun _ _ _ => trivial
  obtain ⟨w, k, ending, hperform, hends⟩ := exists_perform_eq (c := c) run hstep
  rw [hperform]
  refine ⟨?_, ?_⟩
  · rintro e rfl
    cases hends
    exact ⟨k, rfl⟩
  · rintro hcalm p rfl
    cases hends with
    | panicked _ hnot => exact hnot hcalm

/-- A variable that is saved cannot be toggled to a text that is no number. -/
theorem unchanged_of_refused_toggle : ∃ k,
    (trackedConsole.perform (runner .idle)
      (Builtin.toggle.program ⟨"toggle", ["cl_fov", "wide", "90"], true⟩)).1 =
    trackedConsole.withCache k := by
  have hrefused : (trackedConsole.perform (runner .idle)
      (Builtin.toggle.program ⟨"toggle", ["cl_fov", "wide", "90"], true⟩)).2 =
      .refused (.store (.invalidValue "cl_fov" (.noInteger "wide"))) := by
    decide +kernel
  have hcore : ("toggle", .toggle, "Toggle a variable or cycle it through values") ∈
      coreCommands := by
    decide
  exact (unchanged_of_refused hcore _ _ trackedConsole).1 _ hrefused

end Console

end DevConsole
