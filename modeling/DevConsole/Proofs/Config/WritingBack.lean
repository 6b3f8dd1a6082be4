import DevConsole.Frame
import DevConsole.Proofs.Console.Locked

/-!
Writing the configuration back. A run that saves takes the mark and then writes the file. Main
statement: over any history, the file holds what would have been saved at some time since the last
edit that marked the world; unless the run that took the mark could not write, after which nobody
tries again.
-/

namespace DevConsole

variable {κ ε : Type} {path : String}

theorem Snapshot.read_of_save {s : Snapshot} {files written : Files}
    (h : s.save files path = (written, .ok ())) : written.read path = .ok s.text := by
  unfold save at h
  split at h
  · cases h
  · split at h
    · next hwrite =>
      cases h
      exact Files.read_of_write hwrite
    · cases h

/-! ### One run -/

namespace Console

variable {c c' : Console κ ε}

/-- Whether the configuration cannot be written to the file. -/
def cannotSave (path : String) (c : Console κ ε) : Bool :=
  match (c.toWorkspace.save path).2 with
  | .ok () => false
  | .error _ => true

/-- The text in the file is that of a snapshot. -/
def Holds (path : String) (c : Console κ ε) (s : Snapshot) : Prop :=
  c.world.files.read path = .ok s.text

theorem saveIfDirty_of_clean (h : c.world.dirty = false) : c.saveIfDirty path = c := by
  obtain ⟨w, maxDepth, iterationWarning, cache, depth, steps, pending⟩ := c
  obtain ⟨vars, commands, aliases, binds, capacity, output, files, dirty, host⟩ := w
  cases h
  rfl

theorem saveIfDirty_of_dirty (h : c.world.dirty = true) : c.saveIfDirty path =
    c.mapWorkspace fun w => ({ w with world := { w.world with dirty := false } }.save path).1 := by
  simp only [saveIfDirty, mapWorkspace, Workspace.takeDirty, h]

@[simp] theorem dirty_saveIfDirty (path : String) (c : Console κ ε) :
    (c.saveIfDirty path).world.dirty = false := by
  by_cases h : c.world.dirty = true
  · rw [saveIfDirty_of_dirty h]
    rfl
  · rw [Bool.not_eq_true] at h
    rw [saveIfDirty_of_clean h, h]

@[simp] theorem snapshot_saveIfDirty (path : String) (c : Console κ ε) :
    (c.saveIfDirty path).snapshot = c.snapshot := by
  by_cases h : c.world.dirty = true
  · rw [saveIfDirty_of_dirty h]
    rfl
  · rw [saveIfDirty_of_clean (Bool.not_eq_true _ ▸ h)]

/-- A run that takes a mark writes what is to be saved, if it can. -/
theorem holds_saveIfDirty (h : c.world.dirty = true) (hcan : c.cannotSave path = false) :
    (c.saveIfDirty path).Holds path c.snapshot := by
  rw [saveIfDirty_of_dirty h]
  have hsave : c.snapshot.save c.world.files path =
      ((c.snapshot.save c.world.files path).1, .ok ()) := by
    unfold cannotSave Workspace.save at hcan
    rcases hanswer : c.snapshot.save c.world.files path with ⟨files, _ | _⟩
    · simp [hanswer] at hcan
    · rfl
  exact Snapshot.read_of_save hsave

end Console

/-! ### Frames -/

namespace Console

/-- The console in a frame, when only saving is left to do. -/
def beforeSaving (host : Host κ (Workspace κ ε)) (messages : List Message) (c : Console κ ε) :
    Console κ ε :=
  (messages.foldl (handleKey host) (messages.foldl (handleInput host) c)).passOn.2

theorem frame_snd (host : Host κ (Workspace κ ε)) (path : String) (messages : List Message)
    (c : Console κ ε) :
    (c.frame host path messages).2 = (c.beforeSaving host messages).saveIfDirty path := rfl

end Console

/-! ### Histories -/

/-- What is known of the last edit that marked the world. -/
structure Ledger where
  /-- What would have been saved at the times since then, the latest one first. -/
  since : List Snapshot
  /-- Whether the run that took the mark could not write. -/
  lost : Bool := false

namespace Ledger

def note (l : Ledger) (s : Snapshot) : Ledger := { l with since := s :: l.since }

def afterRun (path : String) (c : Console κ ε) (l : Ledger) : Ledger :=
  { l with lost := l.lost || c.world.dirty && c.cannotSave path }

end Ledger

/-- `History path l c` says that the console comes to `c` by edits and runs that save to the file,
with the ledger `l`; there is none as long as nothing has been marked. -/
inductive History (path : String) : Option Ledger → Console κ ε → Prop
  | start (c : Console κ ε) : History path none c
  /-- An edit marks the world. -/
  | edit {l : Option Ledger} {c c' : Console κ ε} : History path l c →
    c'.world.dirty = true → History path (some { since := [c'.snapshot] }) c'
  /-- Something else happens. Others may change the files at will, but leave the file alone once it
  has been written. -/
  | other {l : Option Ledger} {c c' : Console κ ε} : History path l c →
    c'.world.dirty = c.world.dirty →
    (c.world.dirty = false → c'.world.files.read path = c.world.files.read path) →
    History path (l.map (·.note c'.snapshot)) c'
  | run {l : Option Ledger} {c : Console κ ε} : History path l c →
    History path (l.map (·.afterRun path c)) (c.saveIfDirty path)

/-- Whether the ledger is right about the console: if no mark is left, the file holds what would
have been saved since the last one, or that one is lost. -/
structure Ledger.Covers (path : String) (l : Ledger) (c : Console κ ε) : Prop where
  latest : c.snapshot ∈ l.since
  written : c.world.dirty = false → (∃ s ∈ l.since, c.Holds path s) ∨ l.lost = true

namespace Ledger.Covers

variable {l : Ledger} {c c' : Console κ ε}

theorem edit (h : c.world.dirty = true) : Ledger.Covers path { since := [c.snapshot] } c where
  latest := List.mem_cons_self
  written := fun hclean => by cases h.symm.trans hclean

theorem other (h : l.Covers path c) (hdirty : c'.world.dirty = c.world.dirty)
    (hfiles : c.world.dirty = false → c'.world.files.read path = c.world.files.read path) :
    (l.note c'.snapshot).Covers path c' where
  latest := List.mem_cons_self
  written := by
    intro hclean
    rw [hdirty] at hclean
    rcases h.written hclean with ⟨s, hs, hholds⟩ | hlost
    · exact .inl ⟨s, List.mem_cons_of_mem _ hs, (hfiles hclean).trans hholds⟩
    · exact .inr hlost

theorem run (h : l.Covers path c) : (l.afterRun path c).Covers path (c.saveIfDirty path) where
  latest := by
    rw [Console.snapshot_saveIfDirty]
    exact h.latest
  written := by
    intro _
    by_cases hdirty : c.world.dirty = true
    · by_cases hcan : c.cannotSave path = true
      · exact .inr (by simp [afterRun, hdirty, hcan])
      · exact .inl ⟨c.snapshot, h.latest,
          Console.holds_saveIfDirty hdirty (Bool.not_eq_true _ ▸ hcan)⟩
    · rw [Bool.not_eq_true] at hdirty
      rw [Console.saveIfDirty_of_clean hdirty]
      rcases h.written hdirty with hholds | hlost
      · exact .inl hholds
      · exact .inr (by simp [afterRun, hlost])

end Ledger.Covers

namespace History

variable {l : Option Ledger} {c : Console κ ε}

theorem covers (h : History path l c) : ∀ last, l = some last → last.Covers path c := by
  induction h with
  | start => rintro _ ⟨⟩
  | edit _ hdirty =>
    rintro _ ⟨⟩
    exact .edit hdirty
  | other _ hdirty hfiles ih =>
    intro last hlast
    obtain ⟨l, hl, rfl⟩ := Option.map_eq_some_iff.1 hlast
    exact (ih l hl).other hdirty hfiles
  | run _ ih =>
    intro last hlast
    obtain ⟨l, hl, rfl⟩ := Option.map_eq_some_iff.1 hlast
    exact (ih l hl).run

theorem frame {host : Host κ (Workspace κ ε)} {messages : List Message} (h : History path l c)
    (hdirty : (c.beforeSaving host messages).world.dirty = true) :
    History path
      (some (Ledger.afterRun path (c.beforeSaving host messages)
        { since := [(c.beforeSaving host messages).snapshot] }))
      (c.frame host path messages).2 :=
  .run (.edit h hdirty)

/-- **What has been marked is written or lost.** After each run that saves there is no mark, and the
file holds what would have been saved at some time since the last edit that marked the world; unless
the run that took this mark could not write. No run tries again before the next mark. -/
theorem written_or_lost {last : Ledger} (h : History path (some last) c) :
    (c.saveIfDirty path).world.dirty = false ∧
    ((∃ s ∈ last.since, (c.saveIfDirty path).Holds path s) ∨
      (last.afterRun path c).lost = true) ∧
    (c.saveIfDirty path).saveIfDirty path = c.saveIfDirty path := by
  have hclean := Console.dirty_saveIfDirty path c
  exact ⟨hclean, (h.covers last rfl).run.written hclean, Console.saveIfDirty_of_clean hclean⟩

end History

/-! ### A file that can be written and one that cannot -/

def savingConsole : Console Empty Unit :=
  (Console.ofSettings {} ()).installCore.installSaving "console.ron"

/-- The console after a directory has been made in place of its file, and an alias has been
defined. -/
def blockedConsole : Console Empty Unit :=
  savingConsole.beforeSaving .idle
    [.input "host_writeconfig console.ron/x", .input "alias hi echo hi"]

namespace History

/-- The frame in which the alias is defined writes it, and the next one leaves it there. -/
theorem written_or_lost_savingConsole :
    ((savingConsole.frame .idle "console.ron" [.input "alias hi echo hi"]).2.saveIfDirty
      "console.ron").Holds "console.ron"
        (savingConsole.beforeSaving .idle [.input "alias hi echo hi"]).snapshot := by
  have hdirty : (savingConsole.beforeSaving .idle [.input "alias hi echo hi"]).world.dirty =
      true := by
    decide +kernel
  have hcan : (savingConsole.beforeSaving .idle [.input "alias hi echo hi"]).cannotSave
      "console.ron" = false := by
    decide +kernel
  have hframe : History "console.ron" (some _)
      (savingConsole.frame .idle "console.ron" [.input "alias hi echo hi"]).2 :=
    (start savingConsole).frame hdirty
  obtain ⟨-, ⟨s, hs, hholds⟩ | hlost, -⟩ := written_or_lost hframe
  · rwa [List.mem_singleton.1 hs] at hholds
  · simp [Ledger.afterRun, Console.frame_snd, hcan] at hlost

/-- Whether after each run that saves there still is a mark, or the file holds what would have been
saved at some time since the last edit that marked the world. -/
def KeepsMarks (κ ε : Type) (path : String) : Prop :=
  ∀ (last : Ledger) (c : Console κ ε), History path (some last) c →
    (c.saveIfDirty path).world.dirty = true ∨ ∃ s ∈ last.since, (c.saveIfDirty path).Holds path s

/-- The mark of an edit is lost if the file cannot be written. -/
theorem not_keepsMarks : ¬ KeepsMarks Empty Unit "console.ron" := by
  intro h
  have hdirty : blockedConsole.world.dirty = true := by decide +kernel
  have hread : (blockedConsole.saveIfDirty "console.ron").world.files.read "console.ron" =
      .error .isDirectory := by
    decide +kernel
  rcases h _ blockedConsole (.edit (.start savingConsole) hdirty) with hkept | ⟨s, -, hholds⟩
  · cases (Console.dirty_saveIfDirty ..).symm.trans hkept
  · cases hread.symm.trans hholds

end History

end DevConsole
