import Mathlib.Data.List.DropRight
import DevConsole.Workspace

/-!
What is held until it is taken. Lines are printed and changes are made; the host takes what is held
of them, and what is old may be dropped before that. Main statements: the output that is held is the
newest of what has been printed since it was last taken, and of the changes none of the newest is
missing.
-/

namespace DevConsole

variable {α : Type}

/-! ### The newest elements of a list -/

theorem length_rtake (xs : List α) (n : Nat) : (xs.rtake n).length = min n xs.length := by
  rw [List.rtake, List.length_drop]
  omega

theorem rtake_suffix (xs : List α) (n : Nat) : xs.rtake n <:+ xs := List.drop_suffix _ _

theorem rtake_of_length_le {xs : List α} {n : Nat} (h : xs.length ≤ n) : xs.rtake n = xs := by
  rw [List.rtake, Nat.sub_eq_zero_of_le h, List.drop_zero]

theorem rtake_append (xs ys : List α) (n : Nat) :
    (xs ++ ys).rtake n = xs.rtake (n - ys.length) ++ ys.rtake n := by
  simp only [List.rtake_eq_reverse_take_reverse, List.reverse_append, List.take_append,
    List.length_reverse]

theorem rtake_rtake (xs : List α) (n k : Nat) : (xs.rtake k).rtake n = xs.rtake (min n k) := by
  simp only [List.rtake_eq_reverse_take_reverse, List.reverse_reverse, List.take_take]

/-- Whether `held` is what remains of `xs` after old elements have been dropped, though none of the
newest `n`. -/
structure KeepsNewest (n : Nat) (xs held : List α) : Prop where
  suffix : held <:+ xs
  newest : held.rtake n = xs.rtake n

namespace KeepsNewest

variable {n k : Nat} {xs held : List α}

theorem refl (n : Nat) (xs : List α) : KeepsNewest n xs xs := ⟨List.suffix_rfl, rfl⟩

/-- What is added is held. -/
theorem append (h : KeepsNewest n xs held) (ys : List α) :
    KeepsNewest n (xs ++ ys) (held ++ ys) := by
  refine ⟨?_, ?_⟩
  · obtain ⟨dropped, rfl⟩ := h.suffix
    exact ⟨dropped, (List.append_assoc ..).symm⟩
  -- of what was there before, as many fewer count as have been added
  · have hshort (zs : List α) : zs.rtake (n - ys.length) = (zs.rtake n).rtake (n - ys.length) := by
      rw [rtake_rtake, Nat.min_eq_left (Nat.sub_le n ys.length)]
    rw [rtake_append, rtake_append, hshort held, hshort xs, h.newest]

/-- As many as the newest, or more, are kept. -/
theorem rtake (h : KeepsNewest n xs held) (hk : n ≤ k) : KeepsNewest n xs (held.rtake k) := by
  refine ⟨(rtake_suffix held k).trans h.suffix, ?_⟩
  rw [rtake_rtake, Nat.min_eq_left hk, h.newest]

/-- If no more than the newest are held, it is they that are held. -/
theorem eq_rtake (h : KeepsNewest n xs held) (hheld : held.length ≤ n) : held = xs.rtake n := by
  rw [← h.newest, rtake_of_length_le hheld]

end KeepsNewest

/-- A bounded list holds the newest elements, and always the last one. -/
theorem pushBounded_rtake (capacity : Nat) (xs : List α) (x : α) :
    pushBounded capacity (xs.rtake (max 1 capacity)) x = (xs ++ [x]).rtake (max 1 capacity) := by
  obtain ⟨n, hn⟩ : ∃ n, max 1 capacity = n + 1 := ⟨max 1 capacity - 1, by omega⟩
  rw [hn, List.rtake_concat_succ, pushBounded, length_rtake]
  congr 1
  simp only [List.rtake]
  split
  -- it is full, and with no room at all it may be full without an element
  · rw [List.drop_drop]
    rcases Nat.lt_or_ge n xs.length with hlt | hle
    · congr 1
      omega
    · rw [List.drop_eq_nil_of_le (by omega), List.drop_eq_nil_of_le (by omega)]
  · congr 1
    omega

/-! ### Events -/

/-- What is held until it is taken, oldest first. -/
structure Held where
  output : List OutputLine
  changes : List Change
  deriving DecidableEq, Repr

def Workspace.held {κ ε : Type} (w : Workspace κ ε) : Held := ⟨w.output, w.vars.changes⟩

inductive Event
  | print (line : OutputLine)
  | takeOutput
  | change (c : Change)
  /-- All changes are dropped but the newest `count`. -/
  | keepChanges (count : Nat)
  | takeChanges
  deriving DecidableEq, Repr

namespace Event

/-- What is held after the event, if no more than `capacity` lines are to be held. -/
def run (capacity : Nat) (held : Held) : Event → Held
  | print line => { held with output := pushBounded capacity held.output line }
  | takeOutput => { held with output := [] }
  | change c => { held with changes := held.changes ++ [c] }
  | keepChanges count => { held with changes := held.changes.rtake count }
  | takeChanges => { held with changes := [] }

def runAll (capacity : Nat) (held : Held) (events : List Event) : Held :=
  events.foldl (run capacity) held

/-- Whether nothing is taken, and no change is dropped that is to be kept. -/
def Ordinary (capacity : Nat) : Event → Prop
  | print _ | change _ => True
  | keepChanges count => capacity ≤ count
  | takeOutput | takeChanges => False

/-- Whether none of the events drops changes that are to be kept. -/
def Spare (capacity : Nat) (events : List Event) : Prop :=
  ∀ count, .keepChanges count ∈ events → capacity ≤ count

theorem spare_append {capacity : Nat} {events events' : List Event} :
    Spare capacity (events ++ events') ↔ Spare capacity events ∧ Spare capacity events' := by
  simp only [Spare, List.mem_append, or_imp, forall_and]

/-! ### What happens, not what is held -/

/-- The lines after the event, if `lines` are those that were printed before it. -/
def addLine (lines : List OutputLine) : Event → List OutputLine
  | print line => lines ++ [line]
  | takeOutput => []
  | _ => lines

/-- The lines printed since the output was last taken, with `lines` before all events. -/
def linesSince (lines : List OutputLine) (events : List Event) : List OutputLine :=
  events.foldl addLine lines

theorem linesSince_append (lines : List OutputLine) (events events' : List Event) :
    linesSince lines (events ++ events') = linesSince (linesSince lines events) events' :=
  List.foldl_append

/-- Until the output is taken, lines are only added. -/
theorem prefix_linesSince {events : List Event} (h : .takeOutput ∉ events)
    (lines : List OutputLine) : lines <+: linesSince lines events := by
  induction events generalizing lines with
  | nil => exact List.prefix_rfl
  | cons event events ih =>
    obtain ⟨hevent, hevents⟩ := not_or.1 (mt List.mem_cons.2 h)
    refine .trans ?_ (ih hevents (addLine lines event))
    cases event with
    | print line => exact List.prefix_append ..
    | takeOutput => exact absurd rfl hevent
    | _ => exact List.prefix_rfl

/-- The changes after the event, if `changes` are those that were made before it. -/
def addChange (changes : List Change) : Event → List Change
  | change c => changes ++ [c]
  | takeChanges => []
  | _ => changes

/-- The changes made since they were last taken, with `changes` before all events. -/
def changesSince (changes : List Change) (events : List Event) : List Change :=
  events.foldl addChange changes

theorem changesSince_append (changes : List Change) (events events' : List Event) :
    changesSince changes (events ++ events') = changesSince (changesSince changes events) events' :=
  List.foldl_append

variable {capacity : Nat} {held : Held}

/-- **The output that is held is the newest that has been printed** since the output was last
taken. The last line is held even if none is to be. -/
theorem output_runAll {lines : List OutputLine} (h : held.output = lines.rtake (max 1 capacity))
    (events : List Event) :
    (runAll capacity held events).output = (linesSince lines events).rtake (max 1 capacity) := by
  induction events generalizing held lines with
  | nil => exact h
  | cons event events ih =>
    have hevent : (run capacity held event).output =
        (addLine lines event).rtake (max 1 capacity) := by
      cases event with
      | print line =>
        rw [run, h]
        exact pushBounded_rtake capacity lines line
      | takeOutput => exact (List.rtake_nil _).symm
      | _ => exact h
    exact ih hevent

/-- **None of the newest changes is missing**, if none is ever dropped that is to be kept. -/
theorem changes_runAll {changes : List Change} (h : KeepsNewest capacity changes held.changes)
    {events : List Event} (hspare : Spare capacity events) :
    KeepsNewest capacity (changesSince changes events) (runAll capacity held events).changes := by
  induction events generalizing held changes with
  | nil => exact h
  | cons event events ih =>
    have hevent : KeepsNewest capacity (addChange changes event)
        (run capacity held event).changes := by
      cases event with
      | change c => exact h.append [c]
      | keepChanges count => exact h.rtake (hspare count List.mem_cons_self)
      | takeChanges => exact .refl capacity []
      | _ => exact h
    exact ih hevent fun count hmem => hspare count (List.mem_cons_of_mem _ hmem)

end Event

end DevConsole
