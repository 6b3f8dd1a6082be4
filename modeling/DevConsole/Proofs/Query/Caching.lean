import DevConsole.Query.Cache

/-!
Caches of queries. A cache only ever holds sources with their own queries, so what is looked up in it
is what reading the source gives; and it holds no more sources than it may.
-/

namespace DevConsole

/-- The number of entries grows by at most one. -/
theorem NameMap.size_insert_le {α : Type} (m : NameMap α) (name : String) (value : α) :
    (m.insert name value).size ≤ m.size + 1 := by
  have hsplit := List.length_eq_countP_add_countP (fun e : String × α => decide (e.1 < name))
    (l := m.entries)
  have hbehind : m.entries.countP (fun e => decide (name < e.1)) ≤
      m.entries.countP (fun e => !decide (e.1 < name)) := by
    refine List.countP_mono_left fun e _ he => ?_
    simp only [decide_eq_true_eq] at he
    simpa using String.lt_asymm he
  simp only [size, insert, List.length_append, List.length_cons, ← List.countP_eq_length_filter]
  simp only [Bool.not_eq_true, Bool.decide_eq_false] at hsplit hbehind
  omega

namespace QueryCache

variable {cache : QueryCache} {capacity : Nat}

/-! ### Faithful caches -/

/-- Whether the queries in the cache are those of their texts. -/
def Faithful (cache : QueryCache) : Prop :=
  ∀ source q, cache.queries.find? source = some q → parse source = .ok q

theorem Faithful.empty (capacity : Nat) : ({ capacity } : QueryCache).Faithful := by
  intro source q hfind
  cases hfind

theorem Faithful.add (h : cache.Faithful) {source : String} {q : Query}
    (hparse : parse source = .ok q) : (cache.add source q).Faithful := by
  unfold QueryCache.add
  split
  · exact h
  · intro other q' hfind
    rw [NameMap.find?_insert] at hfind
    split at hfind
    · next heq =>
      cases hfind
      rw [heq, hparse]
    · split at hfind
      · cases hfind
      · exact h other q' hfind

/-- A faithful cache gives what reading the source would give, and stays faithful. -/
theorem Faithful.get (h : cache.Faithful) (source : String) :
    (cache.get source).1 = parse source ∧ (cache.get source).2.Faithful := by
  unfold QueryCache.get
  split
  · next q hfind => exact ⟨(h source q hfind).symm, h⟩
  · split
    · next q hparse => exact ⟨hparse.symm, h.add hparse⟩
    · next fault hparse => exact ⟨hparse.symm, h⟩

/-- Looking up a source with a fault leaves the cache as it is. -/
theorem get_of_error {source : String} {fault : SyntaxError}
    (hparse : parse source = .error fault) : (cache.get source).2 = cache := by
  unfold QueryCache.get
  split
  · rfl
  · rw [hparse]

/-! ### Caches that are not overfull -/

/-- Whether the cache may hold `capacity` sources and holds no more than these. -/
structure Bounded (capacity : Nat) (cache : QueryCache) : Prop where
  capacity_eq : cache.capacity = capacity
  size_le : cache.queries.size ≤ capacity

theorem Bounded.empty (capacity : Nat) : ({ capacity } : QueryCache).Bounded capacity :=
  ⟨rfl, Nat.zero_le _⟩

theorem Bounded.add (h : cache.Bounded capacity) (source : String) (q : Query) :
    (cache.add source q).Bounded capacity := by
  obtain ⟨rfl, hsize⟩ := h
  unfold QueryCache.add
  split
  · exact ⟨rfl, hsize⟩
  · next hpos =>
    refine ⟨rfl, Nat.le_trans (NameMap.size_insert_le ..) ?_⟩
    split
    · exact Nat.pos_of_ne_zero hpos
    · next hroom => exact Nat.not_le.1 hroom

theorem Bounded.get (h : cache.Bounded capacity) (source : String) :
    (cache.get source).2.Bounded capacity := by
  unfold QueryCache.get
  split
  · exact h
  · split
    · exact h.add source _
    · exact h

end QueryCache

/-! ### Caches in use -/

inductive CacheOp
  | get (source : String)
  | clear

namespace CacheOp

def run (cache : QueryCache) : CacheOp → QueryCache
  | get source => (cache.get source).2
  | clear => cache.clear

/-- The cache for `capacity` sources after some operations. -/
def after (capacity : Nat) (ops : List CacheOp) : QueryCache := ops.foldl run { capacity }

theorem faithful_run {cache : QueryCache} (h : cache.Faithful) (op : CacheOp) :
    (op.run cache).Faithful := by
  cases op with
  | get source => exact (h.get source).2
  | clear => exact .empty cache.capacity

theorem bounded_run {capacity : Nat} {cache : QueryCache} (h : cache.Bounded capacity)
    (op : CacheOp) : (op.run cache).Bounded capacity := by
  cases op with
  | get source => exact h.get source
  | clear => exact ⟨h.capacity_eq, Nat.zero_le _⟩

theorem faithful_after (capacity : Nat) (ops : List CacheOp) : (after capacity ops).Faithful :=
  List.foldlRecOn ops run (.empty capacity) fun _ h op _ => faithful_run h op

theorem bounded_after (capacity : Nat) (ops : List CacheOp) :
    (after capacity ops).Bounded capacity :=
  List.foldlRecOn ops run (.empty capacity) fun _ h op _ => bounded_run h op

end CacheOp

end DevConsole
