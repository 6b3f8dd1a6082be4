/-!
Finite maps from names to entries, kept as the list of the entries in name order. Names are
ordered character by character, so equal maps have equal lists. `find?_insert`, `find?_erase` and
`find?_modify` say what each change does to the entry of every name.
-/

namespace DevConsole

/-- A finite map from names to `α`: its entries, each name once, in name order. -/
structure NameMap (α : Type) where
  entries : List (String × α) := []
  sorted : entries.Pairwise (fun a b => a.1 < b.1) := by simp

namespace NameMap

variable {α : Type}

def empty : NameMap α := {}

instance : Inhabited (NameMap α) := ⟨empty⟩

def find? (m : NameMap α) (name : String) : Option α := m.entries.lookup name

def contains (m : NameMap α) (name : String) : Bool := (m.find? name).isSome

def names (m : NameMap α) : List String := m.entries.map (·.1)

def size (m : NameMap α) : Nat := m.entries.length

def isEmpty (m : NameMap α) : Bool := m.entries.isEmpty

/-! ### Changing a map -/

theorem sorted_insert {entries : List (String × α)}
    (h : entries.Pairwise (fun a b => a.1 < b.1)) (name : String) (value : α) :
    (entries.filter (fun e => decide (e.1 < name)) ++
      (name, value) :: entries.filter (fun e => decide (name < e.1))).Pairwise
        (fun a b => a.1 < b.1) := by
  refine List.pairwise_append.2 ⟨h.filter _, List.pairwise_cons.2 ⟨?_, h.filter _⟩, ?_⟩
  · intro e he
    simpa using (List.mem_filter.1 he).2
  · intro e he e' he'
    have hlt : e.1 < name := by simpa using (List.mem_filter.1 he).2
    rcases List.mem_cons.1 he' with rfl | he'
    · exact hlt
    · have hgt : name < e'.1 := by simpa using (List.mem_filter.1 he').2
      exact String.lt_trans hlt hgt

/-- The map with `value` under `name`, in place of any former entry. -/
def insert (m : NameMap α) (name : String) (value : α) : NameMap α where
  entries := m.entries.filter (fun e => decide (e.1 < name)) ++
    (name, value) :: m.entries.filter (fun e => decide (name < e.1))
  sorted := sorted_insert m.sorted name value

def erase (m : NameMap α) (name : String) : NameMap α where
  entries := m.entries.filter (fun e => e.1 != name)
  sorted := m.sorted.filter _

/-- The map with `f` applied to the entry under `name`, if there is one. -/
def modify (m : NameMap α) (name : String) (f : α → α) : NameMap α where
  entries := m.entries.map (fun e => (e.1, if e.1 = name then f e.2 else e.2))
  sorted := List.pairwise_map.2 m.sorted

/-- The map of a list of entries; of two entries with one name the later one counts. -/
def ofList (entries : List (String × α)) : NameMap α :=
  entries.foldl (fun m e => m.insert e.1 e.2) empty

/-! ### What a map holds after a change -/

theorem lookup_filter (p : String → Bool) (name : String) (entries : List (String × α)) :
    (entries.filter fun e => p e.1).lookup name = if p name then entries.lookup name else none := by
  induction entries with
  | nil => simp
  | cons e rest ih =>
    obtain ⟨key, value⟩ := e
    by_cases hk : name = key
    · subst hk
      by_cases hp : p name
      · simp [hp]
      · simp [hp, ih]
    · have hb : (name == key) = false := by simpa using hk
      by_cases hp : p key <;> simp [hp, List.lookup_cons, hb, ih]

@[simp] theorem find?_empty (name : String) : (empty : NameMap α).find? name = none := rfl

theorem find?_insert (m : NameMap α) (name : String) (value : α) (other : String) :
    (m.insert name value).find? other = if other = name then some value else m.find? other := by
  simp only [find?, insert, List.lookup_append,
    lookup_filter (fun key => decide (key < name)), List.lookup_cons,
    lookup_filter (fun key => decide (name < key))]
  by_cases h : other = name
  · simp [h]
  · have hb : (other == name) = false := by simpa using h
    rcases Decidable.em (other < name) with hlt | hge
    · have hgt : ¬ name < other := String.lt_asymm hlt
      simp [hb, h, hlt, hgt]
    · have hgt : name < other := by
        rcases Decidable.em (name < other) with hgt | hle
        · exact hgt
        · exact absurd (String.le_antisymm (String.not_lt.1 hle) (String.not_lt.1 hge)) h
      simp [hb, h, hge, hgt]

theorem find?_erase (m : NameMap α) (name other : String) :
    (m.erase name).find? other = if other = name then none else m.find? other := by
  simp only [find?, erase, lookup_filter (fun key => key != name)]
  by_cases h : other = name <;> simp [h]

theorem find?_modify (m : NameMap α) (name : String) (f : α → α) (other : String) :
    (m.modify name f).find? other =
      if other = name then (m.find? other).map f else m.find? other := by
  simp only [find?, modify]
  induction m.entries with
  | nil => simp
  | cons e rest ih =>
    obtain ⟨key, value⟩ := e
    simp only [List.map_cons, List.lookup_cons]
    by_cases hk : other = key
    · subst hk; by_cases h : other = name <;> simp [h]
    · have hb : (other == key) = false := by simpa using hk
      simp [hb, ih]

theorem lookup_eq_some_of_mem {entries : List (String × α)}
    (h : entries.Pairwise (fun a b => a.1 < b.1)) {name : String} {value : α}
    (he : (name, value) ∈ entries) : entries.lookup name = some value := by
  induction entries with
  | nil => cases he
  | cons e rest ih =>
    obtain ⟨hlt, hrest⟩ := List.pairwise_cons.1 h
    rcases List.mem_cons.1 he with rfl | he
    · simp
    · have hne : (name == e.1) = false := by
        have := hlt _ he
        simp only [beq_eq_false_iff_ne, ne_eq]
        rintro rfl
        exact String.lt_irrefl _ this
      rw [List.lookup_cons, hne]
      exact ih hrest he

theorem mem_of_lookup_eq_some {entries : List (String × α)} {name : String} {value : α}
    (h : entries.lookup name = some value) : (name, value) ∈ entries := by
  induction entries with
  | nil => cases h
  | cons e rest ih =>
    obtain ⟨key, former⟩ := e
    rw [List.lookup_cons] at h
    split at h
    · next hb =>
      cases h
      simp [eq_of_beq hb]
    · exact List.mem_cons_of_mem _ (ih h)

theorem lookup_eq_some_iff_mem {entries : List (String × α)}
    (h : entries.Pairwise (fun a b => a.1 < b.1)) {name : String} {value : α} :
    entries.lookup name = some value ↔ (name, value) ∈ entries :=
  ⟨mem_of_lookup_eq_some, lookup_eq_some_of_mem h⟩

theorem mem_entries_iff (m : NameMap α) {name : String} {value : α} :
    (name, value) ∈ m.entries ↔ m.find? name = some value :=
  (lookup_eq_some_iff_mem m.sorted).symm

theorem eq_of_find?_eq {m m' : NameMap α} (h : ∀ name, m.find? name = m'.find? name) : m = m' := by
  have hnodup : ∀ m : NameMap α, m.entries.Nodup := by
    intro m
    refine m.sorted.imp ?_
    rintro a b hlt rfl
    exact String.lt_irrefl _ hlt
  have hperm : m.entries.Perm m'.entries := by
    refine (List.perm_ext_iff_of_nodup (hnodup m) (hnodup m')).2 ?_
    rintro ⟨name, value⟩
    rw [mem_entries_iff, mem_entries_iff, h]
  have hentries : m.entries = m'.entries :=
    hperm.eq_of_pairwise (fun _ _ _ _ hlt hgt => absurd hgt (String.lt_asymm hlt)) m.sorted m'.sorted
  cases m
  cases m'
  cases hentries
  rfl

theorem contains_iff_mem (m : NameMap α) {name : String} :
    m.contains name = true ↔ name ∈ m.names := by
  simp only [contains, Option.isSome_iff_exists, names, List.mem_map, ← mem_entries_iff]
  constructor
  · rintro ⟨value, h⟩; exact ⟨_, h, rfl⟩
  · rintro ⟨e, h, rfl⟩; exact ⟨e.2, h⟩

theorem contains_iff_exists (m : NameMap α) {name : String} :
    m.contains name = true ↔ ∃ value, m.find? name = some value := by
  rw [contains, Option.isSome_iff_exists]

theorem contains_eq_false_iff (m : NameMap α) {name : String} :
    m.contains name = false ↔ m.find? name = none := by
  rw [contains, Option.isSome_eq_false_iff, Option.isNone_iff_eq_none]

theorem eq_of_contains_iff {m m' : NameMap Unit}
    (h : ∀ name, m.contains name = true ↔ m'.contains name = true) : m = m' := by
  refine eq_of_find?_eq fun name => Option.ext fun _ => ?_
  have hunit : ∀ m : NameMap Unit, m.contains name = true ↔ m.find? name = some () := by
    intro m
    rw [contains_iff_exists]
    exact ⟨fun ⟨_, h⟩ => h, fun h => ⟨_, h⟩⟩
  rw [← hunit, ← hunit, h]

theorem eq_empty_of_isEmpty {m : NameMap α} (h : m.isEmpty = true) : m = empty := by
  obtain ⟨entries, sorted⟩ := m
  obtain rfl : entries = [] := List.isEmpty_iff.1 h
  rfl

theorem contains_insert (m : NameMap α) (name : String) (value : α) (other : String) :
    (m.insert name value).contains other = (decide (other = name) || m.contains other) := by
  by_cases h : other = name <;> simp [contains, find?_insert, h]

theorem contains_erase (m : NameMap α) (name other : String) :
    (m.erase name).contains other = (!decide (other = name) && m.contains other) := by
  by_cases h : other = name <;> simp [contains, find?_erase, h]

@[simp] theorem contains_modify (m : NameMap α) (name : String) (f : α → α) (other : String) :
    (m.modify name f).contains other = m.contains other := by
  by_cases h : other = name <;> simp [contains, find?_modify, h]

theorem forall_insert {P : String → α → Prop} {m : NameMap α} {name : String} {value : α}
    (h : ∀ key v, m.find? key = some v → P key v) (hnew : P name value) :
    ∀ key v, (m.insert name value).find? key = some v → P key v := by
  intro key v hfind
  rw [find?_insert] at hfind
  split at hfind
  · next hkey =>
    cases hfind
    exact hkey ▸ hnew
  · exact h key v hfind

theorem forall_erase {P : String → α → Prop} {m : NameMap α}
    (h : ∀ key v, m.find? key = some v → P key v) (name : String) :
    ∀ key v, (m.erase name).find? key = some v → P key v := by
  intro key v hfind
  rw [find?_erase] at hfind
  split at hfind
  · cases hfind
  · exact h key v hfind

theorem forall_eraseAll {P : String → α → Prop} {m : NameMap α}
    (h : ∀ key v, m.find? key = some v → P key v) (names : List String) :
    ∀ key v, (names.foldl erase m).find? key = some v → P key v := by
  induction names generalizing m with
  | nil => exact h
  | cons name names ih => exact ih (forall_erase h name)

theorem forall_modify {P : String → α → Prop} {m : NameMap α} {name : String} {f : α → α}
    (h : ∀ key v, m.find? key = some v → P key v)
    (hnew : ∀ v, m.find? name = some v → P name (f v)) :
    ∀ key v, (m.modify name f).find? key = some v → P key v := by
  intro key v hfind
  rw [find?_modify] at hfind
  split at hfind
  · next hkey =>
    subst hkey
    obtain ⟨former, hformer, rfl⟩ := Option.map_eq_some_iff.1 hfind
    exact hnew former hformer
  · exact h key v hfind

@[simp] theorem names_modify (m : NameMap α) (name : String) (f : α → α) :
    (m.modify name f).names = m.names := by
  simp [names, modify]

/-! ### Maps from lists -/

variable {β : Type}

theorem lookup_map (f : α → β) (name : String) (entries : List (String × α)) :
    (entries.map fun e => (e.1, f e.2)).lookup name = (entries.lookup name).map f := by
  induction entries with
  | nil => rfl
  | cons e rest ih =>
    obtain ⟨key, value⟩ := e
    simp only [List.map_cons, List.lookup_cons]
    cases name == key <;> simp [ih]

theorem lookup_filter_value {entries : List (String × α)}
    (h : entries.Pairwise (fun a b => a.1 < b.1)) (p : α → Bool) (name : String) :
    (entries.filter fun e => p e.2).lookup name = (entries.lookup name).filter p := by
  refine Option.ext fun value => ?_
  rw [lookup_eq_some_iff_mem (h.filter _), List.mem_filter, Option.filter_eq_some_iff,
    lookup_eq_some_iff_mem h]

theorem filter_entries_congr {m m' : NameMap α} {p : α → Bool}
    (h : ∀ name, (m'.find? name).filter p = (m.find? name).filter p) :
    (m'.entries.filter fun e => p e.2) = m.entries.filter fun e => p e.2 := by
  let kept (m : NameMap α) : NameMap α := ⟨m.entries.filter fun e => p e.2, m.sorted.filter _⟩
  have hfind : ∀ m : NameMap α, ∀ name, (kept m).find? name = (m.find? name).filter p :=
    fun m name => lookup_filter_value m.sorted p name
  have heq : kept m' = kept m := eq_of_find?_eq fun name => by rw [hfind, hfind, h]
  exact congrArg entries heq

theorem find?_foldl_insert {entries : List (String × α)}
    (h : entries.Pairwise (fun a b => a.1 < b.1)) (m : NameMap α) (name : String) :
    (entries.foldl (fun m e => m.insert e.1 e.2) m).find? name =
      (entries.lookup name).or (m.find? name) := by
  induction entries generalizing m with
  | nil => rfl
  | cons e rest ih =>
    obtain ⟨hlt, hrest⟩ := List.pairwise_cons.1 h
    rw [List.foldl_cons, ih hrest, find?_insert, List.lookup_cons]
    split
    · next heq =>
      subst heq
      have hnone : rest.lookup e.1 = none := by
        rcases hfind : rest.lookup e.1 with _ | value
        · rfl
        · exact absurd (hlt _ (mem_of_lookup_eq_some hfind)) (String.lt_irrefl _)
      simp [hnone]
    · next hne => rw [beq_eq_false_iff_ne.2 hne]

/-- Entries that are inserted into a map that holds no others make up the map that they are from. -/
theorem foldl_insert_entries {m m' : NameMap α}
    (h : ∀ name value, m'.find? name = some value → m.find? name = some value) :
    m.entries.foldl (fun m e => m.insert e.1 e.2) m' = m := by
  refine eq_of_find?_eq fun name => ?_
  rw [find?_foldl_insert m.sorted, ← find?]
  rcases hfind : m.find? name with _ | value
  · rcases hother : m'.find? name with _ | value
    · rfl
    · cases hfind.symm.trans (h name value hother)
  · rfl

theorem find?_foldl_erase (m : NameMap α) (names : List String) (name : String) :
    (names.foldl erase m).find? name = if name ∈ names then none else m.find? name := by
  induction names generalizing m with
  | nil => simp
  | cons other names ih =>
    rw [List.foldl_cons, ih, find?_erase]
    by_cases h : name = other <;> simp [h]

/-! ### Entries by the start of their names -/

def beginsWith (start name : String) : Bool := start.toList.isPrefixOf name.toList

/-- The entries whose names begin with `start`: the run that starts at `start` itself and ends
before the first name that lacks it. -/
def withStart (m : NameMap α) (start : String) : List (String × α) :=
  (m.entries.dropWhile (fun e => decide (e.1 < start))).takeWhile (fun e => beginsWith start e.1)

end NameMap

end DevConsole
