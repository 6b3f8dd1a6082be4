import DevConsole.Command.Binds

/-!
Bindings that are kept in both directions. Main statement: after any operations, the keys of each
query are exactly those that are bound to it, and an operation changes no key but the one that it is
about.
-/

namespace DevConsole

namespace Binds

variable {bs bs' : Binds}

@[simp] theorem keyName_keyName (key : String) : keyName (keyName key) = keyName key := by
  have hsmall : ∀ c : Char, c.toLower.toLower = c.toLower := by
    intro c
    unfold Char.toLower
    split
    · next hcapital =>
      -- the small letters come behind all capital ones
      refine dif_neg fun hcapital' => ?_
      simp [UInt32.le_iff_toNat_le] at hcapital hcapital'
      omega
    · rfl
  simp [keyName, Function.comp_def, hsmall]

/-! ### What the operations do -/

/-- The keys of a query, as a set. -/
def keysOf (bs : Binds) (query : String) : NameMap Unit := (bs.byQuery.find? query).getD .empty

theorem mem_keysFor_iff {key query : String} :
    key ∈ bs.keysFor query ↔ (bs.keysOf query).contains key = true :=
  (NameMap.contains_iff_mem _).symm

@[simp] theorem unbind_fst (key : String) : (bs.unbind key).1 = bs.queryFor? key := by
  unfold unbind queryFor?
  dsimp only
  split <;> simp_all

@[simp] theorem bind_fst (key query : String) : (bs.bind key query).1 = bs.queryFor? key :=
  unbind_fst key

theorem byKey_unbind (key other : String) : (bs.unbind key).2.byKey.find? other =
    if other = keyName key then none else bs.byKey.find? other := by
  unfold unbind
  dsimp only
  split
  · next hnone =>
    split
    · next h => exact h ▸ hnone
    · rfl
  · exact NameMap.find?_erase ..

theorem byKey_bind (key query other : String) : (bs.bind key query).2.byKey.find? other =
    if other = keyName key then some query else bs.byKey.find? other := by
  unfold bind
  dsimp only
  rw [NameMap.find?_insert, byKey_unbind]
  split <;> rfl

theorem keysOf_unbind (key query : String) : (bs.unbind key).2.keysOf query =
    if bs.queryFor? key = some query then (bs.keysOf query).erase (keyName key)
    else bs.keysOf query := by
  unfold unbind queryFor?
  dsimp only
  rcases bs.byKey.find? (keyName key) with _ | former
  · simp
  · by_cases hquery : former = query
    · subst hquery
      simp only [keysOf, if_true]
      split
      · next hempty => simp [NameMap.find?_erase, NameMap.eq_empty_of_isEmpty hempty]
      · simp [NameMap.find?_insert]
    · have hother : query ≠ former := Ne.symm hquery
      simp only [keysOf, Option.some.injEq, hquery, if_false]
      split
      · rw [NameMap.find?_erase, if_neg hother]
      · rw [NameMap.find?_insert, if_neg hother]

theorem keysOf_bind (key query other : String) : (bs.bind key query).2.keysOf other =
    if other = query then ((bs.unbind key).2.keysOf query).insert (keyName key) ()
    else (bs.unbind key).2.keysOf other := by
  unfold bind keysOf
  dsimp only
  rw [NameMap.find?_insert]
  split <;> rfl

/-! ### Both directions -/

/-- Whether the keys of each query are those that are bound to it, no query is kept without keys,
and all keys are in small letters. -/
structure Mirrored (bs : Binds) : Prop where
  mem_keysFor : ∀ key query, key ∈ bs.keysFor query ↔ bs.byKey.find? key = some query
  inhabited : ∀ query keys, bs.byQuery.find? query = some keys → keys.isEmpty = false
  small : ∀ key query, bs.byKey.find? key = some query → keyName key = key

namespace Mirrored

theorem empty : ({} : Binds).Mirrored where
  mem_keysFor := by simp [keysFor, NameMap.names, NameMap.empty, NameMap.find?]
  inhabited := by simp
  small := by simp

theorem unbind (h : bs.Mirrored) (key : String) : (bs.unbind key).2.Mirrored where
  mem_keysFor := by
    intro other query
    have hother := h.mem_keysFor other query
    rw [mem_keysFor_iff] at hother ⊢
    rw [keysOf_unbind, byKey_unbind]
    by_cases heq : other = keyName key
    · subst heq
      split
      · simp [NameMap.contains_erase]
      · next hne => simpa [hother, queryFor?] using hne
    · split
      · simp [NameMap.contains_erase, heq, hother]
      · exact hother
  inhabited := by
    intro query keys hkeys
    unfold Binds.unbind at hkeys
    dsimp only at hkeys
    split at hkeys
    · exact h.inhabited query keys hkeys
    · split at hkeys
      · exact NameMap.forall_erase h.inhabited _ query keys hkeys
      · next hkept =>
        exact NameMap.forall_insert h.inhabited (by simpa using hkept) query keys hkeys
  small := by
    intro other query hother
    rw [byKey_unbind] at hother
    split at hother
    · cases hother
    · exact h.small other query hother

theorem bind (h : bs.Mirrored) (key query : String) : (bs.bind key query).2.Mirrored where
  mem_keysFor := by
    intro other query'
    have hother := (h.unbind key).mem_keysFor other query'
    rw [mem_keysFor_iff, byKey_unbind] at hother
    rw [mem_keysFor_iff, keysOf_bind, byKey_bind]
    by_cases heq : other = keyName key
    · subst heq
      rw [if_pos rfl] at hother
      split
      · next hquery => simp [NameMap.contains_insert, hquery]
      · next hquery => simp [hother, Ne.symm hquery]
    · rw [if_neg heq] at hother ⊢
      rw [← hother]
      split
      · next hquery => simp [NameMap.contains_insert, heq, hquery]
      · rfl
  inhabited := by
    intro query' keys hkeys
    refine NameMap.forall_insert (h.unbind key).inhabited ?_ query' keys hkeys
    simp [NameMap.isEmpty, NameMap.insert]
  small := by
    intro other query' hother
    rw [byKey_bind] at hother
    split at hother
    · next heq => rw [heq, keyName_keyName]
    · exact h.small other query' hother

theorem find?_byQuery (h : bs.Mirrored) (query : String) : bs.byQuery.find? query =
    if (bs.keysOf query).isEmpty then none else some (bs.keysOf query) := by
  unfold keysOf
  rcases hfind : bs.byQuery.find? query with _ | keys
  · rfl
  · simp [h.inhabited query keys hfind]

/-- Bindings are determined by what each key is bound to. -/
theorem eq_of_byKey_eq (h : bs.Mirrored) (h' : bs'.Mirrored) (heq : bs.byKey = bs'.byKey) :
    bs = bs' := by
  have hkeys : ∀ query, bs.keysOf query = bs'.keysOf query := by
    intro query
    refine NameMap.eq_of_contains_iff fun key => ?_
    rw [← mem_keysFor_iff, ← mem_keysFor_iff, h.mem_keysFor, h'.mem_keysFor, heq]
  have hqueries : bs.byQuery = bs'.byQuery := by
    refine NameMap.eq_of_find?_eq fun query => ?_
    rw [h.find?_byQuery, h'.find?_byQuery, hkeys]
  cases bs
  cases bs'
  cases heq
  cases hqueries
  rfl

end Mirrored

end Binds

/-! ### Operations -/

inductive BindsOp
  | bind (key query : String)
  | unbind (key : String)
  | clear
  deriving DecidableEq, Repr

namespace BindsOp

variable {bs : Binds}

def run (bs : Binds) : BindsOp → Binds
  | bind key query => (bs.bind key query).2
  | unbind key => (bs.unbind key).2
  | clear => {}

def runAll (ops : List BindsOp) (bs : Binds) : Binds := ops.foldl run bs

theorem mirrored_run (h : bs.Mirrored) (op : BindsOp) : (op.run bs).Mirrored := by
  cases op with
  | bind key query => exact h.bind key query
  | unbind key => exact h.unbind key
  | clear => exact .empty

theorem mirrored_runAll (h : bs.Mirrored) (ops : List BindsOp) : (runAll ops bs).Mirrored := by
  induction ops generalizing bs with
  | nil => exact h
  | cons op ops ih => exact ih (mirrored_run h op)

/-- Whether bindings are in order, and what is done to them next answers with what there was before
and changes no other key. -/
structure InOrder (bs : Binds) : Prop where
  mirrored : bs.Mirrored
  /-- Both directions of looking up agree. -/
  agree : ∀ key query, bs.queryFor? key = some query ↔ Binds.keyName key ∈ bs.keysFor query
  bound : ∀ key query, (bs.bind key query).1 = bs.queryFor? key ∧
    ∀ other, (bs.bind key query).2.queryFor? other =
      if Binds.keyName other = Binds.keyName key then some query else bs.queryFor? other
  unbound : ∀ key, (bs.unbind key).1 = bs.queryFor? key ∧
    ∀ other, (bs.unbind key).2.queryFor? other =
      if Binds.keyName other = Binds.keyName key then none else bs.queryFor? other

/-- **Keys and queries mirror each other** under any operations: the keys of each query are those
that are bound to it, and each operation answers with the query that its key had and changes no
other key. -/
theorem inOrder_binds (ops : List BindsOp) : InOrder (runAll ops {}) := by
  have h : (runAll ops {}).Mirrored := mirrored_runAll .empty ops
  exact {
    mirrored := h
    agree := fun key query => (h.mem_keysFor (Binds.keyName key) query).symm
    bound := fun key query => ⟨Binds.bind_fst key query, fun _ => Binds.byKey_bind ..⟩
    unbound := fun key => ⟨Binds.unbind_fst key, fun _ => Binds.byKey_unbind ..⟩ }

example : (runAll [.bind "W" "+forward", .bind "up" "+forward"] {}).keysFor "+forward" =
    ["up", "w"] := by
  decide +kernel

end BindsOp

end DevConsole
