import DevConsole.Command.Alias
import DevConsole.Proofs.Answers

/-!
The names of aliases. Main statement: after any operations each alias has a name that an alias may
have.
-/

namespace DevConsole

namespace Aliases

variable {as as' : Aliases}

/-- Whether each alias has a name that an alias may have. -/
def Valid (as : Aliases) : Prop :=
  ∀ name body, as.find? name = some body → Text.isValidPairedName name = true

theorem valid_empty : ({} : Aliases).Valid := fun _ _ h => by cases h

/-! ### What the operations do when they are not refused -/

theorem set_eq_ok {name body : String} {former : Option String}
    (h : as.set name body = .ok (former, as')) :
    Text.isValidPairedName name = true ∧ as' = ⟨as.byName.insert name body⟩ := by
  unfold set at h
  split at h
  · next hvalid =>
    cases h
    exact ⟨hvalid, rfl⟩
  · cases h

theorem remove_eq_ok {name body : String} (h : as.remove name = .ok (body, as')) :
    as' = ⟨as.byName.erase name⟩ := by
  unfold remove at h
  split at h
  · cases h
    rfl
  · cases h

theorem removePaired_eq_ok {name : String} {removed : List String}
    (h : as.removePaired name = .ok (removed, as')) :
    removed ≠ [] ∧ as' = ⟨removed.foldl NameMap.erase as.byName⟩ := by
  unfold removePaired at h
  dsimp only at h
  split at h
  · cases h
  · next hremoved =>
    cases h
    exact ⟨by simpa using hremoved, rfl⟩

/-! ### What keeps names valid -/

theorem Valid.insert (h : as.Valid) {name body : String}
    (hname : Text.isValidPairedName name = true) : Valid ⟨as.byName.insert name body⟩ :=
  NameMap.forall_insert h hname

theorem Valid.erase (h : as.Valid) (name : String) : Valid ⟨as.byName.erase name⟩ :=
  NameMap.forall_erase h name

theorem Valid.eraseAll (h : as.Valid) (names : List String) :
    Valid ⟨names.foldl NameMap.erase as.byName⟩ :=
  NameMap.forall_eraseAll h names

end Aliases

/-! ### Operations -/

inductive AliasesOp
  | set (name body : String)
  | remove (name : String)
  | removePaired (name : String)
  | clear
  deriving DecidableEq, Repr

namespace AliasesOp

variable {as : Aliases}

def run (as : Aliases) : AliasesOp → Aliases
  | set name body => (takeOrKeep as Prod.snd (as.set name body)).1
  | remove name => (takeOrKeep as Prod.snd (as.remove name)).1
  | removePaired name => (takeOrKeep as Prod.snd (as.removePaired name)).1
  | clear => {}

theorem valid_run (h : as.Valid) (op : AliasesOp) : (op.run as).Valid := by
  cases op with
  | set name body =>
    refine takeOrKeep_holds h fun ⟨former, as'⟩ hrun => ?_
    obtain ⟨hname, rfl⟩ := Aliases.set_eq_ok hrun
    exact h.insert hname
  | remove name =>
    refine takeOrKeep_holds h fun ⟨body, as'⟩ hrun => ?_
    obtain rfl := Aliases.remove_eq_ok hrun
    exact h.erase name
  | removePaired name =>
    refine takeOrKeep_holds h fun ⟨removed, as'⟩ hrun => ?_
    obtain ⟨-, rfl⟩ := Aliases.removePaired_eq_ok hrun
    exact h.eraseAll removed
  | clear => exact Aliases.valid_empty

end AliasesOp

end DevConsole
