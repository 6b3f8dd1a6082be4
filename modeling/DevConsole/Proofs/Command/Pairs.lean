import DevConsole.Command.Registry
import DevConsole.Proofs.Answers

/-!
Pairs of commands. Main statement: after any operations on a registry, failing ones among them, the
other half that a command names is there and names that command.
-/

namespace DevConsole

variable {η : Type}

/-! ### The names of a pair -/

/-- Whether the names are those of the two halves of a pair. -/
def IsPair (a b : String) : Prop :=
  ∃ base, Text.isValidName base = true ∧
    (a = "+" ++ base ∧ b = "-" ++ base ∨ a = "-" ++ base ∧ b = "+" ++ base)

/-- Whether the name is a plain one or that of one half of a pair. -/
def IsCommandName (name : String) : Prop :=
  Text.isValidName name = true ∨
    ∃ base, Text.isValidName base = true ∧ (name = "+" ++ base ∨ name = "-" ++ base)

theorem press_ne_release (a b : String) : "+" ++ a ≠ "-" ++ b := by
  intro h
  have hlist := congrArg String.toList h
  simp [String.toList_append] at hlist

theorem isValidName_press (base : String) : Text.isValidName ("+" ++ base) = false := by
  simp [Text.isValidName, Text.isPlainName, String.toList_append, Text.isNameChar]

theorem isValidName_release (base : String) : Text.isValidName ("-" ++ base) = false := by
  simp [Text.isValidName, Text.isPlainName, String.toList_append, Text.isNameChar]

namespace IsPair

variable {a b c : String}

theorem symm (h : IsPair a b) : IsPair b a := by
  obtain ⟨base, hbase, ⟨ha, hb⟩ | ⟨ha, hb⟩⟩ := h
  · exact ⟨base, hbase, .inr ⟨hb, ha⟩⟩
  · exact ⟨base, hbase, .inl ⟨hb, ha⟩⟩

theorem of_base {base : String} (h : Text.isValidName base = true) :
    IsPair ("+" ++ base) ("-" ++ base) := ⟨base, h, .inl ⟨rfl, rfl⟩⟩

/-- A name is one half of one pair only. -/
theorem unique (h : IsPair a b) (h' : IsPair a c) : b = c := by
  obtain ⟨base, -, ⟨rfl, rfl⟩ | ⟨rfl, rfl⟩⟩ := h
  · obtain ⟨base', -, ⟨heq, rfl⟩ | ⟨heq, -⟩⟩ := h'
    · rw [(String.append_right_inj _).1 heq]
    · exact (press_ne_release _ _ heq).elim
  · obtain ⟨base', -, ⟨heq, -⟩ | ⟨heq, rfl⟩⟩ := h'
    · exact (press_ne_release _ _ heq.symm).elim
    · rw [(String.append_right_inj _).1 heq]

theorem ne (h : IsPair a b) : a ≠ b := by
  obtain ⟨base, -, ⟨rfl, rfl⟩ | ⟨rfl, rfl⟩⟩ := h
  · exact press_ne_release base base
  · exact (press_ne_release base base).symm

theorem isCommandName (h : IsPair a b) : IsCommandName a := by
  obtain ⟨base, hbase, ⟨ha, -⟩ | ⟨ha, -⟩⟩ := h
  · exact .inr ⟨base, hbase, .inl ha⟩
  · exact .inr ⟨base, hbase, .inr ha⟩

/-- A plain name is no half of a pair. -/
theorem isValidName_eq_false (h : IsPair a b) : Text.isValidName a = false := by
  obtain ⟨base, -, ⟨rfl, -⟩ | ⟨rfl, -⟩⟩ := h
  · exact isValidName_press base
  · exact isValidName_release base

end IsPair

/-! ### Registries in order -/

/-- Whether the command names no other half, or the one that its own name asks for. Commands are
made without a mark, and only a registry marks them. -/
def Command.WellMarked (c : Command η) : Prop := ∀ other, c.partner = some other → IsPair c.name other

/-- Whether each command is kept under its own name, which is one that commands have, and the other
half that it names is there and names it. -/
structure Commands.Paired (cs : Commands η) : Prop where
  names : ∀ key c, cs.find? key = some c → c.name = key ∧ IsCommandName key
  partners : ∀ key c other, cs.find? key = some c → c.partner = some other →
    IsPair key other ∧ ∃ c', cs.find? other = some c' ∧ c'.partner = some key

namespace Commands

variable {cs cs' : Commands η} {name : String}

theorem find?_unlink (cs : Commands η) (name key : String) : (cs.unlink name).find? key =
    if key = name then none
    else if cs.partner? name = some key then
      (cs.find? key).map fun c => { c with partner := none }
    else cs.find? key := by
  unfold unlink
  dsimp only
  by_cases hkey : key = name
  · subst hkey
    split <;> simp [find?, NameMap.find?_modify, NameMap.find?_erase]
  · split
    · next other hother =>
      by_cases h : key = other
      · subst h
        simp [find?, NameMap.find?_modify, NameMap.find?_erase, hkey, hother]
      · simp [find?, NameMap.find?_modify, NameMap.find?_erase, hkey, h, hother, Ne.symm h]
    · next hnone =>
      simp [find?, NameMap.find?_erase, hkey, hnone]

theorem find?_insert (cs : Commands η) (c : Command η) (key : String) :
    (cs.insert c).2.find? key = if key = c.name then some c else (cs.unlink c.name).find? key :=
  NameMap.find?_insert ..

theorem registerPair_eq_ok {base : String} {press release : Command η}
    (h : cs.registerPair base press release = .ok cs') : Text.isValidName base = true ∧
      press.name = "+" ++ base ∧ release.name = "-" ++ base ∧
      cs' = ((cs.insert { press with partner := some ("-" ++ base) }).2.insert
        { release with partner := some ("+" ++ base) }).2 := by
  unfold registerPair at h
  dsimp only at h
  split at h
  · cases h
  · next hvalid =>
    split at h
    · cases h
    · next hpress =>
      split at h
      · cases h
      · next hrelease =>
        cases h
        exact ⟨by simpa using hvalid, by simpa using hpress, by simpa using hrelease, rfl⟩

/-- What holds of the handlers of all commands still does once a command is added of whose handler it
holds. -/
theorem forall_handler_insert {P : η → Prop} {c : Command η}
    (h : ∀ key d, cs.find? key = some d → P d.handler) (hc : P c.handler) :
    ∀ key d, (cs.insert c).2.find? key = some d → P d.handler := by
  intro key d hfind
  rw [find?_insert, find?_unlink] at hfind
  split at hfind
  · obtain rfl := Option.some.inj hfind
    exact hc
  · split at hfind
    · obtain ⟨former, hformer, rfl⟩ := Option.map_eq_some_iff.1 hfind
      exact h key former hformer
    · exact h key d hfind

namespace Paired

theorem empty : ({} : Commands η).Paired where
  names := by simp [find?]
  partners := by simp [find?]

/-- Two halves of a pair that are there name each other or nothing. -/
theorem partner_eq (h : cs.Paired) {a b : String} {c c' : Command η} (ha : cs.find? a = some c)
    (hmark : c.partner = some b) (hb : cs.find? b = some c') : c'.partner = some a := by
  obtain ⟨-, c'', hfind, hback⟩ := h.partners a c b ha hmark
  rw [hb] at hfind
  obtain rfl := Option.some.inj hfind
  exact hback

/-- What is found once a command is gone was found before, and if it names another half it is the
same and does not name the command that is gone. -/
theorem find?_of_unlink (h : cs.Paired) {key : String} {c : Command η}
    (hfind : (cs.unlink name).find? key = some c) : key ≠ name ∧ ∃ former,
      cs.find? key = some former ∧ c.name = former.name ∧
      (c.partner = none ∨ c = former ∧ c.partner ≠ some name) := by
  rw [find?_unlink] at hfind
  split at hfind
  · cases hfind
  · next hkey =>
    refine ⟨hkey, ?_⟩
    split at hfind
    · obtain ⟨former, hformer, rfl⟩ := Option.map_eq_some_iff.1 hfind
      exact ⟨former, hformer, rfl, .inl rfl⟩
    · next hother =>
      refine ⟨c, hfind, rfl, .inr ⟨rfl, fun hmark => hother ?_⟩⟩
      obtain ⟨-, c', hfind', hback⟩ := h.partners key c name hfind hmark
      rw [partner?, hfind', Option.bind_some, hback]

/-- Once a command is gone no other one names it. -/
theorem partner_ne_of_unlink (h : cs.Paired) {key : String} {c : Command η}
    (hfind : (cs.unlink name).find? key = some c) : c.partner ≠ some name := by
  obtain ⟨-, former, -, -, hnone | ⟨-, hne⟩⟩ := h.find?_of_unlink hfind
  · simp [hnone]
  · exact hne

theorem unlink (h : cs.Paired) (name : String) : (cs.unlink name).Paired where
  names := by
    intro key c hfind
    obtain ⟨-, former, hformer, hname, -⟩ := h.find?_of_unlink hfind
    rw [hname]
    exact h.names key former hformer
  partners := by
    intro key c other hfind hmark
    obtain ⟨hkey, former, hformer, -, hnone | ⟨rfl, hne⟩⟩ := h.find?_of_unlink hfind
    · rw [hnone] at hmark
      cases hmark
    · obtain ⟨hpair, c', hother, hback⟩ := h.partners key c other hformer hmark
      refine ⟨hpair, c', ?_, hback⟩
      have hname : other ≠ name := by
        rintro rfl
        exact hne hmark
      have hfree : cs.partner? name ≠ some other := by
        intro hpartner
        obtain ⟨d, hd, hdmark⟩ := Option.bind_eq_some_iff.1 hpartner
        rw [h.partner_eq hd hdmark hother] at hback
        exact hkey (Option.some.inj hback).symm
      rw [find?_unlink, if_neg hname, if_neg hfree, hother]

/-- A command that names no other half may be added. -/
theorem insert (h : cs.Paired) {c : Command η} (hname : IsCommandName c.name)
    (hmark : c.partner = none) : (cs.insert c).2.Paired where
  names := by
    intro key d hfind
    rw [find?_insert] at hfind
    split at hfind
    · next hkey =>
      obtain rfl := Option.some.inj hfind
      exact ⟨hkey.symm, hkey ▸ hname⟩
    · exact (h.unlink c.name).names key d hfind
  partners := by
    intro key d other hfind hdmark
    rw [find?_insert] at hfind
    split at hfind
    · obtain rfl := Option.some.inj hfind
      rw [hmark] at hdmark
      cases hdmark
    · obtain ⟨hpair, d', hother, hback⟩ := (h.unlink c.name).partners key d other hfind hdmark
      refine ⟨hpair, d', ?_, hback⟩
      have hne : other ≠ c.name := by
        rintro rfl
        exact h.partner_ne_of_unlink hfind hdmark
      rw [find?_insert, if_neg hne, hother]

/-- What is found once both halves of a pair have been added. Whatever stood under the name of the
second one has lost its mark by then. -/
theorem find?_insert_insert (h : cs.Paired) {c d : Command η} (hpair : IsPair c.name d.name)
    (key : String) : ((cs.insert c).2.insert d).2.find? key =
      if key = d.name then some d else if key = c.name then some c
      else (cs.unlink c.name).find? key := by
  -- `c` is the only one that could name `d`, and the former command of its name is gone
  have hfree : (cs.insert c).2.partner? d.name = none := by
    rw [partner?, find?_insert, if_neg hpair.ne.symm]
    rcases hfind : (cs.unlink c.name).find? d.name with _ | former
    · rfl
    · rcases hmark : former.partner with _ | other
      · exact hmark
      · obtain ⟨hpair', -⟩ := (h.unlink c.name).partners _ _ _ hfind hmark
        rw [hpair'.unique hpair.symm] at hmark
        exact (h.partner_ne_of_unlink hfind hmark).elim
  rw [find?_insert, find?_unlink, hfree, find?_insert]
  by_cases hkey : key = d.name <;> simp [hkey]

/-- Both halves of a pair may be added, each with the name of the other one. -/
theorem insert_insert (h : cs.Paired) {c d : Command η} (hpair : IsPair c.name d.name)
    (hc : c.partner = some d.name) (hd : d.partner = some c.name) :
    ((cs.insert c).2.insert d).2.Paired where
  names := by
    intro key e hfind
    rw [h.find?_insert_insert hpair] at hfind
    split at hfind
    · next hkey =>
      obtain rfl := Option.some.inj hfind
      exact ⟨hkey.symm, hkey ▸ hpair.symm.isCommandName⟩
    · split at hfind
      · next hkey =>
        obtain rfl := Option.some.inj hfind
        exact ⟨hkey.symm, hkey ▸ hpair.isCommandName⟩
      · exact (h.unlink c.name).names key e hfind
  partners := by
    intro key e other hfind hmark
    rw [h.find?_insert_insert hpair] at hfind
    simp only [h.find?_insert_insert hpair]
    split at hfind
    · next hkey =>
      obtain rfl := Option.some.inj hfind
      obtain rfl := Option.some.inj (hd.symm.trans hmark)
      exact ⟨hkey ▸ hpair.symm, c, by rw [if_neg hpair.ne, if_pos rfl], hkey ▸ hc⟩
    · next hkey =>
      split at hfind
      · next hkey' =>
        obtain rfl := Option.some.inj hfind
        obtain rfl := Option.some.inj (hc.symm.trans hmark)
        exact ⟨hkey' ▸ hpair, d, if_pos rfl, hkey' ▸ hd⟩
      · next hkey' =>
        -- a command of a third name has its other half under a fourth one
        obtain ⟨hpair', e', hother, hback⟩ := (h.unlink c.name).partners key e other hfind hmark
        have hne : other ≠ c.name := by
          rintro rfl
          exact h.partner_ne_of_unlink hfind hmark
        have hne' : other ≠ d.name := by
          rintro rfl
          exact hkey' (hpair'.symm.unique hpair.symm)
        exact ⟨hpair', e', by rw [if_neg hne', if_neg hne, hother], hback⟩

/-! ### What keeps a registry in order -/

/-- What a registry hands out may be handed to one again. -/
theorem wellMarked (h : cs.Paired) {key : String} {c : Command η} (hfind : cs.find? key = some c) :
    c.WellMarked := by
  intro other hmark
  rw [(h.names key c hfind).1]
  exact (h.partners key c other hfind hmark).1

theorem register (h : cs.Paired) {c : Command η} (hc : c.WellMarked) {fresh : Bool}
    (hrun : cs.register c = .ok (fresh, cs')) : cs'.Paired := by
  unfold Commands.register at hrun
  split at hrun
  · next hvalid =>
    have hmark : c.partner = none := by
      rcases hmark : c.partner with _ | other
      · rfl
      · rw [(hc other hmark).isValidName_eq_false] at hvalid
        cases hvalid
    cases hrun
    exact h.insert (.inl hvalid) hmark
  · cases hrun

theorem registerPair (h : cs.Paired) {base : String} {press release : Command η}
    (hrun : cs.registerPair base press release = .ok cs') : cs'.Paired := by
  obtain ⟨hvalid, hpress, hrelease, rfl⟩ := registerPair_eq_ok hrun
  refine h.insert_insert ?_ (by rw [hrelease]) (by rw [hpress])
  show IsPair press.name release.name
  rw [hpress, hrelease]
  exact .of_base hvalid

/-- Each half of a pair names the other one once both have been added. -/
theorem partner?_of_registerPair (h : cs.Paired) {base : String} {press release : Command η}
    (hrun : cs.registerPair base press release = .ok cs') :
    cs'.partner? ("+" ++ base) = some ("-" ++ base) ∧
      cs'.partner? ("-" ++ base) = some ("+" ++ base) := by
  obtain ⟨hvalid, hpress, hrelease, rfl⟩ := registerPair_eq_ok hrun
  have hpair : IsPair press.name release.name := by
    rw [hpress, hrelease]
    exact .of_base hvalid
  have hfind := h.find?_insert_insert (c := { press with partner := some ("-" ++ base) })
    (d := { release with partner := some ("+" ++ base) }) hpair
  constructor
  · rw [partner?, hfind, ← hpress, if_neg hpair.ne, if_pos rfl, Option.bind_some]
  · rw [partner?, hfind, ← hrelease, if_pos rfl, Option.bind_some]

theorem remove (h : cs.Paired) {c : Command η} (hrun : cs.remove name = .ok (c, cs')) :
    cs'.Paired := by
  unfold Commands.remove at hrun
  split at hrun
  · cases hrun
    exact h.unlink name
  · cases hrun

end Paired

end Commands

/-! ### Operations -/

inductive CommandsOp (η : Type)
  | register (c : Command η) (marked : c.WellMarked)
  | registerPair (base : String) (press release : Command η)
  | remove (name : String)
  | clear

namespace CommandsOp

variable {cs : Commands η}

def run (cs : Commands η) : CommandsOp η → Commands η × Except RegistryError Unit
  | register c _ => takeOrKeep cs Prod.snd (cs.register c)
  | registerPair base press release => takeOrKeep cs id (cs.registerPair base press release)
  | remove name => takeOrKeep cs Prod.snd (cs.remove name)
  | clear => (cs.clear, .ok ())

def runAll : List (CommandsOp η) → Commands η → Commands η
  | [], cs => cs
  | op :: ops, cs => runAll ops (op.run cs).1

theorem paired_run (h : cs.Paired) (op : CommandsOp η) : (op.run cs).1.Paired := by
  cases op with
  | register c hc => exact takeOrKeep_holds h fun _ hrun => h.register hc hrun
  | registerPair base press release => exact takeOrKeep_holds h fun _ hrun => h.registerPair hrun
  | remove name => exact takeOrKeep_holds h fun _ hrun => h.remove hrun
  | clear => exact .empty

theorem paired_runAll (h : cs.Paired) (ops : List (CommandsOp η)) : (runAll ops cs).Paired := by
  induction ops generalizing cs with
  | nil => exact h
  | cons op ops ih => exact ih (paired_run h op)

theorem run_eq_of_error {op : CommandsOp η} {e : RegistryError}
    (h : (op.run cs).2 = .error e) : (op.run cs).1 = cs := by
  cases op with
  | register | registerPair | remove => exact takeOrKeep_of_error h
  | clear => cases h

/-- Whether a registry is in order, and what is done to it next is done in full or not at all. -/
structure InOrder (cs : Commands η) : Prop where
  paired : cs.Paired
  /-- What the registry hands out may be handed to one again. -/
  marked : ∀ key c, cs.find? key = some c → c.WellMarked
  registered : ∀ base press release cs', cs.registerPair base press release = .ok cs' →
    cs'.partner? ("+" ++ base) = some ("-" ++ base) ∧
      cs'.partner? ("-" ++ base) = some ("+" ++ base)
  failed : ∀ (op : CommandsOp η) (e : RegistryError), (op.run cs).2 = .error e →
    (op.run cs).1 = cs

/-- **Pairs stay pairs** under any operations, also under ones that fail: each command is kept under
its own name, and the other half that it names is there and names it. -/
theorem inOrder_commands (ops : List (CommandsOp η)) : InOrder (runAll ops {}) := by
  have h : (runAll ops {}).Paired := paired_runAll .empty ops
  exact {
    paired := h
    marked := fun _ _ => h.wellMarked
    registered := fun _ _ _ _ => h.partner?_of_registerPair
    failed := fun _ _ => run_eq_of_error }

end CommandsOp

end DevConsole
