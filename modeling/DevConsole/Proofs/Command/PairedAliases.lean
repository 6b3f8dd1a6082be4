import Mathlib.Data.List.TakeWhile
import DevConsole.Proofs.Command.AliasNames
import DevConsole.Proofs.Command.Pairs

/-!
Aliases that are removed together. A plain name and the two that carry one sign are the forms of
that name. Main statement: given one of its forms, an alias is removed with all its forms, and
nothing else is; given any other name, nothing is found, unless two or more signs stand in front of
a plain name, which are all passed over.
-/

namespace DevConsole

namespace Aliases

variable {as : Aliases} {x name : String}

/-! ### Forms and signs -/

/-- A name without and with a sign. -/
def forms (x : String) : List String := [x, "+" ++ x, "-" ++ x]

def IsSign (c : Char) : Prop := c = '+' ∨ c = '-'

theorem exists_signs (name : String) :
    ∃ signs, (∀ c ∈ signs, IsSign c) ∧ name.toList = signs ++ (baseName name).toList := by
  refine ⟨name.toList.takeWhile fun c => c == '+' || c == '-', fun c hc => ?_, ?_⟩
  · simpa [IsSign] using List.mem_takeWhile_imp hc
  · rw [baseName, String.toList_ofList, List.takeWhile_append_dropWhile]

/-- Without its signs a name does not begin with one. -/
theorem withoutSign_baseName (name : String) :
    Text.withoutSign (baseName name).toList = (baseName name).toList := by
  have hhead := List.head?_dropWhile_not (fun c => c == '+' || c == '-') name.toList
  rw [baseName, String.toList_ofList]
  generalize name.toList.dropWhile (fun c => c == '+' || c == '-') = cs at hhead
  cases cs with
  | nil => rfl
  | cons c cs =>
    simp only [List.head?_cons, Bool.or_eq_false_iff, beq_eq_false_iff_ne] at hhead
    simp [Text.withoutSign, hhead]

theorem baseName_eq_self (hx : Text.isValidName x = true) : baseName x = x := by
  rw [Text.isValidName, Text.isPlainName, Bool.and_eq_true, List.all_eq_true] at hx
  rw [← String.toList_inj, baseName, String.toList_ofList, List.dropWhile_eq_self_iff]
  intro hlength hsign
  have hname := hx.2 _ (List.getElem_mem hlength)
  rcases (by simpa using hsign : x.toList[0] = '+' ∨ x.toList[0] = '-') with h | h
  all_goals
    rw [h] at hname
    cases hname

theorem baseName_of_cons {c : Char} (hc : IsSign c) (h : name.toList = c :: x.toList) :
    baseName name = baseName x := by
  rw [baseName, baseName, h]
  rcases hc with rfl | rfl <;> rfl

/-- A name with at most one sign is a form of what it is without. -/
theorem mem_forms_iff :
    name ∈ forms x ↔ name.toList = x.toList ∨ ∃ c, IsSign c ∧ name.toList = c :: x.toList := by
  simp [forms, IsSign, ← String.toList_inj, String.toList_append, or_and_right, exists_or]

/-- All forms of a plain name have it in common. -/
theorem baseName_of_mem_forms (hx : Text.isValidName x = true) (h : name ∈ forms x) :
    baseName name = x := by
  rcases mem_forms_iff.1 h with hname | ⟨c, hc, hname⟩
  · rw [String.toList_inj.1 hname, baseName_eq_self hx]
  · rw [baseName_of_cons hc hname, baseName_eq_self hx]

/-! ### Removing forms -/

/-- Whether it is just those of the names `among` that exist that are removed, given `name`: they
are told, and all other aliases stay what they are. If there are none, nothing is found. -/
def RemovesAmong (as : Aliases) (name : String) (among : List String) : Prop :=
  match as.removePaired name with
  | .error e => e = .notFound name ∧ ∀ form ∈ among, as.contains form = false
  | .ok (removed, as') => removed = among.filter as.contains ∧ removed ≠ [] ∧
    ∀ other, as'.find? other = if other ∈ removed then none else as.find? other

/-- Whether nothing is found, given a name that is no form of a plain name. -/
def FindsFormsOnly (as : Aliases) : Prop :=
  ∀ name, (∀ x, Text.isValidName x = true → name ∉ forms x) → as.RemovesAmong name []

theorem removesAmong_forms (as : Aliases) (name : String) :
    as.RemovesAmong name (forms (baseName name)) := by
  unfold RemovesAmong removePaired
  dsimp only
  split
  · next e heq =>
    split at heq
    · next hempty =>
      cases heq
      exact ⟨rfl, by simpa [forms] using hempty⟩
    · cases heq
  · next removed as' heq =>
    split at heq
    · cases heq
    · next hne =>
      cases heq
      refine ⟨rfl, by simpa using hne, fun other => ?_⟩
      exact NameMap.find?_foldl_erase as.byName _ other

/-- Only a plain name has forms among the aliases. -/
theorem Valid.isValidName_of_mem_forms (h : as.Valid) {form : String}
    (hform : form ∈ forms (baseName name)) (hthere : as.contains form = true) :
    Text.isValidName (baseName name) = true := by
  obtain ⟨body, hfind⟩ := (NameMap.contains_iff_exists _).1 hthere
  have hvalid := h form body hfind
  rw [Text.isValidName, ← withoutSign_baseName name]
  simp only [forms, List.mem_cons, List.not_mem_nil, or_false] at hform
  rcases hform with rfl | rfl | rfl
  · exact hvalid
  all_goals
    rw [withoutSign_baseName name]
    simpa [Text.isValidPairedName, Text.withoutSign, String.toList_append] using hvalid

theorem removesAmong_nil (h : ∀ form ∈ forms (baseName name), as.contains form = false) :
    as.RemovesAmong name [] := by
  have hremoved := as.removesAmong_forms name
  unfold RemovesAmong at hremoved ⊢
  split
  · next e heq =>
    rw [heq] at hremoved
    exact ⟨hremoved.1, List.forall_mem_nil _⟩
  · next removed as' heq =>
    rw [heq] at hremoved
    obtain ⟨hfilter, hne, -⟩ := hremoved
    have hnone : (forms (baseName name)).filter as.contains = [] :=
      List.filter_eq_nil_iff.2 fun form hform => by simp [h form hform]
    exact absurd (hfilter.trans hnone) hne

end Aliases

namespace AliasesOp

def runAll (ops : List AliasesOp) : Aliases := ops.foldl run {}

theorem valid_runAll (ops : List AliasesOp) : (runAll ops).Valid :=
  List.foldlRecOn ops run Aliases.valid_empty fun _ h op _ => valid_run h op

open Aliases

/-- **Aliases are removed with their forms.** After any operations it is the same: given a form of a
plain name, just those forms of it are removed that exist. Given any other name nothing is found,
unless it is a plain name behind two or more signs, which is taken for a form of that name. -/
theorem removesAmong_runAll (ops : List AliasesOp) (name : String) :
    (∀ x, Text.isValidName x = true → name ∈ forms x →
      (runAll ops).RemovesAmong name (forms x)) ∧
    ((∀ x, Text.isValidName x = true → name ∉ forms x) →
      (runAll ops).RemovesAmong name [] ∨
        ∃ first second signs x, (∀ c ∈ first :: second :: signs, IsSign c) ∧
          Text.isValidName x = true ∧ name.toList = first :: second :: signs ++ x.toList ∧
          (runAll ops).RemovesAmong name (forms x)) := by
  have hremoves := (runAll ops).removesAmong_forms name
  refine ⟨fun x hx hname => baseName_of_mem_forms hx hname ▸ hremoves, fun hno => ?_⟩
  by_cases hthere : ∃ form ∈ forms (baseName name), (runAll ops).contains form = true
  · obtain ⟨form, hform, hcontains⟩ := hthere
    have hbase := (valid_runAll ops).isValidName_of_mem_forms hform hcontains
    obtain ⟨signs, hsigns, hlist⟩ := exists_signs name
    have hnot := fun h => hno _ hbase (mem_forms_iff.2 h)
    match signs with
    | [] => exact absurd (.inl hlist) hnot
    | [c] => exact absurd (.inr ⟨c, hsigns c List.mem_cons_self, hlist⟩) hnot
    | first :: second :: signs =>
      exact .inr ⟨first, second, signs, _, hsigns, hbase, hlist, hremoves⟩
  · exact .inl (removesAmong_nil fun form hform => by simpa using fun h => hthere ⟨form, hform, h⟩)

/-- Two forms of one name, and another alias. -/
def strafing : List AliasesOp :=
  [.set "+strafe" "echo in", .set "-strafe" "echo out", .set "other" "echo"]

/-- A form is removed with the other one. -/
theorem removesAmong_runAll_strafing :
    Text.isValidName "strafe" = true ∧ "-strafe" ∈ forms "strafe" ∧
      (runAll strafing).RemovesAmong "-strafe" ["strafe", "+strafe", "-strafe"] ∧
      ["strafe", "+strafe", "-strafe"].filter (runAll strafing).contains =
        ["+strafe", "-strafe"] :=
  ⟨by decide, by decide,
    (removesAmong_runAll strafing "-strafe").1 "strafe" (by decide) (by decide), by decide⟩

/-- A name behind two signs is no form, but an alias is removed all the same. -/
theorem not_findsFormsOnly : ¬ (runAll [.set "x" "echo a"]).FindsFormsOnly := by
  intro h
  have hno : ∀ x, Text.isValidName x = true → "++x" ∉ forms x := by
    intro x hx hform
    rw [Text.isValidName] at hx
    rcases mem_forms_iff.1 hform with hname | ⟨c, -, hname⟩
    · rw [← hname] at hx
      cases hx
    · obtain ⟨-, hrest⟩ := List.cons.inj hname
      rw [← hrest] at hx
      cases hx
  have hremoves := h "++x" hno
  have hfound : (runAll [.set "x" "echo a"]).removePaired "++x" = .ok (["x"], {}) := by rfl
  rw [RemovesAmong, hfound] at hremoves
  cases hremoves.1

end AliasesOp

end DevConsole
