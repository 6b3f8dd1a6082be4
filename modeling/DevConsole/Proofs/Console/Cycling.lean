import Mathlib.Data.List.Forall2
import Mathlib.Data.List.Nodup
import Mathlib.Data.Nat.ModEq
import DevConsole.Proofs.Console.Assignment
import DevConsole.Proofs.Console.Toggling

/-!
Toggling through values. The command finds its place among the texts that it is given by comparing
them with the text that the variable shows, and not by the values that they are taken for. Main
statement: it passes in any case, unless a listener panics, and leaves the variable at one of the
values; but it goes through all of them, one after the other and over again, just if all texts but
the last one are spelled as the variable shows them.
-/

namespace DevConsole

/-! ### Places among texts -/

namespace Workspace

variable {texts : List String} {shown : String}

/-- The index of the text that comes after the one that is shown. -/
def nextIndex (texts : List String) (shown : String) : Nat :=
  match texts.findIdx? (· == shown) with
  | some i => (i + 1) % texts.length
  | none => 0

theorem getElem?_nextIndex (h : texts ≠ []) (shown : String) :
    texts[nextIndex texts shown]? = some (nextValue texts shown) := by
  unfold nextIndex nextValue
  rcases texts.findIdx? (· == shown) with _ | i
  · cases texts with
    | nil => cases h rfl
    | cons text texts => rfl
  · have hlt : (i + 1) % texts.length < texts.length := Nat.mod_lt _ (List.length_pos_iff.2 h)
    simp [hlt]

end Workspace

/-! ### Texts for pairwise different values -/

namespace Variable

variable {k : Kind} {v : Variable k} {texts : List String} {values : List k.Value}
variable {i j : Nat} {value : k.Value}

/-- Whether the texts are taken for the values, of which no two are the same. -/
structure Cycle (v : Variable k) (texts : List String) (values : List k.Value) : Prop where
  taken : List.Forall₂ (fun text value => v.taken text = .ok value) texts values
  nodup : values.Nodup

/-- Whether all texts but the last one are spelled as the values are shown. -/
def Spelled (k : Kind) (texts : List String) (values : List k.Value) : Prop :=
  ∀ j, j + 1 < texts.length → texts[j]? = (values[j]?).map k.format

namespace Cycle

theorem length_eq (h : v.Cycle texts values) : texts.length = values.length := h.taken.length_eq

theorem exists_value (h : v.Cycle texts values) {text : String} (htext : texts[i]? = some text) :
    ∃ value, values[i]? = some value ∧ v.taken text = .ok value := by
  obtain ⟨hi, rfl⟩ := List.getElem?_eq_some_iff.1 htext
  have hi' : i < values.length := h.length_eq ▸ hi
  exact ⟨values[i], List.getElem?_eq_getElem hi', h.taken.get hi hi'⟩

theorem lt_length (h : v.Cycle texts values) (hi : values[i]? = some value) : i < texts.length := by
  obtain ⟨hlt, -⟩ := List.getElem?_eq_some_iff.1 hi
  exact h.length_eq ▸ hlt

/-- A value has one place only. -/
theorem index_eq (h : v.Cycle texts values) (hi : values[i]? = some value)
    (hj : values[j]? = some value) : i = j :=
  (List.getElem?_inj (h.length_eq ▸ h.lt_length hi) h.nodup).1 (hi.trans hj.symm)

/-- If the text of a value is spelled as it is shown, then no other text is spelled that way. -/
theorem index_eq_of_text (h : v.Cycle texts values) {text : String}
    (htext : texts[i]? = some text) (hj : texts[j]? = some text) : j = i := by
  obtain ⟨value', hvalue', htaken⟩ := h.exists_value htext
  obtain ⟨value'', hvalue'', htaken'⟩ := h.exists_value hj
  obtain rfl := Except.ok.inj (htaken.symm.trans htaken')
  exact h.index_eq hvalue'' hvalue'

/-- **Where a toggle goes on.** It goes from a value to the next one if the text of the value is
spelled as it is shown. It starts over if no text is, which is right behind the last one only. -/
theorem nextIndex_eq_iff (h : v.Cycle texts values) (hi : values[i]? = some value)
    (shown : String) : Workspace.nextIndex texts shown = (i + 1) % texts.length ↔
      texts[i]? = some shown ∨ i + 1 = texts.length ∧ shown ∉ texts := by
  have hlt := h.lt_length hi
  unfold Workspace.nextIndex
  split
  · next j hfound =>
    obtain ⟨hj, hshown, -⟩ := List.findIdx?_eq_some_iff_getElem.1 hfound
    have hshown' : texts[j]? = some shown := by
      rw [List.getElem?_eq_getElem hj, beq_iff_eq.1 hshown]
    constructor
    · intro heq
      have hmod : Nat.ModEq texts.length j i := Nat.ModEq.add_right_cancel' 1 heq
      obtain rfl := hmod.eq_of_lt_of_lt hj hlt
      exact .inl hshown'
    · rintro (htext | ⟨-, hnone⟩)
      · rw [h.index_eq_of_text htext hshown']
      · exact absurd (List.mem_of_getElem? hshown') hnone
  · next hnone =>
    have hmem : shown ∉ texts := fun hmem =>
      absurd (List.findIdx?_eq_none_iff.1 hnone shown hmem) (by simp)
    constructor
    · intro heq
      refine .inr ⟨?_, hmem⟩
      by_contra hne
      rw [Nat.mod_eq_of_lt (by omega)] at heq
      omega
    · rintro (htext | ⟨hlast, -⟩)
      · exact absurd (List.mem_of_getElem? htext) hmem
      · rw [hlast, Nat.mod_self]

/-- Then the last value leads to the first one however its text is spelled. -/
theorem nextIndex_of_spelled (h : v.Cycle texts values) (hk : k.isExact)
    (hspelled : Spelled k texts values) (hi : values[i]? = some value) :
    Workspace.nextIndex texts (k.format value) = (i + 1) % texts.length := by
  have hlt := h.lt_length hi
  rw [h.nextIndex_eq_iff hi]
  rcases Nat.lt_or_ge (i + 1) texts.length with hbefore | hlast
  · left
    rw [hspelled i hbefore, hi, Option.map_some]
  · refine or_iff_not_imp_left.2 fun htext => ⟨by omega, fun hmem => htext ?_⟩
    obtain ⟨j, hj⟩ := List.mem_iff_getElem?.1 hmem
    rcases Nat.lt_or_ge (j + 1) texts.length with hbefore | hj'
    -- no other value has this text
    · rw [hspelled j hbefore, Option.map_eq_some_iff] at hj
      obtain ⟨value', hvalue', hformat⟩ := hj
      obtain rfl := Kind.format_injective hk hformat
      have hij := h.index_eq hi hvalue'
      omega
    · obtain ⟨hj'', -⟩ := List.getElem?_eq_some_iff.1 hj
      obtain rfl : j = i := by omega
      exact hj

end Cycle

end Variable

/-! ### One toggle -/

/-- An assignment of a text that is taken for a value, but for numbers that are not whole. -/
theorem Store.keeps_set {ω : Type} {s : Store ω} {name raw : String} {e : Entry}
    {value : e.kind.Value} (hk : e.kind.isExact) (hfind : s.find? name = some e)
    (hlock : e.flags.lock? = none) (htaken : e.var.taken raw = .ok value) (w : ω) (through : Bool) :
    let r := s.set w name raw through
    r.1.find? name = some (e.withValue value) ∧ (s.Calm → r.1.Calm ∧ r.2.2.isOk = true) := by
  rw [set_of_taken hfind hlock htaken]
  by_cases hsame : e.kind.same value e.var.value = true
  · obtain rfl := (Kind.same_iff_eq hk).1 hsame
    rw [if_pos hsame]
    exact ⟨hfind, fun hcalm => ⟨hcalm, rfl⟩⟩
  · rw [if_neg hsame]
    refine ⟨find?_commit hfind _ w e.text through, fun hcalm => ⟨?_, ?_⟩⟩
    · rw [Calm, listeners_commit]
      exact hcalm
    · rw [commit_of_calm hcalm]
      rfl

namespace Workspace

variable {κ ε : Type} {name next : String} {texts : List String} {e : Entry}

theorem runToggle_frame (w : Workspace κ ε) (call : Call) (hargs : call.args = name :: texts)
    (hfind : w.vars.find? name = some e) (hnext : e.next? texts = some next) :
    let r := w.vars.set w.world name next true
    (runToggle call w).1.vars = r.1 ∧ (runToggle call w).1.commands = w.commands ∧
      (r.2.2.isOk = true → (runToggle call w).2 = .passed) := by
  rw [runToggle_of_next hargs hfind hnext, assign]
  rcases w.vars.set w.world name next true with ⟨vars, world, reason | done⟩
  · exact ⟨rfl, rfl, fun h => by cases h⟩
  · exact ⟨rfl, rfl, fun _ => rfl⟩

end Workspace

namespace Console

variable {κ ε : Type} {host : Host κ (Workspace κ ε)} {run : Runner κ ε} {c : Console κ ε}
variable {call : Invocation} {name : String} {user : Bool}
variable {k : Kind} {v : Variable k} {texts : List String} {values : List k.Value} {i n : Nat}

/-- Whether the console has the command and the variable, with the value at an index. -/
structure HoldsAt (c : Console κ ε) (name : String) (v : Variable k) (user : Bool)
    (values : List k.Value) (i : Nat) : Prop where
  target : c.target "toggle" = .command (.builtin .toggle)
  found : ∃ value, values[i]? = some value ∧ c.vars.find? name = some ⟨k, { v with value }, user⟩

/-- Whether a command passes if it does what it is told: no listener panics, and nothing is
pending. -/
structure Unhindered (c : Console κ ε) : Prop where
  calm : c.vars.Calm
  pending : c.pending = none

theorem HoldsAt.lt_length (h : c.HoldsAt name v user values i) : i < values.length := by
  obtain ⟨value, hvalue, -⟩ := h.found
  exact (List.getElem?_eq_some_iff.1 hvalue).1

theorem HoldsAt.value?_eq (h : c.HoldsAt name v user values i) :
    c.vars.value? k name = values[i]? := by
  obtain ⟨value, hvalue, hfind⟩ := h.found
  rw [hvalue, Store.value?, hfind]
  simp [Entry.value?]

variable (host run) in
/-- **One toggle.** It leads from the value at an index to the one at the index that comes after the
text that is shown. -/
theorem HoldsAt.toggle (h : c.HoldsAt name v user values i)
    (hcall : call.Passes "toggle" (name :: texts)) (hk : k.isExact) (hlock : v.flags.lock? = none)
    (hcycle : v.Cycle texts values) {value : k.Value} (hi : values[i]? = some value) :
    let r := c.invoke host run call
    r.1.HoldsAt name v user values (Workspace.nextIndex texts (k.format value)) ∧
      (c.Unhindered → r.1.Unhindered ∧ r.2 = .ok false) := by
  obtain ⟨value', hvalue', hfind⟩ := h.found
  obtain rfl := Option.some.inj (hi.symm.trans hvalue')
  have hne : texts ≠ [] := List.ne_nil_of_length_pos (by have := hcycle.lt_length hi; omega)
  obtain ⟨next, hnext, htaken⟩ :=
    hcycle.exists_value (Workspace.getElem?_nextIndex hne (k.format value))
  obtain ⟨hfind', hpasses⟩ := Store.keeps_set (e := ⟨k, { v with value }, user⟩) hk hfind hlock
    htaken c.world true
  obtain ⟨hvars, hcommands, hpassed⟩ := Workspace.runToggle_frame c.toWorkspace
    ⟨call.name, name :: texts, allConstant call.args⟩ rfl hfind (if_neg hne)
  have hname : call.name = "toggle" := hcall.name_eq
  rw [invoke_toggle (by simp [hname]) (hname ▸ h.target) (hcall.resolve _)]
  dsimp only
  generalize Workspace.runToggle ⟨call.name, name :: texts, allConstant call.args⟩ c.toWorkspace = r
    at hvars hcommands hpassed ⊢
  have hholdings := holdings_close (c := { c with toWorkspace := r.1 }) call.name r.2
  simp only [Workspace.holdings, Prod.mk.injEq] at hholdings
  obtain ⟨hvars', -, -, -, hcommands'⟩ := hholdings
  refine ⟨⟨?_, next, hnext, ?_⟩, fun hc => ⟨⟨?_, pending_close ..⟩, ?_⟩⟩
  · rw [target_eq_command, hcommands', hcommands]
    exact target_eq_command.1 h.target
  · rw [hvars', hvars]
    exact hfind'
  · rw [hvars', hvars]
    exact (hpasses hc.calm).1
  · rw [close_snd, hpassed (hpasses hc.calm).2]
    simp [hc.pending]

/-! ### Toggle after toggle -/

/-- The console after the same invocation has been run some times. -/
def afterTimes (host : Host κ (Workspace κ ε)) (run : Runner κ ε) (call : Invocation)
    (c : Console κ ε) (n : Nat) : Console κ ε :=
  (fun c => (c.invoke host run call).1)^[n] c

theorem afterTimes_succ (n : Nat) : afterTimes host run call c (n + 1) =
    ((afterTimes host run call c n).invoke host run call).1 :=
  Function.iterate_succ_apply' ..

variable (host run) in
/-- Toggles lead from value to value, and from each one to the next if the texts are spelled as the
values are shown. -/
theorem HoldsAt.afterTimes (h : c.HoldsAt name v user values i)
    (hcall : call.Passes "toggle" (name :: texts)) (hk : k.isExact) (hlock : v.flags.lock? = none)
    (hcycle : v.Cycle texts values) (n : Nat) :
    ∃ j, (c.afterTimes host run call n).HoldsAt name v user values j ∧
      (c.Unhindered → (c.afterTimes host run call n).Unhindered) ∧
      (Variable.Spelled k texts values → j = (i + n) % texts.length) := by
  induction n with
  | zero =>
    obtain ⟨value, hvalue, -⟩ := h.found
    exact ⟨i, h, id, fun _ => (Nat.mod_eq_of_lt (hcycle.lt_length hvalue)).symm⟩
  | succ n ih =>
    obtain ⟨j, hj, hunhindered, hindex⟩ := ih
    obtain ⟨value, hvalue, -⟩ := hj.found
    obtain ⟨hnext, hpasses⟩ := hj.toggle host run hcall hk hlock hcycle hvalue
    rw [afterTimes_succ]
    refine ⟨_, hnext, fun hc => (hpasses (hunhindered hc)).1, fun hspelled => ?_⟩
    rw [hcycle.nextIndex_of_spelled hk hspelled hvalue, hindex hspelled, Nat.mod_add_mod,
      Nat.add_assoc]

/-- **Toggling through values.** Let texts be taken for pairwise different values of a truth value,
a whole number or a text that is not locked, by whatever rule and within whatever bounds, and let it
have the value at index `i`. However often it is toggled with these texts, it has one of the values,
and the toggle passes, unless a listener panics. One toggle leads to the next value just if the text
at index `i` is spelled as the variable shows its value, or it is the last one and no text is
spelled so. All toggles lead to the next value just if all texts but the last one are spelled as the
values are shown; then as many toggles as there are texts visit all values and come back. -/
theorem cycles_iff_spelled (hcall : call.Passes "toggle" (name :: texts))
    (htarget : c.target "toggle" = .command (.builtin .toggle))
    (hfind : c.vars.find? name = some ⟨k, v, user⟩) (hk : k.isExact)
    (hlock : v.flags.lock? = none) (hcycle : v.Cycle texts values)
    (hi : values[i]? = some v.value) :
    (∀ n, (∃ value ∈ values, (c.afterTimes host run call n).vars.value? k name = some value) ∧
      (c.vars.Calm → c.pending = none →
        ((c.afterTimes host run call n).invoke host run call).2 = .ok false)) ∧
    ((c.afterTimes host run call 1).vars.value? k name = values[(i + 1) % texts.length]? ↔
      texts[i]? = some v.text ∨ i + 1 = texts.length ∧ v.text ∉ texts) ∧
    ((∀ n, (c.afterTimes host run call n).vars.value? k name = values[(i + n) % texts.length]?) ↔
      Variable.Spelled k texts values) ∧
    (Variable.Spelled k texts values →
      (∀ value ∈ values, ∃ n < texts.length,
        (c.afterTimes host run call n).vars.value? k name = some value) ∧
      (c.afterTimes host run call texts.length).vars.value? k name = some v.value) := by
  have hstart : c.HoldsAt name v user values i := ⟨htarget, v.value, hi, hfind⟩
  have hlt := hcycle.lt_length hi
  have hafter := hstart.afterTimes host run hcall hk hlock hcycle
  have hall : Variable.Spelled k texts values → ∀ n,
      (c.afterTimes host run call n).vars.value? k name = values[(i + n) % texts.length]? := by
    intro hspelled n
    obtain ⟨j, hj, -, hindex⟩ := hafter n
    rw [hj.value?_eq, hindex hspelled]
  refine ⟨fun n => ?_, ?_, ⟨fun h j hbefore => ?_, hall⟩, fun hspelled =>
    ⟨fun value hmem => ?_, ?_⟩⟩
  · obtain ⟨j, hj, hunhindered, -⟩ := hafter n
    obtain ⟨value, hvalue, -⟩ := hj.found
    obtain ⟨-, hpasses⟩ := hj.toggle host run hcall hk hlock hcycle hvalue
    exact ⟨⟨value, List.mem_of_getElem? hvalue, hj.value?_eq.trans hvalue⟩,
      fun hcalm hpending => (hpasses (hunhindered ⟨hcalm, hpending⟩)).2⟩
  · obtain ⟨hnext, -⟩ := hstart.toggle host run hcall hk hlock hcycle hi
    rw [show c.afterTimes host run call 1 = (c.invoke host run call).1 from rfl, hnext.value?_eq,
      List.getElem?_inj hnext.lt_length hcycle.nodup]
    exact hcycle.nextIndex_eq_iff hi _
  -- the toggle at index `j` goes on with the text behind it
  · obtain ⟨n, hn⟩ : ∃ n, (i + n) % texts.length = j :=
      ⟨j + (texts.length - i), by
        rw [show i + (j + (texts.length - i)) = j + texts.length by omega, Nat.add_mod_right,
          Nat.mod_eq_of_lt (by omega)]⟩
    obtain ⟨m, hm, -, -⟩ := hafter n
    obtain ⟨value, hvalue, -⟩ := hm.found
    obtain rfl : m = j := by
      rw [← List.getElem?_inj hm.lt_length hcycle.nodup, ← hn, ← h n, hm.value?_eq]
    obtain ⟨hnext, -⟩ := hm.toggle host run hcall hk hlock hcycle hvalue
    have hindex : Workspace.nextIndex texts (k.format value) = (m + 1) % texts.length := by
      rw [← List.getElem?_inj hnext.lt_length hcycle.nodup, ← hnext.value?_eq, ← afterTimes_succ,
        h (n + 1), ← Nat.add_assoc, ← Nat.mod_add_mod, hn]
    rcases (hcycle.nextIndex_eq_iff hvalue _).1 hindex with htext | ⟨hlast, -⟩
    · rw [htext, hvalue, Option.map_some]
    · omega
  · obtain ⟨j, hj⟩ := List.mem_iff_getElem?.1 hmem
    have hj' := hcycle.lt_length hj
    refine ⟨(j + (texts.length - i)) % texts.length, Nat.mod_lt _ (by omega), ?_⟩
    rw [hall hspelled, Nat.add_mod_mod,
      show i + (j + (texts.length - i)) = j + texts.length by omega, Nat.add_mod_right,
      Nat.mod_eq_of_lt hj', hj]
  · rw [hall hspelled, Nat.add_mod_right, Nat.mod_eq_of_lt hlt, hi]

def hudConsole : Console Empty Unit :=
  (Console.ofSettings {} ()).installCore.mapWorkspace fun w =>
    let hud : Variable .bool := .ofDefault "cl_hud" false
    { w with vars := { builtins := NameMap.empty.insert "cl_hud" ⟨.bool, hud, false⟩ } }

/-- The last text may be spelled in any way. -/
theorem cycles_iff_spelled_hudConsole :
    (hudConsole.afterTimes .idle (runner .idle) (toggling ["cl_hud", "0", "on"]) 1).vars.value?
        .bool "cl_hud" = some true ∧
      (hudConsole.afterTimes .idle (runner .idle) (toggling ["cl_hud", "0", "on"]) 2).vars.value?
        .bool "cl_hud" = some false := by
  have hspelled : Variable.Spelled .bool ["0", "on"] [false, true] := by
    intro j hj
    have hj' : j + 1 < 2 := hj
    obtain rfl : j = 0 := by omega
    rfl
  obtain ⟨-, -, hall, hback⟩ := @cycles_iff_spelled _ _ .idle (runner .idle) hudConsole _ _ _ _ _ _
    _ 0 (passes_toggling ["cl_hud", "0", "on"]) (by rfl) (by rfl) (by rfl) (by rfl)
    ⟨.cons (by rfl) (.cons (by rfl) .nil), by decide⟩ (by rfl)
  exact ⟨hall.2 hspelled 1, (hback hspelled).2⟩

/-- Whether each toggle with texts for pairwise different values leads from the value of one text to
the value of the next. -/
def TogglesInOrder (host : Host κ (Workspace κ ε)) (c : Console κ ε) : Prop :=
  ∀ (call : Invocation) (name : String) (texts : List String) (k : Kind) (v : Variable k)
    (user : Bool) (values : List k.Value) (i : Nat), call.Passes "toggle" (name :: texts) →
    c.target "toggle" = .command (.builtin .toggle) →
    c.vars.find? name = some ⟨k, v, user⟩ → k.isExact → v.flags.lock? = none →
    2 ≤ texts.length → v.Cycle texts values → values[i]? = some v.value →
    (c.invoke host (runner host) call).1.vars.value? k name = values[(i + 1) % texts.length]?

/-- A truth value that is shown as `0` is toggled to `off` again and again. -/
theorem not_togglesInOrder_hudConsole : ¬ TogglesInOrder .idle hudConsole := by
  intro h
  have htoggled := h _ _ _ _ _ _ _ 0 (passes_toggling ["cl_hud", "off", "on"]) (by rfl) (by rfl)
    (by rfl) (by rfl) (by decide) ⟨.cons (by rfl) (.cons (by rfl) .nil), by decide⟩ (by rfl)
  have hstays : (hudConsole.invoke .idle (runner .idle)
      (toggling ["cl_hud", "off", "on"])).1.vars.value? .bool "cl_hud" = some false := by rfl
  cases htoggled.symm.trans hstays

end Console

end DevConsole
