import DevConsole.Proofs.Command.AliasNames
import DevConsole.Proofs.Command.Pairs
import DevConsole.Proofs.Console.Assignment
import DevConsole.Proofs.Console.Caches
import DevConsole.Proofs.Console.Recursion

/-!
Releasing keys. A key that is bound to nothing but a press has its release run, if there is one. The
name of the release is put together from that of the press and read as a query again. Main
statement: what is run is the invocation of that one name, whatever the text is that the key is
bound to; and with any other text nothing is done.
-/

namespace DevConsole

open Grammar

/-! ### Names as queries -/

namespace Scanner

/-- Plain characters behind the beginning of a name are the rest of it. -/
theorem run_plainName {cs : List Char} (h : ∀ c ∈ cs, isPlain c) (p : Nat) (offset : Nat)
    (name : String) : run { position := p, phase := .name offset name } cs =
      .ok { position := p + cs.length, phase := .name offset (name ++ String.ofList cs) } := by
  induction cs generalizing p name with
  | nil => simp
  | cons c cs ih =>
    have hstep : step { position := p, phase := .name offset name } c =
        .ok { position := p + 1, phase := .name offset (name.push c) } := by
      rw [step_outside (s := { position := p, phase := .name offset name }) trivial (.inl rfl),
        outerChar_plain (h c List.mem_cons_self)]
      rfl
    have happend : name.push c ++ String.ofList cs = name ++ String.ofList (c :: cs) := by
      rw [← String.toList_inj]
      simp
    have hlength : p + 1 + cs.length = p + (c :: cs).length := by
      rw [List.length_cons]
      omega
    rw [run_cons, hstep, Except.bind, ih (fun d hd => h d (List.mem_cons_of_mem _ hd)), happend,
      hlength]

end Scanner

theorem parse_name {name : String} (hne : name ≠ "") (hname : ∀ c ∈ name.toList, isPlain c) :
    parse name = .ok (Query.ofName name) := by
  obtain ⟨c, cs, hcs⟩ := List.exists_cons_of_ne_nil (mt String.toList_eq_nil_iff.1 hne)
  rw [hcs] at hname
  have hfirst : Scanner.step {} c =
      .ok { position := 1, phase := .name 0 (String.singleton c) } := by
    rw [Scanner.step_outside (s := {}) trivial (.inl rfl),
      Scanner.outerChar_plain (hname c List.mem_cons_self)]
    rfl
  have hwhole : String.singleton c ++ String.ofList cs = name := by
    rw [← String.toList_inj]
    simp [hcs]
  change (Scanner.run {} name.toList).bind Scanner.finish = _
  rw [hcs, Scanner.run_cons, hfirst, Except.bind,
    Scanner.run_plainName (fun d hd => hname d (List.mem_cons_of_mem _ hd)), hwhole]
  rfl

/-! ### Presses and their releases -/

theorem Query.singlePress?_eq_some_iff {q : Query} {press : String} :
    q.singlePress? = some press ↔ ∃ link offset base,
      q = ⟨.command link ⟨"+" ++ base, offset, []⟩ .nil⟩ ∧ press = "+" ++ base := by
  constructor
  · intro h
    obtain ⟨_ | ⟨link, ⟨name, offset, args⟩, _ | _ | _⟩ | _⟩ := q
    case command.nil =>
      simp only [Query.singlePress?, Option.ite_none_right_eq_some, Bool.and_eq_true,
        List.isEmpty_iff, beq_iff_eq, Option.some.injEq] at h
      obtain ⟨⟨rfl, hplus⟩, rfl⟩ := h
      obtain ⟨cs, hcs⟩ := List.head?_eq_some_iff.1 hplus
      obtain rfl : name = "+" ++ String.ofList cs := by
        rw [← String.toList_inj]
        simp [hcs]
      exact ⟨link, offset, String.ofList cs, rfl, rfl⟩
    all_goals cases h
  · rintro ⟨link, offset, base, rfl, rfl⟩
    simp [Query.singlePress?]

theorem releaseName_press (base : String) : Console.releaseName ("+" ++ base) = "-" ++ base := by
  rw [← String.toList_inj]
  simp [Console.releaseName]

/-- The release of a pair is a name that a query may be. -/
theorem parse_release {base : String} (h : Text.isValidName base = true) :
    parse ("-" ++ base) = .ok (Query.ofName ("-" ++ base)) := by
  obtain ⟨-, hplain⟩ := isPlain_of_isValidName h
  refine parse_name ?_ fun c hc => ?_
  · rw [Ne, ← String.toList_inj]
    simp
  · rcases (by simpa using hc : c = '-' ∨ c ∈ base.toList) with rfl | hc
    · rfl
    · exact hplain c hc

theorem isValidName_of_release {base : String} (h : IsCommandName ("-" ++ base)) :
    Text.isValidName base = true := by
  rcases h with h | ⟨base', hbase', heq | heq⟩
  · rw [isValidName_release] at h
    cases h
  · exact (press_ne_release base' base heq.symm).elim
  · rwa [(String.append_right_inj _).1 heq]

theorem isValidName_of_pairedRelease {base : String}
    (h : Text.isValidPairedName ("-" ++ base) = true) : Text.isValidName base = true := by
  simpa [Text.isValidPairedName, Text.withoutSign, Text.isValidName] using h

/-! ### Releasing a key -/

namespace Console

variable {κ ε : Type} {host : Host κ (Workspace κ ε)} {c : Console κ ε} {key base : String}

/-- Whether the text that the key is bound to is read as nothing but the invocation of `+base`,
without arguments, and there is a command or an alias `-base`. -/
def Releases (c : Console κ ε) (key base : String) : Prop :=
  ∃ source link offset, c.binds.queryFor? key = some source ∧
    DevConsole.parse source = .ok ⟨.command link ⟨"+" ++ base, offset, []⟩ .nil⟩ ∧
    (c.commands.contains ("-" ++ base) || c.aliases.contains ("-" ++ base)) = true

/-- The console once a source that was read as `q` has been run, outside of all queries: what is not
kept of the changes is dropped, and an error is reported. -/
def ran (host : Host κ (Workspace κ ε)) (source : String) (q : Query) (c : Console κ ε) :
    Console κ ε × Bool :=
  match c.evaluate host q with
  | (d, .ok passed) => (d.trim, passed)
  | (d, .error e) => (d.trim.print .error (e.report source), false)

/-- The names of releases are valid, so they are read as what they are. -/
theorem Releases.parse_eq (h : c.Releases key base) (hcommands : c.commands.Paired)
    (haliases : c.aliases.Valid) :
    DevConsole.parse ("-" ++ base) = .ok (Query.ofName ("-" ++ base)) := by
  obtain ⟨source, link, offset, -, -, hthere⟩ := h
  rcases Bool.or_eq_true_iff.1 hthere with hcommand | halias
  · obtain ⟨command, hfind⟩ := (NameMap.contains_iff_exists _).1 hcommand
    exact parse_release (isValidName_of_release (hcommands.names _ command hfind).2)
  · obtain ⟨body, hfind⟩ := (NameMap.contains_iff_exists _).1 halias
    exact parse_release (isValidName_of_pairedRelease (haliases _ body hfind))

theorem execute_withCache {k : QueryCache} (hdepth : c.depth = 0) (hpending : c.pending = none)
    (hc : c.cache.Faithful) (hk : k.Faithful) {source : String} {q : Query}
    (hparse : DevConsole.parse source = .ok q) :
    ∃ k', (c.withCache k).execute host source =
      ((c.ran host source q).1.withCache k', (c.ran host source q).2) := by
  have hread : (c.withCache k).parse source = (.ok q, c.withCache (k.get source).2) :=
    Prod.ext ((hk.get source).1.trans hparse) rfl
  obtain ⟨k', hrun⟩ := evaluate_withCache host hc (hk.get source).2 q
  have hnone : ¬ (c.withCache k).pending.isSome := by simp [withCache, hpending]
  have hlimits : (c.evaluate host q).1.limits = c.limits := keepsLimits_runner q.text q c
  refine ⟨k', ?_⟩
  rw [execute, runSource, if_neg hnone, outcome, hread]
  change (match (c.withCache (k.get source).2).evaluate host q with
    | (c, .ok passed) => (c.trim, passed)
    | (c, .error e) => (c.trim.settle false source e, false)) = _
  rw [hrun, ran]
  rcases hend : c.evaluate host q with ⟨d, e | passed⟩
  · -- outside of queries an error is reported
    rw [hend] at hlimits
    have hzero : d.trim.depth = 0 := by
      rw [(depth_of_limits (limits_trim (c := d))).1, (depth_of_limits hlimits).1, hdepth]
    simp only [trim_withCache, settle_withCache]
    rw [settle, if_neg (by simp [hzero])]
  · simp only [trim_withCache]

/-- What a key does that is bound to a text with a fault, or to a query. -/
theorem release_of_parse (hc : c.cache.Faithful) {source : String}
    (hbound : c.binds.queryFor? key = some source) {answer : Except SyntaxError Query}
    (hparse : DevConsole.parse source = answer) :
    c.release host key =
      match answer.toOption.bind fun q => q.singlePress?.map releaseName with
      | none => (c.withCache (c.cache.get source).2, false)
      | some name =>
        if c.commands.contains name || c.aliases.contains name then
          (c.withCache (c.cache.get source).2).execute host name
        else (c.withCache (c.cache.get source).2, false) := by
  have hread : c.parse source = (answer, c.withCache (c.cache.get source).2) :=
    Prod.ext ((hc.get source).1.trans hparse) rfl
  simp only [release, hbound, hread]
  cases answer with
  | error fault => rfl
  | ok q =>
    simp only [Except.toOption, Option.bind_some]
    rfl

/-- **A key runs one release or nothing.** If a key is bound to a text that is read as nothing but
the press `+base`, and there is a command or an alias `-base`, then releasing it comes to just what
running the invocation of `-base` comes to. With any other text, and without one, releasing the key
does nothing and gives `false`. This is so in every console outside of all queries; of its
registries and its cache only that is supposed which all their operations keep. -/
theorem release_eq_ran (host : Host κ (Workspace κ ε)) (hlimits : c.WithinLimits)
    (hdepth : c.depth = 0) (hcache : c.cache.Faithful) (hcommands : c.commands.Paired)
    (haliases : c.aliases.Valid) (key : String) :
    (∀ base, c.Releases key base → ∃ k, c.release host key =
      ((c.ran host ("-" ++ base) (.ofName ("-" ++ base))).1.withCache k,
        (c.ran host ("-" ++ base) (.ofName ("-" ++ base))).2)) ∧
    ((∀ base, ¬ c.Releases key base) → ∃ k, c.release host key = (c.withCache k, false)) := by
  constructor
  · intro base h
    have hname := h.parse_eq hcommands haliases
    obtain ⟨source, link, offset, hbound, hparse, hthere⟩ := h
    have hpress : Query.singlePress? ⟨.command link ⟨"+" ++ base, offset, []⟩ .nil⟩ =
        some ("+" ++ base) := Query.singlePress?_eq_some_iff.2 ⟨link, offset, base, rfl, rfl⟩
    have hrelease : c.release host key =
        (c.withCache (c.cache.get source).2).execute host ("-" ++ base) := by
      rw [release_of_parse hcache hbound hparse]
      simp only [Except.toOption, Option.bind_some, hpress, Option.map_some, releaseName_press,
        hthere, if_true]
    rw [hrelease]
    exact execute_withCache hdepth (hlimits.pending hdepth) hcache (hcache.get source).2 hname
  · intro hnone
    rcases hbound : c.binds.queryFor? key with _ | source
    · exact ⟨c.cache, by simp only [release, hbound]; rfl⟩
    · refine ⟨(c.cache.get source).2, ?_⟩
      rw [release_of_parse hcache hbound rfl]
      rcases hparse : DevConsole.parse source with fault | q
      · rfl
      · rcases hpress : q.singlePress? with _ | press
        · simp only [Except.toOption, Option.bind_some, hpress, Option.map_none]
        · obtain ⟨link, offset, base, rfl, rfl⟩ := Query.singlePress?_eq_some_iff.1 hpress
          have hthere : ¬ (c.commands.contains ("-" ++ base) || c.aliases.contains ("-" ++ base)) =
              true := fun hthere => hnone base ⟨source, link, offset, hbound, hparse, hthere⟩
          simp only [Except.toOption, Option.bind_some, hpress, Option.map_some, releaseName_press,
            if_neg hthere]

def strollingHost : Host Bool (Workspace Bool Unit) := ⟨fun _ _ => .stop .passed⟩

def strollingCommands : List (CommandsOp (Handler Bool)) :=
  [.registerPair "forward" { name := "+forward", handler := .host true }
    { name := "-forward", handler := .host false }]

/-- A console on which a key is bound to a step forward, with a comment and a link behind it. -/
def strollingConsole : Console Bool Unit :=
  (ofSettings {} ()).mapWorkspace fun w =>
    { w with
      commands := CommandsOp.runAll strollingCommands {}
      binds := (w.binds.bind "w" " +forward; # go on").2 }

/-- The key may be named by a capital letter. -/
theorem release_eq_ran_strollingConsole : strollingConsole.WithinLimits ∧
    strollingConsole.depth = 0 ∧ strollingConsole.cache.Faithful ∧
    strollingConsole.commands.Paired ∧ strollingConsole.aliases.Valid ∧
    strollingConsole.Releases "W" "forward" ∧ ∃ k, strollingConsole.release strollingHost "W" =
      ((strollingConsole.ran strollingHost "-forward" (.ofName "-forward")).1.withCache k, true) := by
  have hlimits : strollingConsole.WithinLimits := ⟨by decide, fun _ => rfl⟩
  have hcache : strollingConsole.cache.Faithful := .empty 256
  have hcommands : strollingConsole.commands.Paired :=
    CommandsOp.paired_runAll .empty strollingCommands
  have haliases : strollingConsole.aliases.Valid := Aliases.valid_empty
  have hreleases : strollingConsole.Releases "W" "forward" :=
    ⟨" +forward; # go on", .always, 1, by decide +kernel, by rfl, by decide +kernel⟩
  obtain ⟨k, hrelease⟩ :=
    (release_eq_ran strollingHost hlimits rfl hcache hcommands haliases "W").1 "forward" hreleases
  have hpassed : (strollingConsole.ran strollingHost "-forward" (.ofName "-forward")).2 = true := by
    decide +kernel
  exact ⟨hlimits, rfl, hcache, hcommands, haliases, hreleases, k,
    hrelease.trans (Prod.ext rfl hpassed)⟩

end Console

end DevConsole
