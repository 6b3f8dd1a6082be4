import DevConsole.Proofs.Query.TableWalk

/-!
Regrouping. The clauses of a scope from an invocation on may as well stand in a group at the end of
the scope. Main statement: a parsed query that is regrouped in this way, in whichever of its scopes,
performs the same invocations in the same order, to the same effect and with the same answer. So a
chain of clauses associates to the right.
-/

namespace DevConsole

variable {σ τ ε : Type}

/-! ### Regrouped chains -/

/-- `Regroups c d` says that `d` is `c` with one of its scopes regrouped: the clauses from an
invocation on, whatever stands before them, are the body of a group there. The group ends its scope
and takes over the link of the invocation, which is joined to nothing inside of it. -/
inductive Chain.Regroups : Chain → Chain → Prop
  | here (before : Chain) (link : Link) (call : Invocation) (rest : Chain) (offset : Nat) :
    Regroups (before ++ .command link call rest)
      (before ++ .group link offset (.command .always call rest) .nil)
  /-- The scope is that of a group, or one further inside. -/
  | inside (before : Chain) (link : Link) (offset : Nat) {body body' : Chain} (rest : Chain) :
    Regroups body body' →
    Regroups (before ++ .group link offset body rest) (before ++ .group link offset body' rest)

namespace Chain

theorem firstLink?_append_congr {c d : Chain} (h : c.firstLink? = d.firstLink?) :
    ∀ before : Chain, (before ++ c).firstLink? = (before ++ d).firstLink?
  | .nil => h
  | .command .. | .group .. => rfl

theorem wellScoped_append_iff {d : Chain} :
    ∀ c : Chain, (c ++ d).WellScoped ↔ c.WellScoped ∧ d.WellScoped
  | .nil => by simp [WellScoped]
  | .command link call rest => wellScoped_append_iff rest
  | .group link offset body rest => by
    simp only [group_append, WellScoped, wellScoped_append_iff rest, and_assoc]

theorem Regroups.firstLink? {c d : Chain} (h : c.Regroups d) : c.firstLink? = d.firstLink? := by
  cases h with
  | here before => exact firstLink?_append_congr (by rfl) before
  | inside before => exact firstLink?_append_congr (by rfl) before

/-- The scopes of a regrouped chain begin as scopes do. -/
theorem Regroups.wellScoped {c d : Chain} (h : c.Regroups d) (hc : c.WellScoped) :
    d.WellScoped := by
  induction h with
  | here before link call rest offset =>
    obtain ⟨hbefore, hrest⟩ := (wellScoped_append_iff before).1 hc
    exact hbefore.append ⟨rfl, hrest, trivial⟩
  | inside before link offset rest hbody ih =>
    obtain ⟨hbefore, hfirst, hscoped, hrest⟩ := (wellScoped_append_iff before).1 hc
    exact hbefore.append ⟨hbody.firstLink? ▸ hfirst, ih hscoped, hrest⟩

end Chain

/-! ### What is the same for an onlooker -/

/-- Whether an onlooker, who sees `view` of the state, does not see that clauses are visited, and
sees of each invocation what it answers and what it does to the view. -/
structure Visitor.SeenThrough (v : Visitor σ ε) (view : σ → τ) : Prop where
  visit : ∀ offset s, view (v.visit offset s) = view s
  invoke : ∀ call s t, view s = view t →
    view (v.invoke call s).1 = view (v.invoke call t).1 ∧
      (v.invoke call s).2 = (v.invoke call t).2

/-- Whether two outcomes are the same for the onlooker: so are the invocations and the ending. -/
structure Outcome.Alike (view : σ → τ) (r r' : Outcome σ ε) : Prop where
  state : view r.state = view r'.state
  calls : r.calls = r'.calls
  ending : r.ending = r'.ending

/-- Whether two chains come to the same for the onlooker, wherever they stand. -/
def Chain.Alike (v : Visitor σ ε) (view : σ → τ) (c d : Chain) : Prop :=
  ∀ first failed s t, view s = view t →
    (c.eval v first failed s).Alike view (d.eval v first failed t)

namespace Outcome

variable {view : σ → τ} {r r' : Outcome σ ε} {next next' : Bool → σ → Outcome σ ε}

theorem Alike.andThen (h : r.Alike view r')
    (hnext : ∀ failed s t, view s = view t → (next failed s).Alike view (next' failed t)) :
    (r.andThen next).Alike view (r'.andThen next') := by
  obtain ⟨s, calls, ending⟩ := r
  obtain ⟨t, calls', ending'⟩ := r'
  obtain ⟨hstate, rfl, rfl⟩ : view s = view t ∧ calls = calls' ∧ ending = ending' :=
    ⟨h.state, h.calls, h.ending⟩
  cases ending with
  | error e => exact h
  | ok failed =>
    have hthen := hnext failed s t hstate
    exact ⟨hthen.state, congrArg (calls ++ ·) hthen.calls, hthen.ending⟩

theorem Alike.answer_eq (h : r.Alike view r') : r.answer = r'.answer := by
  rw [answer, answer, anyFailed, anyFailed, h.calls, h.ending]

/-- Nothing comes after the last clause of a scope. -/
theorem andThen_nil (r : Outcome σ ε) (v : Visitor σ ε) :
    r.andThen (Chain.nil.eval v false ·) = r := by
  obtain ⟨s, calls, ending⟩ := r
  cases ending with
  | error e => rfl
  | ok failed => simp [andThen, Chain.eval]

end Outcome

namespace Chain

variable {v : Visitor σ ε} {view : σ → τ} {c d rest rest' body body' : Chain}

/-- An invocation that is refused ends its scope, on both sides alike. -/
theorem Alike.command (hv : v.SeenThrough view) (link : Link) (call : Invocation)
    (hrest : rest.Alike v view rest') :
    (command link call rest).Alike v view (command link call rest') := by
  intro first failed s t hst
  simp only [eval]
  split
  · have hvisited : view (v.visit call.offset s) = view (v.visit call.offset t) := by
      rw [hv.visit, hv.visit, hst]
    obtain ⟨hstate, hanswer⟩ := hv.invoke call _ _ hvisited
    have hperformed : (v.perform call s).Alike view (v.perform call t) :=
      ⟨hstate, congrArg (fun answer => [(call, answer)]) hanswer, hanswer⟩
    exact hperformed.andThen fun failed s t => hrest false failed s t
  · exact ⟨hst, rfl, rfl⟩

theorem Alike.group (hv : v.SeenThrough view) (link : Link) (offset : Nat)
    (hbody : body.Alike v view body') (hrest : rest.Alike v view rest') :
    (group link offset body rest).Alike v view (group link offset body' rest') := by
  intro first failed s t hst
  simp only [eval]
  split
  · have hvisited : view (v.visit offset s) = view (v.visit offset t) := by
      rw [hv.visit, hv.visit, hst]
    exact (hbody true false _ _ hvisited).andThen fun failed s t => hrest false failed s t
  · exact hrest false failed s t hst

theorem Alike.refl (hv : v.SeenThrough view) (c : Chain) : c.Alike v view c := by
  induction c with
  | nil => exact fun first failed s t hst => ⟨hst, rfl, rfl⟩
  | command link call rest ih => exact .command hv link call ih
  | group link offset body rest ihb ihr => exact .group hv link offset ihb ihr

/-- What comes to the same does so behind any other clauses. -/
theorem Alike.append (hv : v.SeenThrough view) (h : c.Alike v view d) (before : Chain) :
    (before ++ c).Alike v view (before ++ d) := by
  induction before with
  | nil => exact h
  | command link call rest ih => exact .command hv link call ih
  | group link offset body rest _ ih => exact .group hv link offset (.refl hv body) ih

/-- The clauses from an invocation on come to the same in a group of their own: if the invocation is
refused then so is the group, and nothing comes after either of them in the scope. -/
theorem alike_group (hv : v.SeenThrough view) (link : Link) (call : Invocation) (rest : Chain)
    (offset : Nat) : (Chain.command link call rest).Alike v view
      (.group link offset (.command .always call rest) .nil) := by
  intro first failed s t hst
  by_cases hallowed : (first || link.allows failed) = true
  · have hvisited : view s = view (v.visit offset t) := by rw [hv.visit, hst]
    have hcommand : (Chain.command link call rest).eval v first failed s =
        (Chain.command .always call rest).eval v true false s := by
      simp [eval, hallowed]
    have hgroup : (Chain.group link offset (.command .always call rest) .nil).eval v first failed t =
        (Chain.command .always call rest).eval v true false (v.visit offset t) :=
      (if_pos hallowed).trans (Outcome.andThen_nil _ v)
    rw [hcommand, hgroup]
    exact Alike.refl hv _ true false _ _ hvisited
  · have hcommand : (Chain.command link call rest).eval v first failed s = ⟨s, [], .ok failed⟩ :=
      if_neg hallowed
    have hgroup : (Chain.group link offset (.command .always call rest) .nil).eval v first failed t =
        ⟨t, [], .ok failed⟩ :=
      if_neg hallowed
    rw [hcommand, hgroup]
    exact ⟨hst, rfl, rfl⟩

theorem Regroups.alike (h : c.Regroups d) (hv : v.SeenThrough view) : c.Alike v view d := by
  induction h with
  | here before link call rest offset => exact (alike_group hv link call rest offset).append hv before
  | inside before link offset rest _ ih =>
    exact (Alike.group hv link offset ih (.refl hv rest)).append hv before

end Chain

/-! ### Regrouped queries -/

/-- **Clauses associate to the right.** Let `q` be a parsed query and `q'` the same query with one of
its scopes regrouped. Whatever the invocations do, the two runs perform the same invocations in the
same order, which answer the same; they come to the same answer, and to the same state for an
onlooker who does not see clauses being counted. The run over the table of `q'` does so, too. -/
theorem Query.run_regrouped {source : String} {q q' : Query} (h : parse source = .ok q)
    (hregroups : q.clauses.Regroups q'.clauses) {v : Visitor σ ε} {view : σ → τ}
    (hv : v.SeenThrough view) (s : σ) :
    view (q'.run v s).1 = view (q.run v s).1 ∧ (q'.run v s).2 = (q.run v s).2 ∧
      (q'.run v.recorded (s, [])).1.2 = (q.run v.recorded (s, [])).1.2 ∧
      ∀ r, Runs q'.rows v q'.rootId? [] false false s r ↔ r = q'.run v s := by
  obtain ⟨hfirst, hscoped⟩ := wellScoped_of_parse h
  have hfirst' : q'.clauses.firstLink? = some .always := hregroups.firstLink? ▸ hfirst
  have hscoped' := hregroups.wellScoped hscoped
  have halike : (q.eval v s).Alike view (q'.eval v s) := hregroups.alike hv true false s s rfl
  rw [Query.run_eq hfirst' hscoped', Query.run_eq hfirst hscoped,
    Query.run_recorded hfirst' hscoped', Query.run_recorded hfirst hscoped]
  refine ⟨halike.state.symm, halike.answer_eq.symm, halike.calls.symm, fun r => ?_⟩
  rw [runs_iff, Query.run_eq hfirst' hscoped']

/-- A visitor that counts the clauses visited and notes the names of those that are invoked, of which
those named `fail` fail. -/
def noteCalls : Visitor (Nat × List String) Unit where
  visit _ s := (s.1 + 1, s.2)
  invoke call s := ((s.1, s.2 ++ [call.name]), .ok (call.name == "fail"))

/-- The clauses behind the first one are regrouped in the scope of a group. One more clause is
visited, which the notes do not show. -/
theorem Query.run_regrouped_of_body :
    ∃ q q' : Query, parse "a & (fail & b | c; d) | e" = .ok q ∧ q.clauses.Regroups q'.clauses ∧
      q'.text = "a & (fail & (b | c; d)) | e" ∧ noteCalls.SeenThrough Prod.snd ∧
      (q'.run noteCalls (0, [])).1.2 = (q.run noteCalls (0, [])).1.2 ∧
      (q'.run noteCalls (0, [])).2 = (q.run noteCalls (0, [])).2 := by
  have hparse : parse "a & (fail & b | c; d) | e" = .ok ⟨.command .always ⟨"a", 0, []⟩ <|
      .group .ifPassed 4 (.command .always ⟨"fail", 5, []⟩ <| .command .ifPassed ⟨"b", 12, []⟩ <|
        .command .ifFailed ⟨"c", 16, []⟩ <| .command .always ⟨"d", 19, []⟩ .nil) <|
      .command .ifFailed ⟨"e", 24, []⟩ .nil⟩ := by rfl
  have hregroups := Chain.Regroups.inside (.command .always ⟨"a", 0, []⟩ .nil) .ifPassed 4
    (.command .ifFailed ⟨"e", 24, []⟩ .nil)
    (.here (.command .always ⟨"fail", 5, []⟩ .nil) .ifPassed ⟨"b", 12, []⟩
      (.command .ifFailed ⟨"c", 16, []⟩ <| .command .always ⟨"d", 19, []⟩ .nil) 12)
  have hseen : noteCalls.SeenThrough Prod.snd :=
    ⟨fun _ _ => rfl, fun call s t hst => ⟨congrArg (· ++ [call.name]) hst, rfl⟩⟩
  obtain ⟨hstate, hanswer, -, -⟩ :=
    @Query.run_regrouped _ _ _ _ _ ⟨_⟩ hparse hregroups _ _ hseen (0, [])
  exact ⟨_, _, hparse, hregroups, by rfl, hseen, hstate, hanswer⟩

end DevConsole
