import DevConsole.Proofs.Query.Offsets
import DevConsole.Proofs.Query.TableWalk

/-!
What a run over a table comes past. It looks at one row after the other, to see whether its link
allows it, and visits the rows that are allowed. Main statement: on a parsed query it looks at each
row once at most and never goes back in the source, so it ends; and it keeps for later what follows
the groups around the row it looks at, and nothing else.
-/

namespace DevConsole

variable {σ ε : Type}

/-! ### Looking at rows -/

structure Look where
  row : Row
  /-- Whether the link of the row allows it, so that the row is visited. -/
  allowed : Bool
  /-- What is kept for later when the row is looked at. -/
  stack : List Nat
  deriving DecidableEq, Repr

/-- `Traverses rows v id? stack failed anyFailed s looks r` says that the run over the table goes on
from row `id?`, and where there is none from the top of the stack, takes the looks `looks`, in this
order, and comes to `r` in the end. -/
inductive Traverses (rows : List Row) (v : Visitor σ ε) :
    Option Nat → List Nat → Bool → Bool → σ → List Look → σ × Except ε Bool → Prop
  | done {failed anyFailed : Bool} {s : σ} :
    Traverses rows v none [] failed anyFailed s [] (s, .ok !anyFailed)
  | pop {id : Nat} {stack : List Nat} {failed anyFailed : Bool} {s : σ} {looks : List Look}
      {r : σ × Except ε Bool} :
    Traverses rows v (some id) stack failed anyFailed s looks r →
    Traverses rows v none (id :: stack) failed anyFailed s looks r
  | refused {id : Nat} {row : Row} {stack : List Nat} {failed anyFailed : Bool} {s : σ}
      {looks : List Look} {r : σ × Except ε Bool} :
    rows[id]? = some row → row.link.allows failed = false →
    Traverses rows v none (row.push stack) failed anyFailed s looks r →
    Traverses rows v (some id) stack failed anyFailed s (⟨row, false, stack⟩ :: looks) r
  | group {id : Nat} {row : Row} {body : Option Nat} {stack : List Nat} {failed anyFailed : Bool}
      {s : σ} {looks : List Look} {r : σ × Except ε Bool} :
    rows[id]? = some row → row.link.allows failed → row.content = .group body →
    Traverses rows v body (row.push stack) failed anyFailed (v.visit row.offset s) looks r →
    Traverses rows v (some id) stack failed anyFailed s (⟨row, true, stack⟩ :: looks) r
  | command {id : Nat} {row : Row} {call : Invocation} {stack : List Nat}
      {failed failed' anyFailed : Bool} {s s' : σ} {looks : List Look} {r : σ × Except ε Bool} :
    rows[id]? = some row → row.link.allows failed → row.content = .command call →
    v.invoke call (v.visit row.offset s) = (s', .ok failed') →
    Traverses rows v row.next stack failed' (anyFailed || failed') s' looks r →
    Traverses rows v (some id) stack failed anyFailed s (⟨row, true, stack⟩ :: looks) r
  | error {id : Nat} {row : Row} {call : Invocation} {stack : List Nat} {failed anyFailed : Bool}
      {s s' : σ} {e : ε} :
    rows[id]? = some row → row.link.allows failed → row.content = .command call →
    v.invoke call (v.visit row.offset s) = (s', .error e) →
    Traverses rows v (some id) stack failed anyFailed s [⟨row, true, stack⟩] (s', .error e)

/-! ### Groups around clauses -/

/-- The rows of a chain whose clauses are numbered from `start`, in the order in which the clauses
begin, each with the groups around it, innermost first; `around` are those around the chain. -/
def Chain.places (start : Nat) (around : List Nat) : Chain → List (Row × List Nat)
  | .nil => []
  | .command link call rest =>
    (⟨start, call.offset, link, .command call, rest.firstId? (start + 1)⟩, around) ::
      rest.places (start + 1) around
  | .group link offset body rest =>
    let id := start + body.size
    (⟨id, offset, link, .group (body.firstId? start), rest.firstId? (id + 1)⟩, around) ::
      (body.places start (id :: around) ++ rest.places (id + 1) around)

namespace Chain

theorem map_id_places (start : Nat) (around : List Nat) (c : Chain) :
    (c.places start around).map (·.1.id) = c.ids start := by
  induction c generalizing start around with
  | nil => rfl
  | command link call rest ih => simp [places, ids, ih]
  | group link offset body rest ihb ihr => simp [places, ids, ihb, ihr]

theorem map_offset_places (start : Nat) (around : List Nat) (c : Chain) :
    (c.places start around).map (·.1.offset) = c.offsets := by
  induction c generalizing start around with
  | nil => rfl
  | command link call rest ih => simp [places, offsets, ih]
  | group link offset body rest ihb ihr => simp [places, offsets, ihb, ihr]

end Chain

theorem Row.push_of_group {row : Row} {body : Option Nat} (h : row.content = .group body)
    (stack : List Nat) : row.push stack = row.next.toList ++ stack := by
  rw [Row.push, h]
  cases row.next <;> rfl

/-- What follows the groups `around` in their own scopes, as far as anything does. -/
def continuations (rows : List Row) (around : List Nat) : List Nat :=
  around.filterMap fun id => rows[id]?.bind Row.next

/-- A group adds what follows it to what follows the groups around it. -/
theorem push_continuations {rows : List Row} {id : Nat} {row : Row} (hrow : rows[id]? = some row)
    {body : Option Nat} (hcontent : row.content = .group body) (around : List Nat) :
    row.push (continuations rows around) = continuations rows (id :: around) := by
  rw [Row.push_of_group hcontent, continuations, continuations, List.filterMap_cons, hrow,
    Option.bind_some]
  cases row.next <;> rfl

/-! ### Runs and their looks -/

namespace Traverses

variable {rows : List Row} {v : Visitor σ ε} {id? : Option Nat} {stack : List Nat}
  {failed anyFailed : Bool} {s : σ} {looks looks' : List Look} {r r' : σ × Except ε Bool}

theorem runs (h : Traverses rows v id? stack failed anyFailed s looks r) :
    Runs rows v id? stack failed anyFailed s r := by
  induction h with
  | done => exact .done
  | pop _ ih => exact .pop ih
  | refused hrow hrefused _ ih => exact .refused hrow hrefused ih
  | group hrow hallows hcontent _ ih => exact .group hrow hallows hcontent ih
  | command hrow hallows hcontent hinvoke _ ih =>
    exact .command hrow hallows hcontent hinvoke ih
  | error hrow hallows hcontent hinvoke => exact .error hrow hallows hcontent hinvoke

theorem unique (h : Traverses rows v id? stack failed anyFailed s looks r)
    (h' : Traverses rows v id? stack failed anyFailed s looks' r') : looks' = looks := by
  induction h generalizing looks' r' with
  | done => cases h'; rfl
  | pop _ ih => cases h' with | pop h' => exact ih h'
  | refused hrow hrefused _ ih => cases h' <;> grind
  | group hrow hallows hcontent _ ih => cases h' <;> grind
  | command hrow hallows hcontent hinvoke _ ih => cases h' <;> grind
  | error hrow hallows hcontent hinvoke => cases h' <;> grind

/-- What was kept for later is taken up when there is no row to go on from. -/
theorem resume {row : Row} {body : Option Nat} (hcontent : row.content = .group body)
    (h : Traverses rows v row.next stack failed anyFailed s looks r) :
    Traverses rows v none (row.push stack) failed anyFailed s looks r := by
  rw [Row.push_of_group hcontent]
  revert h
  cases row.next with
  | none => exact id
  | some next => exact .pop

end Traverses

/-! ### Looks in order -/

/-- Whether the looks are at some of the rows at `places`, in this order, and each of them finds
kept for later what follows the groups around its row. -/
def FollowPlaces (rows : List Row) (looks : List Look) (places : List (Row × List Nat)) : Prop :=
  (looks.map fun look => (look.row, look.stack)).Sublist
    (places.map fun place => (place.1, continuations rows place.2))

section Places

variable {rows : List Row} {looks : List Look} {places : List (Row × List Nat)}

theorem FollowPlaces.look (h : FollowPlaces rows looks places) (row : Row) (allowed : Bool)
    (around : List Nat) :
    FollowPlaces rows (⟨row, allowed, continuations rows around⟩ :: looks)
      ((row, around) :: places) :=
  h.cons_cons _

theorem FollowPlaces.skip (h : FollowPlaces rows looks places) (skipped : List (Row × List Nat)) :
    FollowPlaces rows looks (skipped ++ places) := by
  rw [FollowPlaces, List.map_append]
  exact h.trans (List.sublist_append_right _ _)

end Places

/-- Whether the run from row `id?` on does what the walk over the chains `cs` does, whatever has
happened before, and looks at rows at `places` only. -/
def RunsAlong (rows : List Row) (v : Visitor σ ε) (id? : Option Nat) (stack : List Nat)
    (cs : List Chain) (places : List (Row × List Nat)) : Prop :=
  ∀ failed anyFailed s, ∃ looks,
    Traverses rows v id? stack failed anyFailed s looks (walk v failed anyFailed cs s) ∧
      FollowPlaces rows looks places

section Along

variable {rows : List Row} {v : Visitor σ ε}

theorem RunsAlong.done : RunsAlong rows v none [] [] [] := by
  intro failed anyFailed s
  refine ⟨[], ?_, List.Sublist.slnil⟩
  rw [walk_of_none rfl]
  exact .done

theorem RunsAlong.resume (row : Row) {body : Option Nat} {stack : List Nat} {cs : List Chain}
    {places : List (Row × List Nat)} (hcontent : row.content = .group body)
    (h : RunsAlong rows v row.next stack cs places) :
    RunsAlong rows v none (row.push stack) cs places := by
  intro failed anyFailed s
  obtain ⟨looks, hlooks, hplaces⟩ := h failed anyFailed s
  exact ⟨looks, hlooks.resume hcontent, hplaces⟩

/-- **A chain is gone through in the order in which its clauses begin**, and then what remains
behind it. -/
theorem runsAlong_cons {c : Chain} {start : Nat} (h : c.PlacedAt rows start) (around : List Nat)
    {after : List Chain} {places : List (Row × List Nat)}
    (hafter : RunsAlong rows v none (continuations rows around) after places) :
    RunsAlong rows v (c.firstId? start) (continuations rows around) (c :: after)
      (c.places start around ++ places) := by
  induction c generalizing start around after places with
  | nil =>
    intro failed anyFailed s
    have hstop : nextStop? failed (.nil :: after) = nextStop? failed after := rfl
    rw [walk_congr hstop]
    exact hafter failed anyFailed s
  | command link call rest ih =>
    obtain ⟨hrow, hrest⟩ := h.command
    intro failed anyFailed s
    by_cases ha : link.allows failed
    · have hstop : nextStop? failed (.command link call rest :: after) =
          some (.command call (rest :: after)) := by simp [nextStop?, Chain.stop?, ha]
      rcases hinvoke : v.invoke call (v.visit call.offset s) with ⟨s', e | failed'⟩
      · rw [walk_of_error hstop hinvoke]
        exact ⟨_, .error hrow ha rfl hinvoke, (List.nil_sublist _).cons_cons _⟩
      · rw [walk_of_ok hstop hinvoke]
        obtain ⟨looks, hlooks, hplaces⟩ := ih hrest around hafter failed' (anyFailed || failed') s'
        exact ⟨_, .command hrow ha rfl hinvoke hlooks, hplaces.look ..⟩
    · -- the rest of the scope is dropped
      have hstop : nextStop? failed (.command link call rest :: after) =
          nextStop? failed after := by
        simp [nextStop?, Chain.stop?, ha]
      rw [walk_congr hstop]
      obtain ⟨looks, hlooks, hplaces⟩ := hafter failed anyFailed s
      exact ⟨_, .refused hrow (by simpa using ha) hlooks, (hplaces.skip _).look ..⟩
  | group link offset body rest ihb ihr =>
    obtain ⟨hrow, hbody, hrest⟩ := h.group
    have hresume := (ihr hrest around hafter).resume ⟨start + body.size, offset, link,
      .group (body.firstId? start), rest.firstId? (start + body.size + 1)⟩ rfl
    intro failed anyFailed s
    rw [Chain.places, List.cons_append, List.append_assoc]
    by_cases ha : link.allows failed
    · have hstop : nextStop? failed (.group link offset body rest :: after) =
          some (.group offset (body :: rest :: after)) := by simp [nextStop?, Chain.stop?, ha]
      rw [walk_of_group hstop]
      have hpush := push_continuations hrow rfl around
      obtain ⟨looks, hlooks, hplaces⟩ :=
        ihb hbody _ (hpush ▸ hresume) failed anyFailed (v.visit offset s)
      exact ⟨_, .group hrow ha rfl (hpush ▸ hlooks), hplaces.look ..⟩
    · have hstop : nextStop? failed (.group link offset body rest :: after) =
          nextStop? failed (rest :: after) := by simp [nextStop?, Chain.stop?, ha]
      rw [walk_congr hstop]
      obtain ⟨looks, hlooks, hplaces⟩ := hresume failed anyFailed s
      exact ⟨_, .refused hrow (by simpa using ha) hlooks, (hplaces.skip _).look ..⟩

end Along

/-! ### Whole runs -/

/-- What the looks of a run over the table of a query keep to. -/
structure Query.Bounds (q : Query) (looks : List Look) : Prop where
  /-- There are no more looks than rows. -/
  length : looks.length ≤ q.rows.length
  /-- No row is looked at twice. -/
  once : (looks.map (·.row.id)).Nodup
  /-- The next row begins later in the source. -/
  forwards : (looks.map (·.row.offset)).Pairwise (· < ·)
  /-- What is kept for later is what follows the groups around the row that is looked at, at most
  one row for each of them. -/
  stack : ∀ look ∈ looks, ∃ around, (look.row, around) ∈ q.clauses.places 0 [] ∧
    look.stack = continuations q.rows around ∧ look.stack.length ≤ around.length

theorem Query.bounds_of_followPlaces {q : Query} {looks : List Look}
    (h : FollowPlaces q.rows looks (q.clauses.places 0 []))
    (hoffsets : q.clauses.offsets.Pairwise (· < ·)) : q.Bounds looks := by
  have hids : (looks.map (·.row.id)).Sublist (q.clauses.ids 0) := by
    simpa [Function.comp_def, ← Chain.map_id_places 0 []] using h.map (·.1.id)
  have hsource : (looks.map (·.row.offset)).Sublist q.clauses.offsets := by
    simpa [Function.comp_def, ← Chain.map_offset_places 0 []] using h.map (·.1.offset)
  have hperm := Chain.perm_ids 0 q.clauses
  refine ⟨?_, hids.nodup (hperm.nodup_iff.2 List.nodup_range'), hoffsets.sublist hsource, ?_⟩
  · have hlength := hids.length_le
    rwa [List.length_map, hperm.length_eq, List.length_range', ← Chain.length_rows 0] at hlength
  · intro look hlook
    have hmem := h.subset (List.mem_map_of_mem hlook)
    obtain ⟨⟨row, around⟩, hplace, heq⟩ := List.mem_map.1 hmem
    obtain ⟨rfl, hstack⟩ := Prod.mk.inj heq
    refine ⟨around, hplace, hstack.symm, ?_⟩
    rw [← hstack]
    exact List.length_filterMap_le _ _

/-- **A run looks at each row once at most.** Whatever the invocations of a parsed query answer, the
run over its table comes to an end, and it does so in one way only. It looks at no more rows than
there are, at none of them twice, and at one behind the other in the source; so all the more are the
rows that it visits. At each of them it keeps at most one row for later for each group around it. -/
theorem traverses_of_parse {source : String} {q : Query} (h : parse source = .ok q)
    (v : Visitor σ ε) (s : σ) :
    ∃ looks, Traverses q.rows v q.rootId? [] false false s looks (q.run v s) ∧ q.Bounds looks ∧
      ∀ looks' r, Traverses q.rows v q.rootId? [] false false s looks' r →
        looks' = looks ∧ r = q.run v s := by
  have hplaced : q.clauses.PlacedAt q.rows 0 := ⟨[], [], by simp [Query.rows], rfl⟩
  have halong : RunsAlong q.rows v q.rootId? [] [q.clauses] (q.clauses.places 0 [] ++ []) :=
    runsAlong_cons hplaced [] .done
  obtain ⟨looks, hlooks, hplaces⟩ := halong false false s
  rw [List.append_nil] at hplaces
  refine ⟨looks, hlooks, Query.bounds_of_followPlaces hplaces (pairwise_offsets_of_parse h), ?_⟩
  intro looks' r hlooks'
  exact ⟨hlooks.unique hlooks', hlooks.runs.unique hlooks'.runs⟩

/-- One group is passed over, and another one with a group at its end is entered. -/
theorem traverses_of_parse_nested :
    ∃ q, parse "fail & (b; c) | (d; (e)) & f" = .ok q ∧ q.rows.length = 9 ∧
      ∃ looks, Traverses q.rows countVisits q.rootId? [] false false 0 looks
          (q.run countVisits 0) ∧ q.Bounds looks ∧
        ∀ looks' r, Traverses q.rows countVisits q.rootId? [] false false 0 looks' r →
          looks' = looks ∧ r = q.run countVisits 0 := by
  have hparse : parse "fail & (b; c) | (d; (e)) & f" = .ok ⟨.command .always ⟨"fail", 0, []⟩ <|
      .group .ifPassed 7 (.command .always ⟨"b", 8, []⟩ <| .command .always ⟨"c", 11, []⟩ .nil) <|
      .group .ifFailed 16 (.command .always ⟨"d", 17, []⟩ <|
        .group .always 20 (.command .always ⟨"e", 21, []⟩ .nil) .nil) <|
      .command .ifPassed ⟨"f", 27, []⟩ .nil⟩ := by rfl
  exact ⟨_, hparse, by rfl, traverses_of_parse hparse countVisits 0⟩

end DevConsole
