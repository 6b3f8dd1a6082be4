import DevConsole.Proofs.Query.Grammar

/-!
Reading tokens from left to right. A reading holds the open groups, the finished clauses of the
innermost scope and the clause at hand; it accepts exactly the token lists that the grammar has a
tree for, and ends with that tree.
-/

namespace DevConsole.Grammar

/-! ### Readings -/

inductive Spot
  | start
  | call (call : Invocation)
  /-- It is a group whose closing parenthesis has been read. -/
  | closed

/-- How far a query has been read. -/
structure Reading where
  /-- The open groups, innermost first, with their links and the clauses before them. -/
  groups : List (Link × Chain) := []
  clauses : Chain := .nil
  /-- The link of the next clause. -/
  link : Link := .always
  spot : Spot := .start

/-- The invocation that begins with these pieces, where `name` holds the name so far. A reference
cannot stand in a name, and there must be a name or a quoted piece. -/
def firstCall? (name : List Char) : List Piece → Option Invocation
  | [] => if name = [] then none else some ⟨String.ofList name, 0, []⟩
  | .plain c :: ps => firstCall? (name ++ [c]) ps
  | .quoted items :: ps => some ⟨String.ofList name, 0, [argumentOf (.quoted items :: ps)]⟩
  | .reference _ :: _ => none

def withWord (call : Invocation) (pieces : List Piece) : Invocation :=
  { call with args := call.args ++ [argumentOf pieces] }

namespace Reading

/-- The clauses of the innermost scope, the one at hand included. -/
def settled (r : Reading) : Chain :=
  match r.spot with
  | .call call => r.clauses ++ Chain.command r.link call .nil
  | _ => r.clauses

def step (r : Reading) : Token → Option Reading
  | .word pieces =>
    match r.spot with
    | .start => (firstCall? [] pieces).map fun call => { r with spot := .call call }
    | .call call => some { r with spot := .call (withWord call pieces) }
    | .closed => none
  | .link link =>
    match r.spot with
    | .start => none
    | _ => some { r with clauses := r.settled, link := link, spot := .start }
  | .openParen =>
    match r.spot with
    | .start => some { groups := (r.link, r.clauses) :: r.groups }
    | _ => none
  | .closeParen =>
    match r.spot, r.groups with
    | .start, _ => none
    | _, [] => none
    | _, (link, before) :: groups =>
      some ⟨groups, before ++ Chain.group link 0 r.settled .nil, .always, .closed⟩

theorem step_link {r : Reading} (h : r.spot ≠ .start) (link : Link) :
    r.step (.link link) = some { r with clauses := r.settled, link := link, spot := .start } := by
  obtain ⟨groups, clauses, l, spot⟩ := r
  cases spot with
  | start => exact absurd rfl h
  | call call => rfl
  | closed => rfl

theorem step_closeParen {r : Reading} (h : r.spot ≠ .start) {link : Link} {before : Chain}
    {groups : List (Link × Chain)} (hg : r.groups = (link, before) :: groups) :
    r.step .closeParen =
      some ⟨groups, before ++ Chain.group link 0 r.settled .nil, .always, .closed⟩ := by
  obtain ⟨gs, clauses, l, spot⟩ := r
  cases hg
  cases spot with
  | start => exact absurd rfl h
  | call call => rfl
  | closed => rfl

theorem step_closeParen_nil {r : Reading} (hg : r.groups = []) : r.step .closeParen = none := by
  obtain ⟨gs, clauses, l, spot⟩ := r
  cases hg
  cases spot <;> rfl

def finish (r : Reading) : Option Chain :=
  match r.groups with
  | [] => some (if r.settled.isNil then .command .always {} .nil else r.settled)
  | _ :: _ => none

/-- The clauses after the tokens that are left. -/
def read (r : Reading) : List Token → Option Chain
  | [] => r.finish
  | t :: ts => (r.step t).bind (read · ts)

end Reading

/-! ### Commands -/

@[simp] theorem beginsQuoted_nil : BeginsQuoted [] := by simp [BeginsQuoted]

/-- Where the name ends in a first word, there is a quoted piece or nothing. -/
theorem split_cons {p : Piece} {ps tail : List Piece} {name : List Char}
    (h : p :: ps = name.map Piece.plain ++ tail) (ht : BeginsQuoted tail) :
    (∃ items, p = .quoted items ∧ name = [] ∧ tail = p :: ps) ∨
      ∃ c name', p = .plain c ∧ name = c :: name' ∧ ps = name'.map Piece.plain ++ tail := by
  cases name with
  | nil =>
    rw [List.map_nil, List.nil_append] at h
    subst h
    obtain ⟨items, rfl⟩ := ht p rfl
    exact .inl ⟨items, rfl, rfl, rfl⟩
  | cons c name' =>
    obtain ⟨rfl, rfl⟩ := List.cons.inj h
    exact .inr ⟨c, name', rfl, rfl, rfl⟩

/-- The pieces that make an invocation: plain characters, and then a quoted piece or nothing. -/
theorem firstCall?_eq_some_iff {name : List Char} {pieces : List Piece} {call : Invocation} :
    firstCall? name pieces = some call ↔
      ∃ more tail, pieces = more.map Piece.plain ++ tail ∧ (name ≠ [] ∨ pieces ≠ []) ∧
        BeginsQuoted tail ∧
        call = ⟨String.ofList (name ++ more), 0, (argumentWords tail []).map argumentOf⟩ := by
  induction pieces generalizing name with
  | nil =>
    rw [firstCall?]
    constructor
    · intro h
      split at h
      · cases h
      · next hn =>
        cases h
        exact ⟨[], [], rfl, .inl hn, by simp, by simp [argumentWords]⟩
    · rintro ⟨more, tail, he, hn, -, rfl⟩
      obtain ⟨hm, rfl⟩ := List.append_eq_nil_iff.1 he.symm
      obtain rfl := List.map_eq_nil_iff.1 hm
      have hn : name ≠ [] := hn.resolve_right (by simp)
      simp [hn, argumentWords]
  | cons p ps ih =>
    cases p with
    | plain c =>
      rw [firstCall?, ih]
      constructor
      · rintro ⟨more, tail, rfl, -, ht, rfl⟩
        exact ⟨c :: more, tail, rfl, by simp, ht, by simp⟩
      · rintro ⟨more, tail, he, -, ht, rfl⟩
        obtain ⟨_, hp, -⟩ | ⟨d, more', hp, rfl, hps⟩ := split_cons he ht
        · cases hp
        · cases hp
          exact ⟨more', tail, hps, by simp, ht, by simp⟩
    | quoted items =>
      rw [firstCall?, Option.some.injEq]
      constructor
      · rintro rfl
        exact ⟨[], .quoted items :: ps, rfl, by simp, by simp [BeginsQuoted],
          by simp [argumentWords]⟩
      · rintro ⟨more, tail, he, -, ht, rfl⟩
        obtain ⟨_, -, rfl, rfl⟩ | ⟨d, more', hp, -⟩ := split_cons he ht
        · simp [argumentWords]
        · cases hp
    | reference ref =>
      simp only [firstCall?, reduceCtorEq, false_iff]
      rintro ⟨more, tail, he, -, ht, -⟩
      obtain ⟨_, hp, -⟩ | ⟨d, more', hp, -⟩ := split_cons he ht <;> cases hp

theorem argumentWords_append (tail : List Piece) (words more : List (List Piece)) :
    argumentWords tail (words ++ more) = argumentWords tail words ++ more := by
  unfold argumentWords
  split <;> simp

theorem IsCommand.withWord {ts : List Token} {call : Invocation} (h : IsCommand ts call)
    (pieces : List Piece) : IsCommand (ts ++ [.word pieces]) (withWord call pieces) := by
  obtain ⟨name, tail, words, hne, ht⟩ := h
  have := IsCommand.mk name tail (words ++ [pieces]) hne ht
  simpa [Grammar.withWord, argumentWords_append] using this

theorem IsCommand.of_firstCall? {pieces : List Piece} {call : Invocation}
    (h : firstCall? [] pieces = some call) : IsCommand [.word pieces] call := by
  obtain ⟨name, tail, rfl, hne, ht, rfl⟩ := firstCall?_eq_some_iff.1 h
  exact IsCommand.mk name tail [] (by simpa using hne) ht

/-! ### What the grammar derives is read -/

namespace Reading

theorem read_words (r : Reading) (call : Invocation) (words : List (List Piece))
    (rest : List Token) :
    read { r with spot := .call call } (words.map Token.word ++ rest) =
      read { r with spot := .call { call with args := call.args ++ words.map argumentOf } } rest := by
  induction words generalizing call with
  | nil => simp
  | cons w ws ih =>
    simp only [List.map_cons, List.cons_append, read, step, Option.bind_some]
    rw [ih]
    simp [withWord]

theorem read_command {ts : List Token} {call : Invocation} (h : IsCommand ts call) {r : Reading}
    (hr : r.spot = .start) (rest : List Token) :
    r.read (ts ++ rest) = read { r with spot := .call call } rest := by
  obtain ⟨name, tail, words, hne, ht⟩ := h
  have hf : firstCall? [] (name.map Piece.plain ++ tail) =
      some ⟨String.ofList name, 0, (argumentWords tail []).map argumentOf⟩ :=
    firstCall?_eq_some_iff.2 ⟨name, tail, rfl, .inr hne, ht, by simp⟩
  simp only [List.cons_append, read, step, hr, hf, Option.map_some, Option.bind_some]
  rw [read_words]
  have := argumentWords_append tail [] words
  simp_all

end Reading

mutual

theorem IsClause.read {ts : List Token} {link : Link} {c : Chain} :
    IsClause ts link c → ∀ r : Reading, r.spot = .start → r.link = link → ∀ rest,
      ∃ r' : Reading, r.read (ts ++ rest) = r'.read rest ∧ r'.groups = r.groups ∧
        r'.settled = r.clauses ++ c ∧ r'.spot ≠ .start
  | .command h, r, hr, hl, rest =>
    ⟨_, Reading.read_command h hr rest, rfl, by simp [Reading.settled, hl], by simp⟩
  | @IsClause.group ts _ body h, r, hr, hl, rest => by
    obtain ⟨r', hread, hg, hs, hsp⟩ :=
      h.read { groups := (r.link, r.clauses) :: r.groups } rfl rfl (.closeParen :: rest)
    refine ⟨⟨r.groups, r.clauses ++ .group link 0 body .nil, .always, .closed⟩, ?_, rfl, rfl,
      by simp⟩
    calc r.read (.openParen :: ts ++ [.closeParen] ++ rest)
        = Reading.read { groups := (r.link, r.clauses) :: r.groups }
            (ts ++ .closeParen :: rest) := by simp [Reading.read, Reading.step, hr]
      _ = r'.read (.closeParen :: rest) := hread
      _ = _ := by
        rw [Reading.read, Reading.step_closeParen hsp hg, hs, hl]
        rfl

theorem IsChain.read {ts : List Token} {link : Link} {c : Chain} :
    IsChain ts link c → ∀ r : Reading, r.spot = .start → r.link = link → ∀ rest,
      ∃ r' : Reading, r.read (ts ++ rest) = r'.read rest ∧ r'.groups = r.groups ∧
        r'.settled = r.clauses ++ c ∧ r'.spot ≠ .start
  | .single h, r, hr, hl, rest => h.read r hr hl rest
  | @IsChain.joined _ us _ next _ _ h h', r, hr, hl, rest => by
    obtain ⟨r₁, hread, hg, hs, hsp⟩ := h.read r hr hl (.link next :: us ++ rest)
    obtain ⟨r₂, hread', hg', hs', hsp'⟩ :=
      h'.read ⟨r₁.groups, r₁.settled, next, .start⟩ rfl rfl rest
    refine ⟨r₂, ?_, by rw [hg', hg], by rw [hs', hs, Chain.append_assoc], hsp'⟩
    rw [List.append_assoc, hread, ← hread', List.cons_append, Reading.read,
      Reading.step_link hsp]
    rfl

end

theorem IsChain.isNil_eq_false {ts : List Token} {link : Link} {c : Chain} :
    IsChain ts link c → c.isNil = false
  | .single (.command _) => rfl
  | .single (.group _) => rfl
  | .joined (.command _) _ => rfl
  | .joined (.group _) _ => rfl

theorem IsQuery.read {ts : List Token} {c : Chain} (h : IsQuery ts c) :
    Reading.read {} ts = some c := by
  cases h with
  | empty => rfl
  | chain h =>
    obtain ⟨r, hread, hg, hs, -⟩ := h.read {} rfl rfl []
    rw [List.append_nil] at hread
    rw [hread]
    simp_all [Reading.read, Reading.finish, h.isNil_eq_false]
  | trailing link h =>
    obtain ⟨r, hread, hg, hs, hsp⟩ := h.read {} rfl rfl [.link link]
    -- behind the link the clauses read so far are all there is
    rw [hread, Reading.read, Reading.step_link hsp, hs, Option.bind_some, Reading.read]
    simp [Reading.finish, Reading.settled, hg, h.isNil_eq_false]

/-! ### What is read is derived by the grammar -/

/-- `Before ts link c` says that the tokens `ts` are clauses with a link behind each of them, the
last one being `link`, and `c` is their chain. -/
inductive Before : List Token → Link → Chain → Prop
  | nil : Before [] .always .nil
  | snoc {ts us : List Token} {link : Link} (next : Link) {c d : Chain} :
    Before ts link c → IsClause us link d → Before (ts ++ us ++ [.link next]) next (c ++ d)

/-- Clauses with a link behind each of them, and a chain that the last link joins, are a chain. -/
theorem Before.isChain {ts us : List Token} {link : Link} {c d : Chain} (h : Before ts link c)
    (hd : IsChain us link d) : IsChain (ts ++ us) .always (c ++ d) := by
  induction h generalizing us d with
  | nil => exact hd
  | snoc next _ hc ih =>
    have := ih (.joined hc hd)
    simpa [Chain.append_assoc] using this

/-- `Opened ts gs` says that the tokens `ts` end with the parenthesis of the innermost of the open
groups `gs`. -/
inductive Opened : List Token → List (Link × Chain) → Prop
  | nil : Opened [] []
  | cons {ts us : List Token} {gs : List (Link × Chain)} {link : Link} {c : Chain} :
    Opened ts gs → Before us link c → Opened (ts ++ us ++ [.openParen]) ((link, c) :: gs)

/-- `Reached ts r` says that `r` is what the tokens `ts` have been read as. -/
inductive Reached : List Token → Reading → Prop
  | start {ts us : List Token} {gs : List (Link × Chain)} {link : Link} {c : Chain} :
    Opened ts gs → Before us link c → Reached (ts ++ us) ⟨gs, c, link, .start⟩
  | call {ts us vs : List Token} {gs : List (Link × Chain)} {link : Link} {c : Chain}
    {call : Invocation} :
    Opened ts gs → Before us link c → IsCommand vs call →
    Reached (ts ++ us ++ vs) ⟨gs, c, link, .call call⟩
  | closed {ts us vs : List Token} {gs : List (Link × Chain)} {link : Link} {c d : Chain} :
    Opened ts gs → Before us link c → IsClause vs link d →
    Reached (ts ++ us ++ vs) ⟨gs, c ++ d, .always, .closed⟩

namespace Reached

/-- Behind a clause, the tokens of the innermost scope are clauses that the last one ends. -/
theorem settled {ts : List Token} {r : Reading} (h : Reached ts r) (hr : r.spot ≠ .start) :
    ∃ us vs ws link c d, ts = us ++ vs ++ ws ∧ Opened us r.groups ∧ Before vs link c ∧
      IsClause ws link d ∧ r.settled = c ++ d := by
  cases h with
  | start => simp at hr
  | call ho hb hc => exact ⟨_, _, _, _, _, _, rfl, ho, hb, .command hc, rfl⟩
  | closed ho hb hc => exact ⟨_, _, _, _, _, _, rfl, ho, hb, hc, rfl⟩

/-- The reading after one more token is what all the tokens have been read as. -/
theorem step {ts : List Token} {r r' : Reading} {t : Token} (h : Reached ts r)
    (hs : r.step t = some r') : Reached (ts ++ [t]) r' := by
  cases t with
  | word pieces =>
    cases h with
    | start ho hb =>
      obtain ⟨call, hc, rfl⟩ := Option.map_eq_some_iff.1 hs
      exact .call ho hb (.of_firstCall? hc)
    | call ho hb hc =>
      cases hs
      rw [List.append_assoc]
      exact .call ho hb (hc.withWord pieces)
    | closed => cases hs
  | link link =>
    have hr : r.spot ≠ .start := fun hr => by simp [Reading.step, hr] at hs
    obtain ⟨us, vs, ws, l, c, d, rfl, ho, hb, hc, he⟩ := h.settled hr
    rw [Reading.step_link hr, he] at hs
    cases hs
    rw [List.append_assoc, List.append_assoc, ← List.append_assoc vs]
    exact .start ho (.snoc link hb hc)
  | openParen =>
    cases h with
    | start ho hb =>
      cases hs
      simpa using Reached.start (.cons ho hb) .nil
    | call => cases hs
    | closed => cases hs
  | closeParen =>
    have hr : r.spot ≠ .start := fun hr => by simp [Reading.step, hr] at hs
    obtain ⟨us, vs, ws, l, c, d, rfl, ho, hb, hc, he⟩ := h.settled hr
    -- the group itself is a clause of the scope around it
    generalize hgs : r.groups = gs at ho
    cases ho with
    | nil => simp [Reading.step_closeParen_nil hgs] at hs
    | @cons us₁ us₂ gs link before ho hb' =>
      rw [Reading.step_closeParen hr hgs, he] at hs
      cases hs
      have hg : IsClause (.openParen :: (vs ++ ws) ++ [.closeParen]) link
          (.group link 0 (c ++ d) .nil) := .group (hb.isChain (.single hc))
      simpa using Reached.closed ho hb' hg

theorem finish {ts : List Token} {r : Reading} {c : Chain} (h : Reached ts r)
    (hf : r.finish = some c) : IsQuery ts c := by
  have hg : r.groups = [] := by
    unfold Reading.finish at hf
    split at hf
    · assumption
    · cases hf
  by_cases hr : r.spot = .start
  · cases h with
    | start ho hb =>
      cases hg
      cases ho
      cases hb with
      | nil => cases hf; exact .empty
      | snoc _ hb hc =>
        have hq := hb.isChain (.single hc)
        simp only [Reading.finish, Reading.settled, hq.isNil_eq_false, Bool.false_eq_true,
          if_false, Option.some.injEq] at hf
        subst hf
        simpa using IsQuery.trailing _ hq
    | call => cases hr
    | closed => cases hr
  · obtain ⟨us, vs, ws, l, c', d, rfl, ho, hb, hc, he⟩ := h.settled hr
    rw [hg] at ho
    cases ho
    have hq := hb.isChain (.single hc)
    simp only [Reading.finish, hg, he, hq.isNil_eq_false, Bool.false_eq_true, if_false,
      Option.some.injEq] at hf
    subst hf
    simpa using IsQuery.chain hq

/-- What the tokens that are left are read as is derived by the grammar from all of them. -/
theorem read {ts us : List Token} {r : Reading} {c : Chain} (h : Reached ts r)
    (hread : r.read us = some c) : IsQuery (ts ++ us) c := by
  induction us generalizing ts r with
  | nil => simpa using h.finish hread
  | cons t us ih =>
    obtain ⟨r', hs, hr'⟩ := Option.bind_eq_some_iff.1 hread
    have := ih (h.step hs) hr'
    simpa using this

end Reached

/-- **Reading agrees with the grammar.** The tokens are read as `c` exactly if the grammar derives
`c` from them. -/
theorem read_eq_some_iff {ts : List Token} {c : Chain} :
    Reading.read {} ts = some c ↔ IsQuery ts c :=
  ⟨fun h => Reached.read (.start .nil .nil) h, IsQuery.read⟩

end DevConsole.Grammar
