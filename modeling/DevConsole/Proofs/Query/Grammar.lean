import Mathlib.Tactic.Common
import DevConsole.Query.Basic
import DevConsole.Text.Blank
import DevConsole.Text.Name

/-!
The language of queries, as a grammar on two levels. The lexical level splits a text into words,
links and parentheses; a word is a longest run of pieces, which are plain characters, quoted text
and references. The phrase level makes a query of these tokens. The trees of the grammar are chains
whose offsets are all zero.
-/

namespace DevConsole.Grammar

/-! ### Pieces of words -/

/-- Whether the character stands for itself outside quotes. A closing brace does. -/
def isPlain (c : Char) : Bool :=
  !(Text.isBlank c || (Link.ofChar? c).isSome || c == '#' || c == '(' || c == ')' || c == '"' ||
    c == '{' || c == '\\')

inductive Item
  | plain (c : Char)
  /-- A character behind a backslash, which stands for itself whatever it is. -/
  | escaped (c : Char)
  | reference (name : List Char)

inductive Piece
  | plain (c : Char)
  | quoted (items : List Item)
  | reference (name : List Char)

def referenceChars (name : List Char) : List Char := '{' :: name ++ ['}']

def Item.chars : Item → List Char
  | plain c => [c]
  | escaped c => ['\\', c]
  | reference name => referenceChars name

/-- Whether the item reads back as itself: an opening brace always begins a reference, and a
reference has a plain name. -/
def Item.Valid : Item → Prop
  | plain c => c ≠ '"' ∧ c ≠ '\\' ∧ c ≠ '{'
  | escaped _ => True
  | reference name => Text.isPlainName name

def Piece.chars : Piece → List Char
  | plain c => [c]
  | quoted items => '"' :: items.flatMap Item.chars ++ ['"']
  | reference name => referenceChars name

def Piece.Valid : Piece → Prop
  | plain c => isPlain c
  | quoted items => ∀ i ∈ items, i.Valid
  | reference name => Text.isPlainName name

/-! ### The values of words -/

/-- What a word is made of once quotes and backslashes are gone. -/
inductive Atom
  | char (c : Char)
  | reference (name : List Char)

def Item.atom : Item → Atom
  | plain c => .char c
  | escaped c => .char c
  | reference name => .reference name

def Piece.atoms : Piece → List Atom
  | plain c => [.char c]
  | quoted items => items.map Item.atom
  | reference name => [.reference name]

/-- The parts with one more atom: a character joins the literal right before it. -/
def addAtom (ps : List Part) : Atom → List Part
  | .reference name => ps ++ [.reference (String.ofList name) 0]
  | .char c =>
    match ps.getLast? with
    | some (.literal text _) => ps.dropLast ++ [.literal (text.push c) 0]
    | _ => ps ++ [.literal (String.singleton c) 0]

def partsOf (as : List Atom) : List Part := as.foldl addAtom []

/-- The argument that pieces make. Nothing between quotes is the empty literal. -/
def argumentOf (pieces : List Piece) : Argument :=
  let ps := partsOf (pieces.flatMap Piece.atoms)
  ⟨if ps = [] then [.literal "" 0] else ps, 0⟩

/-! ### The lexical level -/

/-- What a text is split into. -/
inductive Token
  | word (pieces : List Piece)
  | link (link : Link)
  | openParen
  | closeParen

/-- Whether a piece of a word may begin with the character. -/
def beginsPiece (c : Char) : Bool := isPlain c || c == '"' || c == '{'

/-- Whether a word ends in front of the text. -/
def EndsWord (cs : List Char) : Prop := ∀ c ∈ cs.head?, beginsPiece c = false

/-- `Lexes cs ts` says that the tokens of the text `cs` are `ts`. -/
inductive Lexes : List Char → List Token → Prop
  | nil : Lexes [] []
  | blank {c : Char} {cs : List Char} {ts : List Token} :
    Text.isBlank c → Lexes cs ts → Lexes (c :: cs) ts
  /-- A comment goes on to the end of its line. -/
  | comment {skipped cs : List Char} {ts : List Token} :
    (∀ c ∈ skipped, c ≠ '\n') → (∀ c ∈ cs.head?, c = '\n') → Lexes cs ts →
    Lexes ('#' :: skipped ++ cs) ts
  | link {c : Char} {l : Link} {cs : List Char} {ts : List Token} :
    Link.ofChar? c = some l → Lexes cs ts → Lexes (c :: cs) (.link l :: ts)
  | openParen {cs : List Char} {ts : List Token} :
    Lexes cs ts → Lexes ('(' :: cs) (.openParen :: ts)
  | closeParen {cs : List Char} {ts : List Token} :
    Lexes cs ts → Lexes (')' :: cs) (.closeParen :: ts)
  | word {pieces : List Piece} {cs : List Char} {ts : List Token} :
    pieces ≠ [] → (∀ p ∈ pieces, p.Valid) → EndsWord cs → Lexes cs ts →
    Lexes (pieces.flatMap Piece.chars ++ cs) (.word pieces :: ts)

/-! ### The phrase level -/

/-- Whether the pieces, if there are any, begin with a quoted one. -/
def BeginsQuoted (pieces : List Piece) : Prop := ∀ p ∈ pieces.head?, ∃ items, p = .quoted items

/-- The words behind a name: what is left of the first word, from its first quote on, counts as a
word if it is there. -/
def argumentWords (tail : List Piece) (words : List (List Piece)) : List (List Piece) :=
  if tail = [] then words else tail :: words

/-- `IsCommand ts call` says that the tokens `ts` are words that make the invocation `call`. The
plain characters at the head of the first word are the name. -/
inductive IsCommand : List Token → Invocation → Prop
  | mk (name : List Char) (tail : List Piece) (words : List (List Piece)) :
    name.map Piece.plain ++ tail ≠ [] → BeginsQuoted tail →
    IsCommand (.word (name.map Piece.plain ++ tail) :: words.map Token.word)
      ⟨String.ofList name, 0, (argumentWords tail words).map argumentOf⟩

mutual

/-- `IsClause ts link c` says that the tokens `ts` are a command or a group, and `c` is the chain
of this clause alone, joined by `link`. -/
inductive IsClause : List Token → Link → Chain → Prop
  | command {ts : List Token} {link : Link} {call : Invocation} :
    IsCommand ts call → IsClause ts link (.command link call .nil)
  | group {ts : List Token} {link : Link} {body : Chain} :
    IsChain ts .always body →
    IsClause (.openParen :: ts ++ [.closeParen]) link (.group link 0 body .nil)

/-- `IsChain ts link c` says that the tokens `ts` are clauses with a link between any two, and `c`
is their chain, the first clause joined by `link`. -/
inductive IsChain : List Token → Link → Chain → Prop
  | single {ts : List Token} {link : Link} {c : Chain} : IsClause ts link c → IsChain ts link c
  | joined {ts rest : List Token} {link next : Link} {c d : Chain} :
    IsClause ts link c → IsChain rest next d →
    IsChain (ts ++ .link next :: rest) link (c ++ d)

end

/-- `IsQuery ts c` says that the tokens `ts` are a query with the clauses `c`. A query without
tokens invokes nothing, and a link at the end is dropped. -/
inductive IsQuery : List Token → Chain → Prop
  | empty : IsQuery [] (.command .always {} .nil)
  | chain {ts : List Token} {c : Chain} : IsChain ts .always c → IsQuery ts c
  | trailing {ts : List Token} {c : Chain} (link : Link) :
    IsChain ts .always c → IsQuery (ts ++ [.link link]) c

/-- `Derives cs c` says that the text `cs` is a query with the clauses `c`, up to offsets. -/
def Derives (cs : List Char) (c : Chain) : Prop := ∃ ts, Lexes cs ts ∧ IsQuery ts c

end DevConsole.Grammar
