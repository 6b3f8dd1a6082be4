import DevConsole.Config.Gap

/-!
Quoted pieces of a configuration file: texts, with escapes or raw, strings of bytes, and single
characters and bytes in apostrophes.
-/

namespace DevConsole.ConfigReader

/-! ### Escapes -/

def hexValue? (c : Char) : Option Nat :=
  let n := c.toNat
  if c.isDigit then some (n - 48)
  else if 97 ≤ n && n ≤ 102 then some (n - 87)
  else if 65 ≤ n && n ≤ 70 then some (n - 55)
  else none

inductive Escaped
  /-- A byte, which from 128 on is only a part of a character. -/
  | byte (n : UInt8)
  /-- A character by its code. -/
  | character (c : Char)

def Escaped.bytes : Escaped → ByteArray
  | byte n => ByteArray.empty.push n
  | character c => (String.singleton c).toUTF8

/-- The byte that `c` stands for behind a backslash, alone. -/
def escaped? : Char → Option UInt8
  | '\'' => some 39
  | '"' => some 34
  | '\\' => some 92
  | 'n' => some 10
  | 'r' => some 13
  | 't' => some 9
  | '0' => some 0
  | _ => none

/-- The character whose code stands in braces, at most six hexadecimal digits; `digits` of them,
of this value, have been read. -/
def readCode (digits value : Nat) : List Char → Option (Char × List Char)
  | [] => none
  | c :: cs =>
    if c == '\x7d' then
      if digits = 0 ∨ ¬ value.isValidChar then none else some (Char.ofNat value, cs)
    else match hexValue? c with
      | some n => if digits < 6 then readCode (digits + 1) (16 * value + n) cs else none
      | none => none

/-- What an escape stands for, behind its backslash. -/
def readEscape : List Char → Option (Escaped × List Char)
  | 'x' :: high :: low :: cs =>
    match hexValue? high, hexValue? low with
    | some h, some l => some (.byte (16 * h + l).toUInt8, cs)
    | _, _ => none
  | 'u' :: '\x7b' :: cs => (readCode 0 0 cs).map fun (c, rest) => (.character c, rest)
  | c :: cs => (escaped? c).map fun n => (.byte n, cs)
  | [] => none

theorem length_le_of_readCode {digits value : Nat} {cs : List Char} {c : Char} {rest : List Char}
    (h : readCode digits value cs = some (c, rest)) : rest.length ≤ cs.length := by
  fun_induction readCode digits value cs <;> grind

theorem length_lt_of_readEscape {cs : List Char} {e : Escaped} {rest : List Char}
    (h : readEscape cs = some (e, rest)) : rest.length < cs.length := by
  unfold readEscape at h
  split at h
  · split at h <;> grind
  · obtain ⟨⟨d, tail⟩, hd, he⟩ := Option.map_eq_some_iff.1 h
    have := length_le_of_readCode hd
    grind
  · obtain ⟨n, _, he⟩ := Option.map_eq_some_iff.1 h
    grind
  · exact absurd h (by simp)

/-! ### Texts -/

/-- The bytes of a quoted text behind those of `bytes`, up to its closing quote. -/
def readQuoted (bytes : ByteArray) : List Char → Option (ByteArray × List Char)
  | [] => none
  | '"' :: cs => some (bytes, cs)
  | '\\' :: cs =>
    match h : readEscape cs with
    | some (e, rest) =>
      have := length_lt_of_readEscape h
      readQuoted (bytes ++ e.bytes) rest
    | none => none
  | c :: cs => readQuoted (bytes ++ (String.singleton c).toUTF8) cs
termination_by cs => cs.length

/-- The characters up to a quote with so many number signs behind it, after those of `text`, last
first. -/
def readRaw (signs : Nat) (text : List Char) : List Char → Option (String × List Char)
  | [] => none
  | c :: cs =>
    if c == '"' && (List.replicate signs '#').isPrefixOf cs then
      some (String.ofList text.reverse, cs.drop signs)
    else readRaw signs (c :: text) cs

/-- A raw text, which begins with number signs and a quote and ends the other way round. -/
def readSigns (cs : List Char) : Option (String × List Char) := do
  let signs := (cs.takeWhile (· == '#')).length
  readRaw signs [] (← expect '"' (cs.drop signs))

/-- A text in quotes, which may be raw. -/
def readText : List Char → Option (String × List Char)
  | '"' :: cs => do
    let (bytes, cs) ← readQuoted .empty cs
    return (← String.fromUTF8? bytes, cs)
  | 'r' :: cs => readSigns cs
  | _ => none

/-! ### Bytes and characters -/

def skipBytes : List Char → Option (List Char)
  | 'b' :: '"' :: cs => (readQuoted .empty cs).map (·.2)
  | 'b' :: 'r' :: cs => (readSigns cs).map (·.2)
  | _ => none

/-- What follows a byte in apostrophes: one of the first 128 characters, or an escape other than a
code. -/
def skipByte : List Char → Option (List Char)
  | 'b' :: '\'' :: '\\' :: cs =>
    match readEscape cs with
    | some (.byte _, rest) => expect '\'' rest
    | _ => none
  | 'b' :: '\'' :: c :: cs => if c.toNat < 0x80 then expect '\'' cs else none
  | _ => none

/-- What follows a character in apostrophes: any one, or an escape that makes up a character. -/
def skipCharacter : List Char → Option (List Char)
  | '\'' :: '\\' :: cs =>
    match readEscape cs with
    | some (.byte n, rest) => if n < 0x80 then expect '\'' rest else none
    | some (.character _, rest) => expect '\'' rest
    | none => none
  | '\'' :: _ :: cs => expect '\'' cs
  | _ => none

end DevConsole.ConfigReader
