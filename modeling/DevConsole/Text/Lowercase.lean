import DevConsole.Text.LetterCase

/-!
Texts in small letters. Two capitals are not replaced by a single letter of their own: the dotted
capital I becomes an i and a combining dot, and the capital sigma becomes the final small sigma at
the end of a word and the other one elsewhere.
-/

namespace DevConsole.Text

/-- The small letter of a capital, and any other character itself. -/
def smallLetter (c : Char) : Char :=
  match capitalRuns.find? (·.covers c.toNat) with
  | some run => Char.ofNat (c.toNat + run.shift).toNat
  | none => c

/-- Whether the first character that is not passed over has case. -/
def meetsCased (cs : List Char) : Bool :=
  match cs.dropWhile fun c => inRanges caseIgnorableRanges c.toNat with
  | [] => false
  | c :: _ => inRanges casedRanges c.toNat

/-- The characters that replace `c`, between the characters `before`, last first, and `after`. -/
def smallLetters (before : List Char) (c : Char) (after : List Char) : List Char :=
  if c == 'Σ' then [if meetsCased before && !meetsCased after then 'ς' else 'σ']
  else if c == 'İ' then ['i', '\u0307']
  else [smallLetter c]

/-- The characters after `before`, last first, in small letters. -/
def lowercaseAfter (before : List Char) : List Char → List Char
  | [] => []
  | c :: after => smallLetters before c after ++ lowercaseAfter (c :: before) after

def lowercase (text : String) : String := String.ofList (lowercaseAfter [] text.toList)

/-- Whether `part` stands somewhere in a list of characters. -/
def hasInfix (part : List Char) : List Char → Bool
  | [] => part.isEmpty
  | c :: cs => part.isPrefixOf (c :: cs) || hasInfix part cs

/-- Whether `part` occurs in `text`, in whatever letter case. -/
def occursIn (part text : String) : Bool :=
  hasInfix (lowercase part).toList (lowercase text).toList

end DevConsole.Text
