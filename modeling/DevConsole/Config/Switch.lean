import DevConsole.Config.Word
import DevConsole.Config.Gap

/-!
Switches of a configuration file: lines in front of the record that turn on variants of the
notation. Of these variants only one matters to configurations, that by which the record must have
its name.
-/

namespace DevConsole.ConfigReader

inductive Switch
  | explicitNames
  /-- A variant that changes nothing about configurations. -/
  | other
  deriving DecidableEq, Repr

def Switch.ofName? (name : String) : Option Switch :=
  if name == "explicit_struct_names" then some .explicitNames
  else if ["implicit_some", "unwrap_newtypes", "unwrap_variant_newtypes"].contains name then
    some .other
  else none

/-- What follows characters that stand one behind the other, with blanks behind each. -/
def expectSpaced : List Char → List Char → Option (List Char)
  | [], cs => some cs
  | d :: ds, cs => do expectSpaced ds (← skip (← expect d cs))

def expectText : List Char → List Char → Option (List Char)
  | [], cs => some cs
  | d :: ds, cs => do expectText ds (← expect d cs)

/-- The switches with one more. -/
def readSwitch (on : List Switch) (cs : List Char) : Option (List Switch × List Char) := do
  let (name, cs) ← readName cs
  return ((← Switch.ofName? name) :: on, cs)

/-- The switches of a line, of which there must be one, behind those of `on`. -/
def readSwitchLine (on : List Switch) (cs : List Char) : Option (List Switch × List Char) := do
  let cs ← expectText "enable".toList (← expectSpaced ['#', '!', '['] cs)
  let cs ← expectSpaced ['('] (← skip cs)
  let (line, cs) ← readGroup readSwitch ')' [] cs
  let cs ← expectSpaced [']'] (← skip cs)
  if line.isEmpty then none else return (line ++ on, cs)

/-- The switches of all lines, behind those of `on`. -/
def readSwitches : Nat → List Switch → List Char → Option (List Switch × List Char)
  | fuel + 1, on, '#' :: cs => do
    let (on, cs) ← readSwitchLine on ('#' :: cs)
    readSwitches fuel on cs
  | _, on, cs => some (on, cs)

end DevConsole.ConfigReader
