import DevConsole.Config.Snapshot
import DevConsole.Text.Quoted

/-!
The text of a configuration file: one field for each map, one line for each entry.
-/

namespace DevConsole

/-- A map as it is written behind the name of its field. -/
def mapText (m : NameMap String) : String :=
  if m.isEmpty then "\x7b\x7d"
  else
    let line (e : String × String) :=
      "        " ++ Text.quoted e.1 ++ ": " ++ Text.quoted e.2 ++ ",\n"
    "\x7b\n" ++ String.join (m.entries.map line) ++ "    \x7d"

def Snapshot.text (c : Snapshot) : String :=
  "(\n    convars: " ++ mapText c.values ++ ",\n    aliases: " ++ mapText c.aliases ++
    ",\n    binds: " ++ mapText c.binds ++ ",\n)"

end DevConsole
