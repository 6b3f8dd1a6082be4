import DevConsole.NameMap

/-!
Key bindings, from keys to queries and back. Keys are the same in capital and small ASCII letters
and are kept in small ones.
-/

namespace DevConsole

/-- Bindings of keys to queries. -/
structure Binds where
  byKey : NameMap String := .empty
  /-- The keys of each query. -/
  byQuery : NameMap (NameMap Unit) := .empty

namespace Binds

/-- The key as it is kept. -/
def keyName (key : String) : String := String.ofList (key.toList.map Char.toLower)

def queryFor? (bs : Binds) (key : String) : Option String := bs.byKey.find? (keyName key)

/-- The keys that are bound to exactly this query, in order. -/
def keysFor (bs : Binds) (query : String) : List String :=
  ((bs.byQuery.find? query).getD .empty).names

/-- The query that a key was bound to, and the bindings without it. -/
def unbind (bs : Binds) (key : String) : Option String × Binds :=
  let key := keyName key
  match bs.byKey.find? key with
  | none => (none, bs)
  | some query =>
    let keys := ((bs.byQuery.find? query).getD .empty).erase key
    (some query,
      { byKey := bs.byKey.erase key
        byQuery := if keys.isEmpty then bs.byQuery.erase query else bs.byQuery.insert query keys })

/-- The query that a key was bound to, and the bindings with another query for it. -/
def bind (bs : Binds) (key query : String) : Option String × Binds :=
  let (former, bs) := bs.unbind key
  let key := keyName key
  let keys := ((bs.byQuery.find? query).getD .empty).insert key ()
  (former, { byKey := bs.byKey.insert key query, byQuery := bs.byQuery.insert query keys })

end Binds

end DevConsole
