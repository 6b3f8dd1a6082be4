import DevConsole.NameMap
import DevConsole.Query.Scanner

/-!
A cache of parsed queries. It holds a bounded number of sources with their queries, and is emptied
when one more would not fit. A source with a fault is not kept.
-/

namespace DevConsole

/-- Sources with their queries. -/
structure QueryCache where
  /-- The greatest number of sources held; zero turns the cache off. -/
  capacity : Nat := 256
  queries : NameMap Query := .empty

namespace QueryCache

/-- The cache with one more source, after it has been emptied if it was full. -/
def add (cache : QueryCache) (source : String) (q : Query) : QueryCache :=
  if cache.capacity = 0 then cache
  else
    let kept := if cache.queries.size ≥ cache.capacity then .empty else cache.queries
    { cache with queries := kept.insert source q }

/-- The query of a source, which is read only if it is not held, and the cache after that. -/
def get (cache : QueryCache) (source : String) : Except SyntaxError Query × QueryCache :=
  match cache.queries.find? source with
  | some q => (.ok q, cache)
  | none =>
    match parse source with
    | .ok q => (.ok q, cache.add source q)
    | .error e => (.error e, cache)

def clear (cache : QueryCache) : QueryCache := { cache with queries := .empty }

end QueryCache

end DevConsole
