import DevConsole.Command.Call
import DevConsole.Command.Error
import DevConsole.Query.Basic

/-!
Programs of handlers. While it runs, a handler may look at what it works on and change it, and it
may have the console run queries, whose outcome decides what it does next. A program is the tree of
all these dealings; `γ` is what the handler works on.
-/

namespace DevConsole

/-- What a handler does. -/
inductive Program (γ : Type)
  | stop (e : Ending)
  | get (k : γ → Program γ)
  | put (w : γ) (k : Program γ)
  /-- Runs a query and learns whether it passed. Errors of a `contained` one are reported at once
  and do not abort the query that the handler itself belongs to. -/
  | execute (contained : Bool) (source : String) (k : Bool → Program γ)
  | parse (source : String) (k : Except SyntaxError Query → Program γ)
  | evaluate (q : Query) (k : Except QueryError Bool → Program γ)

namespace Program

variable {γ : Type}

/-- Changes what the handler works on, and stops. -/
def act (f : γ → γ × Ending) : Program γ :=
  get fun w =>
    let r := f w
    put r.1 (stop r.2)

end Program

/-- How the handlers of the host run. -/
structure Host (κ γ : Type) where
  run : κ → Call → Program γ

end DevConsole
