import DevConsole.Query.Basic
import DevConsole.Query.QueryError

/-!
The values of arguments: their literal parts and the texts of the variables they refer to.
-/

namespace DevConsole

/-- The text of the parts, where `text?` gives the texts of variables. -/
def resolveParts (text? : String → Option String) : List Part → Except ReferenceError String
  | [] => .ok ""
  | .literal text _ :: parts => return text ++ (← resolveParts text? parts)
  | .reference name offset :: parts =>
    match text? name with
    | none => .error ⟨name, offset⟩
    | some text => return text ++ (← resolveParts text? parts)

def Argument.resolve (text? : String → Option String) (a : Argument) :
    Except ReferenceError String :=
  resolveParts text? a.parts

def resolveAll (text? : String → Option String) (args : List Argument) :
    Except ReferenceError (List String) :=
  args.mapM (·.resolve text?)

/-- Whether no argument has a reference, so that their values are always the same. -/
def allConstant (args : List Argument) : Bool := args.all Argument.isConstant

end DevConsole
