/-!
Answers of operations. An operation answers a new state or is refused, and what is refused leaves
the state at hand. Main statement: what holds of the state at hand and of each new one that may be
answered holds of the state after the operation.
-/

namespace DevConsole

variable {σ ε α : Type} {s : σ} {new : α → σ} {answer : Except ε α}

/-- The state after an operation on `s` that has answered, where `new` is the state that a value
stands for; and whether it was refused. -/
def takeOrKeep (s : σ) (new : α → σ) : Except ε α → σ × Except ε Unit
  | .ok x => (new x, .ok ())
  | .error e => (s, .error e)

theorem takeOrKeep_holds {P : σ → Prop} (hs : P s) (hnew : ∀ x, answer = .ok x → P (new x)) :
    P (takeOrKeep s new answer).1 := by
  cases answer with
  | error e => exact hs
  | ok x => exact hnew x rfl

theorem takeOrKeep_of_error {e : ε} (h : (takeOrKeep s new answer).2 = .error e) :
    (takeOrKeep s new answer).1 = s := by
  cases answer with
  | error e' => rfl
  | ok x => cases h

end DevConsole
