import MathSpeech.Text

/-!
# Rule/Precondition — when a rule applies

A **precondition** holds of a node if its query selects that node itself and every constraint holds.
The more constraints it has, the more specific it is.
-/

namespace MathSpeech.Rule

/-- **A precondition**: a query and constraints. -/
structure Precondition where
  query : Text
  constraints : List Text := []
deriving DecidableEq, Repr

namespace Precondition

/-- The number of constraints. -/
def specificity (p : Precondition) : Nat := p.constraints.length

/-- The written form: the query, and the constraints in brackets if there are any. -/
def print (p : Precondition) : Text :=
  if p.constraints.isEmpty then p.query
  else p.query ++ " [" ++ Text.joined ", " p.constraints ++ "]"

end Precondition

end MathSpeech.Rule
