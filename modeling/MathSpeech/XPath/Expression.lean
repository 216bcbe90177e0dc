import MathSpeech.XPath.Axis

/-!
# XPath/Expression — the expressions of XPath

A location path is a chain of **steps**, each of which leads from the nodes of the path so far along
an axis to the nodes that pass a test and some predicates.  The other expressions combine values.
-/

namespace MathSpeech.XPath

/-- **A test** that the nodes on an axis have to pass.  A prefix stands for a namespace. -/
inductive Test
  | name (space : Option Text) (label : Text)
  | any (space : Option Text)
  | node
  | text
  | comment
  | instruction (target : Option Text)
deriving DecidableEq, Repr

/-- The comparisons. -/
inductive Comparison
  | equal
  | unequal
  | less
  | lessOrEqual
  | greater
  | greaterOrEqual
deriving DecidableEq, Repr

/-- The arithmetic operations. -/
inductive Operation
  | plus
  | minus
  | times
  | divide
  | remainder
deriving DecidableEq, Repr

/-- **An expression.** -/
inductive Expr
  | number (x : Float)
  | literal (t : Text)
  | variable (space : Option Text) (label : Text)
  /-- The node that the expression is seen from. -/
  | here
  /-- The document. -/
  | root
  /-- A step from the nodes of `start`. -/
  | step (start : Expr) (axis : Axis) (test : Test) (predicates : List Expr)
  /-- An expression in parentheses. -/
  | group (e : Expr)
  /-- Those nodes of `base` of which a predicate holds. -/
  | filter (base predicate : Expr)
  | union (a b : Expr)
  | or (a b : Expr)
  | and (a b : Expr)
  | compare (c : Comparison) (a b : Expr)
  | arithmetic (o : Operation) (a b : Expr)
  /-- A number, with the other sign if `minus`. -/
  | signed (minus : Bool) (e : Expr)
  | call (space : Option Text) (label : Text) (arguments : List Expr)
deriving Inhabited

/-- The step to a node and to all nodes below it, which a double slash stands for. -/
def Expr.andBelow (start : Expr) : Expr := .step start .descendantOrSelf .node []

end MathSpeech.XPath
