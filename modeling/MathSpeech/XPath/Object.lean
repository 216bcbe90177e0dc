import MathSpeech.XPath.Axis
import MathSpeech.XPath.Expression
import MathSpeech.XPath.Number

/-!
# XPath/Object — the values of expressions

An expression has a node set, a truth value, a number or a text as its value.  Each of them converts
to the others, except that nothing becomes a node set.

* `Object.compare` — comparisons, where a node set stands for any of its nodes.
-/

namespace MathSpeech.XPath

/-- **The value of an expression.** -/
inductive Object
  | nodes (ns : List Node)
  | boolean (b : Bool)
  | number (x : Float)
  | text (t : Text)

namespace Object

/-! ## Conversions -/

/-- The node set, if the value is one. -/
def nodes? : Object → Option (List Node)
  | .nodes ns => some ns
  | _ => none

/-- **The text of a value**: a node set has the text of its first node. -/
def toText : Object → Text
  | .nodes [] => []
  | .nodes (n :: _) => n.text
  | .boolean b => if b then "true" else "false"
  | .number x => Number.toText x
  | .text t => t

/-- **The number of a value.** -/
def toNumber : Object → Float
  | .nodes ns => Number.ofText (nodes ns).toText
  | .boolean b => if b then 1 else 0
  | .number x => x
  | .text t => Number.ofText t

/-- **The truth of a value**: what is empty, zero or not a number is false. -/
def toBoolean : Object → Bool
  | .nodes ns => !ns.isEmpty
  | .boolean b => b
  | .number x => x != 0 && !x.isNaN
  | .text t => !t.isEmpty

/-! ## Comparisons -/

/-- A comparison by size. -/
def inOrder : Comparison → Float → Float → Bool
  | .equal, x, y => x == y
  | .unequal, x, y => x != y
  | .less, x, y => x < y
  | .lessOrEqual, x, y => x ≤ y
  | .greater, x, y => y < x
  | .greaterOrEqual, x, y => y ≤ x

/-- A comparison that only tells equal from unequal. -/
def sameOrNot {α : Type} [DecidableEq α] (c : Comparison) (a b : α) : Bool :=
  if c = .unequal then a != b else a == b

/-- Equality and inequality, as against a comparison by size. -/
def isEquality (c : Comparison) : Bool := c = .equal || c = .unequal

/-- **A comparison of two values without nodes.**  If equality is asked for, a truth value makes the
other side one too, and else a number does; two texts are compared as they are.  Sizes are always
those of numbers. -/
def compareSingle (c : Comparison) (a b : Object) : Bool :=
  if isEquality c then
    match a, b with
    | .boolean p, q | q, .boolean p => sameOrNot c p q.toBoolean
    | .text s, .text t => sameOrNot c s t
    | a, b => inOrder c a.toNumber b.toNumber
  else inOrder c a.toNumber b.toNumber

/-- The texts of nodes as values. -/
def singles (ns : List Node) : List Object := ns.map fun n => .text n.text

/-- **A comparison.**  A node set compares if any of its nodes does, each by its text; only against
a truth value the set itself is true or false. -/
def compare (c : Comparison) : Object → Object → Bool
  | .nodes ns, .boolean b => compareSingle c (.boolean !ns.isEmpty) (.boolean b)
  | .boolean b, .nodes ns => compareSingle c (.boolean b) (.boolean !ns.isEmpty)
  | .nodes ns, .nodes ms => (singles ns).any fun a => (singles ms).any fun b => compareSingle c a b
  | .nodes ns, b => (singles ns).any fun a => compareSingle c a b
  | a, .nodes ms => (singles ms).any fun b => compareSingle c a b
  | a, b => compareSingle c a b

/-! ## Arithmetic -/

/-- An arithmetic operation. -/
def calculate : Operation → Float → Float → Float
  | .plus, x, y => x + y
  | .minus, x, y => x - y
  | .times, x, y => x * y
  | .divide, x, y => x / y
  | .remainder, x, y => Number.remainder x y

end Object

end MathSpeech.XPath
