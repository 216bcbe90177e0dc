import MathSpeech.Evaluator
import MathSpeech.Text.Quoted

/-!
# Evaluator/Listed — nodes that list their own answers

A **listed node** says by itself which constraints hold of it and which queries lead away from it.
It serves to try out rules without trees: the only expression that leads to the node itself is
`self::` with its tag.
-/

namespace MathSpeech

/-- **A node that lists its answers.** -/
structure ListedNode where
  /-- Where the node is; two nodes at different addresses are never one. -/
  address : List Nat
  tag : Option Text
  /-- The constraints that hold. -/
  facts : List Text := []
  /-- The queries that lead to another node. -/
  others : List Text := []
  /-- The form of a node without a tag. -/
  form : Text
  /-- Whether this is the other node that some queries lead to. -/
  isOther : Bool := false
deriving DecidableEq, Repr

namespace ListedNode

/-- The form of a node that is given none. -/
def defaultForm (tag : Option Text) : Text :=
  "FakeNode(" ++ (tag.map Text.quoted).getD "None" ++ ")"

/-- The expression that leads to the node itself. -/
def selfQuery (n : ListedNode) : Text := "self::" ++ n.tag.getD "None"

/-- The node that a query leads to. -/
def query (n : ListedNode) (expression : Text) : Option ListedNode :=
  if expression ∈ n.others then some { n with isOther := true }
  else if expression = n.selfQuery then some n
  else none

/-- The part of a tag after its last closing brace. -/
def localTag (tag : Text) : Text := ((Text.parts '\x7d' tag).getLast?).getD []

/-- The label of a node. -/
def label (n : ListedNode) : Text :=
  match n.tag with
  | some tag => localTag tag
  | none => abbreviated n.form

/-- **The evaluator of listed nodes.** -/
def evaluator : Evaluator Id ListedNode where
  query node e := node.bind fun n => n.query e
  holds node e := node.any fun n => e ∈ n.facts
  label := label

/-- **The evaluator of trees, asked about listed nodes**, which are in no tree: no query selects
anything, and no constraint holds. -/
def outsider : Evaluator Id ListedNode where
  query _ _ := none
  holds _ _ := false
  label := label

end ListedNode

end MathSpeech
