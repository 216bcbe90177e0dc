import MathSpeech.OrderedMap
import MathSpeech.XPath.Function

/-!
# XPath/Evaluation — the value of an expression

An expression is evaluated in a document, with namespaces under prefixes, and seen from a node.
Variables, unknown prefixes and unknown functions have no value, nor has anything that needs one
of theirs; but what is not evaluated does no harm, such as the predicates of a step that finds
nothing, or the second part of a disjunction whose first part is true.

* `Expr.evaluate` — the value of an expression.
-/

namespace MathSpeech.XPath

/-- **An environment**: the document, and the namespaces of the prefixes. -/
structure Environment where
  document : Document
  spaces : OrderedMap Text Text

/-- The namespace of a prefix. -/
def Environment.space? (env : Environment) (label : Text) : Option Text :=
  if label = "xml".toList then some xmlSpace else env.spaces.get? label

/-! ## Tests -/

/-- The kind of node that an axis is about: attributes, namespaces, or else elements. -/
def Axis.isPrincipal (axis : Axis) (n : Node) : Bool :=
  match axis, n.content with
  | .attribute, .attribute .. => true
  | .binding, .binding .. => true
  | .attribute, _ | .binding, _ => false
  | _, _ => n.isElement

/-- **A name test**: without a prefix it asks for no namespace.  Namespaces are tested by their
prefix alone. -/
def matchesName (axis : Axis) (space : Text) (label : Text) (n : Node) : Bool :=
  axis.isPrincipal n &&
    match n.name? with
    | some name => name.label = label && (axis = .binding || name.space = space)
    | none => false

/-- A test for any name in a namespace. -/
def matchesSpace (axis : Axis) (space : Text) (n : Node) : Bool :=
  axis.isPrincipal n &&
    (axis = .binding || match n.name? with
      | some name => name.space = space && !space.isEmpty
      | none => false)

/-- **A test**, once its prefix is looked up; a prefix that is unknown makes it fail. -/
def Test.resolve? (env : Environment) (axis : Axis) : Test → Option (Node → Bool)
  | .name none label => some (matchesName axis [] label)
  | .name (some p) label => (env.space? p).map fun space => matchesName axis space label
  | .any none => some axis.isPrincipal
  | .any (some p) => (env.space? p).map fun space => matchesSpace axis space
  | .node => some fun _ => true
  | .text => some fun n => match n.content with
    | .tree (.text _) => true
    | _ => false
  | .comment => some fun n => match n.content with
    | .tree (.comment _) => true
    | _ => false
  | .instruction target => some fun n => match n.content with
    | .tree (.instruction t _) => target.all (· = t)
    | _ => false

/-! ## Predicates -/

/-- **The verdict of a predicate**: a number is compared with the position. -/
def holdsAt (index : Nat) : Object → Bool
  | .number x => x == Float.ofNat index
  | a => a.toBoolean

/-- Those of the nodes from number `index` on of which a predicate holds. -/
def keepFrom (predicate : Focus → Option Object) (size index : Nat) :
    List Node → Option (List Node)
  | [] => some []
  | n :: rest => do
    let a ← predicate ⟨n, some (index, size)⟩
    let kept ← keepFrom predicate size (index + 1) rest
    return if holdsAt index a then n :: kept else kept

/-- **Those of some nodes of which a predicate holds**; positions count from one. -/
def keep (predicate : Focus → Option Object) (ns : List Node) : Option (List Node) :=
  keepFrom predicate ns.length 1 ns

/-- What each node leads to, together. -/
def gatherNodes (f : Node → Option (List Node)) : List Node → Option (List Node)
  | [] => some []
  | n :: rest => do
    let found ← f n
    return NodeSet.union found (← gatherNodes f rest)

/-- **A place in a group that needs no node set**: `first` after a group or another filter, `last`
after a group.  A value that is no node set is its own first and last. -/
def Expr.picks (base predicate : Expr) : Bool :=
  match base, predicate with
  | .group _, .number x | .filter _ _, .number x => x == 1
  | .group _, .call none label [] => label = "last".toList
  | _, _ => false

/-! ## Expressions -/

mutual

/-- **The value of an expression**, seen from a node. -/
def Expr.evaluate (env : Environment) : Expr → Focus → Option Object
  | .number x, _ => some (.number x)
  | .literal t, _ => some (.text t)
  | .variable _ _, _ => none
  | .here, focus => some (.nodes [focus.node])
  | .root, _ => some (.nodes [env.document.node])
  | .step start axis test predicates, focus => do
    let ns ← (← start.evaluate env focus).nodes?
    let passes ← test.resolve? env axis
    let found ← gatherNodes
      (fun n => Expr.keepAll env predicates ((env.document.onAxis n axis).filter passes)) ns
    return .nodes found
  | .group e, focus => e.evaluate env focus
  | .filter base predicate, focus => do
    let a ← base.evaluate env focus
    match a with
    | .nodes ns => (keep (predicate.evaluate env) ns).map .nodes
    | a => if base.picks predicate then some a else none
  | .union a b, focus => do
    let ns ← (← a.evaluate env focus).nodes?
    let ms ← (← b.evaluate env focus).nodes?
    return .nodes (NodeSet.union ns ms)
  | .or a b, focus => do
    if (← a.evaluate env focus).toBoolean then return .boolean true
    return .boolean (← b.evaluate env focus).toBoolean
  | .and a b, focus => do
    if !(← a.evaluate env focus).toBoolean then return .boolean false
    return .boolean (← b.evaluate env focus).toBoolean
  | .compare c a b, focus => do
    return .boolean ((← a.evaluate env focus).compare c (← b.evaluate env focus))
  | .arithmetic o a b, focus => do
    return .number (Object.calculate o (← a.evaluate env focus).toNumber
      (← b.evaluate env focus).toNumber)
  | .signed minus e, focus => do
    let x := (← e.evaluate env focus).toNumber
    return .number (if minus then -x else x)
  | .call space label arguments, focus => do
    let as ← Expr.evaluateAll env arguments focus
    match space with
    | some _ => none
    | none => (← Function.ofName? label).apply env.document focus as

/-- The values of several expressions. -/
def Expr.evaluateAll (env : Environment) : List Expr → Focus → Option (List Object)
  | [], _ => some []
  | e :: rest, focus => do return (← e.evaluate env focus) :: (← Expr.evaluateAll env rest focus)

/-- Those of some nodes of which several predicates hold, one after the other. -/
def Expr.keepAll (env : Environment) : List Expr → List Node → Option (List Node)
  | [], ns => some ns
  | p :: rest, ns => do Expr.keepAll env rest (← keep (p.evaluate env) ns)

end

end MathSpeech.XPath
