import MathSpeech.XPath.Document

/-!
# XPath/Axis — the ways through a document

An **axis** leads from a node to a list of nodes, the nearest first: upward and backward axes run
against the order of the document.  Node sets are lists in the order of the document without
repetition; `NodeSet.union` keeps that form.
-/

namespace MathSpeech.XPath

/-- **The axes.** -/
inductive Axis
  | self
  | child
  | descendant
  | descendantOrSelf
  | parent
  | ancestor
  | ancestorOrSelf
  | followingSibling
  | precedingSibling
  | following
  | preceding
  | attribute
  | binding
deriving DecidableEq, Repr

/-- The axis of a name. -/
def Axis.ofName? (name : Text) : Option Axis :=
  (([("self", .self), ("child", .child), ("descendant", .descendant),
    ("descendant-or-self", .descendantOrSelf), ("parent", .parent), ("ancestor", .ancestor),
    ("ancestor-or-self", .ancestorOrSelf), ("following-sibling", .followingSibling),
    ("preceding-sibling", .precedingSibling), ("following", .following),
    ("preceding", .preceding), ("attribute", .attribute), ("namespace", .binding)] :
    List (String × Axis)).find? fun (n, _) => n.toList = name).map Prod.snd

/-! ## Down -/

mutual

/-- A tree at an address and all below it, in order. -/
def treeNodes (address : Address) : Tree → List Node
  | .element name bindings attributes children =>
    ⟨address, .tree (.element name bindings attributes children)⟩ :: forestNodes address 0 children
  | .text t => [⟨address, .tree (.text t)⟩]
  | .comment t => [⟨address, .tree (.comment t)⟩]
  | .instruction target data => [⟨address, .tree (.instruction target data)⟩]

/-- Trees that are children from number `index` on, and all below them, in order. -/
def forestNodes (address : Address) (index : Nat) : List Tree → List Node
  | [] => []
  | t :: rest =>
    treeNodes (address ++ [.child index]) t ++ forestNodes address (index + 1) rest

end

namespace Node

/-- The children. -/
def children (n : Node) : List Node :=
  n.content.children.mapIdx fun i t => ⟨n.address ++ [.child i], .tree t⟩

/-- The attributes. -/
def attributes (n : Node) : List Node :=
  n.content.attributes.mapIdx fun i (name, value) =>
    ⟨n.address ++ [.attribute i], .attribute name value⟩

/-- The namespaces in scope. -/
def bindings (n : Node) : List Node :=
  n.content.bindings.mapIdx fun i (label, space) =>
    ⟨n.address ++ [.binding i], .binding label space⟩

/-- All nodes below, in order. -/
def descendants (n : Node) : List Node := forestNodes n.address 0 n.content.children

/-- The node and all nodes below it. -/
def descendantsOrSelf (n : Node) : List Node := n :: n.descendants

end Node

/-! ## Up and beside -/

namespace Document

/-- The node above; only the document has none. -/
def parent? (d : Document) (n : Node) : Option Node :=
  if n.address.isEmpty then none else d.nodeAt? n.address.dropLast

/-- The nodes above an address of some length, the nearest first. -/
def above (d : Document) (a : Address) : Nat → List Node
  | 0 => []
  | k + 1 => (d.nodeAt? (a.take k)).toList ++ above d a k

/-- The ancestors, the nearest first. -/
def ancestors (d : Document) (n : Node) : List Node := d.above n.address n.address.length

/-- The siblings before and after a child, both in the order of the document. -/
def siblings (d : Document) (n : Node) : List Node × List Node :=
  match n.address.getLast? with
  | some (.child i) =>
    let all := (d.parent? n).elim [] Node.children
    (all.take i, all.drop (i + 1))
  | _ => ([], [])

/-- The node itself, or the owner of an attribute or namespace. -/
def owner (d : Document) (n : Node) : Node :=
  match n.content with
  | .attribute .. | .binding .. => (d.parent? n).getD n
  | _ => n

/-- All nodes that come after a node and are not below it. -/
def following (d : Document) (n : Node) : List Node :=
  let n := d.owner n
  (n :: d.ancestors n).flatMap fun a => (d.siblings a).2.flatMap Node.descendantsOrSelf

/-- All nodes that come before a node and are not above it, the nearest first. -/
def preceding (d : Document) (n : Node) : List Node :=
  let n := d.owner n
  (n :: d.ancestors n).flatMap fun a =>
    (d.siblings a).1.reverse.flatMap fun s => s.descendantsOrSelf.reverse

/-- **The nodes on an axis**, the nearest first. -/
def onAxis (d : Document) (n : Node) : Axis → List Node
  | .self => [n]
  | .child => n.children
  | .descendant => n.descendants
  | .descendantOrSelf => n.descendantsOrSelf
  | .parent => (d.parent? n).toList
  | .ancestor => d.ancestors n
  | .ancestorOrSelf => n :: d.ancestors n
  | .followingSibling => (d.siblings n).2
  | .precedingSibling => (d.siblings n).1.reverse
  | .following => d.following n
  | .preceding => d.preceding n
  | .attribute => n.attributes
  | .binding => n.bindings

end Document

/-! ## Node sets -/

namespace NodeSet

/-- Puts a node into its place, unless it is there already. -/
def insert (n : Node) : List Node → List Node
  | [] => [n]
  | m :: rest =>
    if n.address = m.address then m :: rest
    else if n.address.precedes m.address then n :: m :: rest
    else m :: insert n rest

/-- **The union** of nodes in any order with a node set. -/
def union (ns : List Node) (set : List Node) : List Node := ns.foldr insert set

end NodeSet

end MathSpeech.XPath
