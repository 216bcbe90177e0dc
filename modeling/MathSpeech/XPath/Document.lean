import MathSpeech.Text

/-!
# XPath/Document — trees, and the nodes in them

A **document** is a list of trees, one of them its element.  A **node** of a document is a content
together with an address: the steps that lead to it from the document itself.  Since a node carries
its content, everything below it is found without the document; only what lies above or beside it
is looked up by address.

* `Address.precedes` — the order of the nodes in the document;
* `Document.nodeAt?` — the node at an address;
* `Node.text` — the text that a node stands for.
-/

namespace MathSpeech.XPath

/-- **The name of an element or attribute**: its namespace, empty for none, its local name, and the
form with the prefix that the document gives it. -/
structure Name where
  space : Text
  label : Text
  shown : Text
deriving DecidableEq, Repr

/-- A name in no namespace. -/
def Name.plain (label : Text) : Name := ⟨[], label, label⟩

instance : Coe Text Name := ⟨Name.plain⟩

/-- **A tree.**  The namespaces of an element are those in scope, by prefix; a text is never
empty, and no two texts are neighbours. -/
inductive Tree
  | element (name : Name) (bindings : List (Text × Text)) (attributes : List (Name × Text))
      (children : List Tree)
  | text (t : Text)
  | comment (t : Text)
  | instruction (target data : Text)

/-- The namespace of the prefix that every environment knows. -/
def xmlSpace : Text := "http://www.w3.org/XML/1998/namespace"

/-- **A document.** -/
structure Document where
  children : List Tree

/-! ## Addresses -/

/-- **A step down**: to a namespace or attribute of an element, or to a child. -/
inductive Step
  | binding (index : Nat)
  | attribute (index : Nat)
  | child (index : Nat)
deriving DecidableEq, Repr

/-- **An address**: the steps from the document down to a node. -/
abbrev Address := List Step

/-- Namespaces come before attributes, and attributes before children. -/
def Step.precedes : Step → Step → Bool
  | .binding i, .binding j => i < j
  | .binding _, _ => true
  | .attribute _, .binding _ => false
  | .attribute i, .attribute j => i < j
  | .attribute _, .child _ => true
  | .child i, .child j => i < j
  | .child _, _ => false

/-- **Document order**: a node comes before all below it, and all below it before its next
sibling. -/
def Address.precedes : Address → Address → Bool
  | _, [] => false
  | [], _ :: _ => true
  | s :: a, t :: b => if s = t then Address.precedes a b else s.precedes t

/-! ## Nodes -/

/-- **What a node is.** -/
inductive Content
  | document (children : List Tree)
  | tree (t : Tree)
  | attribute (name : Name) (value : Text)
  | binding (label space : Text)

/-- **A node**: where it is and what it is. -/
structure Node where
  address : Address
  content : Content

/-- The trees below a content. -/
def Content.children : Content → List Tree
  | .document children => children
  | .tree (.element _ _ _ children) => children
  | _ => []

/-- The attributes of a content. -/
def Content.attributes : Content → List (Name × Text)
  | .tree (.element _ _ attributes _) => attributes
  | _ => []

/-- The namespaces in scope of a content. -/
def Content.bindings : Content → List (Text × Text)
  | .tree (.element _ bindings _ _) => bindings
  | _ => []

/-- The content that a step leads to. -/
def Content.follow? (c : Content) : Step → Option Content
  | .binding i => c.bindings[i]?.map fun (label, space) => .binding label space
  | .attribute i => c.attributes[i]?.map fun (name, value) => .attribute name value
  | .child i => c.children[i]?.map .tree

/-- The content at the end of an address. -/
def Content.followAll? (c : Content) : Address → Option Content
  | [] => some c
  | s :: a => (c.follow? s).bind fun d => d.followAll? a

/-- The document as a node. -/
def Document.node (d : Document) : Node := ⟨[], .document d.children⟩

/-- **The node at an address.** -/
def Document.nodeAt? (d : Document) (a : Address) : Option Node :=
  (d.node.content.followAll? a).map fun c => ⟨a, c⟩

/-! ## The text of a node -/

mutual

/-- The texts inside a tree, one after the other. -/
def Tree.innerText : Tree → Text
  | .element _ _ _ children => forestText children
  | .text t => t
  | .comment _ => []
  | .instruction _ _ => []

/-- The texts inside trees, one after the other. -/
def forestText : List Tree → Text
  | [] => []
  | t :: rest => t.innerText ++ forestText rest

end

/-- **The text that a node stands for**: all texts below a document or element, and the own text of
any other node. -/
def Node.text (n : Node) : Text :=
  match n.content with
  | .document children => forestText children
  | .tree (.comment t) => t
  | .tree (.instruction _ data) => data
  | .tree t => t.innerText
  | .attribute _ value => value
  | .binding _ space => space

/-- The name of a node: an element's, an attribute's, an instruction's target or a prefix. -/
def Node.name? (n : Node) : Option Name :=
  match n.content with
  | .tree (.element name _ _ _) => some name
  | .tree (.instruction target _) => some (.plain target)
  | .attribute name _ => some name
  | .binding label _ => some (.plain label)
  | _ => none

/-- An element. -/
def Node.isElement (n : Node) : Bool :=
  match n.content with
  | .tree (.element ..) => true
  | _ => false

end MathSpeech.XPath
