import MathSpeech.OrderedMap
import MathSpeech.XPath.Document

/-!
# XPath/Markup — documents from elements that name their namespaces only

The **markup** of a document says for each element the namespace it is in, and leaves the prefixes
open.  The document of a markup declares what is needed: the namespace of the outermost element is
the default one, and every other namespace gets a numbered prefix at the first element that has it
and no declaration in scope.

* `Markup.document` — the document of a markup.
-/

namespace MathSpeech.XPath

/-- **A markup**: an element with its namespace, empty for none, or what stands between elements.
Its attributes are in no namespace. -/
inductive Markup
  | element (space label : Text) (attributes : List (Text × Text)) (children : List Markup)
  | text (t : Text)
  | comment (t : Text)
  | instruction (target data : Text)

/-- **The prefix of a namespace** and what is in scope with it, where `inside` is in scope already
and `made` prefixes were made before; also how many are made then. -/
def declare (space : Text) (inside : List (Text × Text)) (made : Nat) :
    Text × List (Text × Text) × Nat :=
  if space.isEmpty then ([], inside, made)
  else match inside.find? fun (_, known) => known = space with
    | some (start, _) => (start, inside, made)
    | none =>
      let start := "ns".toList ++ Text.ofNat made
      (start, inside ++ [(start, space)], made + 1)

mutual

/-- **The tree of a markup** inside namespaces by prefix, and how many prefixes are made then. -/
def Markup.tree (inside : List (Text × Text)) (made : Nat) : Markup → Tree × Nat
  | .element space label attributes children =>
    let (start, inside, made) := declare space inside made
    let shown := if start.isEmpty then label else start ++ ':' :: label
    let (trees, made) := markupTrees inside made children
    let named := (OrderedMap.ofList attributes).entries.map fun (a, value) => (Name.plain a, value)
    (.element ⟨space, label, shown⟩ inside named trees, made)
  | .text t => (.text t, made)
  | .comment t => (.comment t, made)
  | .instruction target data => (.instruction target data, made)

/-- The trees of markups; an empty text is none. -/
def markupTrees (inside : List (Text × Text)) (made : Nat) : List Markup → List Tree × Nat
  | [] => ([], made)
  | .text [] :: rest => markupTrees inside made rest
  | m :: rest =>
    let (t, made) := m.tree inside made
    let (ts, made) := markupTrees inside made rest
    (t :: ts, made)

end

/-- What is in scope for the outermost node: the prefix of XML, and the default namespace. -/
def Markup.outermost : Markup → List (Text × Text)
  | .element space _ _ _ =>
    if space.isEmpty then [("xml".toList, xmlSpace)] else [("xml".toList, xmlSpace), ([], space)]
  | _ => []

/-- **The document of a markup.** -/
def Markup.document (m : Markup) : Document := ⟨[(m.tree m.outermost 0).1]⟩

end MathSpeech.XPath
