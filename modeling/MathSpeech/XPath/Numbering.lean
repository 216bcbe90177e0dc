import MathSpeech.XPath.Document

/-!
# XPath/Numbering — nodes by the numbers of their ancestors

Elements, comments and instructions are **numbered** among their siblings, from zero and without the
texts between them.  The numbers on the way from a document to such a node name the node.

* `Content.addressOf?` — the address that numbers lead to;
* `Content.numbersOf` — the numbers on the way of an address.
-/

namespace MathSpeech.XPath

/-- A text has no number. -/
def Tree.isNumbered : Tree → Bool
  | .text _ => false
  | _ => true

/-- The indices of the numbered children of a content. -/
def Content.numbered (c : Content) : List Nat :=
  (c.children.zipIdx.filter fun (t, _) => t.isNumbered).map Prod.snd

/-- **The address that numbers lead to**, if there are such nodes. -/
def Content.addressOf? (c : Content) : List Nat → Option Address
  | [] => some []
  | n :: rest => do
    let i ← c.numbered[n]?
    let next ← c.follow? (.child i)
    return .child i :: (← next.addressOf? rest)

/-- **The numbers on the way of an address**, up to the first step that has none. -/
def Content.numbersOf (c : Content) : Address → List Nat
  | .child i :: rest =>
    (c.numbered.takeWhile (· < i)).length ::
      (match c.follow? (.child i) with
        | some next => next.numbersOf rest
        | none => [])
  | _ => []

end MathSpeech.XPath
