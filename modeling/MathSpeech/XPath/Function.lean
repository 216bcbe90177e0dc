import MathSpeech.XPath.Object

/-!
# XPath/Function — the functions of XPath

`Function.apply` gives the value of a call.  A call with the wrong number of arguments, or with
something else where a node set has to be, has no value.
-/

namespace MathSpeech.XPath

/-- **What an expression is seen from**: a node, and inside a predicate its position and the number
of nodes. -/
structure Focus where
  node : Node
  place : Option (Nat × Nat) := none

/-- **The functions.** -/
inductive Function
  | last
  | position
  | count
  | id
  | localName
  | namespaceUri
  | name
  | string
  | concat
  | startsWith
  | contains
  | substringBefore
  | substringAfter
  | substring
  | stringLength
  | normalizeSpace
  | translate
  | boolean
  | not
  | true
  | false
  | lang
  | number
  | sum
  | floor
  | ceiling
  | round
deriving DecidableEq, Repr

namespace Function

/-- The names of the functions. -/
def table : List (String × Function) := [
  ("last", .last), ("position", .position), ("count", .count), ("id", .id),
  ("local-name", .localName), ("namespace-uri", .namespaceUri), ("name", .name),
  ("string", .string), ("concat", .concat), ("starts-with", .startsWith),
  ("contains", .contains), ("substring-before", .substringBefore),
  ("substring-after", .substringAfter), ("substring", .substring),
  ("string-length", .stringLength), ("normalize-space", .normalizeSpace),
  ("translate", .translate), ("boolean", .boolean), ("not", .not), ("true", .true),
  ("false", .false), ("lang", .lang), ("number", .number), ("sum", .sum), ("floor", .floor),
  ("ceiling", .ceiling), ("round", .round)]

/-- The function of a name. -/
def ofName? (name : Text) : Option Function :=
  (table.find? fun (n, _) => n.toList = name).map Prod.snd

/-! ## Texts -/

/-- **The text before and the text after** the first occurrence of `mark`. -/
def around? (mark : Text) : Text → Option (Text × Text)
  | [] => if mark.isEmpty then some ([], []) else none
  | c :: t =>
    if mark.isPrefixOf (c :: t) then some ([], (c :: t).drop mark.length)
    else (around? mark t).map fun (before, after) => (c :: before, after)

/-- Rounds to the nearest whole number, a half up. -/
def nearest (x : Float) : Float := if 0.5 ≤ x - x.floor then x.floor + 1 else x.floor

/-- The largest whole number of thirty-two bits, beyond which no position is counted. -/
def farthest : Nat := 2147483647

/-- The position at which a part begins; what is not a number lies beyond all positions. -/
def firstPosition (start : Float) : Nat :=
  if start < Float.ofNat farthest then
    if 1 ≤ start then (nearest start).toUInt64.toNat else 1
  else farthest

/-- The position before which a part ends. -/
def endPosition (start length : Float) : Nat :=
  let sum := nearest start + nearest length
  if 1 ≤ sum then (if sum < Float.ofNat farthest then sum.toUInt64.toNat else farthest) else 1

/-- **A part of a text**: positions count from one, and those outside the text count too. -/
def part (t : Text) (start : Float) (length : Option Float) : Text :=
  let first := firstPosition start
  let past := (length.map (endPosition start)).getD farthest
  (t.drop (first - 1)).take (past - first)

/-- The words of a text: the parts between blanks. -/
def words (t : Text) : List Text :=
  ((t.map fun c => if Number.isBlank c then ' ' else c).splitOn ' ').filter fun w => !w.isEmpty

/-- A character replaced by the one at its place in `new`, and left out if there is none. -/
def replace (old new : Text) (c : Char) : Option Char :=
  match old.idxOf? c with
  | some i => new[i]?
  | none => some c

/-! ## Nodes -/

/-- A name of the first node, or the empty text. -/
def nameOf (choose : Name → Text) (ns : List Node) : Text :=
  ((ns.head?.bind Node.name?).map choose).getD []

/-- The value of each node as a number, added up. -/
def total (ns : List Node) : Float := ns.foldl (fun x n => x + Number.ofText n.text) 0

/-! ## Languages and identifiers -/

/-- The value of the attribute of a name in the namespace of XML. -/
def xmlAttribute? (n : Node) (label : Text) : Option Text :=
  (n.content.attributes.find? fun (a, _) => a.space = xmlSpace && a.label = label).map
    Prod.snd

/-- **The language at a node**: the one declared nearest, at the node or above it. -/
def languageAt? (d : Document) (n : Node) : Option Text :=
  match n.content with
  | .binding .. => none
  | _ => (n :: d.ancestors n).findSome? fun m => xmlAttribute? m "lang"

/-- **A language of the kind asked for**, whatever the case of the letters: the same, or one that
says more behind a hyphen. -/
def isOfKind (asked language : Text) : Bool :=
  (asked.map Char.toUpper).isPrefixOf (language.map Char.toUpper)
    && (language.drop asked.length).head?.all (· = '-')

/-- The first node with an identifier. -/
def identified? (d : Document) (id : Text) : Option Node :=
  d.node.descendants.find? fun n => xmlAttribute? n "id" = some id

/-- The identifiers that a value names. -/
def identifiers : Object → List Text
  | .nodes ns => ns.flatMap fun n => words n.text
  | a => words a.toText

/-! ## Calls -/

/-- A call on texts. -/
def onTexts : Function → List Text → Option Object
  | .concat, s :: t :: ts => some (.text (s :: t :: ts).flatten)
  | .startsWith, [s, t] => some (.boolean (t.isPrefixOf s))
  | .contains, [s, t] => some (.boolean (around? t s).isSome)
  | .substringBefore, [s, t] => some (.text (((around? t s).map Prod.fst).getD []))
  | .substringAfter, [s, t] => some (.text (((around? t s).map Prod.snd).getD []))
  | .stringLength, [t] => some (.number (Float.ofNat t.length))
  | .normalizeSpace, [t] => some (.text (Text.joined [' '] (words t)))
  | .translate, [t, old, new] => some (.text (t.filterMap (replace old new)))
  | _, _ => none

/-- **The value of a call** in a document.  Some functions without an argument take the node they
are seen from. -/
def apply (d : Document) (focus : Focus) : Function → List Object → Option Object
  | .last, [] => focus.place.map fun (_, size) => .number (Float.ofNat size)
  | .position, [] => focus.place.map fun (index, _) => .number (Float.ofNat index)
  | .count, [a] => a.nodes?.map fun ns => .number (Float.ofNat ns.length)
  | .id, [a] => some (.nodes (NodeSet.union ((identifiers a).filterMap (identified? d)) []))
  | .localName, [] => some (.text (nameOf Name.label [focus.node]))
  | .localName, [a] => a.nodes?.map fun ns => .text (nameOf Name.label ns)
  | .namespaceUri, [] => some (.text (nameOf Name.space [focus.node]))
  | .namespaceUri, [a] => a.nodes?.map fun ns => .text (nameOf Name.space ns)
  | .name, [] => some (.text (nameOf Name.shown [focus.node]))
  | .name, [a] => a.nodes?.map fun ns => .text (nameOf Name.shown ns)
  | .string, [] => some (.text focus.node.text)
  | .string, [a] => some (.text a.toText)
  | .substring, [a, s] => some (.text (part a.toText s.toNumber none))
  | .substring, [a, s, l] => some (.text (part a.toText s.toNumber (some l.toNumber)))
  | .stringLength, [] => onTexts .stringLength [focus.node.text]
  | .normalizeSpace, [] => onTexts .normalizeSpace [focus.node.text]
  | .boolean, [a] => some (.boolean a.toBoolean)
  | .not, [a] => some (.boolean !a.toBoolean)
  | .true, [] => some (.boolean Bool.true)
  | .false, [] => some (.boolean Bool.false)
  | .lang, [a] => some (.boolean ((languageAt? d focus.node).any (isOfKind a.toText)))
  | .number, [] => some (.number (Number.ofText focus.node.text))
  | .number, [a] => some (.number a.toNumber)
  | .sum, [a] => a.nodes?.map fun ns => .number (total ns)
  | .floor, [a] => some (.number a.toNumber.floor)
  | .ceiling, [a] => some (.number a.toNumber.ceil)
  | .round, [a] => some (.number (Number.round a.toNumber))
  | f, arguments => onTexts f (arguments.map Object.toText)

end Function

end MathSpeech.XPath
