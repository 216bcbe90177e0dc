import MathSpeech.Yaml.Token

/-!
# Yaml/Node — the tree of a YAML document

A **node** is a scalar, a sequence or a mapping, each with a tag.  A node without a tag of its own
gets one: a plain scalar the tag that its text implies, any other node that of its kind.  An alias
stands for the node that has its anchor, and no anchor is given twice.

* `Tag.implied` — the tag that the text of a plain scalar implies;
* `Node.ofTokens?` — the tree that tokens stand for.
-/

namespace MathSpeech.Yaml

/-! ## Tags -/

/-- **The tag of a node.** -/
inductive Tag
  | null
  | boolean
  | integer
  | float
  | text
  | sequence
  | mapping
  | merge
  | value
  | other (name : Text)
deriving DecidableEq, Repr

/-- What the names of the common tags begin with. -/
def commonTags : Text := "tag:yaml.org,2002:"

/-- The common tags by name. -/
def Tag.table : List (String × Tag) := [
  ("null", .null), ("bool", .boolean), ("int", .integer), ("float", .float), ("str", .text),
  ("seq", .sequence), ("map", .mapping), ("merge", .merge), ("value", .value)]

/-- The tag of a full name. -/
def Tag.ofName (name : Text) : Tag :=
  ((Tag.table.find? fun (short, _) => commonTags ++ short.toList = name).map Prod.snd).getD
    (.other name)

/-! ## What a plain scalar implies -/

/-- Decimal digits and underscores. -/
def isDigitOrGap (c : Char) : Bool := c.isDigit || c = '_'

/-- The text without a sign before it. -/
def unsigned : Text → Text
  | '+' :: t | '-' :: t => t
  | t => t

/-- Some characters, at least one, all of a kind. -/
def allOf (p : Char → Bool) (t : Text) : Bool := !t.isEmpty && t.all p

/-- A decimal digit, and then digits and underscores. -/
def isNatural : Text → Bool
  | c :: t => c.isDigit && t.all isDigitOrGap
  | [] => false

/-- A number below sixty in one or two digits. -/
def isSixtieth : Text → Bool
  | [a] => a.isDigit
  | [a, b] => '0' ≤ a && a ≤ '5' && b.isDigit
  | _ => false

/-- **An integer**: binary, octal, decimal, hexadecimal, or in base sixty with colons. -/
def isInteger (t : Text) : Bool :=
  match unsigned t with
  | '0' :: 'b' :: ds => allOf (fun c => c = '0' || c = '1' || c = '_') ds
  | '0' :: 'x' :: ds => allOf (fun c => (hexDigit? c).isSome || c = '_') ds
  | ['0'] => true
  | '0' :: ds => ds.all fun c => ('0' ≤ c && c ≤ '7') || c = '_'
  | ds =>
    match Text.parts ':' ds with
    | first :: others => isNatural first && others.all isSixtieth
    | [] => false

/-- Nothing, or the exponent of a decimal, which has a sign. -/
def isExponent : Text → Bool
  | [] => true
  | 'e' :: t | 'E' :: t => (t.head? = '+' || t.head? = '-') && allOf Char.isDigit t.tail
  | _ => false

/-- What can stand behind the point of a decimal. -/
def isFraction (t : Text) : Bool := isExponent (t.dropWhile isDigitOrGap)

/-- **A decimal with a point**: a special value, digits on both sides, or base sixty before it. -/
def isDecimal (t : Text) : Bool :=
  let special (names : List String) (t : Text) := names.any fun n => n.toList = t
  if special [".inf", ".Inf", ".INF"] (unsigned t) || special [".nan", ".NaN", ".NAN"] t then true
  else match Text.cut '.' (unsigned t) with
    | none => false
    | some ([], fraction) =>
      t.head? = '.' && (fraction.head?.map Char.isDigit).getD false && isFraction fraction
    | some (whole, fraction) =>
      match Text.parts ':' whole with
      | [whole] => isNatural whole && isFraction fraction
      | first :: others => isNatural first && others.all isSixtieth && fraction.all isDigitOrGap
      | [] => false

/-- The words for truth and falsity. -/
def truthWords : List (String × Bool) := [("yes", true), ("no", false), ("true", true),
  ("false", false), ("on", true), ("off", false)]

/-- A word in small letters, in capital letters, or with a capital letter at its beginning. -/
def inOneCase (word t : Text) : Bool :=
  t = word || t = word.map Char.toUpper ||
    match word with
    | c :: rest => t = c.toUpper :: rest
    | [] => false

/-- **The tag that a plain scalar implies.**  One that reads as a date or a time counts as a text;
there are no such values. -/
def Tag.implied (t : Text) : Tag :=
  if truthWords.any fun (w, _) => inOneCase w.toList t then .boolean
  else if isDecimal t then .float
  else if isInteger t then .integer
  else if t = "<<".toList then .merge
  else if t = [] || t = "~".toList || inOneCase "null" t then .null
  else if t = "=".toList then .value
  else .text

/-! ## Nodes -/

/-- **A node.** -/
inductive Node
  | scalar (tag : Tag) (t : Text)
  | sequence (tag : Tag) (items : List Node)
  | mapping (tag : Tag) (entries : List (Node × Node))

/-- A node that is not written: an empty plain scalar. -/
def Node.missing : Node := .scalar .null []

instance : Inhabited Node := ⟨.missing⟩

/-- **A reading under way**: the tokens to come, the handles of tags, and the anchors.  An anchor
without a node belongs to a node that is not yet complete. -/
structure Reading where
  tokens : List Token
  handles : OrderedMap Text Text
  anchors : OrderedMap Text (Option Node) := .empty

/-- What reads part of a document. -/
abbrev Composer := StateT Reading Option

namespace Composer

/-- The token that comes next. -/
def peek : Composer (Option Token) := return (← get).tokens.head?

/-- Passes over a token. -/
def drop : Composer Unit := modify fun r => { r with tokens := r.tokens.tail }

/-- Takes a token if it comes next. -/
def accept (t : Token) : Composer Bool := do
  if (← peek) = some t then
    drop
    return true
  else return false

/-- One of some tokens comes next. -/
def sees (ts : List Token) : Composer Bool := return (← peek).any fun t => decide (t ∈ ts)

/-! ## Properties of nodes -/

/-- An anchor, if one comes next. -/
def anchor? : Composer (Option Text) := do
  match ← peek with
  | some (.anchor name) =>
    drop
    return some name
  | _ => return none

/-- A tag, if one comes next, with its handle resolved. -/
def tag? : Composer (Option Text) := do
  match ← peek with
  | some (.tag none t) =>
    drop
    return some t
  | some (.tag (some handle) t) =>
    drop
    match (← get).handles.get? handle with
    | some start => return some (start ++ t)
    | none => failure
  | _ => return none

/-- An anchor and a tag in any order. -/
def properties : Composer (Option Text × Option Text) := do
  match ← anchor? with
  | some name => return (some name, ← tag?)
  | none =>
    let tag ← tag?
    return (← anchor?, tag)

/-- The tag of a node that is not a plain scalar: a tag of a single exclamation mark is none. -/
def tagOr (default : Tag) : Option Text → Tag
  | none | some ['!'] => default
  | some name => .ofName name

/-- **The tag of a scalar.**  A plain one implies its tag, and so does one that is tagged with a
single exclamation mark. -/
def scalarTag (t : Text) (isPlain : Bool) : Option Text → Tag
  | none => if isPlain then .implied t else .text
  | some ['!'] => .implied t
  | some name => .ofName name

/-- Reserves the name of an anchor; no name is reserved twice. -/
def reserve : Option Text → Composer Unit
  | none => return ()
  | some name => do
    if (← get).anchors.contains name then failure
    modify fun r => { r with anchors := r.anchors.insert name none }

/-- Gives an anchor its node. -/
def settle (anchor : Option Text) (n : Node) : Composer Node := do
  match anchor with
  | some name => modify fun r => { r with anchors := r.anchors.insert name (some n) }
  | none => pure ()
  return n

/-- The node of an alias. -/
def aliased (name : Text) : Composer Node := do
  match (← get).anchors.get? name with
  | some (some n) => return n
  | _ => failure

/-! ## Nodes

In every function the fuel bounds the depth of the calls; each call takes a token before the call
after the next. -/

mutual

/-- **A node.**  Blocks are read only outside brackets; a sequence that is not indented only as a
key or value of a block mapping. -/
def node (inBlock unindented : Bool) : Nat → Composer Node
  | 0 => failure
  | fuel + 1 => do
    match ← peek with
    | some (.reference name) =>
      drop
      aliased name
    | _ =>
      let (anchor, tag) ← properties
      reserve anchor
      let next ← peek
      let n ←
        if unindented && next = some .blockEntry then
          return ← settle anchor (.sequence (tagOr .sequence tag) (← unindentedItems fuel))
        else match next with
          | some (.scalar t isPlain) => do
            drop
            pure (.scalar (scalarTag t isPlain tag) t)
          | some .flowSequenceStart => do
            drop
            pure (.sequence (tagOr .sequence tag) (← flowItems true fuel))
          | some .flowMappingStart => do
            drop
            pure (.mapping (tagOr .mapping tag) (← flowEntries true fuel))
          | some .blockSequenceStart => do
            guard inBlock
            drop
            pure (.sequence (tagOr .sequence tag) (← blockItems fuel))
          | some .blockMappingStart => do
            guard inBlock
            drop
            pure (.mapping (tagOr .mapping tag) (← blockEntries fuel))
          | _ => do
            guard (anchor.isSome || tag.isSome)
            pure (.scalar (scalarTag [] true tag) [])
      settle anchor n

/-- A node, or a missing one before any of some tokens. -/
def nodeUnless (ends : List Token) (inBlock unindented : Bool) : Nat → Composer Node
  | 0 => failure
  | fuel + 1 => do if ← sees ends then return .missing else node inBlock unindented fuel

/-- The items of a block sequence. -/
def blockItems : Nat → Composer (List Node)
  | 0 => failure
  | fuel + 1 => do
    if ← accept .blockEntry then
      let n ← nodeUnless [.blockEntry, .blockEnd] true false fuel
      return n :: (← blockItems fuel)
    else
      guard (← accept .blockEnd)
      return []

/-- The items of a sequence that is not indented. -/
def unindentedItems : Nat → Composer (List Node)
  | 0 => failure
  | fuel + 1 => do
    if ← accept .blockEntry then
      let n ← nodeUnless [.blockEntry, .key, .value, .blockEnd] true false fuel
      return n :: (← unindentedItems fuel)
    else return []

/-- The entries of a block mapping. -/
def blockEntries : Nat → Composer (List (Node × Node))
  | 0 => failure
  | fuel + 1 => do
    if ← accept .key then
      let k ← nodeUnless [.key, .value, .blockEnd] true true fuel
      let v ← if ← accept .value then nodeUnless [.key, .value, .blockEnd] true true fuel
        else pure .missing
      return (k, v) :: (← blockEntries fuel)
    else
      guard (← accept .blockEnd)
      return []

/-- The value of an entry between brackets, which may be missing. -/
def flowValue (ends : List Token) : Nat → Composer Node
  | 0 => failure
  | fuel + 1 => do if ← accept .value then nodeUnless ends false false fuel else return .missing

/-- The items of a sequence in brackets; a pair among them is a mapping of its own. -/
def flowItems (first : Bool) : Nat → Composer (List Node)
  | 0 => failure
  | fuel + 1 => do
    if ← accept .flowSequenceEnd then return []
    if !first then guard (← accept .flowEntry)
    if ← accept .key then
      let k ← nodeUnless [.value, .flowEntry, .flowSequenceEnd] false false fuel
      let v ← flowValue [.flowEntry, .flowSequenceEnd] fuel
      return .mapping .mapping [(k, v)] :: (← flowItems false fuel)
    else if ← accept .flowSequenceEnd then return []
    else
      let n ← node false false fuel
      return n :: (← flowItems false fuel)

/-- The entries of a mapping in braces; an entry without a colon has no value. -/
def flowEntries (first : Bool) : Nat → Composer (List (Node × Node))
  | 0 => failure
  | fuel + 1 => do
    if ← accept .flowMappingEnd then return []
    if !first then guard (← accept .flowEntry)
    if ← accept .key then
      let k ← nodeUnless [.value, .flowEntry, .flowMappingEnd] false false fuel
      let v ← flowValue [.flowEntry, .flowMappingEnd] fuel
      return (k, v) :: (← flowEntries false fuel)
    else if ← accept .flowMappingEnd then return []
    else
      let k ← node false false fuel
      return (k, .missing) :: (← flowEntries false fuel)

end

/-! ## Documents -/

/-- Passes over the ends of documents. -/
def dropEnds : Composer Unit :=
  modify fun r => { r with tokens := r.tokens.dropWhile (· = .documentEnd) }

/-- The directives before a document: one version at most, of the first generation, and each handle
once. -/
def directives : List Token → Option Nat → OrderedMap Text Text →
    Option (OrderedMap Text Text × List Token)
  | .versionDirective major :: rest, version, handles =>
    if version.isSome || major != 1 then none else directives rest (some major) handles
  | .tagDirective handle start :: rest, version, handles =>
    if handles.contains handle then none
    else directives rest version (handles.insert handle start)
  | .otherDirective :: rest, version, handles => directives rest version handles
  | tokens, _, handles => some (handles, tokens)

/-- The handles that need no directive. -/
def withDefaults (handles : OrderedMap Text Text) : OrderedMap Text Text :=
  let handles := if handles.contains ['!'] then handles else handles.insert ['!'] ['!']
  if handles.contains ['!', '!'] then handles else handles.insert ['!', '!'] commonTags

/-- Directives and an explicit beginning of a document come next. -/
def beginsExplicitly : Option Token → Bool
  | some (.versionDirective _) | some (.tagDirective _ _) | some .otherDirective
  | some .documentStart => true
  | _ => false

/-- **The node of a document**, of which an explicit one may be empty. -/
def documentNode (fuel : Nat) : Composer Node := do
  if beginsExplicitly (← peek) then
    let (handles, tokens) ← directives (← get).tokens none .empty
    modify fun r => { r with tokens, handles := withDefaults handles }
    guard (← accept .documentStart)
    if beginsExplicitly (← peek) || (← peek).isNone || (← peek) = some .documentEnd then
      return .missing
    else node true false fuel
  else node true false fuel

end Composer

/-- **The tree of the only document** that tokens stand for; none if there are no tokens. -/
def Node.ofTokens? (tokens : List Token) : Option (Option Node) :=
  if tokens.isEmpty then some none
  else
    let start : Reading := { tokens, handles := Composer.withDefaults .empty }
    match (do
        let n ← Composer.documentNode (3 * tokens.length + 3)
        Composer.dropEnds
        return n : Composer Node) start with
    | some (n, r) => if r.tokens.isEmpty then some (some n) else none
    | none => none

end MathSpeech.Yaml
