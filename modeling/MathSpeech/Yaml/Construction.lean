import MathSpeech.Decimal.Read
import MathSpeech.Value.Written
import MathSpeech.Yaml.Node

/-!
# Yaml/Construction — the value of a YAML document

Every tag says how the value of its node is made.  A mapping may **merge** others into itself: their
entries come first, and an own entry of the same key counts.  Lists and mappings cannot be keys.
The tags of dates, bytes, sets and ordered mappings are left out: a node that names one is taken to
be malformed.

* `Yaml.read` — the value that a text stands for.
-/

namespace MathSpeech.Yaml

/-! ## Numbers -/

/-- The sign of a number, and the text after it. -/
def splitSign : Text → Bool × Text
  | '-' :: t => (true, t)
  | '+' :: t => (false, t)
  | t => (false, t)

/-- A natural number in a base. -/
def natInBase? (base : Nat) (t : Text) : Option Nat := do
  guard !t.isEmpty
  let ds ← t.mapM hexDigit?
  guard (ds.all (· < base))
  return Decimal.ofDigits base ds

/-- A natural number in base ten; it must not have too many digits. -/
def decimal? (t : Text) : Option Nat :=
  if t.length ≤ Value.maxDigits then Decimal.nat? t else none

/-- Parts in base sixty. -/
def inSixties {α : Type} (add : α → α → α) (times60 : α → α) (zero : α) (parts : List α) : α :=
  parts.foldl (fun x p => add (times60 x) p) zero

/-- The size of an integer.  Only in the bases that are powers of two may it have any number of
digits. -/
def natural? : Text → Option Nat
  | ['0'] => some 0
  | '0' :: 'b' :: t => natInBase? 2 t
  | '0' :: 'x' :: t => natInBase? 16 t
  | '0' :: t => natInBase? 8 t
  | t =>
    if ':' ∈ t then
      ((Text.parts ':' t).mapM decimal?).map (inSixties (· + ·) (60 * ·) 0)
    else decimal? t

/-- **An integer**; underscores do not count. -/
def integer? (t : Text) : Option Int :=
  let (negative, t) := splitSign (t.filter (· != '_'))
  (natural? t).map fun n => if negative then -(n : Int) else n

/-- The size of a decimal. -/
def unsignedFloat? (t : Text) : Option Float :=
  if t = ".inf".toList then some (1.0 / 0.0)
  else if t = ".nan".toList then some (0.0 / 0.0)
  else if ':' ∈ t then
    ((Text.parts ':' t).mapM Decimal.read?).map fun parts =>
      (parts.reverse.foldl (fun (x, base) p => (x + p * base, base * 60))
        ((0, 1) : Float × Float)).1
  else Decimal.read? t

/-- **A decimal**; underscores do not count. -/
def float? (t : Text) : Option Float :=
  let (negative, t) := splitSign ((t.filter (· != '_')).map Text.small)
  (unsignedFloat? t).map fun x => if negative then -x else x

/-- The truth value that a word stands for, in any case. -/
def truth? (t : Text) : Option Bool :=
  (truthWords.find? fun (w, _) => w.toList = t.map Text.small).map Prod.snd

/-! ## Scalars -/

/-- **The value of a scalar** with a tag. -/
def scalarValue (tag : Tag) (t : Text) : Except Fault Value :=
  match tag with
  | .null => .ok .null
  | .boolean =>
    match truth? t with
    | some b => .ok (.bool b)
    | none => .error .notBoolean
  | .integer =>
    match integer? t with
    | some n => .ok (.int n)
    | none => .error .notNumber
  | .float =>
    match float? t with
    | some x => .ok (.float x)
    | none => .error .notNumber
  | .text => .ok (.text t)
  | .sequence | .mapping | .merge | .value | .other _ => .error .malformed

/-! ## Mappings -/

/-- The tag of a node. -/
def Node.tag : Node → Tag
  | .scalar tag _ | .sequence tag _ | .mapping tag _ => tag

/-- A key, where an equals sign is a text. -/
def asKey : Node → Node
  | .scalar .value t => .scalar .text t
  | n => n

/-- The entries of several mappings. -/
abbrev Entries := List (Node × Node)

mutual

/-- **The entries of a mapping with those that it merges**, which come first.  A mapping or a list
of mappings can be merged; of a list, the last comes first. -/
def mergedEntries : Entries → Except Fault (Entries × Entries)
  | [] => .ok ([], [])
  | (k, v) :: rest => do
    let found ← if k.tag = .merge then mergeable v else pure []
    let (merged, own) ← mergedEntries rest
    return if k.tag = .merge then (found ++ merged, own) else (merged, (asKey k, v) :: own)

/-- The entries that a merged node brings. -/
def mergeable : Node → Except Fault Entries
  | .mapping _ entries => do
    let (merged, own) ← mergedEntries entries
    return merged ++ own
  | .sequence _ items => mergeableAll items
  | .scalar _ _ => .error .malformed

/-- The entries that the mappings of a list bring, the last mapping first. -/
def mergeableAll : List Node → Except Fault Entries
  | [] => .ok []
  | n :: rest => do
    let first ← match n with
      | .mapping _ entries => do
        let (merged, own) ← mergedEntries entries
        pure (merged ++ own)
      | _ => throw .malformed
    return (← mergeableAll rest) ++ first

end

/-! ## Values -/

/-- The text of a scalar, or that of the entry of a mapping that stands for the whole. -/
def wholeText? : Nat → Node → Option Text
  | 0, _ => none
  | fuel + 1, n =>
    match n with
    | .scalar _ t => some t
    | .mapping _ entries =>
      (entries.find? fun (k, _) => k.tag = .value).bind fun (_, v) => wholeText? fuel v
    | .sequence _ _ => none

/-- Writes an entry, if its key can be one. -/
def putEntry (k v : Value) (entries : List (Value × Value)) :
    Except Fault (List (Value × Value)) :=
  if k.isKey then .ok (Value.putKey k v entries) else .error .malformed

mutual

/-- **The value of a node**; the fuel bounds the depth of the tree. -/
def valueOf : Nat → Node → Except Fault Value
  | 0, _ => .error .malformed
  | fuel + 1, n =>
    match n with
    | .scalar tag t => scalarValue tag t
    | .sequence .sequence items => (valuesOf fuel items).map .list
    | .mapping .mapping entries => do
      let (merged, own) ← mergedEntries entries
      return .map (← entriesOf fuel [] (merged ++ own))
    | n =>
      match n.tag, wholeText? fuel n with
      | .sequence, _ | .mapping, _ | _, none => .error .malformed
      | tag, some t => scalarValue tag t

/-- The values of nodes. -/
def valuesOf (fuel : Nat) : List Node → Except Fault (List Value)
  | [] => .ok []
  | n :: rest => do return (← valueOf fuel n) :: (← valuesOf fuel rest)

/-- The entries of nodes, written after others. -/
def entriesOf (fuel : Nat) (written : List (Value × Value)) :
    Entries → Except Fault (List (Value × Value))
  | [] => .ok written
  | (k, v) :: rest => do
    let key ← valueOf fuel k
    let value ← valueOf fuel v
    entriesOf fuel (← putEntry key value written) rest

end

mutual

/-- The depth of a node. -/
def Node.depth : Node → Nat
  | .scalar _ _ => 1
  | .sequence _ items => depthOfItems items + 1
  | .mapping _ entries => depthOfEntries entries + 1

/-- The depth of the deepest node. -/
def depthOfItems : List Node → Nat
  | [] => 0
  | n :: rest => max n.depth (depthOfItems rest)

/-- The depth of the deepest key or value. -/
def depthOfEntries : List (Node × Node) → Nat
  | [] => 0
  | (k, v) :: rest => max (max k.depth v.depth) (depthOfEntries rest)

end

/-! ## Texts -/

/-- **The value that a YAML text stands for**; the empty text stands for null. -/
def read (t : Text) : Except Fault Value := do
  match Node.ofTokens? (← Token.scan t) with
  | none => throw .malformed
  | some none => return .null
  | some (some n) => valueOf (n.depth + 1) n

end MathSpeech.Yaml
