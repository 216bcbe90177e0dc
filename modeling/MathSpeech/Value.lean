import MathSpeech.Decimal.Binary
import MathSpeech.Text

/-!
# Value — the values that tables, settings and log fields hold

A **value** is nothing, a truth value, a number, a text, a list of values or a mapping from values
to values in the order of its entries.  Numbers compare by size, also across their kinds and with
the truth values, so that `1`, `1.0` and `true` are one key of a mapping.  Dates, bytes and sets are
no values here.

* `Value.putKey`, `Value.findKey` — writing to and reading from the entries of a mapping;
* `Value.ofEntries` — the mapping that a list of entries writes.
-/

namespace MathSpeech

/-- **A value** of a table, of the settings or of a log field. -/
inductive Value
  | null
  | bool (b : Bool)
  | int (n : Int)
  | float (x : Float)
  | text (t : Text)
  | list (items : List Value)
  | map (entries : List (Value × Value))
deriving Inhabited

namespace Value

/-! ## Keys -/

/-- The whole number that a value counts as, if it is a truth value or an integer. -/
def whole? : Value → Option Int
  | .bool b => some (if b then 1 else 0)
  | .int n => some n
  | _ => none

/-- **A double that is an integer** of this value; the comparison is exact. -/
def isWhole (x : Float) (n : Int) : Bool :=
  match Decimal.Binary.ofFloat x with
  | .finite negative m e =>
    let size := Decimal.Ratio.scaled m 2 e
    size.num == n.natAbs * size.den && (negative == decide (n < 0) || n == 0)
  | _ => false

/-- **One key**: the two values name the same entry of a mapping. -/
def sameKey : Value → Value → Bool
  | .null, .null => true
  | .text s, .text t => s == t
  | .float x, .float y => x == y
  | .float x, v | v, .float x =>
    match v.whole? with
    | some n => isWhole x n
    | none => false
  | v, w =>
    match v.whole?, w.whole? with
    | some m, some n => m == n
    | _, _ => false

/-- A value that can be a key: lists and mappings cannot. -/
def isKey : Value → Bool
  | .list _ | .map _ => false
  | _ => true

/-- The value of a key among the entries of a mapping. -/
def findKey (k : Value) : List (Value × Value) → Option Value
  | [] => none
  | (k', v) :: rest => if sameKey k' k then some v else findKey k rest

/-- **Writing a key**: an entry of that key gets the new value and stays in its place. -/
def putKey (k v : Value) : List (Value × Value) → List (Value × Value)
  | [] => [(k, v)]
  | (k', v') :: rest => if sameKey k' k then (k', v) :: rest else (k', v') :: putKey k v rest

/-- Writes entries in order. -/
def putKeys (old : List (Value × Value)) (entries : List (Value × Value)) :
    List (Value × Value) :=
  entries.foldl (fun es e => putKey e.1 e.2 es) old

/-- **The mapping that a list of entries writes**: the last value of a key counts, in the place of
the first. -/
def ofEntries (entries : List (Value × Value)) : Value := .map (putKeys [] entries)

/-! ## Reading -/

/-- The value of a named entry; only a mapping has entries. -/
def get? (name : Text) : Value → Option Value
  | .map entries => findKey (.text name) entries
  | _ => none

/-- A mapping. -/
def isMap : Value → Bool
  | .map _ => true
  | _ => false

/-- **A value that says something**: not null, false, zero or empty. -/
def isTrue : Value → Bool
  | .null => false
  | .bool b => b
  | .int n => n != 0
  | .float x => x != 0
  | .text t => !t.isEmpty
  | .list items => !items.isEmpty
  | .map entries => !entries.isEmpty

end Value

end MathSpeech
