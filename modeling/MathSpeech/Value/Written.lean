import MathSpeech.Decimal.Layout
import MathSpeech.Text.Quoted
import MathSpeech.Value

/-!
# Value/Written — how a value reads in a message

`Value.written` is the text that stands for a value in a message: a text stands for itself, all
else as it is shown.  `Value.shown` is the form inside a list or a mapping, where texts are quoted.

Not every value can be written.  An integer of too many digits has no text, nor has what it is in
(`Value.isWritable`); who writes a value has to ask first.
-/

namespace MathSpeech.Value

/-- **Doubles in messages**: positional from a ten-thousandth up to ten to the sixteenth, and a
whole number keeps its point. -/
def floatLayout : Decimal.Layout := { notANumber := "nan", infinite := "inf" }

mutual

/-- **The form of a value inside another one.** -/
def shown : Value → Text
  | .null => "None"
  | .bool b => if b then "True" else "False"
  | .int n => .ofInt n
  | .float x => floatLayout.write x
  | .text t => t.quoted
  | .list items => '[' :: Text.joined ", " (shownItems items) ++ "]"
  | .map entries => '\x7b' :: Text.joined ", " (shownEntries entries) ++ "\x7d"

/-- The items of a list, each as it is shown. -/
def shownItems : List Value → List Text
  | [] => []
  | v :: rest => shown v :: shownItems rest

/-- The entries of a mapping, each as it is shown. -/
def shownEntries : List (Value × Value) → List Text
  | [] => []
  | (k, v) :: rest => (shown k ++ ':' :: ' ' :: shown v) :: shownEntries rest

end

/-- **The text that stands for a value** in a message. -/
def written : Value → Text
  | .text t => t
  | v => shown v

/-- A list of texts as it is shown. -/
def shownTexts (ts : List Text) : Text := shown (.list (ts.map .text))

/-! ## What can be written -/

/-- **The most digits** that an integer is written with, or read from. -/
def maxDigits : Nat := 4300

mutual

/-- **A value that can be written**: none of its integers has too many digits.  How deep lists and
mappings may be nested depends on who writes, and is not told here. -/
def isWritable : Value → Bool
  | .int n => n.natAbs < 10 ^ maxDigits
  | .list items => allWritable items
  | .map entries => entriesWritable entries
  | _ => true

/-- All items of a list can be written. -/
def allWritable : List Value → Bool
  | [] => true
  | v :: rest => isWritable v && allWritable rest

/-- All keys and values of a mapping can be written. -/
def entriesWritable : List (Value × Value) → Bool
  | [] => true
  | (k, v) :: rest => isWritable k && isWritable v && entriesWritable rest

end

end MathSpeech.Value
