import MathSpeech.Decimal.Layout
import MathSpeech.Value

/-!
# Value/Json — a value as JSON on one line

`Value.json` writes a value with one space after each comma and colon.  Characters beyond ASCII
stand for themselves; the quote, the backslash and the controls are escaped.  A key that is not a
text is written as the text of its own form.
-/

namespace MathSpeech.Value

/-- **Doubles in JSON**: as in messages, but with other names of the special values. -/
def jsonFloatLayout : Decimal.Layout := { notANumber := "NaN", infinite := "Infinity" }

/-- One character of a JSON string. -/
def jsonChar (c : Char) : Text :=
  match c with
  | '"' => ['\\', '"']
  | '\\' => ['\\', '\\']
  | '\n' => ['\\', 'n']
  | '\r' => ['\\', 'r']
  | '\t' => ['\\', 't']
  | '\x08' => ['\\', 'b']
  | '\x0c' => ['\\', 'f']
  | c => if c.toNat < 0x20 then '\\' :: 'u' :: Text.hexadecimal 4 c.toNat else [c]

/-- A JSON string. -/
def jsonText (t : Text) : Text := '"' :: t.flatMap jsonChar ++ ['"']

mutual

/-- **A value as JSON.** -/
def json : Value → Text
  | .null => "null"
  | .bool b => if b then "true" else "false"
  | .int n => .ofInt n
  | .float x => jsonFloatLayout.write x
  | .text t => jsonText t
  | .list items => '[' :: Text.joined ", " (jsonItems items) ++ "]"
  | .map entries => '\x7b' :: Text.joined ", " (jsonEntries entries) ++ "\x7d"

/-- The items of a JSON array. -/
def jsonItems : List Value → List Text
  | [] => []
  | v :: rest => json v :: jsonItems rest

/-- The members of a JSON object. -/
def jsonEntries : List (Value × Value) → List Text
  | [] => []
  | (.text k, v) :: rest => (jsonText k ++ ':' :: ' ' :: json v) :: jsonEntries rest
  | (k, v) :: rest => (jsonText (json k) ++ ':' :: ' ' :: json v) :: jsonEntries rest

end

end MathSpeech.Value
