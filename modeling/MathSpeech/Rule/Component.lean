import MathSpeech.OrderedMap
import MathSpeech.Text

/-!
# Rule/Component — one instruction of a rule

A rule is a sequence of **components**.  A component has a kind, a content and attributes:

* `[n]` speaks the node that the content selects, `[m]` speaks every node it selects;
* `[t]` speaks a quoted literal or the text that the content selects;
* `[p]` has no content and changes the voice by its attributes.

`Component.print` is the one form in which a component is written.
-/

namespace MathSpeech.Rule

/-- **The kinds of components.** -/
inductive Kind
  | node
  | multi
  | text
  | personality
deriving DecidableEq, Repr

namespace Kind

/-- The marker a component of this kind is written with. -/
def marker : Kind → Text
  | .node => "[n]"
  | .multi => "[m]"
  | .text => "[t]"
  | .personality => "[p]"

/-- The name of the kind. -/
def name : Kind → Text
  | .node => "NODE"
  | .multi => "MULTI"
  | .text => "TEXT"
  | .personality => "PERSONALITY"

/-- The marker of strings in older rules: a text component whose literal is trimmed. -/
def legacyMarker : Text := "[s]"

/-- **The kind that a marker stands for.** -/
def ofMarker? (marker : Text) : Option Kind :=
  if marker = "[n]".toList then some .node
  else if marker = "[m]".toList then some .multi
  else if marker = "[t]".toList then some .text
  else if marker = "[p]".toList then some .personality
  else if marker = legacyMarker then some .text
  else none

/-- The kind of a name. -/
def ofName? (name : Text) : Option Kind :=
  [Kind.node, .multi, .text, .personality].find? fun k => k.name = name

/-- **A kind is read back from its marker.** -/
theorem ofMarker?_marker (k : Kind) : ofMarker? k.marker = some k := by cases k <;> rfl

end Kind

/-- **Attributes** of a component, in the order of their names. -/
abbrev Attributes := OrderedMap Text Text

/-- **A component** of a rule. -/
structure Component where
  kind : Kind
  content : Text := []
  attributes : Attributes := .empty
deriving DecidableEq

namespace Component

/-- The attributes, each as its name and value with a colon between. -/
def tokens (c : Component) : List Text :=
  c.attributes.entries.map fun (name, value) => name ++ ':' :: value

/-- **The written form** of a component: marker, content and bracketed attributes, the latter two
only if there are any. -/
def print (c : Component) : Text :=
  c.kind.marker
    ++ (if c.content.isEmpty then [] else ' ' :: c.content)
    ++ (if c.attributes.isEmpty then [] else ' ' :: '(' :: Text.joined ", " c.tokens ++ [')'])

/-- **The same instruction**: equal but for the order of the attributes. -/
def same (c d : Component) : Bool :=
  c.kind == d.kind && c.content == d.content && c.attributes.sameEntries d.attributes

end Component

end MathSpeech.Rule
