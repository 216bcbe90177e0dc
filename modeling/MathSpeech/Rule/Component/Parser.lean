import MathSpeech.Rule.Component
import MathSpeech.Rule.Splitting

/-!
# Rule/Component/Parser — reading a component

A component is a marker of three characters, a content and attributes in brackets.  Where the
content ends depends on what it is:

* a literal (`[t] "…"`) ends before the first bracket outside its strings;
* a string of the legacy marker ends at its second quote;
* any other content ends before the first bracket that follows a space;
* a change of voice (`[p]`) has no content.

`Attributes.readBlock` is a fold over the tokens of a block, and keeps what was read before a fault.
-/

namespace MathSpeech.Rule

/-! ## Attributes -/

namespace Attributes

/-- **One attribute**: `name:value`, or a bare name whose value is `true`. -/
def readToken (as : Attributes) (token : Text) : Except Fault Attributes :=
  let (name, value) := match token.cut ':' with
    | some (name, value) => (name.trim, value.trim)
    | none => (token.trim, "true".toList)
  if name.isEmpty then .error (.namelessAttribute token) else .ok (as.insert name value)

/-- Reads tokens in order up to the first faulty one; blank tokens say nothing. -/
def readTokens (as : Attributes) : List Text → Attributes × Option Fault
  | [] => (as, none)
  | token :: rest =>
    if token.trim.isEmpty then readTokens as rest
    else match readToken as token with
      | .ok as' => readTokens as' rest
      | .error fault => (as, some fault)

/-- **A block of attributes**: tokens between brackets, separated by commas outside strings. -/
def readBlock (as : Attributes) (block : Text) : Attributes × Option Fault :=
  let block := block.trim
  if block.head? = some '(' ∧ block.getLast? = some ')' then
    match split ',' block.tail.dropLast with
    | .ok tokens => readTokens as tokens
    | .error fault => (as, some fault)
  else (as, some (.malformedAttributes block))

end Attributes

namespace Component

/-- Adds one attribute. -/
def addAttribute (c : Component) (token : Text) : Except Fault Component :=
  (Attributes.readToken c.attributes token).map fun as => { c with attributes := as }

/-- Adds a block of attributes; those before a fault stay. -/
def addAttributes (c : Component) (block : Text) : Component × Option Fault :=
  let (as, fault) := Attributes.readBlock c.attributes block
  ({ c with attributes := as }, fault)

/-! ## Contents

Each of these takes the text behind the marker and gives the content and what is left for the
attributes. -/

/-- **The cut before the first bracket that follows a space**; the space goes with the bracket. -/
def cutAtBracket : Text → Text × Text
  | [] => ([], [])
  | ' ' :: '(' :: rest => ([], ' ' :: '(' :: rest)
  | c :: rest => let (before, after) := cutAtBracket rest; (c :: before, after)

/-- A selecting content. -/
def selection (rest : Text) : Text × Text :=
  let (content, block) := cutAtBracket rest
  (content.trim, block.trimStart)

/-- A string of the legacy marker. -/
def legacyString (component rest : Text) : Except Fault (Text × Text) :=
  match rest with
  | '"' :: body =>
    match Text.cut '"' body with
    | some (inside, after) => .ok ('"' :: inside.trim ++ ['"'], after.trimStart)
    | none => .error (.malformedString component)
  | _ => .error (.malformedString component)

/-- A literal.  What follows it counts only if it holds a bracket. -/
def literal (component rest : Text) : Except Fault (Text × Text) :=
  match split '(' rest with
  | .error fault => .error fault
  | .ok pieces =>
    let quoted := Text.trim (pieces.headD [])
    if quoted.getLast? = some '"' ∧ 2 ≤ quoted.length then
      let block := Text.trim (rest.drop quoted.length)
      .ok (quoted, if '(' ∈ block then block else [])
    else .error (.malformedString component)

/-- The content of a component of a kind, and what is left for its attributes. -/
def readContent (component marker : Text) (kind : Kind) (rest : Text) :
    Except Fault (Text × Text) :=
  if marker = Kind.legacyMarker then legacyString component rest
  else match kind with
    | .text => if rest.head? = some '"' then literal component rest else .ok (selection rest)
    | .personality => .ok ([], rest)
    | .node | .multi => .ok (selection rest)

/-- The component of a kind and content whose attributes stand in `block`, if anything does.  A
change of voice needs an attribute. -/
def complete (t : Text) (kind : Kind) (content block : Text) : Except Fault Component :=
  let bare : Component := { kind, content }
  match if block.isEmpty then (bare, none) else bare.addAttributes block with
  | (_, some fault) => .error fault
  | (component, none) =>
    if kind = .personality ∧ component.attributes.isEmpty then .error (.missingContent t)
    else .ok component

/-- **Reading a component.** -/
def parse (t : Text) : Except Fault Component :=
  let marker := t.take 3
  match Kind.ofMarker? marker with
  | none => .error (.unknownMarker marker)
  | some kind =>
    let rest := Text.trimStart (t.drop 3)
    if rest.isEmpty then .error (.missingContent t)
    else match readContent t marker kind rest with
      | .error fault => .error fault
      | .ok (content, block) => complete t kind content block

end Component

end MathSpeech.Rule
