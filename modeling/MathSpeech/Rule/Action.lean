import MathSpeech.Rule.Component.Parser

/-!
# Rule/Action — what a rule says

An **action** is the sequence of components that a rule text stands for.  `Action.parse` reads the
components between the semicolons outside strings and passes over blank ones; `Action.print` writes
them back in one canonical form.
-/

namespace MathSpeech.Rule

/-- **An action**: components in the order in which they are spoken. -/
structure Action where
  components : List Component := []
deriving DecidableEq

namespace Action

/-- The parts of a rule text that hold a component each, trimmed. -/
def segments (t : Text) : Except Fault (List Text) :=
  (split ';' t).map fun pieces => (pieces.map Text.trim).filter fun s => !s.isEmpty

/-- **Reading an action.** -/
def parse (t : Text) : Except Fault Action :=
  match segments t with
  | .error fault => .error fault
  | .ok texts => (texts.mapM Component.parse).map Action.mk

/-- **The written form** of an action. -/
def print (a : Action) : Text := Text.joined "; " (a.components.map Component.print)

/-- **The same action**: the same instructions in the same order. -/
def same (a b : Action) : Bool :=
  a.components.length == b.components.length
    && (a.components.zip b.components).all fun (c, d) => c.same d

/-- The action without components. -/
def silence : Action := ⟨[]⟩

end Action

end MathSpeech.Rule
