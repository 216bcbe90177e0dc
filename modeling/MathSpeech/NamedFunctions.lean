import MathSpeech.Notice
import MathSpeech.OrderedMap

/-!
# NamedFunctions — functions under prefixed names

Some queries cannot be written as expressions.  They are functions under a name, and every name in a
store of functions begins with the prefix of the store, so that no name is taken for an expression.
-/

namespace MathSpeech

/-- **A store of functions** whose names share a prefix. -/
structure NamedFunctions (α : Type) where
  /-- What the store is called in its short form. -/
  title : Text
  /-- How every name begins. -/
  start : Text
  functions : OrderedMap Text α := .empty

namespace NamedFunctions

variable {α : Type}

/-- A store with a prefix of its own. -/
def withStart (start : Text) : NamedFunctions α := { title := "FunctionStore", start }

/-- **The store of custom queries.** -/
def customQueries : NamedFunctions α := { title := "CustomQueries", start := "CQF" }

/-- A name that begins as it has to. -/
def admits (s : NamedFunctions α) (name : Text) : Bool := s.start.isPrefixOf name

/-- **Adding a function**; a name without the prefix is reported and changes nothing. -/
def add (s : NamedFunctions α) (name : Text) (f : α) : NamedFunctions α × List Notice :=
  if s.admits name then ({ s with functions := s.functions.insert name f }, [])
  else (s, [.misnamed name s.start])

/-- The function of a name. -/
def lookup (s : NamedFunctions α) (name : Text) : Option α := s.functions.get? name

/-- The names in the order in which they were first added. -/
def names (s : NamedFunctions α) : List Text := s.functions.keys

/-- The short form of the store. -/
def summary (s : NamedFunctions α) : Text :=
  s.title ++ "(prefix=" ++ s.start.quoted ++ ", functions=" ++ Text.ofNat s.functions.size ++ ")"

end NamedFunctions

end MathSpeech
