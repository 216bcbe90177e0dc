import MathSpeech.Text.Quoted

/-!
# Rule/Fault — what can be wrong with a rule text

A **fault** names the cause that makes a rule text unreadable, with the part of the text it was
found in.  `Fault.message` words it, `Fault.written` adds the part.
-/

namespace MathSpeech.Rule

/-- **A fault** of a rule text. -/
inductive Fault
  /-- A component begins with a marker that is none. -/
  | unknownMarker (marker : Text)
  /-- A component says nothing. -/
  | missingContent (component : Text)
  /-- A component begins with a quote, but no string follows. -/
  | malformedString (component : Text)
  /-- A string is not closed. -/
  | openString (text : Text)
  /-- An attribute has no name. -/
  | namelessAttribute (token : Text)
  /-- Attributes do not stand in brackets. -/
  | malformedAttributes (block : Text)
deriving DecidableEq, Repr

/-- **The wording** of a fault. -/
def Fault.message : Fault → Text
  | .unknownMarker marker => "Invalid component type " ++ marker.quoted
  | .missingContent _ => "Missing content"
  | .malformedString _ => "Invalid string syntax"
  | .openString _ => "Invalid string in expression"
  | .namelessAttribute _ => "Empty attribute name"
  | .malformedAttributes _ => "Invalid attribute expression"

/-- The part of the rule text that is at fault; an unknown marker is named by the wording. -/
def Fault.part : Fault → Text
  | .unknownMarker _ => []
  | .missingContent t | .malformedString t | .openString t | .namelessAttribute t
  | .malformedAttributes t => t

/-- The wording with the part at fault. -/
def Fault.written (f : Fault) : Text :=
  if f.part.isEmpty then f.message else f.message ++ " in " ++ f.part.quoted

end MathSpeech.Rule
