import MathSpeech.Text

/-!
# Table/Report — what came of a table

A **report** names the tables that were taken in, the keys that were defined and aliased, and what
was skipped.
-/

namespace MathSpeech.Table

/-- **A report** on one or more tables. -/
structure Report where
  /-- The tables. -/
  sources : List Text := []
  /-- The keys of the rules that were defined; a key may come more than once. -/
  defined : List Text := []
  /-- The keys of the aliases that were added. -/
  aliased : List Text := []
  /-- The number of things skipped, and a message about each. -/
  skipped : Nat := 0
  errors : List Text := []
deriving DecidableEq, Repr

namespace Report

/-- **A clean report**: nothing was skipped. -/
def isClean (r : Report) : Bool := r.skipped == 0 && r.errors.isEmpty

/-- Counts something skipped. -/
def addError (r : Report) (message : Text) : Report :=
  { r with skipped := r.skipped + 1, errors := r.errors ++ [message] }

/-- Counts several things skipped. -/
def addErrors (r : Report) (messages : List Text) : Report := messages.foldl addError r

/-- Two reports in one. -/
def merge (r s : Report) : Report where
  sources := r.sources ++ s.sources
  defined := r.defined ++ s.defined
  aliased := r.aliased ++ s.aliased
  skipped := r.skipped + s.skipped
  errors := r.errors ++ s.errors

end Report

end MathSpeech.Table
