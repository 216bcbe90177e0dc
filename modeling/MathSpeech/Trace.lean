import MathSpeech.Text.Quoted
import MathSpeech.Value.Written

/-!
# Trace — why a rule did or did not apply

A **precondition trace** records what the query and each constraint of a precondition gave; a
**lookup trace** records the precondition traces of all candidates of one lookup and its outcome.
Both have a compact form for the log.
-/

namespace MathSpeech.Trace

/-- **What was evaluated.** -/
inductive Kind
  | query
  | constraint
  | other (name : Text)
deriving DecidableEq, Repr

/-- The name of a kind. -/
def Kind.name : Kind → Text
  | .query => "query"
  | .constraint => "constraint"
  | .other name => name

/-- The kind of a name. -/
def Kind.ofName (name : Text) : Kind :=
  if name = "query".toList then .query
  else if name = "constraint".toList then .constraint
  else .other name

/-- **One evaluation**: an expression, what it gave, and a remark. -/
structure Step where
  expression : Text
  kind : Kind
  result : Bool
  detail : Text := []
deriving DecidableEq, Repr

/-- The compact form of an evaluation. -/
def Step.compact (s : Step) : Text :=
  "  " ++ s.kind.name ++ " " ++ s.expression ++ ": "
    ++ (if s.result then "PASS".toList else "FAIL".toList)
    ++ (if s.detail.isEmpty then [] else ' ' :: '(' :: s.detail ++ [')'])

/-- **The trace of one precondition** on one node. -/
structure Precondition where
  key : Text
  index : Int := 0
  query : Text := []
  constraints : List Text := []
  steps : List Step := []
deriving DecidableEq, Repr

namespace Precondition

/-- Some query evaluation passed. -/
def queryMatched (p : Precondition) : Bool := p.steps.any fun s => s.kind = .query && s.result

/-- The constraints that failed, in order. -/
def failed (p : Precondition) : List Text :=
  (p.steps.filter fun s => s.kind = .constraint && !s.result).map Step.expression

/-- **The verdict of a trace**: the query matched and no constraint failed. -/
def matched (p : Precondition) : Bool := p.queryMatched && p.failed.isEmpty

/-- The compact form: a head line with the verdict, then a line for each evaluation. -/
def compact (p : Precondition) : Text :=
  let verdict : Text := if p.matched then "MATCH" else "NO MATCH"
  Text.joined "\n" <|
    ("[PRECONDITION] " ++ p.key ++ " #" ++ Text.ofInt p.index ++ ": " ++ verdict)
      :: p.steps.map Step.compact

end Precondition

/-- **The outcome of a lookup**; it is open until the lookup ends. -/
inductive Resolution
  | matched
  | noRule
  | open
deriving DecidableEq, Repr

/-- The name of an outcome. -/
def Resolution.name : Resolution → Text
  | .matched => "matched"
  | .noRule => "no_rule"
  | .open => "none"

/-- The outcome of a name. -/
def Resolution.ofName? (name : Text) : Option Resolution :=
  [Resolution.matched, .noRule, .open].find? fun r => r.name = name

/-- **The trace of a lookup.** -/
structure Lookup where
  node : Text := []
  domain : Text := []
  style : Text := []
  candidates : List Precondition := []
  selected : Option Text := none
  resolution : Resolution := .open
  ended : Bool := false
deriving DecidableEq, Repr

namespace Lookup

/-- The candidates whose precondition matched. -/
def matching (t : Lookup) : List Precondition := t.candidates.filter Precondition.matched

/-- The trace of a lookup that ended. -/
def close (t : Lookup) (selected : Option Text) (resolution : Resolution) : Lookup :=
  { t with selected, resolution, ended := true }

/-- The compact form: a head line with the outcome, then a line for each matching candidate. -/
def compact (t : Lookup) : Text :=
  let key : Text := match t.selected with
    | none | some [] => "N/A"
    | some key => key
  Text.joined "\n" <|
    ("[LOOKUP] " ++ t.node ++ " (" ++ t.domain ++ "." ++ t.style ++ ") -> " ++ key
        ++ " (" ++ t.resolution.name ++ ")")
      :: t.matching.map fun c =>
        "  " ++ c.key ++ " #" ++ Text.ofInt c.index
          ++ " (" ++ Text.ofNat c.constraints.length ++ " constraints)"

/-- The short form of the trace. -/
def summary (t : Lookup) : Text :=
  let selected : Text := match t.selected with
    | none => "None"
    | some key => key.quoted
  "LookupTrace(node=" ++ t.node.quoted ++ ", resolution=" ++ t.resolution.name
    ++ ", selected=" ++ selected ++ ", checked=" ++ Text.ofNat t.candidates.length ++ ")"

end Lookup

end MathSpeech.Trace
