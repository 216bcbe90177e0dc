import MathSpeech.Evaluator
import MathSpeech.Rule.Precondition
import MathSpeech.Trace

/-!
# Selection — the rule that applies to a node

A precondition holds of a node if its query gives that very node and its constraints hold.  Of all
entries whose precondition holds the one with most constraints is selected, and of several such the
first.  Selection can be traced; then every constraint of every entry is evaluated, while plain
selection stops at the first that fails.
-/

namespace MathSpeech

open Rule (Precondition)

/-- **An entry**: a precondition and the key of the rule it leads to. -/
abbrev Entry := Precondition × Text

namespace Selection

variable {m : Type → Type} {ν : Type} [Monad m]

/-- All constraints hold; the first that fails ends the evaluation. -/
def allHold (ev : Evaluator m ν) (node : Option ν) : List Text → m Bool
  | [] => pure true
  | c :: rest => do if ← ev.holds node c then allHold ev node rest else pure false

/-- **A precondition holds** of a node. -/
def test [DecidableEq ν] (ev : Evaluator m ν) (node : Option ν) (p : Precondition) : m Bool := do
  if (← ev.query node p.query) = node then allHold ev node p.constraints else pure false

/-- The evaluation of each constraint, in order. -/
def traceConstraints (ev : Evaluator m ν) (node : Option ν) : List Text → m (List Trace.Step)
  | [] => pure []
  | c :: rest => do
    let result ← ev.holds node c
    return { expression := c, kind := .constraint, result } :: (← traceConstraints ev node rest)

/-- **The trace of a precondition** on a node: the query, then every constraint. -/
def trace [DecidableEq ν] (ev : Evaluator m ν) (node : Option ν) (p : Precondition) (key : Text)
    (index : Nat) : m Trace.Precondition := do
  let found ← ev.query node p.query
  let steps ← traceConstraints ev node p.constraints
  return {
    key, index, query := p.query, constraints := p.constraints
    steps := { expression := p.query, kind := .query, result := decide (found = node)
               detail := ev.labelOf found } :: steps }

/-- **The most constrained entry**; the first of several. -/
def mostConstrained : List Entry → Option Entry
  | [] => none
  | e :: rest =>
    match mostConstrained rest with
    | some best => if e.1.specificity < best.1.specificity then some best else some e
    | none => some e

/-- The entries whose precondition holds. -/
def applicable [DecidableEq ν] (ev : Evaluator m ν) (node : Option ν) :
    List Entry → m (List Entry)
  | [] => pure []
  | e :: rest => do
    if ← test ev node e.1 then return e :: (← applicable ev node rest)
    else applicable ev node rest

/-- **Selection**: the key of the most constrained entry that applies. -/
def select [DecidableEq ν] (ev : Evaluator m ν) (node : Option ν) (entries : List Entry) :
    m (Option Text) := do
  return (mostConstrained (← applicable ev node entries)).map Prod.snd

/-- The trace of each entry, numbered from `index`. -/
def traces [DecidableEq ν] (ev : Evaluator m ν) (node : Option ν) :
    Nat → List Entry → m (List Trace.Precondition)
  | _, [] => pure []
  | index, e :: rest => do
    return (← trace ev node e.1 e.2 index) :: (← traces ev node (index + 1) rest)

/-- The entries whose trace says that they match. -/
def matching (entries : List Entry) (traces : List Trace.Precondition) : List Entry :=
  ((entries.zip traces).filter fun (_, t) => t.matched).map Prod.fst

/-- The outcome that a trace gives for a selected key; an empty key counts as none. -/
def outcome (key : Option Text) : Trace.Resolution :=
  match key with
  | none | some [] => .noRule
  | some _ => .matched

/-- **Traced selection**: the selected key, and the lookup trace with all candidates. -/
def selectTraced [DecidableEq ν] (ev : Evaluator m ν) (node : Option ν) (entries : List Entry)
    (t : Trace.Lookup) : m (Option Text × Trace.Lookup) := do
  let candidates ← traces ev node 0 entries
  let key := (mostConstrained (matching entries candidates)).map Prod.snd
  return (key, { t with candidates := t.candidates ++ candidates }.close key (outcome key))

end Selection

end MathSpeech
