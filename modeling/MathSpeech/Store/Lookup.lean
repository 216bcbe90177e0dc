import MathSpeech.Store

/-!
# Store/Lookup — the action for a node

A lookup selects the key whose precondition fits the node best, and takes the action of its atom for
the domain and style asked for; an empty domain or style means the default of the store.  Nothing
is said about a missing node.  `Store.lookupTraced` does the same and tells how it came about.
-/

namespace MathSpeech

open Rule (Action)

namespace Store

variable {m : Type → Type} {ν : Type} [Monad m] [DecidableEq ν]

/-- **What a lookup brings about**: the action, if a rule applies, or a request that cannot be
resolved; and what it reports. -/
structure Found where
  action : Except Unresolved (Option Action)
  notices : List Notice := []

/-- The atom of a selected key. -/
def atomOf (s : Store) (key : Option Text) : Option Atom := key.bind s.atoms.get?

/-- **The atom of the rule that applies** to a node. -/
def retrieve (s : Store) (ev : Evaluator m ν) (node : Option ν) : m (Option Atom) := do
  return s.atomOf (← Selection.select ev node s.entries)

/-- A name, or the default if there is none or an empty one. -/
def orDefault (default : Text) : Option Text → Text
  | none | some [] => default
  | some name => name

/-- The answer of an atom to a request. -/
def answer (s : Store) (domain style : Text) : Option Atom → Found
  | none => { action := .ok none }
  | some atom =>
    { action := (atom.resolve domain style).map some
      notices := if s.debug then [.applied atom.key domain style] else [] }

/-- **The action for a node.** -/
def lookup (s : Store) (ev : Evaluator m ν) (node : Option ν) (domain style : Option Text) :
    m Found :=
  match node with
  | none => pure { action := .ok none }
  | some _ => do
    return s.answer (orDefault s.defaultDomain domain) (orDefault s.defaultStyle style)
      (← s.retrieve ev node)

/-- **The action for a node, and the trace of the lookup.** -/
def lookupTraced (s : Store) (ev : Evaluator m ν) (node : Option ν) (domain style : Option Text)
    (t : Trace.Lookup) : m (Found × Trace.Lookup) :=
  match node with
  | none => pure ({ action := .ok none }, t)
  | some _ => do
    let domain := orDefault s.defaultDomain domain
    let style := orDefault s.defaultStyle style
    let (key, t) ← Selection.selectTraced ev node s.entries
      { t with node := ev.labelOf node, domain, style }
    return (s.answer domain style (s.atomOf key), t)

/-- **The diagnosis of a key** on a node: the trace of each precondition that leads to the key. -/
def diagnose (s : Store) (ev : Evaluator m ν) (key : Text) (node : Option ν) :
    m (List Trace.Precondition) :=
  Selection.traces ev node 0 ((s.preconditionsFor key).map fun p => (p, key))

/-- What a diagnosis reports: the traces, if the store is to report what it does. -/
def diagnosisNotices (s : Store) (ts : List Trace.Precondition) : List Notice :=
  if s.debug then ts.map fun t => .dump t.compact else []

end Store

end MathSpeech
