import MathSpeech.Text

/-!
# Evaluator — who answers queries and constraints

The rule engine never looks into a node.  It asks an **evaluator** two questions: which node a query
selects, seen from a node, and whether a constraint holds there.  The answers come in a monad, so
that an evaluator may fail, keep a cache or be watched; an evaluator in `Id` is a pair of functions.

* `Evaluator.lift` — a pure evaluator in any monad;
* `Evaluator.recorded` — the evaluator that also writes down every question it is asked.
-/

namespace MathSpeech

/-- **An evaluator** of expressions on nodes; no node is a node reference too. -/
structure Evaluator (m : Type → Type) (ν : Type) where
  /-- The node that a query selects first. -/
  query : Option ν → Text → m (Option ν)
  /-- Whether a constraint holds. -/
  holds : Option ν → Text → m Bool
  /-- A short name of a node for traces. -/
  label : ν → Text

/-- **A question** put to an evaluator. -/
inductive Question
  | query (expression : Text)
  | constraint (expression : Text)
deriving DecidableEq, Repr

namespace Evaluator

variable {m : Type → Type} {ν : Type}

/-- The label of a node reference. -/
def labelOf (ev : Evaluator m ν) : Option ν → Text
  | none => "None"
  | some node => ev.label node

/-- A pure evaluator in a monad. -/
def lift [Monad m] (ev : Evaluator Id ν) : Evaluator m ν where
  query node e := pure (ev.query node e)
  holds node e := pure (ev.holds node e)
  label := ev.label

/-- **The evaluator that keeps a record**: the questions asked so far are the state, in order. -/
def recorded (ev : Evaluator Id ν) : Evaluator (StateM (List Question)) ν where
  query node e := do modify (· ++ [.query e]); return ev.query node e
  holds node e := do modify (· ++ [.constraint e]); return ev.holds node e
  label := ev.label

end Evaluator

/-- A label of at most forty characters: longer texts keep thirty-seven and three dots. -/
def abbreviated (t : Text) : Text := if t.length ≤ 40 then t else t.take 37 ++ "..."

end MathSpeech
