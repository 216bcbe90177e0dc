import MathSpeech.Proofs.XPath.Cache
import MathSpeech.Proofs.XPath.ContextFree

/-!
# Proofs/XPath/Truth — constraints and the truth of their values

A constraint holds of an element if its value is true, in the sense in which the function `boolean`
takes it: a node set that is not empty, a text that is not empty, a number other than zero, or the
truth value itself (`Object.IsTrue`).  There is one exception.  The document itself is no item of a
result, so a node set that has nothing else is true as a value and yet the constraint does not hold
(`Setting.holds_iff_isTrue`).  Whatever a query finds, the same expression holds as a constraint.
-/

namespace MathSpeech.XPath

/-! ## Truth -/

/-- **What is true**: what is not empty, not zero and a number at all. -/
def Object.IsTrue : Object → Prop
  | .nodes ns => ns ≠ []
  | .boolean b => b = true
  | .number x => (x == 0) = false ∧ x.isNaN = false
  | .text t => t ≠ []

theorem Object.toBoolean_iff {x : Object} : x.toBoolean = true ↔ x.IsTrue := by
  cases x with
  | nodes ns => cases ns <;> simp [toBoolean, IsTrue]
  | boolean b => rfl
  | number x => simp [toBoolean, IsTrue, bne]
  | text t => cases t <;> simp [toBoolean, IsTrue]

/-- **The value of a call of `boolean`** is the truth of the argument. -/
theorem Expr.evaluate_boolean {env : Environment} {e : Expr} {focus : Focus} {x : Object}
    (h : e.evaluate env focus = some x) :
    (Expr.call none "boolean" [e]).evaluate env focus = some (.boolean x.toBoolean) := by
  have hname : Function.ofName? "boolean" = some .boolean := rfl
  rw [Expr.evaluate, Expr.evaluateAll, Expr.evaluateAll, h, hname]
  rfl

/-! ## Documents among the nodes -/

/-- **The document itself**, as a node. -/
def Node.IsDocument (n : Node) : Prop := ∃ children, n.content = .document children

theorem Node.item?_eq_none_iff {n : Node} : n.item? = none ↔ n.IsDocument := by
  obtain ⟨address, content⟩ := n
  cases content with
  | document children => exact iff_of_true rfl ⟨children, rfl⟩
  | tree t => cases t <;> exact iff_of_false nofun nofun
  | _ => exact iff_of_false nofun nofun

/-- **A node set without items**: it has no nodes but documents. -/
def Object.IsBare (x : Object) : Prop := ∃ ns, x = .nodes ns ∧ ∀ n ∈ ns, n.IsDocument

theorem Object.not_isBare {x : Object} (h : x.nodes? = none) : ¬x.IsBare := by
  rintro ⟨ns, rfl, -⟩
  cases h

theorem Object.isBare_nodes_iff {ns : List Node} :
    (nodes ns).IsBare ↔ ns.filterMap Node.item? = [] := by
  have hitems : ns.filterMap Node.item? = [] ↔ ∀ n ∈ ns, n.IsDocument :=
    List.filterMap_eq_nil_iff.trans (forall₂_congr fun _ _ => Node.item?_eq_none_iff)
  rw [hitems]
  constructor
  · rintro ⟨_, ⟨⟩, h⟩
    exact h
  · exact fun h => ⟨ns, rfl, h⟩

/-- A value that is no node set is a result as it is. -/
theorem Object.holds_result {x : Object} (h : x.nodes? = none) :
    x.result.holds = x.toBoolean := by
  cases x with
  | nodes ns => cases h
  | _ => rfl

/-- **The truth of a result** is that of the value, unless this is a node set without items. -/
theorem Object.holds_result_iff {x : Object} :
    x.result.holds = true ↔ x.IsTrue ∧ ¬x.IsBare := by
  cases x with
  | nodes ns =>
    have hholds : (Object.nodes ns).result.holds = !(ns.filterMap Node.item?).isEmpty := rfl
    rw [hholds, Bool.not_eq_true', List.isEmpty_eq_false_iff, isBare_nodes_iff]
    refine (and_iff_right_of_imp ?_).symm
    rintro hsome rfl
    exact hsome rfl
  | boolean | number | text =>
    rw [holds_result (by rfl), toBoolean_iff, and_iff_left (by exact not_isBare rfl)]

/-- Of nodes that are no documents the truth is left as it is. -/
theorem Object.holds_result_nodes {ns : List Node} (h : ∀ n ∈ ns, ¬n.IsDocument) :
    (nodes ns).result.holds = !ns.isEmpty := by
  have hbare : ns ≠ [] → ¬(nodes ns).IsBare := by
    rintro hne ⟨_, ⟨⟩, hdocuments⟩
    obtain ⟨n, hn⟩ := List.exists_mem_of_ne_nil ns hne
    exact h n hn (hdocuments n hn)
  rw [Bool.eq_iff_iff, holds_result_iff, Bool.not_eq_true', List.isEmpty_eq_false_iff]
  exact and_iff_left_of_imp hbare

/-- A result with a first item holds. -/
theorem Result.holds_of_first? {r : Result} {i : Item} (h : r.first? = some i) :
    r.holds = true := by
  cases r with
  | items is =>
    cases is with
    | nil => cases h
    | cons => rfl
  | _ => cases h

/-! ## Constraints -/

/-- **A constraint holds if its value is true**, unless this is a node set that has no nodes but the
document.  An expression that can be read, and has a value at an element, is asked about there by
an evaluator with any namespaces and custom queries, none of them under the name of the expression,
and whatever has been read before.  The verdict is what a call of `boolean` gives, but for that
exception; and whatever the expression finds as a query, it holds as a constraint. -/
theorem Setting.holds_iff_isTrue {s : Setting} {a : Address} {t : Tree}
    (hnode : s.environment.document.nodeAt? a = some ⟨a, .tree t⟩) (ht : t.IsElement) {c : Text}
    (hcustom : s.custom.lookup c = none) (hc : s.accept c = .ok ()) {e : Expr}
    (hparse : Expr.parse c = some e) {x : Object}
    (hx : e.evaluate s.environment ⟨⟨a, .tree t⟩, none⟩ = some x) :
    ∃ truth verdict found,
      (Expr.call none "boolean" [e]).evaluate s.environment ⟨⟨a, .tree t⟩, none⟩
          = some (.boolean truth)
        ∧ (truth = true ↔ x.IsTrue)
        ∧ Cached.Gives _ (s.cachedEvaluator.holds (some (.node a)) c) (.ok verdict)
        ∧ (verdict = true ↔ truth = true ∧ ¬x.IsBare)
        ∧ Cached.Gives _ (s.cachedEvaluator.query (some (.node a)) c) (.ok found)
        ∧ (found.isSome = true → verdict = true) := by
  have hcached := Cached.alike_evaluator s
  have hresult : s.result (some (.node a)) c = .ok (some x.result) := by
    match t, ht with
    | .element .., _ =>
      rw [Setting.result_of_hasElement hnode hc, hparse, Option.bind_some, hx]
      rfl
  have hholds : s.evaluator.holds (some (.node a)) c = .ok x.result.holds := by
    simp only [evaluator, evaluatorWith, hcustom]
    rw [hresult]
    rfl
  have hquery : s.evaluator.query (some (.node a)) c = .ok x.result.first? := by
    simp only [evaluator, evaluatorWith, hcustom]
    rw [hresult]
    rfl
  refine ⟨_, _, _, Expr.evaluate_boolean hx, Object.toBoolean_iff, hholds ▸ hcached.holds _ _, ?_,
    hquery ▸ hcached.query _ _, fun hfound => ?_⟩
  · rw [Object.holds_result_iff, Object.toBoolean_iff]
  · obtain ⟨i, hi⟩ := Option.isSome_iff_exists.mp hfound
    exact Result.holds_of_first? hi

/-- A bold letter. -/
def letter : Tree := .element (.plain "mi") [] [(.plain "mathvariant", "bold")] [.text "x"]

/-- The setting of an evaluator for a document whose element is a bold letter. -/
def letterSetting : Setting where
  environment := { document := ⟨[letter]⟩, spaces := .empty }
  custom := .customQueries

theorem holds_iff_isTrue_letterSetting :
    ∃ e ns, Expr.parse "..|@mathvariant" = some e
      ∧ e.evaluate letterSetting.environment ⟨⟨[.child 0], .tree letter⟩, none⟩ = some (.nodes ns)
      ∧ (∃ n ∈ ns, n.IsDocument) ∧ ¬(Object.nodes ns).IsBare
      ∧ ((letterSetting.cachedEvaluator.holds (some (.node [.child 0]))
          "..|@mathvariant").run.run .empty).run.1 = .ok true := by
  have haccept : letterSetting.accept "..|@mathvariant" = .ok () := rfl
  obtain ⟨e, hparse⟩ : ∃ e, Expr.parse "..|@mathvariant" = some e := ⟨_, rfl⟩
  let ns : List Node := [letterSetting.environment.document.node,
    ⟨[.child 0, .attribute 0], .attribute (.plain "mathvariant") "bold"⟩]
  have hvalue : e.evaluate letterSetting.environment ⟨⟨[.child 0], .tree letter⟩, none⟩
      = some (.nodes ns) := by
    cases hparse
    rfl
  have hbare : ¬(Object.nodes ns).IsBare := fun h => by cases Object.isBare_nodes_iff.mp h
  have hnode : letterSetting.environment.document.nodeAt? [.child 0]
      = some ⟨[.child 0], .tree letter⟩ := rfl
  obtain ⟨truth, verdict, found, -, htruth, hholds, hverdict, -⟩ :=
    Setting.holds_iff_isTrue hnode trivial rfl haccept hparse hvalue
  obtain rfl : verdict = true := hverdict.mpr ⟨htruth.mpr (List.cons_ne_nil _ _), hbare⟩
  exact ⟨e, ns, hparse, hvalue, ⟨_, List.mem_cons_self, _, rfl⟩, hbare, hholds.run_empty⟩

/-- **A constraint is not always the truth of its value**: the document is there, so `boolean` is
true of it, but the constraint does not hold. -/
theorem not_holds_of_isTrue_root :
    ∃ e, Expr.parse "/" = some e
      ∧ (Expr.call none "boolean" [e]).evaluate letterSetting.environment
          ⟨⟨[.child 0], .tree letter⟩, none⟩ = some (.boolean true)
      ∧ ((letterSetting.cachedEvaluator.holds (some (.node [.child 0])) "/").run.run
          .empty).run.1 = .ok false :=
  ⟨.root, rfl, rfl, rfl⟩

end MathSpeech.XPath
