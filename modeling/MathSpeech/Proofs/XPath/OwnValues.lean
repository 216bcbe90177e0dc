import MathSpeech.Proofs.XPath.Children
import MathSpeech.Proofs.XPath.Truth

/-!
# Proofs/XPath/OwnValues — what expressions say of the attributes of an element

An element has values under a local name: those of its attributes of that name in no namespace
(`Tree.ownValues`).  A constraint on the attribute holds if there is a value, an inequality if some
value is different, and as a text the attribute is the first value, or nothing.
-/

namespace MathSpeech.XPath

/-- The attributes of a tree. -/
def Tree.attributes : Tree → List (Name × Text)
  | .element _ _ attributes _ => attributes
  | _ => []

/-- **The own values** under a name: those of the attributes of that name in no namespace. -/
def Tree.ownValues (t : Tree) (label : Text) : List Text :=
  ((byName t.attributes).filter (·.1 = ([], label))).map Prod.snd

/-- The step to the attributes of a name. -/
def Expr.toOwn (label : Text) : Expr := .step .here .attribute (.name none label) []

variable {env : Environment} {focus : Focus} {t : Tree}

/-- **The own attributes have the own values.** -/
theorem map_text_attributes {n : Node} (h : n.content = .tree t) (label : Text) :
    (n.attributes.filter (matchesName .attribute [] label)).map Node.text = t.ownValues label := by
  have hattributes : n.content.attributes = t.attributes := by
    rw [h]
    cases t <;> rfl
  have hseen := congrArg (List.map Prod.fst) (map_seen_attributes n label)
  rw [List.map_map, List.map_map, hattributes] at hseen
  exact hseen

/-- **The step to own attributes** gives nodes that have the own values. -/
theorem Expr.exists_evaluate_toOwn (env : Environment) (h : focus.node.content = .tree t)
    (label : Text) :
    ∃ ns, (Expr.toOwn label).evaluate env focus = some (.nodes ns)
      ∧ ns.map Node.text = t.ownValues label ∧ ∀ n ∈ ns, ¬n.IsDocument := by
  refine ⟨_, evaluate_ownAttribute env focus label, map_text_attributes h label, ?_⟩
  rintro ⟨address, content⟩ hn ⟨children, rfl⟩
  obtain ⟨hprincipal, -⟩ := Bool.and_eq_true_iff.mp (List.mem_filter.mp hn).2
  cases hprincipal

/-- **An attribute as a constraint** holds if there is a value. -/
theorem Expr.exists_evaluate_toOwn_holds (h : focus.node.content = .tree t) (label : Text) :
    ∃ x, (Expr.toOwn label).evaluate env focus = some x
      ∧ x.result.holds = !(t.ownValues label).isEmpty := by
  obtain ⟨ns, hvalue, htexts, hdocuments⟩ := exists_evaluate_toOwn env h label
  refine ⟨_, hvalue, ?_⟩
  rw [Object.holds_result_nodes hdocuments, ← htexts]
  cases ns <;> rfl

/-- **An attribute differs from a text** if some value does. -/
theorem Expr.evaluate_toOwn_unequal (h : focus.node.content = .tree t) (label u : Text) :
    (Expr.compare .unequal (.toOwn label) (.literal u)).evaluate env focus
      = some (.boolean ((t.ownValues label).any fun v => v ≠ u)) := by
  obtain ⟨ns, hvalue, htexts, -⟩ := exists_evaluate_toOwn env h label
  have hsingles : Object.singles ns = (t.ownValues label).map .text := by
    rw [← htexts, List.map_map]
    rfl
  have hunequal : (fun x => Object.compareSingle .unequal x (.text u)) ∘ Object.text
      = fun v => decide (v ≠ u) := funext fun _ => decide_not.symm
  rw [evaluate_compare hvalue rfl .unequal, Object.compare, hsingles, List.any_map]
  · rw [hunequal]
  · intro _ h
    cases h
  · intro _ h
    cases h

/-- **An attribute as a text** is the first value, or nothing. -/
theorem Expr.evaluate_stringOwn (h : focus.node.content = .tree t) (label : Text) :
    (Expr.call none "string" [.toOwn label]).evaluate env focus
      = some (.text ((t.ownValues label).head?.getD [])) := by
  obtain ⟨ns, hvalue, htexts, -⟩ := exists_evaluate_toOwn env h label
  have hname : Function.ofName? "string" = some .string := rfl
  have htext : (Object.nodes ns).toText = (t.ownValues label).head?.getD [] := by
    rw [← htexts]
    cases ns <;> rfl
  rw [Expr.evaluate, Expr.evaluateAll, Expr.evaluateAll, hvalue, hname, ← htext]
  rfl

/-- The text of an attribute against another text. -/
theorem Expr.evaluate_stringOwn_equal (h : focus.node.content = .tree t) (label u : Text) :
    (Expr.compare .equal (.call none "string" [.toOwn label]) (.literal u)).evaluate env focus
      = some (.boolean ((t.ownValues label).head?.getD [] = u)) := by
  rw [evaluate_compare (evaluate_stringOwn h label) rfl .equal]
  rfl

/-- The number of characters in the text of an attribute. -/
theorem Expr.evaluate_stringOwn_length (h : focus.node.content = .tree t) (label : Text) {k : Nat}
    (hk : k < 2 ^ 53) :
    (Expr.compare .equal (.call none "string-length" [.call none "string" [.toOwn label]])
        (.number (Float.ofNat k))).evaluate env focus
      = some (.boolean (((t.ownValues label).head?.getD []).length = k)) := by
  have hname : Function.ofName? "string-length" = some .stringLength := rfl
  have hlength : (Expr.call none "string-length" [.call none "string" [.toOwn label]]).evaluate env
      focus = some (.number (Float.ofNat ((t.ownValues label).head?.getD []).length)) := by
    rw [Expr.evaluate, Expr.evaluateAll, Expr.evaluateAll, evaluate_stringOwn h label, hname]
    rfl
  rw [evaluate_compare hlength rfl .equal]
  exact congrArg (fun b => some (Object.boolean b)) (Decimal.ofNat_beq_ofNat (.inr hk))

end MathSpeech.XPath
