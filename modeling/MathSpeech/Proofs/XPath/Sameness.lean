import MathSpeech.XPath.Parser

/-!
# Proofs/XPath/Sameness — equality of expressions can be decided

Two expressions are the same if they are built alike from the same parts (`Expr.same`), and then
they are equal (`Expr.same_iff`).  So what reading a given text gives can be computed and compared.
-/

namespace MathSpeech.XPath

mutual

/-- **The same expression**, compared part by part. -/
def Expr.same : Expr → Expr → Bool
  | .number x, .number y => x = y
  | .literal t, .literal u => t = u
  | .variable space label, .variable space' label' => space = space' && label = label'
  | .here, .here => true
  | .root, .root => true
  | .step start axis test predicates, .step start' axis' test' predicates' =>
    start.same start' && axis = axis' && test = test' && Expr.allSame predicates predicates'
  | .group e, .group e' => e.same e'
  | .filter base predicate, .filter base' predicate' =>
    base.same base' && predicate.same predicate'
  | .union a b, .union a' b' => a.same a' && b.same b'
  | .or a b, .or a' b' => a.same a' && b.same b'
  | .and a b, .and a' b' => a.same a' && b.same b'
  | .compare c a b, .compare c' a' b' => c = c' && a.same a' && b.same b'
  | .arithmetic o a b, .arithmetic o' a' b' => o = o' && a.same a' && b.same b'
  | .signed minus e, .signed minus' e' => minus = minus' && e.same e'
  | .call space label arguments, .call space' label' arguments' =>
    space = space' && label = label' && Expr.allSame arguments arguments'
  | _, _ => false

/-- The same expressions, one by one. -/
def Expr.allSame : List Expr → List Expr → Bool
  | [], [] => true
  | e :: es, e' :: es' => e.same e' && Expr.allSame es es'
  | _, _ => false

end

mutual

theorem Expr.eq_of_same {e e' : Expr} (h : e.same e' = true) : e = e' := by
  unfold same at h
  split at h
  all_goals try simp only [Bool.and_eq_true, decide_eq_true_eq] at h
  · rw [h]
  · rw [h]
  · rw [h.1, h.2]
  · rfl
  · rfl
  · obtain ⟨⟨⟨hstart, haxis⟩, htest⟩, hpredicates⟩ := h
    rw [eq_of_same hstart, haxis, htest, eq_of_allSame hpredicates]
  · rw [eq_of_same h]
  · rw [eq_of_same h.1, eq_of_same h.2]
  · rw [eq_of_same h.1, eq_of_same h.2]
  · rw [eq_of_same h.1, eq_of_same h.2]
  · rw [eq_of_same h.1, eq_of_same h.2]
  · rw [h.1.1, eq_of_same h.1.2, eq_of_same h.2]
  · rw [h.1.1, eq_of_same h.1.2, eq_of_same h.2]
  · rw [h.1, eq_of_same h.2]
  · rw [h.1.1, h.1.2, eq_of_allSame h.2]
  · cases h

theorem Expr.eq_of_allSame {es es' : List Expr} (h : Expr.allSame es es' = true) : es = es' := by
  unfold allSame at h
  split at h
  · rfl
  · obtain ⟨hfirst, hrest⟩ := Bool.and_eq_true_iff.mp h
    rw [eq_of_same hfirst, eq_of_allSame hrest]
  · cases h

end

mutual

theorem Expr.same_self : ∀ e : Expr, e.same e = true
  | .number _ | .literal _ | .variable _ _ | .here | .root => by simp [same]
  | .step start _ _ predicates => by simp [same, start.same_self, allSame_self predicates]
  | .group e | .signed _ e => by simp [same, e.same_self]
  | .filter a b | .union a b | .or a b | .and a b | .compare _ a b | .arithmetic _ a b => by
    simp [same, a.same_self, b.same_self]
  | .call _ _ arguments => by simp [same, allSame_self arguments]

theorem Expr.allSame_self : ∀ es : List Expr, Expr.allSame es es = true
  | [] => rfl
  | e :: rest => by rw [allSame, e.same_self, allSame_self rest]; rfl

end

/-- **Expressions that are the same are equal.** -/
theorem Expr.same_iff {e e' : Expr} : e.same e' = true ↔ e = e' :=
  ⟨eq_of_same, fun h => h ▸ e.same_self⟩

instance : DecidableEq Expr := fun _ _ => decidable_of_iff _ Expr.same_iff

end MathSpeech.XPath
