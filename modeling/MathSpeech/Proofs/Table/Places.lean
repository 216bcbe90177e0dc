import MathSpeech.Proofs.Table.Choice
import MathSpeech.Proofs.XPath.Sameness

/-!
# Proofs/Table/Places — constraints on the elements at places

The constraints of the bundled table on exponents and scripts are about the element at a place among
those below.  One form of them is shared: the element at the place has the text of an element with a
name, which says that it is that element, or would sound like it (`Table.affirms_isLike`).
-/

namespace MathSpeech.Table

open XPath (Document Address Tree Setting Expr)

/-- The element at a place, as constraints refer to it. -/
def elementAt (place : Nat) : Text := ("./*[" : Text) ++ Nat.toDigits 10 place ++ ("]" : Text)

/-- The constraint that the element at a place has the text of an element with a name. -/
def isLike (label : Text) (place : Nat) : Text :=
  ("./mathml:" : Text) ++ label ++ ("=" : Text) ++ elementAt place

/-- **The likenesses** that the bundled table asks for. -/
def likenesses : List (Text × Nat) :=
  [("mrow", 2), ("mrow", 3), ("none", 2), ("none", 3), ("mprescripts", 4), ("none", 5), ("none", 6)]

theorem parse_isLike : ∀ x ∈ likenesses, (1 ≤ x.2 ∧ x.2 < 2 ^ 53)
    ∧ Expr.parse (isLike x.1 x.2)
      = some (.compare .equal (.toNamed x.1) (Expr.here.toPlace x.2 [])) := by
  decide

section

variable {d : Document} {a : Address} {t : Tree}

/-- **A likeness is affirmed** if the element at the place has the text of the name. -/
theorem affirms_isLike {label : Text} {place : Nat} (h : (label, place) ∈ likenesses) :
    (defaultSetting d).affirms ⟨a, .tree t⟩ (isLike label place)
      = t.hasTextOf Settings.mathmlNamespace label place := by
  obtain ⟨hplace, hparse⟩ := parse_isLike _ h
  exact Setting.affirms_of_boolean hparse
    (Expr.evaluate_hasTextOf rfl (binds_defaultSetting d).space? label hplace)

end

end MathSpeech.Table
