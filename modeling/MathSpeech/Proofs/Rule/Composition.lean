import MathSpeech.Proofs.Rule.Quotation
import MathSpeech.Rule.Action

/-!
# Proofs/Rule/Composition — a text in two parts says what its parts say

A semicolon outside strings cuts a text into two that are read apart.  What stands before it does
not change how the rest is cut (`cuts_append_cut`), so the segments are those of the first part and
then those of the second (`segments_append`), whatever blanks and separators the parts begin or end
with.  The action is therefore the one action behind the other, and a fault is that of the part it
is found in (`parse_append`).
-/

namespace MathSpeech.Rule

variable {separator : Char} {s t t₁ t₂ : Text}

/-- **The pieces on the two sides of a cut**: a separator behind balanced quotes is never inside a
string, and behind it the cutting starts anew. -/
theorem cuts_append_cut (hq : separator ≠ '"') (t : Text) :
    ∀ s, Balanced s → cuts separator false (s ++ separator :: t)
      = cuts separator false s ++ cuts separator false t := by
  -- along the cuts of the first part, whose last piece ends at the separator that is added
  refine cuts_induction (motive := fun s ps => Balanced s →
    cuts separator false (s ++ separator :: t) = ps ++ cuts separator false t) separator ?_ ?_
  · intro s hs hb
    rw [cuts_cut hb hs, List.singleton_append]
  · intro s rest hs hb ih hbal
    rw [List.append_assoc, List.cons_append, cuts_cut hb hs, ih ((balanced_of_cut hq hb).mp hbal),
      List.cons_append]

namespace Action

/-! ## Segments -/

/-- The pieces that are not blank, trimmed. -/
def filled (pieces : List Text) : List Text :=
  (pieces.map Text.trim).filter fun s => !s.isEmpty

theorem filled_append (ps qs : List Text) : filled (ps ++ qs) = filled ps ++ filled qs := by
  rw [filled, List.map_append, List.filter_append]
  rfl

/-- An empty piece at the end is passed over in any case. -/
theorem filled_withoutEmptyEnd (ps : List Text) : filled (withoutEmptyEnd ps) = filled ps := by
  induction ps with
  | nil => rfl
  | cons p ps ih =>
    cases ps with
    | nil =>
      rw [withoutEmptyEnd]
      split
      · rename_i hp
        rw [List.isEmpty_iff.mp hp]
        rfl
      · rfl
    | cons q ps =>
      rw [withoutEmptyEnd_cons (List.cons_ne_nil q ps), ← List.singleton_append, filled_append, ih,
        ← filled_append, List.singleton_append]

/-- **The segments of a text** are its pieces that are not blank. -/
theorem segments_eq (t : Text) :
    segments t
      = if Balanced t then .ok (filled (cuts ';' false t)) else .error (.openString t) := by
  rw [segments, split_eq (by decide)]
  split
  · exact congrArg Except.ok (filled_withoutEmptyEnd _)
  · rfl

/-- **The segments of two parts** are those of the first and then those of the second. -/
theorem segments_append (h : Balanced t₁) (t₂ : Text) :
    segments (t₁ ++ ';' :: t₂)
      = if Balanced t₂ then .ok (filled (cuts ';' false t₁) ++ filled (cuts ';' false t₂))
        else .error (.openString (t₁ ++ ';' :: t₂)) := by
  rw [segments_eq, cuts_append_cut (by decide) t₂ t₁ h, filled_append]
  simp only [balanced_of_cut (show ';' ≠ '"' by decide) h]

/-! ## Actions -/

/-- What is read from a balanced text is read from its segments, one component from each. -/
theorem parse_of_balanced (h : Balanced t) :
    parse t = ((filled (cuts ';' false t)).mapM Component.parse).map Action.mk := by
  rw [parse, segments_eq, if_pos h]

theorem parse_of_not_balanced (h : ¬Balanced t) : parse t = .error (.openString t) := by
  rw [parse, segments_eq, if_neg h]

/-- **Reading two parts** is reading the one and then the other. -/
theorem parse_append (h : Balanced t₁) (t₂ : Text) :
    parse (t₁ ++ ';' :: t₂)
      = if Balanced t₂ then do
          let a ← parse t₁
          let b ← parse t₂
          return ⟨a.components ++ b.components⟩
        else .error (.openString (t₁ ++ ';' :: t₂)) := by
  rw [parse, segments_append h]
  by_cases h₂ : Balanced t₂
  · rw [if_pos h₂, if_pos h₂, parse_of_balanced h, parse_of_balanced h₂]
    dsimp only
    rw [List.mapM_append]
    cases (filled (cuts ';' false t₁)).mapM Component.parse with
    | error fault => rfl
    | ok cs =>
      cases (filled (cuts ';' false t₂)).mapM Component.parse with
      | error fault => rfl
      | ok ds => rfl
  · rw [if_neg h₂, if_neg h₂]

/-- **Reading is compositional.**  If the strings of the first part are closed, a text of two parts
with a semicolon between them says something exactly if both parts do, and then the components of
the first part followed by those of the second.  Else it fails: with the fault of the first part, or
of the second if the first can be read; but a string that the second part leaves open is the fault
of the whole text. -/
theorem parse_two_parts (t₁ t₂ : Text) (h : Balanced t₁) :
    ((∃ a, parse (t₁ ++ ';' :: t₂) = .ok a) ↔ (∃ a, parse t₁ = .ok a) ∧ ∃ b, parse t₂ = .ok b)
      ∧ (∀ a b, parse t₁ = .ok a → parse t₂ = .ok b →
          parse (t₁ ++ ';' :: t₂) = .ok ⟨a.components ++ b.components⟩)
      ∧ (¬((∃ a, parse t₁ = .ok a) ∧ ∃ b, parse t₂ = .ok b) →
          ∃ fault, parse (t₁ ++ ';' :: t₂) = .error fault
            ∧ if Balanced t₂ then
                parse t₁ = .error fault ∨ (∃ a, parse t₁ = .ok a) ∧ parse t₂ = .error fault
              else fault = .openString (t₁ ++ ';' :: t₂)) := by
  rw [parse_append h]
  by_cases h₂ : Balanced t₂
  · rw [if_pos h₂]
    cases parse t₁ with
    | error fault => simp [bind, Except.bind, h₂]
    | ok a =>
      cases parse t₂ with
      | error fault => simp [bind, Except.bind, h₂]
      | ok b => simp [bind, Except.bind, pure, Except.pure]
  · rw [if_neg h₂, parse_of_not_balanced h₂]
    simp [h₂]

/-- A first part with a semicolon inside a string, which ends in separators. -/
def firstPart : Text := "[t] \"a;b\" ;;"

/-- A second part that begins with a blank segment. -/
def secondPart : Text := " ; [n] ./*[1] (p)"

theorem parse_two_parts_emptySegments :
    Balanced firstPart
      ∧ parse (firstPart ++ ';' :: secondPart) = .ok ⟨[
          { kind := .text, content := "\"a;b\"" },
          { kind := .node, content := "./*[1]"
            attributes := .ofList [("p".toList, "true".toList)] }]⟩ := by
  have h : Balanced firstPart := by decide +kernel
  obtain ⟨-, hcomponents, -⟩ := parse_two_parts firstPart secondPart h
  exact ⟨h, hcomponents ⟨[{ kind := .text, content := "\"a;b\"" }]⟩
    ⟨[{ kind := .node, content := "./*[1]"
        attributes := .ofList [("p".toList, "true".toList)] }]⟩
    (by decide +kernel) (by decide +kernel)⟩

end Action

end MathSpeech.Rule
