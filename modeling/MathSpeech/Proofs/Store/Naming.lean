import MathSpeech.Store

/-!
# Proofs/Store/Naming — the names of domains and styles

A domain and a style are given in one text with a point between them, or apart.  Both ways admit the
same pairs: each side has to be a **name**, which says something and has no point in it
(`Store.splitDomain?_eq_some_iff`, `Store.validPair_iff`).
-/

namespace MathSpeech

namespace Text

variable {mark : Char} {t a b : Text}

/-! ## The parts of a text -/

theorem parts_of_notMem (h : mark ∉ t) : parts mark t = [t] := by
  induction t with
  | nil => rfl
  | cons c rest ih =>
    rw [List.mem_cons, not_or] at h
    rw [parts, if_neg (Ne.symm h.1), ih h.2]

theorem parts_append (h : mark ∉ a) (t : Text) :
    parts mark (a ++ mark :: t) = a :: parts mark t := by
  induction a with
  | nil => exact if_pos rfl
  | cons c rest ih =>
    rw [List.mem_cons, not_or] at h
    rw [List.cons_append, parts, if_neg (Ne.symm h.1), ih h.2]

/-- **Names without a mark** are the parts of the text that joins them by it. -/
theorem parts_joined {names : List Text} (hne : names ≠ []) (h : ∀ name ∈ names, mark ∉ name) :
    parts mark (joined [mark] names) = names := by
  induction names with
  | nil => exact absurd rfl hne
  | cons name rest ih =>
    obtain ⟨hname, hrest⟩ := List.forall_mem_cons.mp h
    cases rest with
    | nil => rw [joined, List.intercalate_singleton, parts_of_notMem hname]
    | cons next rest =>
      have hrest := ih (List.cons_ne_nil next rest) hrest
      rw [joined] at hrest ⊢
      rw [List.intercalate_cons_cons, List.append_assoc, List.singleton_append,
        parts_append hname, hrest]

/-- **The parts of a text**, read off its first cut. -/
theorem parts_eq (mark : Char) (t : Text) :
    parts mark t = (cut mark t).elim [t] fun pair => pair.1 :: parts mark pair.2 := by
  cases hcut : cut mark t with
  | none => exact parts_of_notMem (cut_eq_none_iff.mp hcut)
  | some pair =>
    exact (congrArg (parts mark) (eq_of_cut hcut)).trans (parts_append (notMem_of_cut hcut) pair.2)

theorem parts_ne_nil (mark : Char) (t : Text) : parts mark t ≠ [] := by
  rw [parts_eq]
  cases cut mark t <;> exact List.cons_ne_nil _ _

theorem parts_eq_singleton_iff : parts mark t = [a] ↔ t = a ∧ mark ∉ a := by
  constructor
  · intro h
    rw [parts_eq] at h
    cases hcut : cut mark t with
    | none =>
      rw [hcut] at h
      obtain rfl : t = a := List.singleton_inj.mp h
      exact ⟨rfl, cut_eq_none_iff.mp hcut⟩
    | some pair =>
      rw [hcut] at h
      exact absurd (List.cons.inj h).2 (parts_ne_nil mark pair.2)
  · rintro ⟨rfl, h⟩
    exact parts_of_notMem h

/-- **A text has two parts** exactly when its mark occurs once, between them. -/
theorem parts_eq_pair_iff :
    parts mark t = [a, b] ↔ t = a ++ mark :: b ∧ mark ∉ a ∧ mark ∉ b := by
  constructor
  · intro h
    rw [parts_eq] at h
    cases hcut : cut mark t with
    | none =>
      rw [hcut] at h
      cases h
    | some pair =>
      rw [hcut] at h
      obtain ⟨rfl, hrest⟩ := List.cons.inj h
      obtain ⟨rfl, hb⟩ := parts_eq_singleton_iff.mp hrest
      exact ⟨eq_of_cut hcut, notMem_of_cut hcut, hb⟩
  · rintro ⟨rfl, ha, hb⟩
    rw [parts_append ha, parts_of_notMem hb]

end Text

namespace Store

/-! ## Names -/

/-- **A name** of a domain or style: it says something, and no point is in it. -/
def IsName (t : Text) : Prop := t ≠ [] ∧ '.' ∉ t

instance (t : Text) : Decidable (IsName t) := inferInstanceAs (Decidable (_ ∧ _))

variable {domain style : Text}

/-- **A text names a domain and a style** exactly when it is their two names, joined by a point. -/
theorem splitDomain?_eq_some_iff {t : Text} :
    splitDomain? t = some (domain, style)
      ↔ t = joinDomain domain style ∧ IsName domain ∧ IsName style := by
  constructor
  · intro h
    rw [splitDomain?] at h
    split at h
    · rename_i a b hparts
      obtain ⟨rfl, ha, hb⟩ := Text.parts_eq_pair_iff.mp hparts
      split at h
      · cases h
      · rename_i hfilled
        obtain ⟨rfl, rfl⟩ : a = domain ∧ b = style := Prod.mk.inj (Option.some.inj h)
        rw [Bool.or_eq_true, not_or, List.isEmpty_iff, List.isEmpty_iff] at hfilled
        exact ⟨rfl, ⟨hfilled.1, ha⟩, ⟨hfilled.2, hb⟩⟩
    · cases h
  · rintro ⟨rfl, ⟨hdomain, ha⟩, ⟨hstyle, hb⟩⟩
    have hparts : Text.parts '.' (joinDomain domain style) = [domain, style] :=
      Text.parts_eq_pair_iff.mpr ⟨rfl, ha, hb⟩
    have hfilled : ¬(domain.isEmpty || style.isEmpty) = true := by
      rw [Bool.or_eq_true, not_or, List.isEmpty_iff, List.isEmpty_iff]
      exact ⟨hdomain, hstyle⟩
    simp only [splitDomain?, hparts, if_neg hfilled]

/-- A domain and a style that are given apart can be used exactly when both are names. -/
theorem validPair_iff : validPair domain style = true ↔ IsName domain ∧ IsName style := by
  simp only [validPair, IsName, Bool.not_eq_true', Bool.or_eq_false_iff, List.isEmpty_eq_false_iff,
    decide_eq_false_iff_not]
  constructor
  · rintro ⟨⟨⟨hdomain, hstyle⟩, ha⟩, hb⟩
    exact ⟨⟨hdomain, ha⟩, ⟨hstyle, hb⟩⟩
  · rintro ⟨⟨hdomain, ha⟩, ⟨hstyle, hb⟩⟩
    exact ⟨⟨⟨hdomain, hstyle⟩, ha⟩, hb⟩

end Store

end MathSpeech
