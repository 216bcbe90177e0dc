import MathSpeech.Text
import Mathlib.Data.List.TakeWhile

/-!
# Proofs/Text/Trim — trimming takes the blanks off the two ends

A text is its trimmed form between two blanks (`exists_eq_trim`), and blanks put around a text do
not change that form (`trim_append_append`).  From these two facts the rest follows: trimming twice
is trimming once, and a text is trimmed exactly when it neither begins nor ends with a blank.
-/

namespace MathSpeech.Text

variable {c d : Char} {s t l r : Text}

/-! ## Blanks -/

@[simp] theorem blank_nil : Blank [] := fun _ h => absurd h List.not_mem_nil

@[simp] theorem blank_append : Blank (s ++ t) ↔ Blank s ∧ Blank t := by
  simp only [Blank, List.forall_mem_append]

@[simp] theorem blank_cons : Blank (c :: t) ↔ isBlank c = true ∧ Blank t := by
  simp only [Blank, List.forall_mem_cons]

theorem blank_space : Blank [' '] := blank_cons.mpr ⟨rfl, blank_nil⟩

@[simp] theorem blank_reverse : Blank t.reverse ↔ Blank t := by
  simp only [Blank, List.mem_reverse]

/-- A character that is seen does not occur in a blank. -/
theorem Blank.notMem (ht : Blank t) (hc : isBlank c = false) : c ∉ t := fun hm => by
  rw [ht c hm] at hc
  exact Bool.noConfusion hc

/-! ## One end -/

/-- **The end is the beginning read backwards.** -/
theorem trimEnd_eq (t : Text) : t.trimEnd = (trimStart t.reverse).reverse := rfl

/-- A text is a blank and what is left of it without the blanks it begins with. -/
theorem exists_eq_trimStart (t : Text) : ∃ l, Blank l ∧ t = l ++ t.trimStart :=
  ⟨t.takeWhile isBlank, fun _ h => List.mem_takeWhile_imp h, List.takeWhile_append_dropWhile.symm⟩

theorem exists_eq_trimEnd (t : Text) : ∃ r, Blank r ∧ t = t.trimEnd ++ r := by
  obtain ⟨l, hl, h⟩ := exists_eq_trimStart t.reverse
  refine ⟨l.reverse, blank_reverse.mpr hl, ?_⟩
  rw [trimEnd_eq, ← List.reverse_append, ← h, List.reverse_reverse]

/-- Blanks in front do not count. -/
theorem trimStart_append (hl : Blank l) (t : Text) : trimStart (l ++ t) = t.trimStart :=
  List.dropWhile_append_of_pos hl

/-- …nor do those at the end. -/
theorem trimEnd_append (hr : Blank r) (t : Text) : trimEnd (t ++ r) = t.trimEnd := by
  rw [trimEnd_eq, List.reverse_append, trimStart_append (blank_reverse.mpr hr), ← trimEnd_eq]

/-- What is left behind the blanks at the end has none there. -/
theorem trimEnd_trimEnd (t : Text) : t.trimEnd.trimEnd = t.trimEnd := by
  obtain ⟨r, hr, ht⟩ := exists_eq_trimEnd t
  rw [← trimEnd_append hr t.trimEnd, ← ht]

@[simp] theorem trimStart_nil : trimStart [] = [] := rfl

/-- A text that begins with a character that is seen is left as it is. -/
theorem trimStart_cons (hc : isBlank c = false) (t : Text) : trimStart (c :: t) = c :: t :=
  List.dropWhile_cons_of_neg (by rw [hc]; exact Bool.false_ne_true)

/-- …and so is one that ends with such a character. -/
theorem trimEnd_concat (hd : isBlank d = false) (t : Text) : trimEnd (t ++ [d]) = t ++ [d] := by
  rw [trimEnd_eq, List.reverse_append, List.reverse_singleton, List.singleton_append,
    trimStart_cons hd, List.reverse_cons, List.reverse_reverse]

theorem trimStart_eq_nil_iff : t.trimStart = [] ↔ Blank t := List.dropWhile_eq_nil_iff

/-- What is left begins with a character that is seen. -/
theorem isBlank_of_trimStart (h : t.trimStart = c :: s) : isBlank c = false := by
  have hne : t.dropWhile isBlank ≠ [] := fun h' => List.cons_ne_nil c s (h.symm.trans h')
  have hhead := List.head_dropWhile_not isBlank hne
  simpa only [show t.dropWhile isBlank = c :: s from h, List.head_cons] using hhead

/-! ## Both ends -/

/-- **A text is its trimmed form between two blanks.** -/
theorem exists_eq_trim (t : Text) : ∃ l r, Blank l ∧ Blank r ∧ t = l ++ t.trim ++ r := by
  obtain ⟨l, hl, hstart⟩ := exists_eq_trimStart t
  obtain ⟨r, hr, hend⟩ := exists_eq_trimEnd t.trimStart
  refine ⟨l, r, hl, hr, ?_⟩
  rw [trim, List.append_assoc, ← hend, ← hstart]

/-- What does not occur in a text does not occur in its trimmed form. -/
theorem notMem_trim (h : c ∉ t) : c ∉ t.trim := fun hm => by
  obtain ⟨l, r, -, -, ht⟩ := exists_eq_trim t
  refine h ?_
  rw [ht]
  exact List.mem_append_left _ (List.mem_append_right _ hm)

/-- **Blanks around a text do not change its trimmed form.** -/
theorem trim_append_append (hl : Blank l) (hr : Blank r) (t : Text) :
    trim (l ++ t ++ r) = t.trim := by
  rw [trim, trim, List.append_assoc, trimStart_append hl]
  by_cases ht : Blank t
  · rw [trimStart_eq_nil_iff.mpr (blank_append.mpr ⟨ht, hr⟩), trimStart_eq_nil_iff.mpr ht]
  · -- the blanks in front end inside `t`, so that `r` stays behind what is left of it
    have hne : (t.dropWhile isBlank).isEmpty = false := by
      rw [List.isEmpty_eq_false_iff]
      exact fun h => ht (trimStart_eq_nil_iff.mp h)
    have hstart : trimStart (t ++ r) = t.trimStart ++ r := by
      rw [trimStart, List.dropWhile_append, hne]
      rfl
    rw [hstart, trimEnd_append hr]

theorem trim_blank_append (hl : Blank l) (t : Text) : trim (l ++ t) = t.trim := by
  simpa only [List.append_nil] using trim_append_append hl blank_nil t

theorem trim_append_blank (hr : Blank r) (t : Text) : trim (t ++ r) = t.trim := by
  simpa only [List.nil_append] using trim_append_append blank_nil hr t

/-- The blanks in front may go first. -/
theorem trim_trimStart (t : Text) : t.trimStart.trim = t.trim := by
  obtain ⟨l, hl, ht⟩ := exists_eq_trimStart t
  rw [← trim_blank_append hl t.trimStart, ← ht]

/-- A text that is blank at its two ends trims to what stands between. -/
@[simp] theorem trim_trim (t : Text) : t.trim.trim = t.trim := by
  obtain ⟨l, r, hl, hr, ht⟩ := exists_eq_trim t
  rw [← trim_append_append hl hr t.trim, ← ht]

theorem trim_eq_nil_iff : t.trim = [] ↔ Blank t := by
  constructor
  · intro h
    obtain ⟨l, r, hl, hr, ht⟩ := exists_eq_trim t
    rw [ht, h, List.append_nil]
    exact blank_append.mpr ⟨hl, hr⟩
  · intro h
    rw [trim, trimStart_eq_nil_iff.mpr h]
    rfl

/-- **A text between two characters that are seen is trimmed.** -/
theorem trim_cons_append (hc : isBlank c = false) (hd : isBlank d = false) (t : Text) :
    trim (c :: t ++ [d]) = c :: t ++ [d] := by
  rw [trim, List.cons_append, trimStart_cons hc, ← List.cons_append, trimEnd_concat hd]

theorem length_trim_le (t : Text) : t.trim.length ≤ t.length := by
  obtain ⟨l, r, -, -, ht⟩ := exists_eq_trim t
  have hlen := congrArg List.length ht
  rw [List.length_append, List.length_append] at hlen
  omega

/-- A trimmed text begins with a character that is seen: a blank would go, and shorten the text. -/
theorem isBlank_of_trim_eq_cons (h : trim (c :: t) = c :: t) : isBlank c = false := by
  by_contra hc
  have hb : Blank [c] := blank_cons.mpr ⟨by simpa using hc, blank_nil⟩
  have hlen : t.trim.length = t.length + 1 := by
    rw [← trim_blank_append hb t, List.singleton_append, h, List.length_cons]
  have := length_trim_le t
  omega

/-- …and ends with one. -/
theorem isBlank_of_trim_eq_append (h : trim (t ++ [c]) = t ++ [c]) : isBlank c = false := by
  by_contra hc
  have hb : Blank [c] := blank_cons.mpr ⟨by simpa using hc, blank_nil⟩
  have hlen : t.trim.length = t.length + 1 := by
    rw [← trim_append_blank hb t, h, List.length_append, List.length_singleton]
  have := length_trim_le t
  omega

/-- **A text that begins with a character that is seen** is its trimmed form before a blank. -/
theorem exists_eq_trim_cons (hc : isBlank c = false) (t : Text) :
    ∃ r, Blank r ∧ c :: t = trim (c :: t) ++ r := by
  obtain ⟨l, r, hl, hr, ht⟩ := exists_eq_trim (c :: t)
  cases l with
  | nil => exact ⟨r, hr, ht⟩
  | cons b l =>
    obtain ⟨rfl, -⟩ := List.cons.inj ht
    rw [(blank_cons.mp hl).1] at hc
    exact Bool.noConfusion hc

/-- What is trimmed still begins with that character. -/
theorem exists_trim_cons (hc : isBlank c = false) (t : Text) : ∃ s, trim (c :: t) = c :: s := by
  obtain ⟨r, hr, ht⟩ := exists_eq_trim_cons hc t
  cases hs : trim (c :: t) with
  | nil =>
    rw [hs, List.nil_append] at ht
    exact absurd (ht ▸ List.mem_cons_self) (hr.notMem hc)
  | cons b s =>
    rw [hs] at ht
    obtain ⟨rfl, -⟩ := List.cons.inj ht
    exact ⟨s, rfl⟩

end MathSpeech.Text
