import MathSpeech.Text
import MathSpeech.Text.Hidden

/-!
# Text/Quoted — a text between quotation marks

`Text.quoted` writes a text on one line with nothing hidden: between single quotes, or between
double quotes if the text holds single quotes only.  A backslash, the enclosing quote and every
hidden character are escaped, by name where there is one and else by code point.
-/

namespace MathSpeech.Text

/-- **The mark that encloses** a text: the double quote exactly if the text holds a single quote
and no double quote. -/
def enclosingMark (t : Text) : Char := if '\'' ∈ t ∧ '"' ∉ t then '"' else '\''

/-- A character by its code point, in two, four or eight digits. -/
def escapedCode (n : Nat) : Text :=
  if n < 0x100 then '\\' :: 'x' :: hexadecimal 2 n
  else if n < 0x10000 then '\\' :: 'u' :: hexadecimal 4 n
  else '\\' :: 'U' :: hexadecimal 8 n

/-- One character as it stands between two marks. -/
def escaped (mark c : Char) : Text :=
  if c = mark ∨ c = '\\' then ['\\', c]
  else if c = '\t' then ['\\', 't']
  else if c = '\n' then ['\\', 'n']
  else if c = '\r' then ['\\', 'r']
  else if isHidden c then escapedCode c.toNat
  else [c]

/-- **The quoted form** of a text. -/
def quoted (t : Text) : Text :=
  let mark := enclosingMark t
  mark :: t.flatMap (escaped mark) ++ [mark]

/-- A text without marks, backslashes and hidden characters is quoted as it is. -/
theorem quoted_plain {t : Text}
    (h : ∀ c ∈ t, c ≠ '\'' ∧ c ≠ '\\' ∧ isHidden c = false) :
    quoted t = '\'' :: t ++ ['\''] := by
  have hmark : enclosingMark t = '\'' := by
    have : '\'' ∉ t := fun hin => (h _ hin).1 rfl
    simp [enclosingMark, this]
  have hbody : ∀ s : Text, (∀ c ∈ s, c ≠ '\'' ∧ c ≠ '\\' ∧ isHidden c = false) →
      s.flatMap (escaped '\'') = s := by
    intro s hs
    induction s with
    | nil => rfl
    | cons c rest ih =>
      obtain ⟨hq, hb, hv⟩ := hs c (by simp)
      have ht : c ≠ '\t' := by rintro rfl; exact absurd hv (by decide)
      have hn : c ≠ '\n' := by rintro rfl; exact absurd hv (by decide)
      have hr : c ≠ '\r' := by rintro rfl; exact absurd hv (by decide)
      simp [List.flatMap_cons, escaped, hq, hb, ht, hn, hr, hv,
        ih fun d hd => hs d (by simp [hd])]
  simp [quoted, hmark, hbody t h]

end MathSpeech.Text
