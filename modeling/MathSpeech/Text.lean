/-!
# Text — a text is the list of its characters

Lengths and positions count code points, so a **text** is a list of characters.  The operations are
the few that the rule language and its tables need:

* `Text.cut` — the part before the first occurrence of a character, and the part after it;
* `Text.parts` — the parts between all occurrences of a character;
* `Text.trim` — a text without the blanks at its ends, where the blanks are those of Unicode.
-/

namespace MathSpeech

/-- **A text**: its characters in order. -/
abbrev Text := List Char

instance : Coe String Text := ⟨String.toList⟩

namespace Text

/-! ## Cutting at a character -/

/-- **The first cut**: the text before the first `mark` and the text after it, if `mark` occurs. -/
def cut (mark : Char) : Text → Option (Text × Text)
  | [] => none
  | c :: rest =>
    if c = mark then some ([], rest)
    else (cut mark rest).map fun (before, after) => (c :: before, after)

/-- A cut loses only its mark. -/
theorem eq_of_cut {mark : Char} {t before after : Text} (h : cut mark t = some (before, after)) :
    t = before ++ mark :: after := by
  induction t generalizing before after with
  | nil => simp [cut] at h
  | cons c rest ih =>
    simp only [cut] at h
    split at h
    · grind
    · simp only [Option.map_eq_some_iff, Prod.exists, Prod.mk.injEq] at h
      obtain ⟨b, a, hcut, rfl, rfl⟩ := h
      simp [ih hcut]

/-- **A cut shortens**: what follows the mark is shorter than the text. -/
theorem length_lt_of_cut {mark : Char} {t before after : Text}
    (h : cut mark t = some (before, after)) : after.length < t.length := by
  rw [eq_of_cut h]
  simp
  omega

/-- No cut is possible exactly when the mark does not occur. -/
theorem cut_eq_none_iff {mark : Char} {t : Text} : cut mark t = none ↔ mark ∉ t := by
  induction t with
  | nil => simp [cut]
  | cons c rest ih =>
    simp only [cut]
    split
    · simp_all
    · simp only [Option.map_eq_none_iff, ih, List.mem_cons, not_or]
      grind

/-- The mark does not occur before the first cut. -/
theorem notMem_of_cut {mark : Char} {t before after : Text}
    (h : cut mark t = some (before, after)) : mark ∉ before := by
  induction t generalizing before after with
  | nil => simp [cut] at h
  | cons c rest ih =>
    simp only [cut] at h
    split at h
    · grind
    · simp only [Option.map_eq_some_iff, Prod.exists, Prod.mk.injEq] at h
      obtain ⟨b, a, hcut, rfl, rfl⟩ := h
      have := ih hcut
      grind

/-- **The first cut is at the mark** behind a text without it. -/
theorem cut_append {mark : Char} {s : Text} (h : mark ∉ s) (t : Text) :
    cut mark (s ++ mark :: t) = some (s, t) := by
  induction s with
  | nil => exact if_pos rfl
  | cons c s ih =>
    rw [List.mem_cons, not_or] at h
    rw [List.cons_append, cut, if_neg (Ne.symm h.1), ih h.2]
    rfl

/-- **All parts** of a text between the occurrences of `mark`; there is always at least one. -/
def parts (mark : Char) : Text → List Text
  | [] => [[]]
  | c :: rest =>
    if c = mark then [] :: parts mark rest
    else match parts mark rest with
      | [] => [[c]]
      | first :: others => (c :: first) :: others

/-- The texts of a list, one after the other, with `separator` between two of them. -/
def joined (separator : Text) (ts : List Text) : Text := separator.intercalate ts

/-- **The order of texts**: that of the first characters that differ, and a text comes before its
continuations. -/
def atMost : Text → Text → Bool
  | [], _ => true
  | _ :: _, [] => false
  | c :: s, d :: t => if c = d then atMost s t else decide (c.val < d.val)

/-! ## Blanks -/

/-- **The blanks of Unicode**: the characters that separate words without being seen, and the four
information separators.  The zero width space is not one of them. -/
def isBlank (c : Char) : Bool :=
  let n := c.toNat
  (9 ≤ n && n ≤ 13) || (28 ≤ n && n ≤ 32) || n == 0x85 || n == 0xA0 || n == 0x1680
    || (0x2000 ≤ n && n ≤ 0x200A) || n == 0x2028 || n == 0x2029 || n == 0x202F || n == 0x205F
    || n == 0x3000

/-- The text without the blanks it begins with. -/
def trimStart (t : Text) : Text := t.dropWhile isBlank

/-- The text without the blanks it ends with. -/
def trimEnd (t : Text) : Text := (t.reverse.dropWhile isBlank).reverse

/-- The text without the blanks at its two ends. -/
def trim (t : Text) : Text := trimEnd (trimStart t)

/-- A text of blanks only, the empty one among them. -/
def Blank (t : Text) : Prop := ∀ c ∈ t, isBlank c = true

instance (t : Text) : Decidable (Blank t) := inferInstanceAs (Decidable (∀ c ∈ t, _))

/-! ## Numbers in a text -/

/-- The decimal digits of a natural number. -/
def ofNat (n : Nat) : Text := Nat.toDigits 10 n

/-- The decimal digits of an integer, after a minus sign if it is negative. -/
def ofInt : Int → Text
  | .ofNat n => ofNat n
  | .negSucc n => '-' :: ofNat (n + 1)

/-- The digits of `n` in base sixteen, filled up with zeros to `width`. -/
def hexadecimal (width n : Nat) : Text :=
  let digits := Nat.toDigits 16 n
  List.replicate (width - digits.length) '0' ++ digits

/-! ## Letters -/

/-- The small letter of a capital letter of the Latin alphabet; other characters stay. -/
def small (c : Char) : Char := c.toLower

/-- **The capital letter of a character**, where that capital is a letter of the Latin alphabet.
Besides `a` to `z` two small letters have such a capital: the dotless i and the long s. -/
def capital (c : Char) : Char :=
  if c = 'ı' then 'I' else if c = 'ſ' then 'S' else c.toUpper

end Text

end MathSpeech
