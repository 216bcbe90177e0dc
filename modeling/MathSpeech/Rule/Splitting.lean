import MathSpeech.Rule.Fault

/-!
# Rule/Splitting — cutting a text outside its strings

Rule texts are cut at semicolons, commas and brackets, but never inside a string between double
quotes.  `split` looks for the next separator; if the quotes before it are balanced it cuts there,
and else it goes on behind the quote that closes the string around the separator.  An empty piece at
the very end is left out.  The search ends because it always goes on with a shorter rest.
-/

namespace MathSpeech.Rule

/-- **Balanced quotes**: a text with an even number of double quotes. -/
def Balanced (t : Text) : Prop := t.count '"' % 2 = 0

instance (t : Text) : Decidable (Balanced t) := inferInstanceAs (Decidable (_ = _))

/-- **The pieces of `carried ++ rest`**, where `carried` is known to hold no cut; `none` if a string
is not closed. -/
def pieces? (separator : Char) (carried rest : Text) : Option (List Text) :=
  if rest.isEmpty then some (if carried.isEmpty then [] else [carried])
  else
    match _hcut : rest.cut separator with
    | none => if Balanced rest then some [carried ++ rest] else none
    | some (before, after) =>
      if Balanced before then
        (pieces? separator [] after).map ((carried ++ before) :: ·)
      else
        -- the separator stands inside a string, which the next quote closes
        match _hclose : Text.cut '"' (separator :: after) with
        | none => none
        | some (inside, after') =>
          pieces? separator (carried ++ before ++ inside ++ ['"']) after'
termination_by rest.length
decreasing_by
  · exact Text.length_lt_of_cut _hcut
  · have hlt := Text.length_lt_of_cut _hclose
    have heq := Text.eq_of_cut _hcut
    have : rest.length = before.length + (separator :: after).length := by rw [heq]; simp
    omega

/-- **The pieces of a text** between the separators outside its strings. -/
def split (separator : Char) (t : Text) : Except Fault (List Text) :=
  match pieces? separator [] t with
  | some pieces => .ok pieces
  | none => .error (.openString t)

end MathSpeech.Rule
