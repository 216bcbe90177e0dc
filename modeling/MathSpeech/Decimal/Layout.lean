import MathSpeech.Decimal.Shortest

/-!
# Decimal/Layout — how the digits of a double are laid out

A **layout** fixes what the shortest digits leave open: which numbers are written positionally,
whether a whole number keeps a fraction, how zero and the special values are written.
`Layout.write` writes a double in a layout.
-/

namespace MathSpeech.Decimal

/-- **A layout** of the digits of a double. -/
structure Layout where
  /-- The least and the greatest exponent that are written positionally. -/
  least : Int := -4
  greatest : Int := 15
  /-- Whole numbers with a smaller exponent are written without a fraction. -/
  wholeBelow : Int := -1
  /-- Whether zero shows its sign. -/
  signedZero : Bool := true
  notANumber : Text
  infinite : Text

/-- Digits with the point after the first of them, and then the exponent in two digits or more. -/
def scientific (digits : Text) (exponent : Int) : Text :=
  let mantissa := match digits with
    | [] => []
    | [d] => [d]
    | d :: rest => d :: '.' :: rest
  let size := Text.ofNat exponent.natAbs
  mantissa ++ 'e' :: (if exponent < 0 then '-' else '+')
    :: (if size.length < 2 then '0' :: size else size)

/-- Digits with the point where `exponent` puts it. -/
def positional (digits : Text) (exponent : Int) (fraction : Text) : Text :=
  match exponent with
  | .negSucc k => '0' :: '.' :: List.replicate k '0' ++ digits
  | .ofNat k =>
    let whole := digits.take (k + 1)
    let rest := digits.drop (k + 1)
    if rest.isEmpty then whole ++ List.replicate (k + 1 - whole.length) '0' ++ fraction
    else whole ++ '.' :: rest

/-- **The text of a double** in a layout. -/
def Layout.write (l : Layout) (x : Float) : Text :=
  let signed (negative : Bool) (t : Text) := if negative then '-' :: t else t
  match Binary.ofFloat x with
  | .notANumber => l.notANumber
  | .infinite negative => signed negative l.infinite
  | .finite negative 0 _ =>
    signed (negative && l.signedZero) (if 0 < l.wholeBelow then ['0'] else ['0', '.', '0'])
  | .finite negative m e =>
    let d := shortest m e
    signed negative <|
      if l.least ≤ d.exponent ∧ d.exponent ≤ l.greatest then
        positional d.digits d.exponent (if d.exponent < l.wholeBelow then [] else ['.', '0'])
      else scientific d.digits d.exponent

end MathSpeech.Decimal
