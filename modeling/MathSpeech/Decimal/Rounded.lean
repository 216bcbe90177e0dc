import MathSpeech.Decimal.Layout

/-!
# Decimal/Rounded — a double in a given number of digits

`fixed` writes a positive double with a given number of places, `significant` with a given number
of digits and an exponent; both round the exact value to the nearest decimal, a half to even.
-/

namespace MathSpeech.Decimal

/-- **Fixed places**: the ratio rounded to `places` digits behind the point. -/
def fixed (r : Ratio) (places : Nat) : Text :=
  let digits := Text.ofNat (r.timesTen places).round
  let padded := List.replicate (places + 1 - digits.length) '0' ++ digits
  let whole := padded.take (padded.length - places)
  if places = 0 then whole else whole ++ '.' :: padded.drop (padded.length - places)

/-- **Significant digits**: the positive ratio rounded to `count` digits, with its exponent.
Rounding may reach the next power of ten. -/
def significant (r : Ratio) (count : Nat) : Digits :=
  let exponent := r.exponent
  let digits := Text.ofNat (r.timesTen (Int.ofNat count - 1 - exponent)).round
  { digits := withoutTrailingZeros digits
    exponent := exponent + (Int.ofNat digits.length - Int.ofNat count) }

/-- A decimal without zeros at the end of its fraction, and without a point at its end. -/
def withoutTrailingPlaces (t : Text) : Text :=
  if '.' ∈ t then ((t.reverse.dropWhile (· = '0')).dropWhile (· = '.')).reverse else t

end MathSpeech.Decimal
