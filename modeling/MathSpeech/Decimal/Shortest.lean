import MathSpeech.Text
import MathSpeech.Decimal.Binary

/-!
# Decimal/Shortest — the fewest digits that read back

Every real number in a certain interval around a double is rounded to that double.  The **shortest
form** is a decimal in the interval with as few digits as possible, and of those the one nearest to
the double.  For each count of digits the two neighbours of the double on that decimal grid are
tried; if any point of the grid lies in the interval, so does one of the two.
-/

namespace MathSpeech.Decimal

/-- **Decimal digits**: the number `d₁.d₂d₃… · 10 ^ exponent`, without trailing zeros. -/
structure Digits where
  digits : Text
  exponent : Int
deriving DecidableEq, Repr

/-- The interval of a double `m · 2 ^ e`, in quarters of its last place: it reaches half a place up
and half a place down, or a quarter down where the doubles below lie twice as close.  Its ends count
exactly if `m` is even. -/
structure Interval where
  low : Ratio
  value : Ratio
  high : Ratio
  closed : Bool

/-- The interval of `m · 2 ^ e`. -/
def Interval.around (m : Nat) (e : Int) : Interval :=
  let down := if m = Nat.pow 2 52 ∧ e ≠ -1074 then 1 else 2
  { low := .scaled (4 * m - down) 2 (e - 2)
    value := .scaled (4 * m) 2 (e - 2)
    high := .scaled (4 * m + 2) 2 (e - 2)
    closed := m % 2 == 0 }

/-- A point of the interval. -/
def Interval.holds (i : Interval) (r : Ratio) : Bool :=
  if i.closed then i.low.le r && r.le i.high else !r.le i.low && !i.high.le r

/-- Twice the value lies at least as high as the sum `a + b`, so that `b` is no farther than `a`. -/
def Interval.nearerAbove (i : Interval) (places : Int) (a b : Nat) : Bool :=
  let v := i.value.timesTen places
  decide ((a + b) * v.den < 2 * v.num) || (decide ((a + b) * v.den = 2 * v.num) && b % 2 == 0)

/-- **The grid point with `count` digits** that lies in the interval, if there is one; of two, the
nearer one. -/
def Interval.gridPoint (i : Interval) (exponent : Int) (count : Nat) : Option Nat :=
  let places := Int.ofNat count - 1 - exponent
  let below := (i.value.timesTen places).floor
  let above := below + 1
  let fits (n : Nat) := i.holds ((Ratio.mk n 1).timesTen (-places))
  match fits below, fits above with
  | true, true => some (if i.nearerAbove places below above then above else below)
  | true, false => some below
  | false, true => some above
  | false, false => none

/-- Tries `count` digits, then one more, for `more` times. -/
def Interval.shortest (i : Interval) (exponent : Int) : Nat → Nat → Nat × Nat
  | 0, count => ((i.value.timesTen (Int.ofNat count - 1 - exponent)).round, count)
  | more + 1, count =>
    match i.gridPoint exponent count with
    | some n => (n, count)
    | none => i.shortest exponent more (count + 1)

/-- The digits without the zeros at their end. -/
def withoutTrailingZeros (t : Text) : Text :=
  match (t.reverse.dropWhile (· = '0')).reverse with
  | [] => ['0']
  | digits => digits

/-- **The shortest digits** of the positive double `m · 2 ^ e`: at most seventeen are needed. -/
def shortest (m : Nat) (e : Int) : Digits :=
  let i := Interval.around m e
  let exponent := i.value.exponent
  let (n, count) := i.shortest exponent 16 1
  let digits := Text.ofNat n
  -- a grid point may reach the next power of ten, with one digit more than asked for
  { digits := withoutTrailingZeros digits
    exponent := exponent + (Int.ofNat digits.length - Int.ofNat count) }

end MathSpeech.Decimal
