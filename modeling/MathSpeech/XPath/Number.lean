import MathSpeech.Decimal.Read
import MathSpeech.Decimal.Rounded

/-!
# XPath/Number — numbers in expressions

The numbers of XPath are doubles.  This module reads a number from a text, writes it as a text and
has the operations that doubles lack: the remainder and the rounding of XPath.

* `Number.takeUnsigned?` — the number that a text begins with, as in an expression;
* `Number.ofText` — the number that a whole text stands for;
* `Number.toText` — the text of a number, with at most fifteen digits that count.
-/

namespace MathSpeech.XPath.Number

/-- The value that is not a number. -/
def nan : Float := 0.0 / 0.0

/-! ## Reading -/

/-- The blanks of XPath. -/
def isBlank (c : Char) : Bool := c = ' ' || c = '\t' || c = '\n' || c = '\r'

/-- The digits that a text begins with. -/
def leadingDigits (t : Text) : List Nat := (t.takeWhile Char.isDigit).filterMap Decimal.digit?

/-- Digits gathered from the left, in doubles. -/
def gather (ds : List Nat) : Float := ds.foldl (fun x d => x * 10 + Float.ofNat d) 0

/-- **A power of ten.**  Up to the twenty-second they are doubles. -/
def powerOfTen (n : Int) : Float :=
  if 0 ≤ n ∧ n ≤ 22 then Float.ofNat (Nat.pow 10 n.toNat) else Float.pow 10 (Float.ofInt n)

/-- **The fraction of digits behind a point**: at most twenty of them count, those after the zeros
at the beginning. -/
def fraction (ds : List Nat) : Float :=
  let zeros := (ds.takeWhile (· = 0)).length
  let counted := (ds.drop zeros).take 20
  gather counted / powerOfTen (zeros + counted.length)

/-- The exponent that a text begins with: an optional sign and digits, of which there may be none.
An exponent over a million grows no further. -/
def exponent (t : Text) : Int × Text :=
  let (negative, t) : Bool × Text := match t with
    | '-' :: rest => (true, rest)
    | '+' :: rest => (false, rest)
    | t => (false, t)
  let size : Nat :=
    (leadingDigits t).foldl (fun e d => if e < 1000000 then e * 10 + d else e) 0
  (if negative then -(size : Int) else size, t.dropWhile Char.isDigit)

/-- A number times the power of ten of the exponent part, if there is one. -/
def withPower (x : Float) : Text → Float × Text
  | 'e' :: rest | 'E' :: rest => let (power, rest) := exponent rest; (x * powerOfTen power, rest)
  | t => (x, t)

/-- **The unsigned number that a text begins with**, and the rest of the text.  Digits may lack on
one side of the point, but not on both. -/
def takeUnsigned? (t : Text) : Option (Float × Text) :=
  let whole := leadingDigits t
  let (places, rest) : Option (List Nat) × Text := match t.dropWhile Char.isDigit with
    | '.' :: rest => (some (leadingDigits rest), rest.dropWhile Char.isDigit)
    | rest => (none, rest)
  if whole.isEmpty && (places.getD []).isEmpty then none
  else
    let x := gather whole
    let x := match places with
      | some ds => x + fraction ds
      | none => x
    some (withPower x rest)

/-- **The number that a text stands for**: an unsigned number after an optional minus sign, with
blanks around it; any other text is not a number. -/
def ofText (t : Text) : Float :=
  let (negative, t) : Bool × Text := match t.dropWhile isBlank with
    | '-' :: rest => (true, rest)
    | rest => (false, rest)
  match takeUnsigned? t with
  | some (x, rest) => if rest.all isBlank then (if negative then -x else x) else nan
  | none => nan

/-! ## Writing -/

/-- A whole number strictly between the bounds of thirty-two bits. -/
def small? (x : Float) : Option Int :=
  if -2147483648 < x ∧ x < 2147483647 then
    let n := x.toInt64.toInt
    if Float.ofInt n == x then some n else none
  else none

/-- The positive ratio with fifteen digits and an exponent. -/
def scientific (r : Decimal.Ratio) : Text :=
  let d := Decimal.significant r 15
  Decimal.scientific d.digits d.exponent

/-- The number of places of a positive number that is not very large or small: fifteen digits, or
sixteen places below ten. -/
def places (x : Float) : Nat :=
  let size := x.log10.toInt64.toInt
  if 0 < size then (14 - size).toNat else (15 - size).toNat

/-- **The text of a number**: whole numbers have digits only, very large and very small ones an
exponent. -/
def toText (x : Float) : Text :=
  match Decimal.Binary.ofFloat x with
  | .notANumber => "NaN"
  | .infinite negative => if negative then "-Infinity" else "Infinity"
  | .finite negative m e =>
    if m = 0 then "0"
    else match small? x with
      | some n => Text.ofInt n
      | none =>
        let r := Decimal.Ratio.scaled m 2 e
        let size := x.abs
        let t := if 1e9 < size ∨ size < 1e-5 then scientific r
          else Decimal.withoutTrailingPlaces (Decimal.fixed r (places size))
        if negative then '-' :: t else t

/-! ## Arithmetic -/

/-- The double `± n · 2 ^ e`, where `n` has no more than fifty-three bits that count. -/
def scaled (negative : Bool) (n : Nat) (e : Int) : Float :=
  let extra := n.log2 - 60
  let x := Float.scaleB (Float.ofNat (n / Nat.pow 2 extra)) (e + extra)
  if negative then -x else x

/-- **The remainder** of a division whose quotient is cut to a whole number: it has the sign of the
dividend, and no remainder is lost.  Nothing can be divided by zero. -/
def remainder (x y : Float) : Float :=
  match Decimal.Binary.ofFloat x, Decimal.Binary.ofFloat y with
  | .finite negative m e, .finite _ n f =>
    if n = 0 then nan
    else
      let least := min e f
      scaled negative ((m * Nat.pow 2 (e - least).toNat) % (n * Nat.pow 2 (f - least).toNat)) least
  | .finite .., .infinite _ => x
  | _, _ => nan

/-- **Rounding to the nearest whole number**; a half goes up. -/
def round (x : Float) : Float :=
  if -0.5 ≤ x ∧ x < 0.5 then x * 0
  else if 0.5 ≤ x - x.floor then x.floor + 1 else x.floor

end MathSpeech.XPath.Number
