import MathSpeech.Text

/-!
# Decimal/Read — a double from its decimal text

`read?` reads an optional sign, digits with an optional point among them, and an optional exponent;
it also knows the names of the infinities and of the value that is not a number.  The result is the
double nearest to the decimal.
-/

namespace MathSpeech.Decimal

/-- The value of a decimal digit. -/
def digit? (c : Char) : Option Nat := if c.isDigit then some (c.toNat - '0'.toNat) else none

/-- The number that a text of digits stands for, in a base. -/
def ofDigits (base : Nat) (ds : List Nat) : Nat := ds.foldl (fun n d => n * base + d) 0

/-- A natural number in decimal digits; `none` if there is no digit or something else. -/
def nat? (t : Text) : Option Nat := do
  guard !t.isEmpty
  return ofDigits 10 (← t.mapM digit?)

/-- An integer: decimal digits after an optional sign. -/
def int? : Text → Option Int
  | '-' :: t => (nat? t).map fun n => -(n : Int)
  | '+' :: t => (nat? t).map fun n => (n : Int)
  | t => (nat? t).map fun n => (n : Int)

/-- **The double nearest to `n · 10 ^ e`.**  Beyond four hundred places on either side it is an
infinity or zero whatever the digits are, and no power is computed. -/
def nearest (n : Nat) (e : Int) : Float :=
  let size := Int.ofNat (Nat.toDigits 10 n).length
  if n = 0 ∨ e + size < -400 then 0
  else if 400 < e + size then 1.0 / 0.0
  else match e with
    | .ofNat k => Float.ofScientific n false k
    | .negSucc k => Float.ofScientific n true (k + 1)

/-- The double that an unsigned decimal stands for. -/
def unsigned? (t : Text) : Option Float := do
  let (significand, power) := match Text.cut 'e' t with
    | some (s, p) => (s, some p)
    | none => (t, none)
  let exponent ← match power with
    | some p => int? p
    | none => some 0
  let (whole, fraction) := (Text.cut '.' significand).getD (significand, [])
  let n ← nat? (whole ++ fraction)
  return nearest n (exponent - Int.ofNat fraction.length)

/-- **The double that a text stands for**, if it is a decimal or the name of a special value. -/
def read? (t : Text) : Option Float :=
  let special (t : Text) : Option Float :=
    if t = "inf" ∨ t = "infinity" then some (1.0 / 0.0)
    else if t = "nan" then some (0.0 / 0.0)
    else unsigned? t
  match t.map Text.small with
  | '-' :: rest => (special rest).map fun x => -x
  | '+' :: rest => special rest
  | rest => special rest

end MathSpeech.Decimal
